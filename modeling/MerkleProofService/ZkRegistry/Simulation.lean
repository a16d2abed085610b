/-
Module: MerkleProofService.ZkRegistry.Simulation
Layer: ZkRegistry
Purpose: Leaf operations and their simulation (`internal/zkregistry/operations_buffer.go` and the
  second half of `sparse_tree.go`).  A simulation applies a list of operations to an overlay of
  the storage, one leaf at a time, and returns for each the index it used and the path of that
  index just before the operation.
Imports: ZkRegistry.SparseTree
Trusted boundary: human-reviewed spec
Main exports: Operation, LeafOperation, SimulationBatch, makeSimKey, BatchProofResult,
  SparseMerkleTree.createProofWithBatch, SparseMerkleTree.simulateBatchOperations
-/
import MerkleProofService.ZkRegistry.SparseTree

namespace MerkleProofService

open Library

/-- `Operation`; every other code takes the default branches. -/
inductive Operation where
  | addition
  | revocation
  | unknown (code : UInt8)
deriving DecidableEq, Repr

structure LeafOperation where
  leaf : TreeLeaf
  op : Operation
deriving DecidableEq, Repr

structure BatchProofResult where
  index : TreeLeafIndex
  path : List U256
deriving DecidableEq, Repr

/-- `SimulationBatch`: what was set during the simulation, over the storage it started from. -/
structure SimulationBatch where
  storage : TreeLeafGetter
  buffer : Store String U256

def newSimulationBatch (storage : TreeLeafGetter) : SimulationBatch where
  storage := storage
  buffer := ∅

def makeSimKey (level : TreeLevel) (index : TreeLeafIndex) : String :=
  s!"{level.toNat}:{index.toNat}"

namespace SimulationBatch

def getLeaf (s : SimulationBatch) (level : TreeLevel) (index : TreeLeafIndex) : Read U256 :=
  match s.buffer.lookup (makeSimKey level index) with
  | some value => .done value
  | none => s.storage.getLeaf level index

def setLeaf (s : SimulationBatch) (level : TreeLevel) (index : TreeLeafIndex)
    (value : U256) : Except GoError SimulationBatch :=
  .ok { s with buffer := s.buffer.insert (makeSimKey level index) value }

instance : TreeLeafGetterSetter SimulationBatch where
  getLeaf := SimulationBatch.getLeaf
  setLeaf := SimulationBatch.setLeaf

end SimulationBatch

namespace SparseMerkleTree

variable (poseidon : PoseidonHash) (tree : SparseMerkleTree)
variable {Buffer : Type} [TreeLeafGetterSetter Buffer]

/-- The loop of `findEmptyLeafIndexInSimulation`, with the draws left over. -/
def findEmptyLeafIndexLoop (batch : Buffer) :
    Nat → Stream' UInt64 → Read (TreeLeafIndex × Stream' UInt64)
  | 0, _ => .fail (.message "could not find an empty leaf index")
  | maxIterations + 1, draws => do
      Read.ctxDone
      let index ← .ofExcept (tree.leafIndexOfDraw draws.head)
      let leaf ← Read.wrapf "get leaf"
        (tree.getLeafFromBatchOrStorage poseidon batch 0 index)
      if leaf = tree.emptyLeaf then return (index, draws.tail)
      else findEmptyLeafIndexLoop batch maxIterations draws.tail

def findEmptyLeafIndexInSimulation (batch : Buffer) (draws : Stream' UInt64) :
    Read (TreeLeafIndex × Stream' UInt64) :=
  tree.findEmptyLeafIndexLoop poseidon batch maxIterationsEmptyLeafProof draws

/-- The scan of `findLeafByValueInSimulation` from leaf number `i` on, `count` leaves of it.
A leaf that cannot be read is skipped. -/
def findLeafByValueLoop (batch : Buffer) (value : U256) :
    Nat → UInt64 → Read TreeLeafIndex
  | 0, _ => .fail (.message "leaf with value not found")
  | count + 1, i => do
      Read.ctxDone
      match ← (tree.getLeafFromBatchOrStorage poseidon batch 0 i.toUInt32).tryRun with
      | .error _ => findLeafByValueLoop batch value count (i + 1)
      | .ok leaf =>
          if leaf = value then return i.toUInt32
          else findLeafByValueLoop batch value count (i + 1)

def findLeafByValueInSimulation (batch : Buffer) (value : U256) : Read TreeLeafIndex :=
  tree.findLeafByValueLoop poseidon batch value tree.maxLeaves.toNat 0

/-- The loop of `createProofWithBatch`: the sibling on each of `count` levels upwards. -/
def createProofWithBatchPath (batch : Buffer) :
    Nat → TreeLevel → TreeLeafIndex → Read (List U256)
  | 0, _, _ => return []
  | count + 1, level, pathIndex => do
      Read.ctxDone
      let element ← Read.wrapf s!"retrieve sibling at level {level}"
        (tree.getLeafFromBatchOrStorage poseidon batch level (pathIndex ^^^ 1))
      let path ← createProofWithBatchPath batch count (level + 1) (pathIndex / 2)
      return element :: path

def createProofWithBatch (batch : Buffer) (index : TreeLeafIndex) : Read MerkleProof := do
  let leaf ← Read.wrapf "retrieve leaf"
    (tree.getLeafFromBatchOrStorage poseidon batch 0 index)
  let pathElements ← tree.createProofWithBatchPath poseidon batch tree.depth.toNat 0 index
  let root ← Read.wrapf "get root"
    (tree.getLeafFromBatchOrStorage poseidon batch tree.depth 0)
  return { leaf := leaf, path := pathElements, index := index, root := root }

/-- One round of the loop of `SimulateBatchOperations`: operation number `i` on the overlay,
with the proof it stores, the overlay it leaves and the draws left over. -/
def simulateOperation (i : Nat) (op : LeafOperation) (simulationBatch : SimulationBatch)
    (draws : Stream' UInt64) :
    Read (BatchProofResult × SimulationBatch × Stream' UInt64) := do
  Read.ctxDone
  match op.op with
  | .addition =>
      let (leafIndex, draws) ← Read.wrapf s!"find empty leaf index for operation {i}"
        (tree.findEmptyLeafIndexInSimulation poseidon simulationBatch draws)
      let proof ← Read.wrapf s!"create proof for addition at index {leafIndex}"
        (tree.createProofWithBatch poseidon simulationBatch leafIndex)
      if proof.leaf ≠ tree.emptyLeaf then
        .fail (.message s!"leaf at index {leafIndex} is not empty")
      else
        let simulationBatch ← Read.wrapf s!"insert leaf at index {leafIndex}"
          (tree.insertLeaf poseidon simulationBatch leafIndex op.leaf.value)
        return ({ index := leafIndex, path := proof.path }, simulationBatch, draws)
  | .revocation =>
      let leafIndex ← Read.wrapf s!"find leaf for revocation {i}"
        (tree.findLeafByValueInSimulation poseidon simulationBatch op.leaf.value)
      let proof ← Read.wrapf s!"create proof for revocation at index {leafIndex}"
        (tree.createProofWithBatch poseidon simulationBatch leafIndex)
      if proof.leaf ≠ op.leaf.value then
        .fail (.message s!"leaf at index {leafIndex} does not match expected value")
      else
        let simulationBatch ← Read.wrapf s!"revoke leaf at index {leafIndex}"
          (tree.insertLeaf poseidon simulationBatch leafIndex tree.emptyLeaf)
        return ({ index := leafIndex, path := proof.path }, simulationBatch, draws)
  | .unknown code => .fail (.message s!"unknown operation type: {code}")

/-- The loop of `SimulateBatchOperations` from operation number `i` on, with the overlay it
ends with. -/
def simulateOperations (i : Nat) : List LeafOperation → SimulationBatch → Stream' UInt64 →
    Read (List BatchProofResult × SimulationBatch)
  | [], simulationBatch, _ => return ([], simulationBatch)
  | op :: operations, simulationBatch, draws => do
      let (proof, simulationBatch, draws) ←
        tree.simulateOperation poseidon i op simulationBatch draws
      let (proofs, simulationBatch) ←
        simulateOperations (i + 1) operations simulationBatch draws
      return (proof :: proofs, simulationBatch)

/-- `SimulateBatchOperations` with the overlay it discards at the end. -/
def simulateBatchOverlay (operations : List LeafOperation) (draws : Stream' UInt64) :
    Read (U256 × List BatchProofResult × SimulationBatch) := do
  let initialRoot ← Read.wrapf "get initial root" (tree.getRoot poseidon)
  let (proofs, simulationBatch) ← tree.simulateOperations poseidon 0 operations
    (newSimulationBatch tree.storageLeafGetter) draws
  return (initialRoot, proofs, simulationBatch)

def simulateBatchOperations (operations : List LeafOperation) (draws : Stream' UInt64) :
    Read (U256 × List BatchProofResult) := do
  let (initialRoot, proofs, _) ← tree.simulateBatchOverlay poseidon operations draws
  return (initialRoot, proofs)

end SparseMerkleTree

end MerkleProofService
