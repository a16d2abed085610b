/-
Module: MerkleProofService.ZkRegistry.SliceInsertion
Layer: ZkRegistry
Purpose: `InsertLeaves` (`internal/zkregistry/sparse_tree.go`) on slices: the leaves of a level are
  read from a backing array, and from the second level on their parents are appended to the same
  array.  Beside it stands the same loop with a new slice for every level.  A call keeps the batch
  and the arrays it has reached also where it returns an error, and with them the history of the
  leaves that were visited and of the nodes that were written.
Imports: ZkRegistry.SparseTree, Library.Slices, Library.StatefulPrograms
Trusted boundary: human-reviewed spec
Main exports: InsertState, InsertRun, SparseMerkleTree.insertRange,
  SparseMerkleTree.insertLeavesReusing, SparseMerkleTree.insertLeavesAllocating
-/
import MerkleProofService.ZkRegistry.SparseTree
import MerkleProofService.Library.Slices
import MerkleProofService.Library.StatefulPrograms

namespace MerkleProofService

open Library

/-- The zero value of `TreeLeaf`.  Its `Value` is a nil pointer; no element is read that was not
appended before, so zero may stand for it. -/
instance : Inhabited TreeLeaf := ⟨⟨0, 0⟩⟩

/-- A call of `InsertLeaves` in progress.  `visited` are the leaves the loop of a level came to and
`written` the nodes that `SetLeaf` took, each with its level. -/
structure InsertState (Buffer Memory : Type) where
  batch : Buffer
  memory : Memory
  visited : List (TreeLevel × TreeLeaf)
  written : List (TreeLevel × TreeLeaf)

/-- The state in which `InsertLeaves` is called. -/
def InsertState.start {Buffer Memory : Type} (batch : Buffer) (memory : Memory) :
    InsertState Buffer Memory :=
  ⟨batch, memory, [], []⟩

/-- A part of a run of `InsertLeaves`. -/
abbrev InsertRun (Buffer Memory : Type) :=
  Stateful ReadQuery ReadAnswer GoError (InsertState Buffer Memory)

namespace InsertRun

variable {Buffer Memory : Type}

/-- `batch.SetLeaf`, its error wrapped in `text`. -/
def setLeaf [TreeLeafGetterSetter Buffer] (text : String) (level : TreeLevel) (leaf : TreeLeaf) :
    InsertRun Buffer Memory Unit := do
  let batch ← Stateful.ofProgram fun s => Read.wrapf text
    (.ofExcept (TreeLeafGetterSetter.setLeaf s.batch level leaf.index leaf.value))
  Stateful.step fun s => ((), { s with batch := batch, written := s.written ++ [(level, leaf)] })

/-- The loop of a level comes to a leaf. -/
def visit (level : TreeLevel) (leaf : TreeLeaf) : InsertRun Buffer Memory Unit :=
  Stateful.step fun s => ((), { s with visited := s.visited ++ [(level, leaf)] })

/-- The element of a slice, as it is in the array now. -/
def get (slice : Slice) (position : Nat) : InsertRun Buffer (Heap TreeLeaf) TreeLeaf :=
  Stateful.step fun s => (s.memory.get slice position, s)

/-- `make([]TreeLeaf, 0)`. -/
def makeLeaves : InsertRun Buffer (Heap TreeLeaf) Slice :=
  Stateful.step fun s => ((s.memory.make 0).1, { s with memory := (s.memory.make 0).2 })

/-- `append(slice, leaf)`. -/
def append (growth : Nat → Nat) (slice : Slice) (leaf : TreeLeaf) :
    InsertRun Buffer (Heap TreeLeaf) Slice :=
  Stateful.step fun s => ((s.memory.append growth slice leaf).1,
    { s with memory := (s.memory.append growth slice leaf).2 })

end InsertRun

namespace SparseMerkleTree

variable (poseidon : PoseidonHash) (tree : SparseMerkleTree) {Buffer : Type}
variable [TreeLeafGetterSetter Buffer]

/-- The first loop of `InsertLeaves`, from a position on: put the leaves into the batch. -/
def setRange (leaves : Slice) : Nat → Nat → InsertRun Buffer (Heap TreeLeaf) Unit
  | 0, _ => return ()
  | remaining + 1, position => do
      let leaf ← InsertRun.get leaves position
      InsertRun.setLeaf "set leaf" 0 leaf
      setRange leaves remaining (position + 1)

/-- `calculateHashForNode` in the loop of `InsertLeaves`. -/
def hashParent {Memory : Type} (level : TreeLevel) (leaf : TreeLeaf) :
    InsertRun Buffer Memory U256 :=
  Stateful.ofProgram fun s => Read.wrapf "compute node hash"
    (tree.calculateHashForNode poseidon s.batch level leaf.index)

/-- The inner loop of `InsertLeaves`, from a position of `leaves` on.  The slice that is ranged over
is fixed when the loop begins; its elements are read one by one. -/
def insertRange (growth : Nat → Nat) (level : TreeLevel) (leaves : Slice) :
    Nat → Nat → Finset TreeLeafIndex → Slice → InsertRun Buffer (Heap TreeLeaf) Slice
  | 0, _, _, nextLevelLeaves => return nextLevelLeaves
  | remaining + 1, position, updatedIndexes, nextLevelLeaves => do
      let leaf ← InsertRun.get leaves position
      InsertRun.visit level leaf
      if leaf.index / 2 ∈ updatedIndexes then
        insertRange growth level leaves remaining (position + 1) updatedIndexes nextLevelLeaves
      else
        let nodeHash ← tree.hashParent poseidon level leaf
        InsertRun.setLeaf "set node" (level + 1) ⟨leaf.index / 2, nodeHash⟩
        let nextLevelLeaves ←
          InsertRun.append growth nextLevelLeaves ⟨leaf.index / 2, nodeHash⟩
        insertRange growth level leaves remaining (position + 1)
          (insert (leaf.index / 2) updatedIndexes) nextLevelLeaves

/-- The outer loop of `InsertLeaves`, `count` levels of it; `renew` gives the slice for the parents
of the next level. -/
def insertRanges (growth : Nat → Nat) (renew : Slice → InsertRun Buffer (Heap TreeLeaf) Slice) :
    Nat → TreeLevel → Slice → Slice → InsertRun Buffer (Heap TreeLeaf) Unit
  | 0, _, _, _ => return ()
  | count + 1, level, leaves, nextLevelLeaves => do
      let leaves ← tree.insertRange poseidon growth level leaves leaves.length 0 ∅ nextLevelLeaves
      let nextLevelLeaves ← renew leaves
      insertRanges growth renew count (level + 1) leaves nextLevelLeaves

/-- `InsertLeaves` up to the statement that renews `nextLevelLeaves`. -/
def insertLeavesRenewing (growth : Nat → Nat)
    (renew : Slice → InsertRun Buffer (Heap TreeLeaf) Slice) (leaves : Slice) :
    InsertRun Buffer (Heap TreeLeaf) Unit := do
  setRange leaves leaves.length 0
  let nextLevelLeaves ← InsertRun.makeLeaves
  tree.insertRanges poseidon growth renew tree.depth.toNat 0 leaves nextLevelLeaves

/-- `nextLevelLeaves[:0]`: the array is reused. -/
def reuse (nextLevelLeaves : Slice) : InsertRun Buffer (Heap TreeLeaf) Slice :=
  return nextLevelLeaves.upTo 0 (Nat.zero_le _)

/-- `InsertLeaves`. -/
def insertLeavesReusing (growth : Nat → Nat) (leaves : Slice) :
    InsertRun Buffer (Heap TreeLeaf) Unit :=
  tree.insertLeavesRenewing poseidon growth reuse leaves

/-- `InsertLeaves` with a new slice for the parents of every level. -/
def insertLeavesAllocating (growth : Nat → Nat) (leaves : Slice) :
    InsertRun Buffer (Heap TreeLeaf) Unit :=
  tree.insertLeavesRenewing poseidon growth (fun _ => InsertRun.makeLeaves) leaves

end SparseMerkleTree

end MerkleProofService
