/-
Module: MerkleProofService.ZkRegistry.SparseTree
Layer: ZkRegistry
Purpose: The sparse Merkle tree (`internal/zkregistry/sparse_tree.go`): insertion of one leaf and
  of many, proofs, the root, the search for an empty leaf and the table of empty branches.
  Absent nodes stand for empty branches, whose hashes the tree computes once and keeps.
  The Poseidon hash is a parameter: the code calls it in a third-party package.
Imports: ZkRegistry.LeafStorage, Mathlib finite sets and streams
Trusted boundary: human-reviewed spec
Main exports: PoseidonHash, SparseMerkleTree, SparseMerkleTree.insertLeaf,
  SparseMerkleTree.insertLeaves, SparseMerkleTree.createProof, SparseMerkleTree.getRoot,
  SparseMerkleTree.getRandomEmptyLeafIndex
-/
import MerkleProofService.ZkRegistry.LeafStorage
import Mathlib.Data.Finset.Insert
import Mathlib.Data.Stream.Defs

namespace MerkleProofService

open Library

/-- `poseidon.Hash` on two inputs; it fails on inputs outside its field. -/
abbrev PoseidonHash := Nat → Nat → Except GoError Nat

/-- `maxIterationsEmptyLeafProof`. -/
def maxIterationsEmptyLeafProof : Nat := 10

/-- A leaf to be inserted. -/
structure TreeLeaf where
  index : TreeLeafIndex
  value : U256
deriving DecidableEq, Repr

/-- A proof that `leaf` stands at `index` of the tree with this root. -/
structure MerkleProof where
  leaf : U256
  path : List U256
  index : TreeLeafIndex
  root : U256
deriving DecidableEq, Repr

/-- The interface `TreeLeafGetter`. -/
structure TreeLeafGetter where
  getLeaf : TreeLevel → TreeLeafIndex → Read U256

/-- The leaf view of a registry as a `TreeLeafGetter`. -/
def LeafView.getter (view : LeafView) : TreeLeafGetter where
  getLeaf := view.getLeaf

/-- The interface `TreeLeafGetterSetter`: what insertion and simulation need of a batch. -/
class TreeLeafGetterSetter (Buffer : Type) where
  getLeaf : Buffer → TreeLevel → TreeLeafIndex → Read U256
  setLeaf : Buffer → TreeLevel → TreeLeafIndex → U256 → Except GoError Buffer

open TreeLeafGetterSetter (getLeaf setLeaf)

/-- `SparseMerkleTree`; `emptyBranchLevels` is `none` until the table is first needed. -/
structure SparseMerkleTree where
  emptyLeaf : U256
  depth : TreeLevel
  emptyBranchLevels : Option (List U256)
  storageLeafGetter : TreeLeafGetter

/-- `NewSparseTree`. -/
def newSparseTree (depth : TreeLevel) (emptyLeafValue : U256)
    (storageLeafGetter : TreeLeafGetter) : SparseMerkleTree where
  emptyLeaf := emptyLeafValue
  depth := depth
  emptyBranchLevels := none
  storageLeafGetter := storageLeafGetter

/-- The hash of two nodes, refused when it does not fit 256 bits. -/
def calculateHash (poseidon : PoseidonHash) (left right : U256) : Except GoError U256 :=
  match poseidon left.toNat right.toNat with
  | .error err => .error (.wrapf "compute hash" err)
  | .ok hash =>
      if hash < 2 ^ 256 then .ok (BitVec.ofNat 256 hash)
      else .error (.message "invalid hash")

namespace SparseMerkleTree

variable (poseidon : PoseidonHash) (tree : SparseMerkleTree)

/-- `maxLeaves`: `1 << depth` in 64 bits, so zero from depth 64 on. -/
def maxLeaves : UInt64 :=
  UInt64.ofNat (2 ^ tree.depth.toNat)

/-! ### Empty branches -/

/-- Fill the levels `level`, `level + 1`, ... of the table, `count` of them, above the hash of
the level before. -/
def fillEmptyBranches (prevHash : U256) (level : TreeLevel) :
    Nat → Except GoError (List U256)
  | 0 => .ok [prevHash]
  | count + 1 =>
      ((calculateHash poseidon prevHash prevHash).mapError
          (.wrapf s!"compute hash for level {level}")).bind fun hash =>
        (fillEmptyBranches hash (level + 1) count).bind fun levels =>
          .ok (prevHash :: levels)

/-- `calculateEmptyBranchHashes`.  The table has `depth + 1` entries in 8 bits: at depth 255
that is none, and the first assignment panics. -/
def calculateEmptyBranchHashes : Except GoError (List U256) :=
  if tree.depth < 1 then .error (.message "invalid tree depth")
  else if tree.depth + 1 = 0 then .error (.panic "index out of range [0] with length 0")
  else fillEmptyBranches poseidon tree.emptyLeaf 1 tree.depth.toNat

/-- The table of empty branches, calculated unless the tree has it already. -/
def emptyBranchTable : Except GoError (List U256) :=
  match tree.emptyBranchLevels with
  | some levels => .ok levels
  | none =>
      (tree.calculateEmptyBranchHashes poseidon).mapError
        (.wrapf "calculate empty branch hashes")

/-- `getEmptyBranchValue`, with the tree that has its table filled. -/
def getEmptyBranchValue (level : TreeLevel) : Except GoError (U256 × SparseMerkleTree) :=
  if level > tree.depth then
    .error (.message s!"invalid level {level} inside a tree of depth {tree.depth}")
  else
    (tree.emptyBranchTable poseidon).bind fun levels =>
      match levels[level.toNat]? with
      | some hash => .ok (hash, { tree with emptyBranchLevels := some levels })
      | none => .error (.panic "index out of range")

/-! ### Reading nodes -/

/-- `getLeafFromStorage`.  The table of empty branches it may have filled is dropped here:
the next caller computes the same one (`getEmptyBranchValue_table`). -/
def getLeafFromStorage (level : TreeLevel) (index : TreeLeafIndex) : Read U256 :=
  if level > tree.depth then
    .fail (.message s!"invalid level {level} inside a tree of depth {tree.depth}")
  else do
    match ← (tree.storageLeafGetter.getLeaf level index).tryRun with
    | .ok leaf => return leaf
    | .error err =>
        if !err.isNotFound then .fail (.wrapf "get TreeLeaf" err)
        else .ofExcept ((tree.getEmptyBranchValue poseidon level).map Prod.fst)

/-- `getLeafFromBatchOrStorage`. -/
def getLeafFromBatchOrStorage {Buffer : Type} [TreeLeafGetterSetter Buffer]
    (batch : Buffer) (level : TreeLevel) (index : TreeLeafIndex) : Read U256 := do
  match ← (getLeaf batch level index).tryRun with
  | .ok node => return node
  | .error err =>
      if err.isNotFound then
        Read.wrapf "get leaf from storage" (tree.getLeafFromStorage poseidon level index)
      else .fail (.wrapf "get leaf from batch" err)

/-- `getSiblingNodes`: the left and the right child of the parent of a node. -/
def getSiblingNodes {Buffer : Type} [TreeLeafGetterSetter Buffer] (batch : Buffer)
    (level : TreeLevel) (index : TreeLeafIndex) : Read (U256 × U256) := do
  let (leftNodeIndex, rightNodeIndex) :=
    if index % 2 ≠ 0 then (index - 1, index) else (index, index + 1)
  let leftNode ← tree.getLeafFromBatchOrStorage poseidon batch level leftNodeIndex
  let rightNode ← tree.getLeafFromBatchOrStorage poseidon batch level rightNodeIndex
  return (leftNode, rightNode)

/-- `calculateHashForNode`: the hash of the parent of a node. -/
def calculateHashForNode {Buffer : Type} [TreeLeafGetterSetter Buffer] (batch : Buffer)
    (level : TreeLevel) (index : TreeLeafIndex) : Read U256 := do
  let (leftNode, rightNode) ←
    Read.wrapf "get sibling nodes" (tree.getSiblingNodes poseidon batch level index)
  .ofExcept (calculateHash poseidon leftNode rightNode)

/-- `GetRoot`. -/
def getRoot : Read U256 :=
  tree.getLeafFromStorage poseidon tree.depth 0

/-! ### Insertion -/

section Insertion

variable {Buffer : Type} [TreeLeafGetterSetter Buffer]

/-- Hash the way up from `(level, index)`, `count` levels of it. -/
def insertLeafLoop : Nat → TreeLevel → TreeLeafIndex → Buffer → Read Buffer
  | 0, _, _, batch => return batch
  | count + 1, level, index, batch => do
      let nodeHash ← Read.wrapf "compute node hash"
        (tree.calculateHashForNode poseidon batch level index)
      let batch ← Read.wrapf "set node"
        (.ofExcept (setLeaf batch (level + 1) (index / 2) nodeHash))
      insertLeafLoop count (level + 1) (index / 2) batch

/-- `InsertLeaf`. -/
def insertLeaf (batch : Buffer) (index : TreeLeafIndex) (value : U256) : Read Buffer := do
  let batch ← Read.wrapf "set leaf" (.ofExcept (setLeaf batch 0 index value))
  tree.insertLeafLoop poseidon tree.depth.toNat 0 index batch

/-- The first loop of `InsertLeaves`: put all leaves into the batch. -/
def setLeaves : List TreeLeaf → Buffer → Read Buffer
  | [], batch => return batch
  | leaf :: leaves, batch => do
      let batch ← Read.wrapf "set leaf" (.ofExcept (setLeaf batch 0 leaf.index leaf.value))
      setLeaves leaves batch

/-- The inner loop of `InsertLeaves` at one level: hash the parent of every leaf that is not in
`updatedIndexes` yet, and collect the parents. -/
def insertLevel (level : TreeLevel) : List TreeLeaf → Finset TreeLeafIndex →
    List TreeLeaf → Buffer → Read (List TreeLeaf × Buffer)
  | [], _, nextLevelLeaves, batch => return (nextLevelLeaves, batch)
  | leaf :: leaves, updatedIndexes, nextLevelLeaves, batch =>
      if leaf.index / 2 ∈ updatedIndexes then
        insertLevel level leaves updatedIndexes nextLevelLeaves batch
      else do
        let nodeHash ← Read.wrapf "compute node hash"
          (tree.calculateHashForNode poseidon batch level leaf.index)
        let batch ← Read.wrapf "set node"
          (.ofExcept (setLeaf batch (level + 1) (leaf.index / 2) nodeHash))
        insertLevel level leaves (insert (leaf.index / 2) updatedIndexes)
          (nextLevelLeaves ++ [⟨leaf.index / 2, nodeHash⟩]) batch

/-- The outer loop of `InsertLeaves`, `count` levels of it. -/
def insertLevels : Nat → TreeLevel → List TreeLeaf → Buffer → Read Buffer
  | 0, _, _, batch => return batch
  | count + 1, level, leaves, batch => do
      let (nextLevelLeaves, batch) ← tree.insertLevel poseidon level leaves ∅ [] batch
      insertLevels count (level + 1) nextLevelLeaves batch

/-- `InsertLeaves`. -/
def insertLeaves (batch : Buffer) (leaves : List TreeLeaf) : Read Buffer := do
  let batch ← setLeaves leaves batch
  tree.insertLevels poseidon tree.depth.toNat 0 leaves batch

end Insertion

/-! ### Proofs and empty leaves -/

/-- The loop of `CreateProof`: the sibling on each of `count` levels upwards. -/
def createProofPath : Nat → TreeLevel → TreeLeafIndex → Read (List U256)
  | 0, _, _ => return []
  | count + 1, level, pathIndex => do
      Read.ctxDone
      let element ←
        if pathIndex % 2 = 0 then
          Read.wrapf "retrieve right node"
            (tree.getLeafFromStorage poseidon level (pathIndex + 1))
        else
          Read.wrapf "retrieve left node"
            (tree.getLeafFromStorage poseidon level (pathIndex - 1))
      let path ← createProofPath count (level + 1) (pathIndex / 2)
      return element :: path

/-- `SparseMerkleTree.CreateProof`. -/
def createProof (index : TreeLeafIndex) : Read MerkleProof := do
  let leaf ← Read.wrapf "retrieve TreeLeaf" (tree.getLeafFromStorage poseidon 0 index)
  let pathElements ← tree.createProofPath poseidon tree.depth.toNat 0 index
  let root ← Read.wrapf "get root" (tree.getRoot poseidon)
  return { leaf := leaf, path := pathElements, index := index, root := root }

/-- `TreeLeafIndex(rand.Uint64() % t.maxLeaves())`. -/
def leafIndexOfDraw (draw : UInt64) : Except GoError TreeLeafIndex :=
  if tree.maxLeaves = 0 then .error (.panic "integer divide by zero")
  else .ok (draw % tree.maxLeaves).toUInt32

/-- The loop of `GetRandomEmptyLeafIndex`; `draws` is what `rand.Uint64()` returns. -/
def getRandomEmptyLeafIndexLoop : Nat → Stream' UInt64 → Read TreeLeafIndex
  | 0, _ => .fail (.message "could not find an empty leaf index")
  | maxIterations + 1, draws => do
      Read.ctxDone
      let index ← .ofExcept (tree.leafIndexOfDraw draws.head)
      match ← (tree.storageLeafGetter.getLeaf 0 index).tryRun with
      | .error err =>
          if err.isNotFound then return index
          else getRandomEmptyLeafIndexLoop maxIterations draws.tail
      | .ok _ => getRandomEmptyLeafIndexLoop maxIterations draws.tail

/-- `GetRandomEmptyLeafIndex`. -/
def getRandomEmptyLeafIndex (draws : Stream' UInt64) : Read TreeLeafIndex :=
  tree.getRandomEmptyLeafIndexLoop maxIterationsEmptyLeafProof draws

end SparseMerkleTree

end MerkleProofService
