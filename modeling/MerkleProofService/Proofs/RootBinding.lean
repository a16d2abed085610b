/-
Module: MerkleProofService.Proofs.RootBinding
Layer: Proofs
Purpose: What the root says of the leaves.  In a run of commits that leave no zero the storage
  cannot give back, every stored node is the hash of two children that can be read, and below a
  node that is not stored nothing is.  So wherever the root can be read the whole tree can, and
  it is consistent: no leaf and path but those of `CreateProof` fold to the root, unless the hash
  has a collision.
Imports: Proofs.CommitRuns, Proofs.InsertionOrder, Proofs.WrittenNodes, Library.HashBinding,
  Mathlib pairing of numbers
Trusted boundary: none
Main exports: HashedStore, HashedStore.commitAll, HashedStore.consistent, root_binds_leaves
-/
import MerkleProofService.Proofs.CommitRuns
import MerkleProofService.Proofs.InsertionOrder
import MerkleProofService.Proofs.WrittenNodes
import MerkleProofService.Library.HashBinding
import Mathlib.Data.Nat.Pairing

namespace MerkleProofService

open Library
open LawfulBuffer (content Over)

/-! ### Stored hashes -/

/-- Inside the tree every stored node is the hash of two children that can be read, and below a
node that is not stored nothing is. -/
structure HashedStore (poseidon : PoseidonHash) (tree : SparseMerkleTree)
    (registryIndex : RegistryIndex) (database : Database) : Prop where
  hashed : ∀ (level : TreeLevel) (index : TreeLeafIndex) (value : U256),
    level.toNat < tree.depth.toNat → InTree 32 tree.depth.toNat level.toNat index.toNat →
    storedLeaf database registryIndex (level + 1) (index / 2) = some value →
    ∃ left right,
      Read.evalOn database (tree.getLeafFromStorage poseidon level (2 * (index / 2))) =
        .ok left ∧
      Read.evalOn database (tree.getLeafFromStorage poseidon level (2 * (index / 2) + 1)) =
        .ok right ∧
      calculateHash poseidon left right = .ok value
  absent : ∀ (level : TreeLevel) (index : TreeLeafIndex),
    level.toNat < tree.depth.toNat → InTree 32 tree.depth.toNat level.toNat index.toNat →
    storedLeaf database registryIndex (level + 1) (index / 2) = none →
    storedLeaf database registryIndex level index = none

/-- A zero that a commit leaves in a slot of the tree is what an empty slot shows. -/
def LeavesNoZero (poseidon : PoseidonHash) (tree : SparseMerkleTree) (calls : List InsertCall) :
    Prop :=
  ∀ index : TreeLeafIndex, index.toNat < 2 ^ tree.depth.toNat →
    lastWrite (calls.flatMap InsertCall.leaves) index = some 0 →
    (tree.getEmptyBranchValue poseidon 0).map Prod.fst = .ok 0

section Runs

variable {poseidon : PoseidonHash} {depth : TreeLevel} {emptyValue : U256}
variable {registryIndex : RegistryIndex} {tree : SparseMerkleTree}
variable {database database' : Database} {calls : List InsertCall}

/-- With a hash that is total on the field, an empty slot shows zero exactly if zero is the empty
value and the depth is between 1 and 254. -/
theorem leavesNoZero_iff (spec : PoseidonSpec poseidon)
    (made : TreeOf poseidon depth emptyValue registryIndex tree) :
    LeavesNoZero poseidon tree calls ↔
      ∀ index : TreeLeafIndex, index.toNat < 2 ^ depth.toNat →
        lastWrite (calls.flatMap InsertCall.leaves) index = some 0 →
        emptyValue = 0 ∧ 1 ≤ depth.toNat ∧ depth.toNat < 255 := by
  have shows := getEmptyBranchValue_eq_zero_iff spec made 0 (Nat.zero_le _)
  rw [LeavesNoZero, made.shape.1, shows]
  simp only [true_and]

/-- In a tree whose empty value is zero a commit may leave zeros. -/
example : LeavesNoZero fieldHash (newSparseTree 2 0 (LeafView.getter ⟨0⟩)) [.insertLeaf 1 0] :=
  (leavesNoZero_iff fieldHash_spec TreeOf.created).mpr fun _ _ _ => ⟨rfl, by decide, by decide⟩

theorem hashedStore_empty : HashedStore poseidon tree registryIndex ∅ where
  hashed := fun _ _ _ _ _ stored => by cases stored
  absent := fun _ _ _ _ _ => rfl

/-- The calls of a commit fill its batch with all their leaves. -/
theorem fillBatch_filled {leaves : List TreeLeaf} {batch batch' : BatchWithLeavesBuffer}
    (before : Filled poseidon tree registryIndex database leaves [] batch)
    (run : Read.evalOn database (fillBatch poseidon tree calls batch) = .ok batch') :
    Filled poseidon tree registryIndex database (leaves ++ calls.flatMap InsertCall.leaves) []
      batch' := by
  induction calls generalizing leaves batch with
  | nil =>
      obtain rfl : batch = batch' := by simpa [fillBatch] using run
      simpa using before
  | cons call calls ih =>
      rw [fillBatch, Program.bind_eq, Read.evalOn_bind, except_bind_eq_ok,
        InsertCall.run_eq] at run
      obtain ⟨batch₁, first, rest⟩ := run
      have inserted := insertLeaves_inserted trivial first
      rw [List.flatMap_cons, ← List.append_assoc]
      refine ih ?_ rest
      refine
        { pending := insertLeaves_preserves Pending.setLeaf trivial before.pending first
          inserted := before.inserted.trans inserted
          reads := fun level index below above => ?_ }
      rw [dirtyLeaves_append, above_union] at above
      rcases above with old | new
      · rcases before.reads level index below old with shown | readable
        · -- a position that was set stays set
          left
          by_cases again : Above (dirtyLeaves call.leaves) level.toNat index.toNat
          · exact inserted.shown level index below.le again
          · rwa [inserted.beside level index fun here => again here.2]
        · exact Or.inr readable
      · exact insertLeaves_reads trivial first below new

theorem filled_new : Filled poseidon tree registryIndex database [] []
    (newBatchWithLeavesBuffer [] registryIndex) where
  pending := Pending.new fun _ _ => rfl
  inserted := Inserted.none trivial
  reads := fun _ _ _ above => by simp [Above, dirtyLeaves] at above

/-- The children of a node of the tree are nodes of the tree. -/
theorem child_inTree {level : TreeLevel} {index child : TreeLeafIndex}
    (below : level.toNat < tree.depth.toNat)
    (inside : InTree 32 tree.depth.toNat level.toNat index.toNat)
    (sibling : child / 2 = index / 2) : InTree 32 tree.depth.toNat level.toNat child.toNat := by
  rcases uint32_children sibling with rfl | rfl
  · rw [toNat_leftOfParent]
    exact inside.leftOfParent
  · rw [toNat_rightOfParent]
    exact inside.rightOfParent (by decide) below

/-- The nodes above the leaves of a filled batch are stored as hashes of what can be read. -/
theorem Filled.hashed_above {leaves : List TreeLeaf} {before : Batch}
    {batch : BatchWithLeavesBuffer}
    (filled : Filled poseidon tree registryIndex database leaves before batch)
    (nonzero : NeverZero poseidon)
    (getter : tree.storageLeafGetter = LeafView.getter ⟨registryIndex⟩)
    (zeros : ∀ index : TreeLeafIndex, index.toNat < 2 ^ tree.depth.toNat →
      lastWrite leaves index = some 0 →
      (tree.getEmptyBranchValue poseidon 0).map Prod.fst = .ok 0)
    {level : TreeLevel} {index : TreeLeafIndex} (below : level.toNat < tree.depth.toNat)
    (inside : InTree 32 tree.depth.toNat level.toNat index.toNat)
    (above : Above (dirtyLeaves leaves) (level.toNat + 1) (index.toNat / 2)) :
    ∃ left right value,
      Read.evalOn (Store.write database batch.batch)
        (tree.getLeafFromStorage poseidon level (2 * (index / 2))) = .ok left ∧
      Read.evalOn (Store.write database batch.batch)
        (tree.getLeafFromStorage poseidon level (2 * (index / 2) + 1)) = .ok right ∧
      calculateHash poseidon left right = .ok value ∧
      storedLeaf (Store.write database batch.batch) registryIndex (level + 1) (index / 2) =
        some value := by
  have up := toNat_succ_level below
  have half := uint32_div_two index
  have children : ∀ child : TreeLeafIndex, child / 2 = index / 2 →
      Read.evalOn (Store.write database batch.batch)
          (tree.getLeafFromStorage poseidon level child) =
        .ok (overlay batch (readNodes poseidon tree database) level.toNat child.toNat) := by
    intro child sibling
    have inTree := child_inTree below inside sibling
    refine filled.pending.read_overlay getter below.le (fun shown => ?_)
      (filled.reads level child below (by rwa [← uint32_div_two, sibling, half]))
    obtain ⟨rfl, written⟩ := filled.zero_shown nonzero below.le shown
    refine zeros child (Nat.lt_of_lt_of_le inTree.2 ?_) written
    exact Nat.pow_le_pow_right (by decide) (Nat.min_le_right _ _)
  have inner : level + 1 ≠ 0 := by
    intro zero
    rw [zero] at up
    cases up
  obtain ⟨value, shown, stored⟩ := filled.storedLeaf_above nonzero inner
    (show (level + 1).toNat ≤ tree.depth.toNat by omega)
    (show Above (dirtyLeaves leaves) (level + 1).toNat (index / 2).toNat by rwa [up, half])
  have hashed := filled.inserted.hashed level.toNat (index.toNat / 2) below above
  rw [← toNat_rightOfParent, ← toNat_leftOfParent, ← up, ← half, overlay_toNat _ _ (level + 1),
    shown] at hashed
  exact ⟨_, _, value, children _ (leftOfParent_div_two index),
    children _ (rightOfParent_div_two index), hashed, stored⟩

/-- One commit. -/
theorem HashedStore.commitCalls (before : HashedStore poseidon tree registryIndex database)
    (nonzero : NeverZero poseidon)
    (getter : tree.storageLeafGetter = LeafView.getter ⟨registryIndex⟩)
    (kept : LeavesNoZero poseidon tree calls)
    (run : commitCalls poseidon tree registryIndex calls database = .ok database') :
    HashedStore poseidon tree registryIndex database' := by
  rw [MerkleProofService.commitCalls, except_bind_eq_ok] at run
  obtain ⟨batch, fills, written⟩ := run
  obtain rfl := Except.ok.inj written
  have filled := fillBatch_filled filled_new fills
  rw [List.nil_append] at filled
  refine ⟨fun level index value below inside stored => ?_,
    fun level index below inside absent => ?_⟩
  · by_cases new : Above (dirtyLeaves (calls.flatMap InsertCall.leaves)) (level.toNat + 1)
        (index.toNat / 2)
    · obtain ⟨left, right, hash, leftRead, rightRead, hashed, stored'⟩ :=
        filled.hashed_above nonzero getter kept below inside new
      obtain rfl := Option.some.inj (stored'.symm.trans stored)
      exact ⟨left, right, leftRead, rightRead, hashed⟩
    · -- neither the node nor its children change
      have cleanChild : ∀ child : TreeLeafIndex, child / 2 = index / 2 →
          ¬ Above (dirtyLeaves (calls.flatMap InsertCall.leaves)) level.toNat child.toNat := by
        intro child sibling here
        apply new
        rw [← uint32_div_two, ← sibling, uint32_div_two]
        exact here.parent
      have cleanParent : ¬ Above (dirtyLeaves (calls.flatMap InsertCall.leaves))
          (level + 1).toNat (index / 2).toNat := by
        rwa [toNat_succ_level below, uint32_div_two]
      rw [filled.storedLeaf_beside cleanParent] at stored
      have unchanged : ∀ child : TreeLeafIndex, child / 2 = index / 2 →
          Read.evalOn (Store.write database batch.batch)
              (tree.getLeafFromStorage poseidon level child) =
            Read.evalOn database (tree.getLeafFromStorage poseidon level child) :=
        fun child sibling => filled.pending.read_none getter below.le
          (filled.content_none (cleanChild child sibling))
      rw [unchanged _ (leftOfParent_div_two index), unchanged _ (rightOfParent_div_two index)]
      exact before.hashed level index value below inside stored
  · by_cases new : Above (dirtyLeaves (calls.flatMap InsertCall.leaves)) (level.toNat + 1)
        (index.toNat / 2)
    · obtain ⟨_, _, hash, _, _, _, stored⟩ :=
        filled.hashed_above nonzero getter kept below inside new
      rw [absent] at stored
      cases stored
    · have cleanParent : ¬ Above (dirtyLeaves (calls.flatMap InsertCall.leaves))
          (level + 1).toNat (index / 2).toNat := by
        rwa [toNat_succ_level below, uint32_div_two]
      rw [filled.storedLeaf_beside cleanParent] at absent
      rw [filled.storedLeaf_beside fun here => new here.parent]
      exact before.absent level index below inside absent

/-- A run of commits. -/
theorem HashedStore.commitAll {commits : List (List InsertCall)}
    (before : HashedStore poseidon tree registryIndex database) (nonzero : NeverZero poseidon)
    (getter : tree.storageLeafGetter = LeafView.getter ⟨registryIndex⟩)
    (kept : ∀ calls ∈ commits, LeavesNoZero poseidon tree calls)
    (run : commitAll poseidon tree registryIndex commits database = .ok database') :
    HashedStore poseidon tree registryIndex database' := by
  induction commits generalizing database with
  | nil => exact Except.ok.inj run ▸ before
  | cons calls commits ih =>
      rw [MerkleProofService.commitAll, except_bind_eq_ok] at run
      obtain ⟨database₁, first, rest⟩ := run
      refine ih ?_ (fun calls member => kept calls (List.mem_cons_of_mem _ member)) rest
      exact before.commitCalls nonzero getter (kept calls List.mem_cons_self) first

/-! ### The tree below a root that can be read -/

/-- An empty branch that is answered stands in a table. -/
theorem emptyBranches_of_answer (cache : CacheSound poseidon tree) {level : TreeLevel}
    {value : U256}
    (answer : (tree.getEmptyBranchValue poseidon level).map Prod.fst = .ok value) :
    ∃ empty, EmptyBranches poseidon tree empty := by
  obtain ⟨⟨_, filled⟩, answered, _⟩ := except_map_eq_ok.mp answer
  obtain ⟨levels, table, _, _⟩ := getEmptyBranchValue_eq_ok answered
  have calculated := emptyBranchTable_eq_ok cache table
  obtain ⟨_, _, filledLevels⟩ := calculateEmptyBranchHashes_eq_ok calculated
  obtain ⟨empty, ground, chain, rfl⟩ := fillEmptyBranches_eq_ok filledLevels
  exact ⟨empty, emptyBranches_of_calculated cache ground chain calculated⟩

/-- A node that can be read is the hash of two children that can be read. -/
theorem HashedStore.children (store : HashedStore poseidon tree registryIndex database)
    (getter : tree.storageLeafGetter = LeafView.getter ⟨registryIndex⟩)
    (cache : CacheSound poseidon tree) {level : TreeLevel} {index : TreeLeafIndex} {value : U256}
    (below : level.toNat < tree.depth.toNat)
    (inside : InTree 32 tree.depth.toNat level.toNat index.toNat)
    (parent : Read.evalOn database (tree.getLeafFromStorage poseidon (level + 1) (index / 2)) =
      .ok value) :
    ∃ left right,
      Read.evalOn database (tree.getLeafFromStorage poseidon level (2 * (index / 2))) =
        .ok left ∧
      Read.evalOn database (tree.getLeafFromStorage poseidon level (2 * (index / 2) + 1)) =
        .ok right ∧
      calculateHash poseidon left right = .ok value := by
  have up := toNat_succ_level below
  rw [evalOn_getLeafFromStorage_stored getter (by omega)] at parent
  cases stored : storedLeaf database registryIndex (level + 1) (index / 2) with
  | some hash =>
      rw [stored] at parent
      obtain rfl := Except.ok.inj parent
      exact store.hashed level index hash below inside stored
  | none =>
      -- an empty branch: both children are empty branches of the table it stands in
      rw [stored] at parent
      obtain ⟨empty, table⟩ := emptyBranches_of_answer cache parent
      have value_eq := Except.ok.inj ((table.answered (level + 1) (by omega)).symm.trans parent)
      rw [up] at value_eq
      have child : ∀ child : TreeLeafIndex, child / 2 = index / 2 →
          Read.evalOn database (tree.getLeafFromStorage poseidon level child) =
            .ok (empty level.toNat) := by
        intro child sibling
        have absent := store.absent level child below (child_inTree below inside sibling)
          (by rw [sibling, stored])
        rw [evalOn_getLeafFromStorage table getter below.le, absent, Option.getD_none]
      refine ⟨_, _, child _ (leftOfParent_div_two index), child _ (rightOfParent_div_two index), ?_⟩
      rw [← value_eq]
      exact table.hashed level.toNat below

/-- Where the root can be read, every node of the tree can. -/
theorem HashedStore.readable (store : HashedStore poseidon tree registryIndex database)
    (getter : tree.storageLeafGetter = LeafView.getter ⟨registryIndex⟩)
    (cache : CacheSound poseidon tree) (root : Readable poseidon tree database tree.depth 0) :
    ∀ {count : Nat} {level : TreeLevel} {index : TreeLeafIndex},
      level.toNat + count = tree.depth.toNat →
      InTree 32 tree.depth.toNat level.toNat index.toNat →
      Readable poseidon tree database level index
  | 0, level, index, reach, inside => by
      obtain rfl : level = tree.depth := UInt8.toNat_inj.mp reach
      have bound := inside.2
      rw [Nat.sub_self, Nat.min_zero, pow_zero, Nat.lt_one_iff] at bound
      obtain rfl : index = 0 := UInt32.toNat_inj.mp bound
      exact root
  | count + 1, level, index, reach, inside => by
      have below : level.toNat < tree.depth.toNat := by omega
      have up := toNat_succ_level below
      obtain ⟨value, parent⟩ := @readable store getter cache root count (level + 1) (index / 2)
        (by omega) (by rw [up, uint32_div_two]; exact inside.parent below)
      obtain ⟨left, right, leftRead, rightRead, _⟩ :=
        store.children getter cache below inside parent
      rcases uint32_children (rfl : index / 2 = index / 2) with same | same
      · exact ⟨left, by rw [same]; exact leftRead⟩
      · exact ⟨right, by rw [same]; exact rightRead⟩

/-- Where the root can be read, the storage shows a consistent table. -/
theorem HashedStore.consistent (store : HashedStore poseidon tree registryIndex database)
    (getter : tree.storageLeafGetter = LeafView.getter ⟨registryIndex⟩)
    (cache : CacheSound poseidon tree) (root : Readable poseidon tree database tree.depth 0) :
    ReadsNodes poseidon tree database (readNodes poseidon tree database) ∧
      Consistent (calculateHash poseidon) 32 tree.depth.toNat
        (readNodes poseidon tree database) := by
  have readable : ∀ (level : TreeLevel) (index : TreeLeafIndex),
      InTree 32 tree.depth.toNat level.toNat index.toNat →
      Readable poseidon tree database level index :=
    fun level index inside =>
      store.readable getter cache root (Nat.add_sub_cancel' inside.1) inside
  refine ⟨fun level index inside => ?_, fun level index below inside => ?_⟩
  · obtain ⟨value, read⟩ := readable level index inside
    rw [read, readNodes_of_ok read]
  · obtain ⟨position, child, rfl, same⟩ : ∃ (position : TreeLevel) (child : TreeLeafIndex),
        position.toNat = level ∧ child.toNat = 2 * index + 1 :=
      ⟨UInt8.ofNat level, UInt32.ofNat (2 * index + 1), inside.toNat_ofNat⟩
    have up := toNat_succ_level below
    have half : child.toNat / 2 = index := by omega
    rw [← same] at inside
    obtain ⟨value, parent⟩ := readable (position + 1) (child / 2) (by
      rw [up, uint32_div_two]
      exact inside.parent below)
    obtain ⟨left, right, leftRead, rightRead, hashed⟩ :=
      store.children getter cache below inside parent
    have leftNode := readNodes_of_ok leftRead
    have rightNode := readNodes_of_ok rightRead
    have parentNode := readNodes_of_ok parent
    rw [toNat_leftOfParent, half] at leftNode
    rw [toNat_rightOfParent, half] at rightNode
    rw [up, uint32_div_two, half] at parentNode
    rw [leftNode, rightNode, parentNode]
    exact hashed

/-! ### Openings of the root -/

/-- The pairs of nodes the tree of a storage is hashed from. -/
def storedPairs (poseidon : PoseidonHash) (tree : SparseMerkleTree) (database : Database) :
    Set (U256 × U256) :=
  childPairs 32 tree.depth.toNat (readNodes poseidon tree database)

/-- What a run leaves below a root that can be read. -/
theorem run_consistent {commits : List (List InsertCall)} (nonzero : NeverZero poseidon)
    (made : TreeOf poseidon depth emptyValue registryIndex tree)
    (kept : ∀ calls ∈ commits, LeavesNoZero poseidon tree calls)
    (run : commitAll poseidon tree registryIndex commits ∅ = .ok database) {root : U256}
    (rootRead : Read.evalOn database (tree.getRoot poseidon) = .ok root) :
    ReadsNodes poseidon tree database (readNodes poseidon tree database) ∧
      Consistent (calculateHash poseidon) 32 tree.depth.toNat
        (readNodes poseidon tree database) ∧
      readNodes poseidon tree database tree.depth.toNat 0 = root := by
  have store : HashedStore poseidon tree registryIndex database :=
    hashedStore_empty.commitAll nonzero made.getter kept run
  obtain ⟨reads, consistent⟩ := store.consistent made.getter made.cacheSound ⟨root, rootRead⟩
  have rootNode := evalOn_getRoot reads
  exact ⟨reads, consistent, Except.ok.inj (rootNode.symm.trans rootRead)⟩

/-- In a run of commits that leave no zero the storage cannot give back, only the proof the tree
creates folds to the root, and trees with the same root have the same leaves, as long as the pairs
hashed in the trees and in the candidate have no collision. -/
theorem root_binds_leaves {commits : List (List InsertCall)} (nonzero : NeverZero poseidon)
    (made : TreeOf poseidon depth emptyValue registryIndex tree)
    (kept : ∀ calls ∈ commits, LeavesNoZero poseidon tree calls)
    (run : commitAll poseidon tree registryIndex commits ∅ = .ok database) {root : U256}
    (rootRead : Read.evalOn database (tree.getRoot poseidon) = .ok root)
    {pairs : Set (U256 × U256)} (free : CollisionFree (calculateHash poseidon) pairs)
    (inPairs : storedPairs poseidon tree database ⊆ pairs) :
    (∀ (index : TreeLeafIndex) (leaf : U256) (path : List U256),
      index.toNat < 2 ^ depth.toNat → path.length = depth.toNat →
      (∀ pair ∈ foldPairs (calculateHash poseidon) leaf path index.toNat, pair ∈ pairs) →
      VerifiesAgainst poseidon leaf path index root →
      Read.evalOn database (tree.createProof poseidon index) = .ok ⟨leaf, path, index, root⟩) ∧
    ∀ (otherIndex : RegistryIndex) (other : SparseMerkleTree) (others : List (List InsertCall))
      (otherDatabase : Database),
      TreeOf poseidon depth emptyValue otherIndex other →
      (∀ calls ∈ others, LeavesNoZero poseidon other calls) →
      commitAll poseidon other otherIndex others ∅ = .ok otherDatabase →
      Read.evalOn otherDatabase (other.getRoot poseidon) = .ok root →
      storedPairs poseidon other otherDatabase ⊆ pairs →
      ∀ index : TreeLeafIndex, index.toNat < 2 ^ depth.toNat →
        ∃ leaf,
          Read.evalOn database (tree.getLeafFromStorage poseidon 0 index) = .ok leaf ∧
          Read.evalOn otherDatabase (other.getLeafFromStorage poseidon 0 index) = .ok leaf := by
  obtain ⟨reads, consistent, rootNode⟩ := run_consistent nonzero made kept run rootRead
  have sameDepth := made.shape.1
  constructor
  · intro index leaf path inRange length folded verifies
    rw [← sameDepth] at inRange length
    rw [VerifiesAgainst, ← rootNode] at verifies
    obtain ⟨rfl, rfl⟩ := consistent.opening_unique (by decide) free inPairs
      (leaf_inTree inRange) length folded verifies
    rw [evalOn_createProof reads inRange, proofOf, rootNode]
  · intro otherIndex other others otherDatabase otherMade otherKept otherRun otherRoot
      otherPairs index inRange
    obtain ⟨otherReads, otherConsistent, otherNode⟩ :=
      run_consistent nonzero otherMade otherKept otherRun otherRoot
    have otherDepth := otherMade.shape.1
    have inTree : InTree 32 tree.depth.toNat 0 index.toNat :=
      leaf_inTree (by rwa [sameDepth])
    have depths : other.depth = tree.depth := otherDepth.trans sameDepth.symm
    rw [depths] at otherConsistent otherNode
    rw [storedPairs, depths] at otherPairs
    have leaf := consistent.leaves_unique otherConsistent (by decide) free inPairs otherPairs
      (otherNode.trans rootNode.symm) inTree
    refine ⟨_, reads 0 index inTree, ?_⟩
    rw [otherReads 0 index (by rw [depths]; exact inTree)]
    exact congrArg Except.ok leaf

end Runs

/-! ### An injective hash -/

/-- A hash without collisions: numbers are paired, and what does not fit 256 bits is refused. -/
def pairHash : PoseidonHash := fun left right => .ok (Nat.pair left right + 1)

theorem pairHash_nonzero : NeverZero pairHash := by
  intro left right hash hashed
  obtain rfl := Except.ok.inj hashed
  exact Nat.succ_ne_zero _

theorem pairHash_collisionFree : CollisionFree (calculateHash pairHash) Set.univ := by
  have paired : ∀ {left right hash : U256}, calculateHash pairHash left right = .ok hash →
      Nat.pair left.toNat right.toNat + 1 = hash.toNat := by
    intro left right hash hashed
    simp only [calculateHash, pairHash] at hashed
    by_cases fits : Nat.pair left.toNat right.toNat + 1 < 2 ^ 256
    · rw [if_pos fits] at hashed
      rw [← Except.ok.inj hashed, BitVec.toNat_ofNat, Nat.mod_eq_of_lt fits]
    · rw [if_neg fits] at hashed
      cases hashed
  intro first _ second _ hash firstHash secondHash
  have same := Nat.succ.inj ((paired firstHash).trans (paired secondHash).symm)
  obtain ⟨left, right⟩ := Nat.pair_eq_pair.mp same
  exact Prod.ext (BitVec.eq_of_toNat_eq left) (BitVec.eq_of_toNat_eq right)

theorem leavesNoZero_of_nonzero {poseidon : PoseidonHash} {tree : SparseMerkleTree}
    {calls : List InsertCall}
    (nonzero : ∀ leaf ∈ calls.flatMap InsertCall.leaves, leaf.value ≠ 0) :
    LeavesNoZero poseidon tree calls := by
  intro index _ written
  obtain ⟨leaf, member, _, zero⟩ := lastWrite_mem written
  exact absurd zero (nonzero leaf member)

/-- The tree of the registry beside that of `smallTree`. -/
def besideTree : SparseMerkleTree :=
  newSparseTree 2 5 (LeafView.getter ⟨1⟩)

/-- The leaves `resetRun` leaves, inserted at once. -/
def atOnceRun : List (List InsertCall) :=
  [[.insertLeaves [⟨3, 4⟩, ⟨2, 8⟩]]]

theorem root_binds_leaves_resetRun :
    ∃ database other, commitAll pairHash smallTree 0 resetRun ∅ = .ok database ∧
      Read.evalOn database (smallTree.createProof pairHash 1) = .ok ⟨5, [5, 77], 1, 5966⟩ ∧
      commitAll pairHash besideTree 1 atOnceRun ∅ = .ok other ∧
      ∃ leaf, Read.evalOn database (smallTree.getLeafFromStorage pairHash 0 2) = .ok leaf ∧
        Read.evalOn other (besideTree.getLeafFromStorage pairHash 0 2) = .ok leaf := by
  have nonzero : ∀ calls ∈ resetRun ++ atOnceRun,
      ∀ leaf ∈ calls.flatMap InsertCall.leaves, leaf.value ≠ 0 := by decide
  have ran : (commitAll pairHash smallTree 0 resetRun ∅).bind
      (fun database => Read.evalOn database (smallTree.getRoot pairHash)) = .ok 5966 := by
    decide
  have ranBeside : (commitAll pairHash besideTree 1 atOnceRun ∅).bind
      (fun database => Read.evalOn database (besideTree.getRoot pairHash)) = .ok 5966 := by
    decide
  have made : TreeOf pairHash 2 5 0 smallTree := TreeOf.created
  have madeBeside : TreeOf pairHash 2 5 1 besideTree := TreeOf.created
  obtain ⟨database, run, root⟩ := except_bind_eq_ok.mp ran
  obtain ⟨other, runBeside, rootBeside⟩ := except_bind_eq_ok.mp ranBeside
  obtain ⟨openings, leaves⟩ := root_binds_leaves pairHash_nonzero made
    (fun calls member => leavesNoZero_of_nonzero
      (nonzero calls (List.mem_append_left _ member)))
    run root pairHash_collisionFree (Set.subset_univ _)
  refine ⟨database, other, run,
    openings 1 5 [5, 77] (by decide) rfl (fun _ _ => trivial) (by decide), runBeside, ?_⟩
  exact leaves 1 besideTree _ other madeBeside
    (fun calls member => leavesNoZero_of_nonzero
      (nonzero calls (List.mem_append_right _ member)))
    runBeside rootBeside (Set.subset_univ _) 2 (by decide)

/-- A zero committed as a leaf is hashed, but not given back: it folds to the root with the path of
the proof, and the proof has the empty leaf in its place. -/
theorem zero_leaf_opens_root :
    NeverZero pairHash ∧ CollisionFree (calculateHash pairHash) Set.univ ∧
      ∃ database, commitAll pairHash smallTree 0 [[.insertLeaf 0 0]] ∅ = .ok database ∧
        Read.evalOn database (smallTree.getRoot pairHash) = .ok 1323 ∧
        VerifiesAgainst pairHash 0 [5, 36] 0 1323 ∧
        Read.evalOn database (smallTree.createProof pairHash 0) = .ok ⟨5, [5, 36], 0, 1323⟩ :=
  ⟨pairHash_nonzero, pairHash_collisionFree, _, rfl, by decide, by decide, by decide⟩

end MerkleProofService
