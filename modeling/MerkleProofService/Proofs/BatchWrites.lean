/-
Module: MerkleProofService.Proofs.BatchWrites
Layer: Proofs
Purpose: From a batch with leaves to the database it is written to.  Every node that is set goes
  both into the buffer and into the database batch, so after the write the storage shows what
  the buffer showed.  The one exception is a zero, which is stored as an absent node: it is
  harmless where the empty leaf is zero and cannot be a hash.
Imports: Proofs.ProofPaths, Proofs.NodeCalls, Proofs.InsertionReads
Trusted boundary: none
Main exports: Pending, Pending.setLeaf, storedLeaf_write, Storable, Inserted.storable,
  Pending.readsNodes, Filled, Filled.storedLeaf_above, Filled.readNodes_eq
-/
import MerkleProofService.Proofs.ProofPaths
import MerkleProofService.Proofs.NodeCalls
import MerkleProofService.Proofs.InsertionReads

namespace MerkleProofService

open Library
open TreeLeafGetterSetter (getLeaf setLeaf)
open LawfulBuffer (content Over)

/-! ### The batch and its buffer say the same -/

/-- A batch of the registry over the operations `before` that were queued first: its nodes are
those of the buffer, and beside the nodes nothing was queued. -/
structure Pending (registryIndex : RegistryIndex) (before : Batch)
    (batch : BatchWithLeavesBuffer) : Prop where
  index_eq : batch.index = registryIndex
  nodes : ∀ level index,
    lastEffect batch.batch (makeLeafKey registryIndex level index) =
      (content batch level index).map fun value => some value.bytes
  frame : ∀ key, NoNodeKey registryIndex key →
    lastEffect batch.batch key = lastEffect before key

theorem Pending.new {registryIndex : RegistryIndex} {before : Batch}
    (noNodes : ∀ level index,
      lastEffect before (makeLeafKey registryIndex level index) = none) :
    Pending registryIndex before (newBatchWithLeavesBuffer before registryIndex) where
  index_eq := rfl
  nodes := fun level index => noNodes level index
  frame := fun _ _ => rfl

theorem Pending.setLeaf {registryIndex : RegistryIndex} {before : Batch} :
    SetPreserves (Pending registryIndex before) := by
  intro batch batch' level index value isSet pending
  have shown := LawfulBuffer.content_setLeaf isSet
  rcases pending.index_eq with ⟨rfl⟩
  rw [BatchWithLeavesBuffer.setLeaf_eq, Except.ok.injEq] at isSet
  have sameIndex : batch'.index = batch.index := by rw [← isSet]
  have appended : batch'.batch =
      batch.batch ++ [.set (makeLeafKey batch.index level index) value.bytes] := by rw [← isSet]
  refine ⟨sameIndex, fun level' index' => ?_, fun key outside => ?_⟩
  · rw [appended, lastEffect_append, lastEffect_singleton, shown]
    by_cases here : level' = level ∧ index' = index
    · rcases here with ⟨rfl, rfl⟩
      simp [WriteOp.key, WriteOp.left]
    · have other : makeLeafKey batch.index level index ≠
          makeLeafKey batch.index level' index' := by
        intro same
        simp only [makeLeafKey_inj, true_and] at same
        exact here ⟨same.1.symm, same.2.symm⟩
      rw [if_neg here, WriteOp.key, if_neg other, Option.none_or, pending.nodes]
  · rw [appended, lastEffect_append, lastEffect_singleton, WriteOp.key,
      if_neg (outside level index).symm, Option.none_or, pending.frame key outside]

/-! ### After the write -/

/-- A pending value that the storage gives back after the write: any but zero, and as a leaf
also the empty leaf, which an absent node stands for. -/
def Storable (tree : SparseMerkleTree) (batch : BatchWithLeavesBuffer) : Prop :=
  ∀ (level : TreeLevel) (index : TreeLeafIndex) (value : U256),
    level.toNat ≤ tree.depth.toNat → content batch level index = some value →
      value ≠ 0 ∨ level = 0 ∧ value = tree.emptyLeaf

section Write

variable {poseidon : PoseidonHash} {tree : SparseMerkleTree} {database : Database}
variable {registryIndex : RegistryIndex} {before : Batch} {batch : BatchWithLeavesBuffer}
variable {nodes : Nat → Nat → U256}

theorem storedLeaf_write (pending : Pending registryIndex before batch)
    (level : TreeLevel) (index : TreeLeafIndex) :
    storedLeaf (Store.write database batch.batch) registryIndex level index =
      match content batch level index with
      | some value => if value = 0 then none else some value
      | none => storedLeaf database registryIndex level index := by
  rw [storedLeaf, Store.lookup_write, pending.nodes]
  cases content batch level index with
  | none => rfl
  | some value => exact nodeOfEntry_bytes value

/-- A fresh buffer holds nothing. -/
theorem storable_new : Storable tree (newBatchWithLeavesBuffer before registryIndex) := by
  intro level index value _ shown
  cases shown

/-- Inserting leaves the storage can give back keeps the batch so: above the leaves an insertion
leaves hashes, which are never zero. -/
theorem Inserted.storable {leaves : List TreeLeaf} {batch' : BatchWithLeavesBuffer}
    (spec : PoseidonSpec poseidon)
    (inserted : Inserted poseidon tree nodes leaves batch batch')
    (values : ∀ leaf ∈ leaves, leaf.value ≠ 0 ∨ leaf.value = tree.emptyLeaf)
    (storable : Storable tree batch) : Storable tree batch' := by
  intro level index value within shown
  by_cases above : Above (dirtyLeaves leaves) level.toNat index.toNat
  · by_cases ground : level = 0
    · subst ground
      rw [inserted.ground, Option.or_eq_some_iff] at shown
      rcases shown with written | ⟨_, kept⟩
      · obtain ⟨leaf, member, _, rfl⟩ := lastWrite_mem written
        rcases values leaf member with nonzero | empty
        · exact Or.inl nonzero
        · exact Or.inr ⟨rfl, empty⟩
      · exact storable 0 index value within kept
    · have positive : level.toNat ≠ 0 := by
        intro zero
        exact ground (UInt8.toNat_inj.mp (by simpa using zero))
      have split : level.toNat - 1 + 1 = level.toNat := by omega
      have hashed := inserted.hashed (level.toNat - 1) index.toNat (by omega)
        (by rw [split]; exact above)
      rw [split, overlay_toNat, shown] at hashed
      exact Or.inl (NeverZero.calculateHash_ne_zero spec.nonzero hashed)
  · rw [inserted.beside level index fun here => above here.2] at shown
    exact storable level index value within shown

/-- What the empty branch of level 0 is, wherever the table can be calculated at all. -/
theorem readsEmptyLeaf (branches : ∃ empty, EmptyBranches poseidon tree empty) :
    (tree.getEmptyBranchValue poseidon 0).map Prod.fst = .ok tree.emptyLeaf := by
  rcases branches with ⟨empty, table⟩
  rw [← table.ground]
  exact table.answered 0 (Nat.zero_le _)

/-- After the write the storage shows the value the buffer showed. -/
theorem Pending.read_some (pending : Pending registryIndex before batch)
    (getter : tree.storageLeafGetter = LeafView.getter ⟨registryIndex⟩)
    {level : TreeLevel} (within : level.toNat ≤ tree.depth.toNat) {index : TreeLeafIndex}
    (zeroShown : content batch level index = some 0 →
      (tree.getEmptyBranchValue poseidon level).map Prod.fst = .ok 0) {value : U256}
    (shown : content batch level index = some value) :
    Read.evalOn (Store.write database batch.batch)
      (tree.getLeafFromStorage poseidon level index) = .ok value := by
  rw [evalOn_getLeafFromStorage_stored getter within, storedLeaf_write pending, shown]
  by_cases zero : value = 0
  · subst zero
    exact zeroShown shown
  · simp only [if_neg zero]

/-- Where the buffer shows nothing the storage shows what it did. -/
theorem Pending.read_none (pending : Pending registryIndex before batch)
    (getter : tree.storageLeafGetter = LeafView.getter ⟨registryIndex⟩) {level : TreeLevel}
    (within : level.toNat ≤ tree.depth.toNat) {index : TreeLeafIndex}
    (absent : content batch level index = none) :
    Read.evalOn (Store.write database batch.batch)
        (tree.getLeafFromStorage poseidon level index) =
      Read.evalOn database (tree.getLeafFromStorage poseidon level index) := by
  rw [evalOn_getLeafFromStorage_stored getter within, storedLeaf_write pending, absent,
    evalOn_getLeafFromStorage_stored getter within]

/-- What can be read through the buffer before the write can be read after it. -/
theorem Pending.read_overlay (pending : Pending registryIndex before batch)
    (getter : tree.storageLeafGetter = LeafView.getter ⟨registryIndex⟩)
    {level : TreeLevel} (within : level.toNat ≤ tree.depth.toNat) {index : TreeLeafIndex}
    (zeroShown : content batch level index = some 0 →
      (tree.getEmptyBranchValue poseidon level).map Prod.fst = .ok 0)
    (available : (content batch level index).isSome ∨
      Readable poseidon tree database level index) :
    Read.evalOn (Store.write database batch.batch)
        (tree.getLeafFromStorage poseidon level index) =
      .ok (overlay batch (readNodes poseidon tree database) level.toNat index.toNat) := by
  rw [overlay_toNat]
  cases shown : content batch level index with
  | some value => exact pending.read_some getter within zeroShown shown
  | none =>
      rw [shown] at available
      obtain ⟨value, read⟩ := available.resolve_left (by simp)
      rw [pending.read_none getter within shown, read, Option.getD_none, readNodes_of_ok read]

/-- After the write the storage shows the nodes the buffer showed. -/
theorem Pending.readsNodes (pending : Pending registryIndex before batch)
    (getter : tree.storageLeafGetter = LeafView.getter ⟨registryIndex⟩)
    (reads : ReadsNodes poseidon tree database nodes) (storable : Storable tree batch)
    (zeroEmpty : tree.emptyLeaf = 0 → ∃ empty, EmptyBranches poseidon tree empty) :
    ReadsNodes poseidon tree (Store.write database batch.batch) (overlay batch nodes) := by
  intro level index inside
  rw [overlay_toNat]
  cases shown : content batch level index with
  | none =>
      rw [pending.read_none getter inside.1 shown]
      exact reads level index inside
  | some value =>
      refine pending.read_some getter inside.1 (fun zero => ?_) shown
      -- a zero that is storable is what an empty branch shows
      rcases storable level index 0 inside.1 zero with nonzero | ⟨ground, empty⟩
      · exact absurd rfl nonzero
      · rw [ground, readsEmptyLeaf (zeroEmpty empty.symm), ← empty]

/-! ### A batch filled by insertions -/

/-- A batch filled with `leaves` over the database, before it is written. -/
structure Filled (poseidon : PoseidonHash) (tree : SparseMerkleTree)
    (registryIndex : RegistryIndex) (database : Database) (leaves : List TreeLeaf)
    (before : Batch) (batch : BatchWithLeavesBuffer) : Prop where
  pending : Pending registryIndex before batch
  inserted : Inserted poseidon tree (readNodes poseidon tree database) leaves
    (newBatchWithLeavesBuffer before registryIndex) batch
  reads : ∀ (level : TreeLevel) (index : TreeLeafIndex), level.toNat < tree.depth.toNat →
    Above (dirtyLeaves leaves) (level.toNat + 1) (index.toNat / 2) →
    (content batch level index).isSome ∨ Readable poseidon tree database level index

namespace Filled

variable {leaves : List TreeLeaf}
variable (filled : Filled poseidon tree registryIndex database leaves before batch)

include filled

/-- Beside the nodes above its leaves the batch shows nothing. -/
theorem content_none {level : TreeLevel} {index : TreeLeafIndex}
    (clean : ¬ Above (dirtyLeaves leaves) level.toNat index.toNat) :
    content batch level index = none := by
  rw [filled.inserted.beside level index fun here => clean here.2]
  rfl

/-- A zero it shows is a leaf. -/
theorem zero_shown (nonzero : NeverZero poseidon) {level : TreeLevel} {index : TreeLeafIndex}
    (within : level.toNat ≤ tree.depth.toNat) (shown : content batch level index = some 0) :
    level = 0 ∧ lastWrite leaves index = some 0 := by
  by_cases ground : level = 0
  · subst ground
    rw [filled.inserted.ground] at shown
    exact ⟨rfl, Option.or_none.symm.trans shown⟩
  · have positive : level.toNat ≠ 0 := fun zero => ground (UInt8.toNat_inj.mp zero)
    have split : level.toNat - 1 + 1 = level.toNat := by omega
    by_cases above : Above (dirtyLeaves leaves) level.toNat index.toNat
    · have hashed := filled.inserted.hashed (level.toNat - 1) index.toNat (by omega)
        (by rwa [split])
      rw [split, overlay_toNat, shown] at hashed
      exact absurd rfl (nonzero.calculateHash_ne_zero hashed)
    · rw [filled.content_none above] at shown
      cases shown

/-- Beside the nodes above the leaves the write leaves what is stored. -/
theorem storedLeaf_beside {level : TreeLevel} {index : TreeLeafIndex}
    (clean : ¬ Above (dirtyLeaves leaves) level.toNat index.toNat) :
    storedLeaf (Store.write database batch.batch) registryIndex level index =
      storedLeaf database registryIndex level index := by
  rw [storedLeaf_write filled.pending, filled.content_none clean]

/-- Above the leaves it stores the nodes the batch shows. -/
theorem storedLeaf_above (nonzero : NeverZero poseidon) {level : TreeLevel}
    {index : TreeLeafIndex} (inner : level ≠ 0) (within : level.toNat ≤ tree.depth.toNat)
    (above : Above (dirtyLeaves leaves) level.toNat index.toNat) :
    ∃ value, content batch level index = some value ∧
      storedLeaf (Store.write database batch.batch) registryIndex level index = some value := by
  obtain ⟨value, shown⟩ :=
    Option.isSome_iff_exists.mp (filled.inserted.shown level index within above)
  have other : value ≠ 0 := by
    rintro rfl
    exact inner (filled.zero_shown nonzero within shown).1
  refine ⟨value, shown, ?_⟩
  rw [storedLeaf_write filled.pending, shown]
  exact if_neg other

/-- Beside the nodes above the leaves the table of readable nodes stays. -/
theorem readNodes_eq (getter : tree.storageLeafGetter = LeafView.getter ⟨registryIndex⟩)
    {level : TreeLevel} (within : level.toNat ≤ tree.depth.toNat) {index : TreeLeafIndex}
    (clean : ¬ Above (dirtyLeaves leaves) level.toNat index.toNat) :
    readNodes poseidon tree (Store.write database batch.batch) level.toNat index.toNat =
      readNodes poseidon tree database level.toNat index.toNat := by
  simp only [readNodes, UInt8.ofNat_toNat, UInt32.ofNat_toNat]
  rw [filled.pending.read_none getter within (filled.content_none clean)]

end Filled

end Write

end MerkleProofService
