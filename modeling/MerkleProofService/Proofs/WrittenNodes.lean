/-
Module: MerkleProofService.Proofs.WrittenNodes
Layer: Proofs
Purpose: What a batch shows before it is written and what the storage shows afterwards.  A zero is
  written as an entry without bytes, which is read as an absent node, that is, as the empty
  branch of its level.  The two agree exactly if zeros are only left at leaves and the empty
  leaf is zero.
Imports: Proofs.BatchWrites
Trusted boundary: none
Main exports: getEmptyBranchValue_eq_zero_iff, written_shows_batch_iff
-/
import MerkleProofService.Proofs.BatchWrites

namespace MerkleProofService

open Library
open LawfulBuffer (content Over)

/-! ### When an empty branch is zero -/

section Table

variable {poseidon : PoseidonHash} {tree : SparseMerkleTree}

/-- The table starts with the hash it is filled above. -/
theorem fillEmptyBranches_ground {count : Nat} {prevHash : U256} {level : TreeLevel}
    {levels : List U256}
    (filled : SparseMerkleTree.fillEmptyBranches poseidon prevHash level count = .ok levels) :
    levels[0]? = some prevHash := by
  obtain ⟨empty, ground, _, rfl⟩ := fillEmptyBranches_eq_ok filled
  simp [ground]

/-- Above its first level the table holds hashes, which are never zero. -/
theorem fillEmptyBranches_nonzero (nonzero : NeverZero poseidon) {count : Nat}
    {prevHash : U256} {level : TreeLevel} {levels : List U256}
    (filled : SparseMerkleTree.fillEmptyBranches poseidon prevHash level count = .ok levels) :
    ∀ step value, levels[step + 1]? = some value → value ≠ 0 := by
  obtain ⟨empty, _, chain, rfl⟩ := fillEmptyBranches_eq_ok filled
  intro step value found
  rw [List.getElem?_map, Option.map_eq_some_iff] at found
  obtain ⟨position, inside, rfl⟩ := found
  obtain ⟨small, rfl⟩ := List.getElem?_eq_some_iff.mp inside
  rw [List.length_range] at small
  rw [List.getElem_range]
  exact NeverZero.calculateHash_ne_zero nonzero (chain step (by omega))

/-- The depths for which a table can be calculated. -/
theorem calculateEmptyBranchHashes_eq_ok {levels : List U256}
    (calculated : tree.calculateEmptyBranchHashes poseidon = .ok levels) :
    1 ≤ tree.depth.toNat ∧ tree.depth.toNat < 255 ∧
      SparseMerkleTree.fillEmptyBranches poseidon tree.emptyLeaf 1 tree.depth.toNat =
        .ok levels := by
  have bound := tree.depth.toNat_lt
  unfold SparseMerkleTree.calculateEmptyBranchHashes at calculated
  by_cases none : tree.depth < 1
  · rw [if_pos none] at calculated
    cases calculated
  · rw [if_neg none] at calculated
    by_cases wraps : tree.depth + 1 = 0
    · rw [if_pos wraps] at calculated
      cases calculated
    · rw [if_neg wraps] at calculated
      rw [UInt8.lt_iff_toNat_lt] at none
      have one : (1 : UInt8).toNat = 1 := rfl
      have apart : tree.depth.toNat ≠ 255 := fun same =>
        wraps (UInt8.toNat_inj.mp (by rw [UInt8.toNat_add, same]; rfl))
      exact ⟨by omega, by omega, calculated⟩

theorem getEmptyBranchValue_eq_zero_iff {depth : TreeLevel} {emptyValue : U256}
    {registryIndex : RegistryIndex} (spec : PoseidonSpec poseidon)
    (made : TreeOf poseidon depth emptyValue registryIndex tree) (level : TreeLevel)
    (within : level.toNat ≤ depth.toNat) :
    (tree.getEmptyBranchValue poseidon level).map Prod.fst = .ok 0 ↔
      level = 0 ∧ emptyValue = 0 ∧ 1 ≤ depth.toNat ∧ depth.toNat < 255 := by
  obtain ⟨rfl, rfl, _⟩ := made.shape
  constructor
  · intro zero
    obtain ⟨⟨value, filled⟩, answer, rfl⟩ := except_map_eq_ok.mp zero
    obtain ⟨levels, table, entry, _⟩ := getEmptyBranchValue_eq_ok answer
    obtain ⟨positive, shallow, calculated⟩ :=
      calculateEmptyBranchHashes_eq_ok (emptyBranchTable_eq_ok made.cacheSound table)
    have ground := fillEmptyBranches_ground calculated
    have nonzero := fillEmptyBranches_nonzero spec.nonzero calculated
    have leaf : level.toNat = 0 := by
      by_contra inner
      rw [← Nat.sub_add_cancel (Nat.pos_of_ne_zero inner)] at entry
      exact nonzero _ _ entry rfl
    rw [leaf, ground] at entry
    exact ⟨UInt8.toNat_inj.mp leaf, Option.some.inj entry, positive, shallow⟩
  · rintro ⟨rfl, zero, positive, shallow⟩
    have field : InField tree.emptyLeaf := by
      rw [zero]
      decide
    obtain ⟨empty, branches, _⟩ :=
      emptyBranches_exist spec.closed field positive shallow made.cacheSound
    rw [branches.answered 0 within]
    exact congrArg Except.ok (branches.ground.trans zero)

/-- An empty slot can be read exactly if the empty leaf is in the field and the depth is one for
which there is a table. -/
theorem getEmptyBranchValue_answered_iff {depth : TreeLevel} {emptyValue : U256}
    {registryIndex : RegistryIndex} (strict : StrictPoseidonSpec poseidon)
    (made : TreeOf poseidon depth emptyValue registryIndex tree) :
    (∃ branch, (tree.getEmptyBranchValue poseidon 0).map Prod.fst = .ok branch) ↔
      InField emptyValue ∧ 1 ≤ depth.toNat ∧ depth.toNat < 255 := by
  obtain ⟨rfl, rfl, _⟩ := made.shape
  constructor
  · rintro ⟨branch, answered⟩
    obtain ⟨⟨value, filled⟩, answer, rfl⟩ := except_map_eq_ok.mp answered
    obtain ⟨levels, table, _, _⟩ := getEmptyBranchValue_eq_ok answer
    obtain ⟨positive, shallow, calculated⟩ :=
      calculateEmptyBranchHashes_eq_ok (emptyBranchTable_eq_ok made.cacheSound table)
    -- the first hash of the table is that of two empty leaves
    obtain ⟨empty, ground, chain, _⟩ := fillEmptyBranches_eq_ok calculated
    obtain ⟨field, _⟩ := strict.calculateHash_field (chain 0 positive)
    exact ⟨ground ▸ field, positive, shallow⟩
  · rintro ⟨field, positive, shallow⟩
    obtain ⟨empty, branches, _⟩ :=
      emptyBranches_exist strict.closed field positive shallow made.cacheSound
    exact ⟨_, branches.answered 0 (Nat.zero_le _)⟩

end Table

/-! ### Before and after the write -/

section Write

variable {poseidon : PoseidonHash} {tree : SparseMerkleTree} {database : Database}
variable {depth : TreeLevel} {emptyValue : U256} {registryIndex : RegistryIndex}
variable {before : Batch} {batch : BatchWithLeavesBuffer}

/-- One node is shown alike before and after the write unless it is a zero that is no empty
leaf. -/
theorem written_node_iff (spec : PoseidonSpec poseidon)
    (made : TreeOf poseidon depth emptyValue registryIndex tree)
    (pending : Pending registryIndex before batch) {level : TreeLevel}
    (within : level.toNat ≤ depth.toNat) (index : TreeLeafIndex) :
    (Read.evalOn database (tree.getLeafFromBatchOrStorage poseidon batch level index)).toOption =
        (Read.evalOn (Store.write database batch.batch)
          (tree.getLeafFromStorage poseidon level index)).toOption ↔
      (content batch level index = some 0 →
        level = 0 ∧ emptyValue = 0 ∧ 1 ≤ depth.toNat ∧ depth.toNat < 255) := by
  have inside : level.toNat ≤ tree.depth.toNat := made.shape.1 ▸ within
  rw [evalOn_getLeafFromStorage_stored made.getter inside, storedLeaf_write pending]
  cases shown : content batch level index with
  | none =>
      rw [evalOn_getLeafFromBatchOrStorage_missing shown, except_toOption_mapError]
      simp only [reduceCtorEq, false_imp_iff, iff_true]
      rw [evalOn_getLeafFromStorage_stored made.getter inside]
  | some value =>
      rw [evalOn_getLeafFromBatchOrStorage_of_content shown]
      by_cases zero : value = 0
      · subst zero
        have empty := getEmptyBranchValue_eq_zero_iff spec made level within
        simp only [if_true, true_imp_iff]
        rw [← empty, ← except_toOption_eq_some, eq_comm]
        rfl
      · simp only [Option.some.injEq, zero, false_imp_iff, if_false]

/-- What a batch shows is what the storage shows after the write, exactly if zeros are only left at
leaves and the empty leaf is zero. -/
theorem written_shows_batch_iff (spec : PoseidonSpec poseidon)
    (made : TreeOf poseidon depth emptyValue registryIndex tree)
    (noNodes : ∀ level index,
      lastEffect before (makeLeafKey registryIndex level index) = none)
    {calls : List NodeCall} (levels : ∀ call ∈ calls, call.level.toNat ≤ depth.toNat)
    (called : setCalls calls (newBatchWithLeavesBuffer before registryIndex) = .ok batch)
    (database : Database) :
    (∀ level index,
      (Read.evalOn database
          (tree.getLeafFromBatchOrStorage poseidon batch level index)).toOption =
        (Read.evalOn (Store.write database batch.batch)
          (tree.getLeafFromStorage poseidon level index)).toOption) ↔
      ∀ level index, lastCall calls level index = some 0 →
        level = 0 ∧ emptyValue = 0 ∧ 1 ≤ depth.toNat ∧ depth.toNat < 255 := by
  have pending := setCalls_preserves Pending.setLeaf (Pending.new noNodes) called
  have shown : ∀ level index, content batch level index = lastCall calls level index := by
    intro level index
    rw [content_setCalls called]
    exact Option.or_none
  constructor
  · intro same level index zero
    obtain ⟨call, member, rfl, rfl, _⟩ := lastCall_mem zero
    exact (written_node_iff spec made pending (levels call member) call.index).mp
      (same call.level call.index) ((shown _ _).trans zero)
  · intro zeros level index
    by_cases within : level.toNat ≤ depth.toNat
    · refine (written_node_iff spec made pending within index).mpr fun zero => ?_
      exact zeros level index ((shown _ _).symm.trans zero)
    · -- no call is on a level above the root, and the storage refuses such a level
      have missing : content batch level index = none := by
        rw [shown, ← Option.not_isSome_iff_eq_none, lastCall_isSome]
        rintro ⟨call, member, rfl, _⟩
        exact within (levels call member)
      have deep : level > tree.depth := by
        rw [gt_iff_lt, UInt8.lt_iff_toNat_lt, made.shape.1]
        omega
      rw [evalOn_getLeafFromBatchOrStorage_missing missing, except_toOption_mapError,
        SparseMerkleTree.getLeafFromStorage, if_pos deep]
      rfl

end Write

/-- A zero overwritten later in the batch does no harm, nor does an empty leaf that is zero. -/
theorem written_shows_batch_iff_overwritten :
    ∃ batch, setCalls [⟨0, 1, 0⟩, ⟨0, 1, 7⟩, ⟨0, 3, 0⟩, ⟨1, 0, 9⟩, ⟨2, 0, 4⟩]
        (newBatchWithLeavesBuffer [] 0) = .ok batch ∧
      ∀ level index,
        (Read.evalOn ∅ ((newSparseTree 2 0 (LeafView.getter ⟨0⟩)).getLeafFromBatchOrStorage
            fieldHash batch level index)).toOption =
          (Read.evalOn (Store.write ∅ batch.batch)
            ((newSparseTree 2 0 (LeafView.getter ⟨0⟩)).getLeafFromStorage fieldHash level
              index)).toOption := by
  obtain ⟨batch, called⟩ := setCalls_total
    [⟨0, 1, 0⟩, ⟨0, 1, 7⟩, ⟨0, 3, 0⟩, ⟨1, 0, 9⟩, ⟨2, 0, 4⟩] (newBatchWithLeavesBuffer [] 0)
  refine ⟨batch, called, (written_shows_batch_iff fieldHash_spec TreeOf.created (fun _ _ => rfl)
    (by decide) called ∅).mpr ?_⟩
  intro level index zero
  obtain ⟨call, member, rfl, _, value⟩ := lastCall_mem zero
  refine ⟨?_, rfl, by decide, by decide⟩
  have grounded :
      ∀ call ∈ ([⟨0, 1, 0⟩, ⟨0, 1, 7⟩, ⟨0, 3, 0⟩, ⟨1, 0, 9⟩, ⟨2, 0, 4⟩] : List NodeCall),
        call.value = 0 → call.level = 0 := by decide
  exact grounded call member value

/-- A zero set at a leaf is shown by the batch, and after the write the leaf is the empty one. -/
theorem zero_leaf_lost :
    ∃ batch, setCalls [⟨0, 0, 0⟩] (newBatchWithLeavesBuffer [] 0) = .ok batch ∧
      Read.evalOn ∅ ((newSparseTree 2 5 (LeafView.getter ⟨0⟩)).getLeafFromBatchOrStorage
        fieldHash batch 0 0) = .ok 0 ∧
      Read.evalOn (Store.write ∅ batch.batch)
        ((newSparseTree 2 5 (LeafView.getter ⟨0⟩)).getLeafFromStorage fieldHash 0 0) = .ok 5 :=
  ⟨_, rfl, by decide, by decide⟩

end MerkleProofService
