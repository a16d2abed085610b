/-
Module: MerkleProofService.Proofs.OverlayProofs
Layer: Proofs
Purpose: A proof over a simulation is the proof the storage would give if the simulation were
  written to it.  The two walks find the same siblings, one by parity and one by an exclusive or,
  and every node on them is read alike; neither needs the tree to be consistent or the index to be
  one of the tree.  The overlay itself is an exact map from levels and indexes to values.
Imports: Proofs.BatchWrites
Trusted boundary: none
Main exports: xor_one_eq, toOption_getLeafFromBatchOrStorage, ReadsAlike,
  ReadsAlike.createProof, overlay_proof_eq_stored_proof, SimulationBatch.getLeaf_setCalls,
  simulation_overlay_exact
-/
import MerkleProofService.Proofs.BatchWrites

namespace MerkleProofService

open Library
open LawfulBuffer (content Over)

/-- The sibling by parity is the sibling by exclusive or. -/
theorem xor_one_eq (index : TreeLeafIndex) :
    index ^^^ 1 = if index % 2 = 0 then index + 1 else index - 1 := by
  apply UInt32.toNat_inj.mp
  rw [toNat_xor_one]
  by_cases even : index % 2 = 0
  · rw [if_pos even, toNat_add_one_of_even ((uint32_mod_two_eq_zero index).mp even)]
  · rw [if_neg even, toNat_sub_one_of_odd fun parity =>
      even ((uint32_mod_two_eq_zero index).mpr parity)]

section Walks

variable {poseidon : PoseidonHash} {tree : SparseMerkleTree} {database database' : Database}
variable {Buffer : Type} [TreeLeafGetterSetter Buffer]

/-- The node is read through the buffer over one database as it is read from the other. -/
def ReadsAlike (poseidon : PoseidonHash) (tree : SparseMerkleTree) (database : Database)
    (batch : Buffer) (database' : Database) : Prop :=
  ∀ (level : TreeLevel) (index : TreeLeafIndex), level.toNat ≤ tree.depth.toNat →
    (Read.evalOn database (tree.getLeafFromBatchOrStorage poseidon batch level index)).toOption =
      (Read.evalOn database' (tree.getLeafFromStorage poseidon level index)).toOption

/-- Both walks collect the same siblings. -/
theorem ReadsAlike.createProofPath {batch : Buffer}
    (alike : ReadsAlike poseidon tree database batch database') :
    ∀ {count : Nat} (level : TreeLevel) (index : TreeLeafIndex),
      level.toNat + count = tree.depth.toNat →
      (Read.evalOn database
          (tree.createProofWithBatchPath poseidon batch count level index)).toOption =
        (Read.evalOn database' (tree.createProofPath poseidon count level index)).toOption
  | 0, _, _, _ => rfl
  | count + 1, level, index, reach => by
      have below : level.toNat < tree.depth.toNat := by omega
      have up := toNat_succ_level below
      have rest := @createProofPath batch alike count (level + 1) (index / 2)
        (by omega)
      have sibling := xor_one_eq index
      rw [SparseMerkleTree.createProofWithBatchPath, SparseMerkleTree.createProofPath]
      by_cases even : index % 2 = 0
      · rw [if_pos even] at sibling
        simp only [if_pos even, Program.bind_eq, Read.evalOn_bind, Read.evalOn_ctxDone,
          except_bind_ok, except_toOption_bind, Read.evalOn_wrapf, except_toOption_mapError]
        rw [alike level (index ^^^ 1) below.le, sibling, rest]
        rfl
      · rw [if_neg even] at sibling
        simp only [if_neg even, Program.bind_eq, Read.evalOn_bind, Read.evalOn_ctxDone,
          except_bind_ok, except_toOption_bind, Read.evalOn_wrapf, except_toOption_mapError]
        rw [alike level (index ^^^ 1) below.le, sibling, rest]
        rfl

/-- So both proofs are the same. -/
theorem ReadsAlike.createProof {batch : Buffer}
    (alike : ReadsAlike poseidon tree database batch database') (index : TreeLeafIndex) :
    (Read.evalOn database (tree.createProofWithBatch poseidon batch index)).toOption =
      (Read.evalOn database' (tree.createProof poseidon index)).toOption := by
  have leaf := alike 0 index (Nat.zero_le _)
  have path := alike.createProofPath 0 index (Nat.zero_add tree.depth.toNat)
  have root := alike tree.depth 0 (Nat.le_refl _)
  rw [SparseMerkleTree.createProofWithBatch, SparseMerkleTree.createProof,
    SparseMerkleTree.getRoot]
  simp only [Program.bind_eq, Read.evalOn_bind, except_toOption_bind, Read.evalOn_wrapf,
    except_toOption_mapError]
  rw [leaf, path, root]
  rfl

variable [LawfulBuffer Buffer]

/-- Where the buffer shows nothing, a node is read as the storage has it. -/
theorem toOption_getLeafFromBatchOrStorage {batch : Buffer}
    (backed : Over batch tree.storageLeafGetter) {level : TreeLevel} {index : TreeLeafIndex}
    (within : level.toNat ≤ tree.depth.toNat) (absent : content batch level index = none) :
    (Read.evalOn database (tree.getLeafFromBatchOrStorage poseidon batch level index)).toOption =
      (Read.evalOn database (tree.getLeafFromStorage poseidon level index)).toOption := by
  ext value
  rw [except_toOption_eq_some, except_toOption_eq_some]
  constructor
  · exact getLeafFromStorage_of_buffer backed within absent
  · intro stored
    rw [evalOn_getLeafFromBatchOrStorage_of_read backed stored, absent]
    rfl

/-- A buffer whose values the written batch holds as well, none of them zero, is read like the
storage after the write. -/
theorem readsAlike_write {registryIndex : RegistryIndex} {before : Batch} {batch : Buffer}
    {stored : BatchWithLeavesBuffer}
    (getter : tree.storageLeafGetter = LeafView.getter ⟨registryIndex⟩)
    (backed : Over batch tree.storageLeafGetter) (pending : Pending registryIndex before stored)
    (same : ∀ level index, content batch level index = content stored level index)
    (nonzero : ∀ level index, content batch level index ≠ some 0) :
    ReadsAlike poseidon tree database batch (Store.write database stored.batch) := by
  intro level index within
  rw [evalOn_getLeafFromStorage_stored getter within, storedLeaf_write pending, ← same]
  cases shown : content batch level index with
  | none =>
      rw [toOption_getLeafFromBatchOrStorage backed within shown,
        evalOn_getLeafFromStorage_stored getter within]
  | some value =>
      have other : value ≠ 0 := by
        rintro rfl
        exact nonzero level index shown
      rw [evalOn_getLeafFromBatchOrStorage_of_content shown]
      simp only [if_neg other]

end Walks

/-- Over an untouched simulation every proof is that of the storage, whatever the storage is.  After
any `SetLeaf` calls with nonzero values it is the proof of the storage to which a batch with the
same calls is written. -/
theorem overlay_proof_eq_stored_proof (poseidon : PoseidonHash) (tree : SparseMerkleTree)
    (database : Database) (index : TreeLeafIndex) :
    (Read.evalOn database (tree.createProofWithBatch poseidon
        (newSimulationBatch tree.storageLeafGetter) index)).toOption =
      (Read.evalOn database (tree.createProof poseidon index)).toOption ∧
    ∀ registryIndex, tree.storageLeafGetter = LeafView.getter ⟨registryIndex⟩ →
      ∀ calls : List NodeCall, (∀ call ∈ calls, call.value ≠ 0) →
        ∃ (batch : SimulationBatch) (stored : BatchWithLeavesBuffer),
          setCalls calls (newSimulationBatch tree.storageLeafGetter) = .ok batch ∧
          setCalls calls (newBatchWithLeavesBuffer [] registryIndex) = .ok stored ∧
          (Read.evalOn database (tree.createProofWithBatch poseidon batch index)).toOption =
            (Read.evalOn (Store.write database stored.batch)
              (tree.createProof poseidon index)).toOption := by
  constructor
  · have untouched : ReadsAlike poseidon tree database
        (newSimulationBatch tree.storageLeafGetter) database := fun level index within =>
      toOption_getLeafFromBatchOrStorage rfl within (Finmap.lookup_empty _)
    exact untouched.createProof index
  · intro registryIndex getter calls nonzero
    obtain ⟨batch, called⟩ := setCalls_total calls (newSimulationBatch tree.storageLeafGetter)
    obtain ⟨stored, written⟩ := setCalls_total calls (newBatchWithLeavesBuffer [] registryIndex)
    have pending := setCalls_preserves Pending.setLeaf (Pending.new fun _ _ => rfl) written
    have backed : batch.storage = tree.storageLeafGetter :=
      setCalls_preserves (fun isSet => LawfulBuffer.over_setLeaf isSet) rfl called
    have shown : ∀ level position, content batch level position =
        lastCall calls level position := by
      intro level position
      rw [content_setCalls called]
      exact Option.or_none
    have shownStored : ∀ level position, content stored level position =
        lastCall calls level position := by
      intro level position
      rw [content_setCalls written]
      exact Option.or_none
    refine ⟨batch, stored, called, written, ReadsAlike.createProof ?_ index⟩
    refine readsAlike_write getter backed pending
      (fun level position => by rw [shown, shownStored]) fun level position zero => ?_
    rw [shown] at zero
    obtain ⟨call, member, _, _, value⟩ := lastCall_mem zero
    exact nonzero call member value

/-- A tree that is not consistent: the root is no hash of its children, and index 6 is none of
its leaves. -/
theorem overlay_proof_eq_stored_proof_inconsistent :
    ∃ (batch : SimulationBatch) (stored : BatchWithLeavesBuffer) (proof : MerkleProof),
      setCalls [⟨0, 7, 3⟩, ⟨2, 0, 4⟩, ⟨1, 2, 9⟩] (newSimulationBatch (LeafView.getter ⟨0⟩)) =
        .ok batch ∧
      setCalls [⟨0, 7, 3⟩, ⟨2, 0, 4⟩, ⟨1, 2, 9⟩] (newBatchWithLeavesBuffer [] 0) = .ok stored ∧
      Read.evalOn ∅ ((newSparseTree 2 5 (LeafView.getter ⟨0⟩)).createProofWithBatch fieldHash
        batch 6) = .ok proof ∧
      Read.evalOn (Store.write ∅ stored.batch)
        ((newSparseTree 2 5 (LeafView.getter ⟨0⟩)).createProof fieldHash 6) = .ok proof ∧
      proof.path = [3, 9] ∧ proof.root = 4 := by
  obtain ⟨batch, stored, called, written, same⟩ :=
    (overlay_proof_eq_stored_proof fieldHash (newSparseTree 2 5 (LeafView.getter ⟨0⟩)) ∅ 6).2 0 rfl
      [⟨0, 7, 3⟩, ⟨2, 0, 4⟩, ⟨1, 2, 9⟩] (by decide)
  have proved : (setCalls [⟨0, 7, 3⟩, ⟨2, 0, 4⟩, ⟨1, 2, 9⟩]
      (newSimulationBatch (LeafView.getter ⟨0⟩))).bind (fun batch =>
        Read.evalOn ∅ ((newSparseTree 2 5 (LeafView.getter ⟨0⟩)).createProofWithBatch fieldHash
          batch 6)) = .ok ⟨5, [3, 9], 6, 4⟩ := by decide
  obtain ⟨other, calledAgain, proof⟩ := except_bind_eq_ok.mp proved
  obtain rfl := Except.ok.inj (called.symm.trans calledAgain)
  refine ⟨batch, stored, _, called, written, proof, ?_, rfl, rfl⟩
  rw [proof] at same
  exact except_toOption_eq_some.mp same.symm

/-! ### The overlay as a map -/

/-- A call with no later one on its position is the last one there. -/
theorem lastCall_append_cons {before after : List NodeCall} {call : NodeCall}
    (final : ¬ Touches after call.level call.index) :
    lastCall (before ++ call :: after) call.level call.index = some call.value := by
  have silent : lastCall after call.level call.index = none := by
    rwa [← lastCall_isSome, Option.not_isSome_iff_eq_none] at final
  induction before with
  | nil => simp [lastCall, silent]
  | cons first before ih => rw [List.cons_append, lastCall, ih, Option.some_or]

/-- After any calls a simulation answers with the last call on a position, else like the batch
the calls started from. -/
theorem SimulationBatch.getLeaf_setCalls {calls : List NodeCall} {batch batch' : SimulationBatch}
    (run : setCalls calls batch = .ok batch') (level : TreeLevel) (index : TreeLeafIndex) :
    batch'.getLeaf level index =
      ((lastCall calls level index).map Program.done).getD (batch.getLeaf level index) := by
  have same : batch'.storage = batch.storage :=
    setCalls_preserves (fun isSet => LawfulBuffer.over_setLeaf isSet) rfl run
  have shown : batch'.buffer.lookup (makeSimKey level index) =
      (lastCall calls level index).or (batch.buffer.lookup (makeSimKey level index)) :=
    content_setCalls run level index
  rw [SimulationBatch.getLeaf, SimulationBatch.getLeaf, shown, same]
  cases lastCall calls level index with
  | none => rfl
  | some value => rfl

/-- The simulation overlay is an exact map over its storage: a position shows the last call on
exactly that level and index, a position without a call shows what the storage answers there, and
a further call is seen at no other position, since its decimal key belongs to it alone. -/
theorem simulation_overlay_exact (storage : TreeLeafGetter) (calls : List NodeCall) :
    (∃ batch : SimulationBatch, setCalls calls (newSimulationBatch storage) = .ok batch ∧
      ∀ (level : TreeLevel) (index : TreeLeafIndex),
        (∀ before value after, calls = before ++ ⟨level, index, value⟩ :: after →
          ¬ Touches after level index → batch.getLeaf level index = .done value) ∧
        (¬ Touches calls level index →
          batch.getLeaf level index = storage.getLeaf level index) ∧
        ∀ (call : NodeCall) (batch' : SimulationBatch),
          batch.setLeaf call.level call.index call.value = .ok batch' →
          ¬ (level = call.level ∧ index = call.index) →
            batch'.getLeaf level index = batch.getLeaf level index) ∧
    ∀ (level other : TreeLevel) (index otherIndex : TreeLeafIndex),
      makeSimKey level index = makeSimKey other otherIndex →
        level = other ∧ index = otherIndex := by
  constructor
  · obtain ⟨batch, run⟩ := setCalls_total calls (newSimulationBatch storage)
    refine ⟨batch, run, fun level index => ⟨?_, ?_, ?_⟩⟩
    · rintro before value after rfl final
      rw [SimulationBatch.getLeaf_setCalls run, @lastCall_append_cons before after _ final]
      rfl
    · intro untouched
      rw [← lastCall_isSome, Option.not_isSome_iff_eq_none] at untouched
      rw [SimulationBatch.getLeaf_setCalls run, untouched]
      rfl
    · intro call batch' isSet elsewhere
      have once : setCalls [call] batch = .ok batch' := by
        rw [setCalls]
        exact except_bind_eq_ok.mpr ⟨batch', isSet, rfl⟩
      have silent : lastCall [call] level index = none := if_neg elsewhere
      rw [SimulationBatch.getLeaf_setCalls once, silent]
      rfl
  · intro level other index otherIndex
    exact makeSimKey_inj.mp

end MerkleProofService
