/-
Module: MerkleProofService.Proofs.NodeCalls
Layer: Proofs
Purpose: Sequences of `SetLeaf` calls.  A buffer shows the value of the last call on a position, and
  a batch queues it.  An insertion is such a sequence, and the positions it calls on are exactly
  the nodes above its leaves, from the leaves up to the level of the root.
Imports: Proofs.Insertion
Trusted boundary: none
Main exports: NodeCall, setCalls, lastCall, Touches, content_setCalls, lastEffect_setCalls,
  insertLeaves_calls, insertLeaves_preserves
-/
import MerkleProofService.Proofs.Insertion

namespace MerkleProofService

open Library
open TreeLeafGetterSetter (getLeaf setLeaf)
open LawfulBuffer (content Over)

/-- One `SetLeaf` call. -/
structure NodeCall where
  level : TreeLevel
  index : TreeLeafIndex
  value : U256
deriving DecidableEq, Repr

/-- A sequence of `SetLeaf` calls on a buffer. -/
def setCalls {Buffer : Type} [TreeLeafGetterSetter Buffer] :
    List NodeCall → Buffer → Except GoError Buffer
  | [], batch => .ok batch
  | call :: calls, batch =>
      (setLeaf batch call.level call.index call.value).bind (setCalls calls)

/-- The value of the last call on a position. -/
def lastCall : List NodeCall → TreeLevel → TreeLeafIndex → Option U256
  | [], _, _ => none
  | call :: calls, level, index =>
      (lastCall calls level index).or
        (if level = call.level ∧ index = call.index then some call.value else none)

/-- Some call is on the position. -/
def Touches (calls : List NodeCall) (level : TreeLevel) (index : TreeLeafIndex) : Prop :=
  ∃ call ∈ calls, level = call.level ∧ index = call.index

@[simp] theorem touches_nil (level : TreeLevel) (index : TreeLeafIndex) :
    ¬ Touches [] level index := by
  rintro ⟨_, member, _⟩
  cases member

@[simp] theorem touches_cons {call : NodeCall} {calls : List NodeCall} {level : TreeLevel}
    {index : TreeLeafIndex} :
    Touches (call :: calls) level index ↔
      (level = call.level ∧ index = call.index) ∨ Touches calls level index := by
  simp [Touches]

theorem touches_append {first second : List NodeCall} {level : TreeLevel}
    {index : TreeLeafIndex} :
    Touches (first ++ second) level index ↔
      Touches first level index ∨ Touches second level index := by
  simp only [Touches, List.mem_append, or_and_right, exists_or]

theorem lastCall_isSome {calls : List NodeCall} {level : TreeLevel} {index : TreeLeafIndex} :
    (lastCall calls level index).isSome ↔ Touches calls level index := by
  induction calls with
  | nil => simp [lastCall]
  | cons call calls ih =>
      rw [lastCall, Option.isSome_or, Bool.or_eq_true, ih, touches_cons, or_comm]
      by_cases here : level = call.level ∧ index = call.index <;> simp [here]

/-- A value left at a position is carried by one of the calls on it. -/
theorem lastCall_mem {calls : List NodeCall} {level : TreeLevel} {index : TreeLeafIndex}
    {value : U256} (left : lastCall calls level index = some value) :
    ∃ call ∈ calls, level = call.level ∧ index = call.index ∧ call.value = value := by
  induction calls with
  | nil => cases left
  | cons call calls ih =>
      rw [lastCall, Option.or_eq_some_iff] at left
      rcases left with later | ⟨_, here⟩
      · obtain ⟨found, member, position⟩ := ih later
        exact ⟨found, List.mem_cons_of_mem call member, position⟩
      · by_cases same : level = call.level ∧ index = call.index
        · rw [if_pos same] at here
          exact ⟨call, List.mem_cons_self, same.1, same.2, Option.some.inj here⟩
        · rw [if_neg same] at here
          cases here

section Calls

variable {Buffer : Type} [TreeLeafGetterSetter Buffer]

theorem setCalls_append {first second : List NodeCall} {batch : Buffer} :
    setCalls (first ++ second) batch = (setCalls first batch).bind (setCalls second) := by
  induction first generalizing batch with
  | nil => rfl
  | cons call calls ih =>
      rw [List.cons_append, setCalls, setCalls]
      cases setLeaf batch call.level call.index call.value with
      | error err => rfl
      | ok batch₁ => exact ih

/-- What setting one node preserves. -/
def SetPreserves (Holds : Buffer → Prop) : Prop :=
  ∀ {batch batch' : Buffer} {level index value},
    setLeaf batch level index value = .ok batch' → Holds batch → Holds batch'

/-- What one call preserves, a sequence of calls preserves. -/
theorem setCalls_preserves {Holds : Buffer → Prop} (step : SetPreserves Holds)
    {calls : List NodeCall} {batch batch' : Buffer} (before : Holds batch)
    (run : setCalls calls batch = .ok batch') : Holds batch' := by
  induction calls generalizing batch with
  | nil =>
      obtain rfl := Except.ok.inj run
      exact before
  | cons call calls ih =>
      rcases except_bind_eq_ok.mp run with ⟨batch₁, isSet, rest⟩
      exact ih (step isSet before) rest

variable [LawfulBuffer Buffer]

theorem setCalls_total (calls : List NodeCall) (batch : Buffer) :
    ∃ batch', setCalls calls batch = .ok batch' := by
  induction calls generalizing batch with
  | nil => exact ⟨batch, rfl⟩
  | cons call calls ih =>
      obtain ⟨batch₁, isSet⟩ := LawfulBuffer.setLeaf_ok batch call.level call.index call.value
      rw [setCalls, isSet]
      exact ih batch₁

/-- A buffer shows the last value set at a position. -/
theorem content_setCalls {calls : List NodeCall} {batch batch' : Buffer}
    (run : setCalls calls batch = .ok batch') (level : TreeLevel) (index : TreeLeafIndex) :
    content batch' level index = (lastCall calls level index).or (content batch level index) := by
  induction calls generalizing batch with
  | nil =>
      obtain rfl := Except.ok.inj run
      rfl
  | cons call calls ih =>
      rcases except_bind_eq_ok.mp run with ⟨batch₁, isSet, rest⟩
      rw [ih rest, LawfulBuffer.content_setLeaf isSet, lastCall, Option.or_assoc]
      by_cases here : level = call.level ∧ index = call.index <;> simp [here]

/-- Calls on the same positions that leave the same content end with the same values. -/
theorem lastCall_congr {first second : List NodeCall} {batch batch₁ batch₂ : Buffer}
    (one : setCalls first batch = .ok batch₁) (two : setCalls second batch = .ok batch₂)
    (touched : ∀ level index, Touches first level index ↔ Touches second level index)
    (same : ∀ level index, content batch₁ level index = content batch₂ level index)
    (level : TreeLevel) (index : TreeLeafIndex) :
    lastCall first level index = lastCall second level index := by
  have shown := same level index
  have both := touched level index
  rw [content_setCalls one, content_setCalls two] at shown
  rw [← lastCall_isSome, ← lastCall_isSome] at both
  cases here : lastCall first level index with
  | none =>
      rw [here] at both
      exact (Option.not_isSome_iff_eq_none.mp fun isSome => by simpa using both.mpr isSome).symm
  | some value =>
      rw [here] at shown both
      obtain ⟨other, there⟩ := Option.isSome_iff_exists.mp (both.mp rfl)
      rw [there] at shown ⊢
      exact shown

end Calls

/-! ### Insertions are sequences of calls -/

section Insertion

variable {Buffer : Type} [TreeLeafGetterSetter Buffer]
variable {poseidon : PoseidonHash} {tree : SparseMerkleTree} {database : Database}

theorem setLeaves_calls {leaves : List TreeLeaf} {batch batch' : Buffer}
    (run : Read.evalOn database (SparseMerkleTree.setLeaves leaves batch) = .ok batch') :
    ∃ calls, setCalls calls batch = .ok batch' ∧ ∀ level index,
      Touches calls level index ↔ level = 0 ∧ ∃ leaf ∈ leaves, leaf.index = index := by
  induction leaves generalizing batch with
  | nil =>
      obtain rfl : batch = batch' := by simpa [SparseMerkleTree.setLeaves] using run
      exact ⟨[], rfl, by simp⟩
  | cons leaf leaves ih =>
      rw [SparseMerkleTree.setLeaves, Program.bind_eq, Read.evalOn_bind, Read.evalOn_wrapf,
        Read.evalOn_ofExcept, except_bind_eq_ok] at run
      rcases run with ⟨batch₁, isSet, run⟩
      obtain ⟨calls, called, touched⟩ := ih run
      refine ⟨⟨0, leaf.index, leaf.value⟩ :: calls, ?_, fun level index => ?_⟩
      · rw [setCalls, except_mapError_eq_ok.mp isSet]
        exact called
      · rw [touches_cons, touched, ← and_or_left, List.exists_mem_cons_iff, eq_comm (a := index)]

theorem insertLevel_calls {level : TreeLevel} {next' : List TreeLeaf} {batch' : Buffer} :
    ∀ {leaves : List TreeLeaf} {updated : Finset TreeLeafIndex} {next : List TreeLeaf}
      {batch : Buffer},
      Read.evalOn database (tree.insertLevel poseidon level leaves updated next batch) =
        .ok (next', batch') →
      ∃ calls, setCalls calls batch = .ok batch' ∧ ∀ level' index,
        Touches calls level' index ↔
          level' = level + 1 ∧ index ∉ updated ∧ ∃ leaf ∈ leaves, leaf.index / 2 = index
  | [], updated, next, batch, run => by
      obtain ⟨_, rfl⟩ : next = next' ∧ batch = batch' := by
        simpa [SparseMerkleTree.insertLevel] using run
      exact ⟨[], rfl, by simp⟩
  | leaf :: leaves, updated, next, batch, run => by
      rw [SparseMerkleTree.insertLevel] at run
      by_cases seen : leaf.index / 2 ∈ updated
      · rw [if_pos seen] at run
        obtain ⟨calls, called, touched⟩ := insertLevel_calls run
        refine ⟨calls, called, fun level' index => ?_⟩
        rw [touched, List.exists_mem_cons_iff]
        refine and_congr_right fun _ => and_congr_right fun fresh => ?_
        exact ⟨Or.inr, fun parent => parent.resolve_left fun same => fresh (same ▸ seen)⟩
      · rw [if_neg seen, Program.bind_eq, Read.evalOn_bind, except_bind_eq_ok] at run
        rcases run with ⟨hash, _, run⟩
        rw [Program.bind_eq, Read.evalOn_bind, Read.evalOn_wrapf, Read.evalOn_ofExcept,
          except_bind_eq_ok] at run
        rcases run with ⟨batch₁, isSet, run⟩
        obtain ⟨calls, called, touched⟩ := insertLevel_calls run
        refine ⟨⟨level + 1, leaf.index / 2, hash⟩ :: calls, ?_, fun level' index => ?_⟩
        · rw [setCalls, except_mapError_eq_ok.mp isSet]
          exact called
        · rw [touches_cons, touched, List.exists_mem_cons_iff, ← and_or_left]
          refine and_congr_right fun _ => ?_
          by_cases here : leaf.index / 2 = index
          · subst here
            simp [seen]
          · simp [here, Ne.symm here]

theorem aboveLeaves_one {leaves : List TreeLeaf} {index : TreeLeafIndex} :
    AboveLeaves leaves 1 index.toNat ↔ ∃ leaf ∈ leaves, leaf.index / 2 = index := by
  simp only [AboveLeaves, pow_one, ← uint32_div_two, UInt32.toNat_inj]

variable [LawfulBuffer Buffer]

theorem insertLevels_calls {batch' : Buffer} :
    ∀ {count : Nat} {level : TreeLevel} {leaves : List TreeLeaf} {batch : Buffer},
      level.toNat + count = tree.depth.toNat → Over batch tree.storageLeafGetter →
      Read.evalOn database (tree.insertLevels poseidon count level leaves batch) =
        .ok batch' →
      ∃ calls, setCalls calls batch = .ok batch' ∧ ∀ (level' : TreeLevel) (index : TreeLeafIndex),
        Touches calls level' index ↔
          level.toNat < level'.toNat ∧ level'.toNat ≤ tree.depth.toNat ∧
            AboveLeaves leaves (level'.toNat - level.toNat) index.toNat
  | 0, level, leaves, batch, reach, backed, run => by
      obtain rfl : batch = batch' := by simpa [SparseMerkleTree.insertLevels] using run
      refine ⟨[], rfl, fun level' index => ?_⟩
      simp only [touches_nil, false_iff]
      omega
  | count + 1, level, leaves, batch, reach, backed, run => by
      have below : level.toNat < tree.depth.toNat := by omega
      have up := toNat_succ_level below
      rw [SparseMerkleTree.insertLevels, Program.bind_eq, Read.evalOn_bind,
        except_bind_eq_ok] at run
      rcases run with ⟨⟨next, batch₁⟩, first, run⟩
      have pass := insertLevel_spec below backed first
      obtain ⟨firstCalls, firstCalled, firstTouched⟩ := insertLevel_calls first
      obtain ⟨calls, called, touched⟩ := insertLevels_calls (by omega) pass.backed run
      refine ⟨firstCalls ++ calls, ?_, fun level' index => ?_⟩
      · rw [setCalls_append, firstCalled]
        exact called
      · rw [touches_append, firstTouched, touched, aboveLeaves_parents pass.parents, up]
        by_cases here : level' = level + 1
        · -- the first round calls on the parents of the leaves
          subst here
          have within : level.toNat + 1 ≤ tree.depth.toNat := below
          rw [up, Nat.add_sub_cancel_left, aboveLeaves_one]
          simp [within]
        · have apart : level'.toNat ≠ level.toNat + 1 := fun same =>
            here (UInt8.toNat_inj.mp (same.trans up.symm))
          constructor
          · rintro (⟨same, _⟩ | ⟨higher, within, above⟩)
            · exact absurd same here
            · rw [show level'.toNat - (level.toNat + 1) + 1 = level'.toNat - level.toNat by omega]
                at above
              exact ⟨by omega, within, above⟩
          · rintro ⟨higher, within, above⟩
            rw [show level'.toNat - level.toNat = level'.toNat - (level.toNat + 1) + 1 by omega]
              at above
            exact Or.inr ⟨by omega, within, above⟩

/-- An insertion calls on the nodes above its leaves and on no other. -/
theorem insertLeaves_calls {leaves : List TreeLeaf} {batch batch' : Buffer}
    (backed : Over batch tree.storageLeafGetter)
    (run : Read.evalOn database (tree.insertLeaves poseidon batch leaves) = .ok batch') :
    ∃ calls, setCalls calls batch = .ok batch' ∧ ∀ (level : TreeLevel) (index : TreeLeafIndex),
      Touches calls level index ↔
        level.toNat ≤ tree.depth.toNat ∧ Above (dirtyLeaves leaves) level.toNat index.toNat := by
  rw [SparseMerkleTree.insertLeaves, Program.bind_eq, Read.evalOn_bind,
    except_bind_eq_ok] at run
  rcases run with ⟨batch₁, first, run⟩
  obtain ⟨firstCalls, firstCalled, firstTouched⟩ := setLeaves_calls first
  obtain ⟨calls, called, touched⟩ :=
    insertLevels_calls (by simp) (setLeaves_spec backed first).1 run
  refine ⟨firstCalls ++ calls, ?_, fun level index => ?_⟩
  · rw [setCalls_append, firstCalled]
    exact called
  · have zero : (0 : TreeLevel).toNat = 0 := rfl
    rw [touches_append, firstTouched, touched, above_dirtyLeaves, zero, Nat.sub_zero]
    by_cases ground : level = 0
    · subst ground
      simp [AboveLeaves, UInt32.toNat_inj]
    · have positive : 0 < level.toNat := Nat.pos_of_ne_zero fun same =>
        ground (UInt8.toNat_inj.mp (by simpa using same))
      simp [ground, positive]

/-- What setting a node preserves, an insertion preserves. -/
theorem insertLeaves_preserves {Holds : Buffer → Prop} (step : SetPreserves Holds)
    {leaves : List TreeLeaf} {batch batch' : Buffer}
    (backed : Over batch tree.storageLeafGetter) (before : Holds batch)
    (run : Read.evalOn database (tree.insertLeaves poseidon batch leaves) = .ok batch') :
    Holds batch' := by
  obtain ⟨calls, called, _⟩ := insertLeaves_calls backed run
  exact setCalls_preserves step before called

end Insertion

/-! ### What the calls queue -/

/-- The key is not the key of a node of this registry. -/
def NoNodeKey (registryIndex : RegistryIndex) (key : Bytes) : Prop :=
  ∀ level index, key ≠ makeLeafKey registryIndex level index

section Batch

theorem BatchWithLeavesBuffer.setLeaf_eq (batch : BatchWithLeavesBuffer) (level : TreeLevel)
    (index : TreeLeafIndex) (value : U256) :
    TreeLeafGetterSetter.setLeaf batch level index value =
      .ok { batch with
        batch := batch.batch ++ [.set (makeLeafKey batch.index level index) value.bytes]
        buffer := batch.buffer.insert (makeLeafKey batch.index level index) value } := by
  simp [TreeLeafGetterSetter.setLeaf, BatchWithLeavesBuffer.setLeaf, Batch.set]

variable {calls : List NodeCall} {batch batch' : BatchWithLeavesBuffer}

theorem index_setCalls (run : setCalls calls batch = .ok batch') : batch'.index = batch.index := by
  have step : SetPreserves fun other : BatchWithLeavesBuffer => other.index = batch.index := by
    intro first second level index value isSet same
    rw [BatchWithLeavesBuffer.setLeaf_eq, Except.ok.injEq] at isSet
    rw [← isSet]
    exact same
  exact setCalls_preserves step rfl run

/-- At a node the batch leaves the bytes of the last value set there. -/
theorem lastEffect_setCalls (run : setCalls calls batch = .ok batch') (level : TreeLevel)
    (index : TreeLeafIndex) :
    lastEffect batch'.batch (makeLeafKey batch.index level index) =
      ((lastCall calls level index).map fun value => some value.bytes).or
        (lastEffect batch.batch (makeLeafKey batch.index level index)) := by
  induction calls generalizing batch with
  | nil =>
      obtain rfl := Except.ok.inj run
      rfl
  | cons call calls ih =>
      rw [setCalls, BatchWithLeavesBuffer.setLeaf_eq] at run
      have rest := ih run
      simp only [lastEffect_append, lastEffect_singleton, WriteOp.key, WriteOp.left,
        makeLeafKey_inj, true_and] at rest
      rw [rest, lastCall]
      by_cases here : level = call.level ∧ index = call.index
      · rcases here with ⟨rfl, rfl⟩
        cases lastCall calls call.level call.index <;> simp
      · have other : ¬ (call.level = level ∧ call.index = index) := fun same =>
          here ⟨same.1.symm, same.2.symm⟩
        simp [here, other]

/-- Beside the nodes the calls leave the batch and the buffer as they were. -/
theorem setCalls_frame (run : setCalls calls batch = .ok batch') {key : Bytes}
    (outside : NoNodeKey batch.index key) :
    lastEffect batch'.batch key = lastEffect batch.batch key ∧
      batch'.buffer.lookup key = batch.buffer.lookup key := by
  induction calls generalizing batch with
  | nil =>
      obtain rfl := Except.ok.inj run
      exact ⟨rfl, rfl⟩
  | cons call calls ih =>
      rw [setCalls, BatchWithLeavesBuffer.setLeaf_eq] at run
      have away := outside call.level call.index
      obtain ⟨effect, shown⟩ := ih run outside
      rw [effect, shown, lastEffect_append, lastEffect_singleton, WriteOp.key, if_neg away.symm,
        Option.none_or, Finmap.lookup_insert_of_ne _ away]
      exact ⟨rfl, rfl⟩

/-- The batches have the same buffer and do the same to every store they are written to. -/
structure SameBatch (first second : BatchWithLeavesBuffer) : Prop where
  index : first.index = second.index
  buffer : first.buffer = second.buffer
  written : ∀ store, Store.write store first.batch = Store.write store second.batch

/-- Calls on the same positions that leave the same content leave the same batch. -/
theorem setCalls_sameBatch {more : List NodeCall} {batch'' : BatchWithLeavesBuffer}
    (one : setCalls calls batch = .ok batch') (two : setCalls more batch = .ok batch'')
    (touched : ∀ level index, Touches calls level index ↔ Touches more level index)
    (same : ∀ level index, content batch' level index = content batch'' level index) :
    SameBatch batch' batch'' := by
  have index := (index_setCalls one).trans (index_setCalls two).symm
  refine ⟨index, Finmap.ext_lookup fun key => ?_, Store.write_congr fun key => ?_⟩
  · by_cases outside : NoNodeKey batch.index key
    · rw [(setCalls_frame one outside).2, (setCalls_frame two outside).2]
    · simp only [NoNodeKey, not_forall, not_not] at outside
      obtain ⟨level, position, rfl⟩ := outside
      have shown : batch'.buffer.lookup (makeLeafKey batch'.index level position) =
          batch''.buffer.lookup (makeLeafKey batch''.index level position) := same level position
      rwa [index_setCalls one, index_setCalls two] at shown
  · by_cases outside : NoNodeKey batch.index key
    · rw [(setCalls_frame one outside).1, (setCalls_frame two outside).1]
    · simp only [NoNodeKey, not_forall, not_not] at outside
      obtain ⟨level, position, rfl⟩ := outside
      rw [lastEffect_setCalls one, lastEffect_setCalls two,
        lastCall_congr one two touched same level position]

end Batch

end MerkleProofService
