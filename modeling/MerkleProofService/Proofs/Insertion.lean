/-
Module: MerkleProofService.Proofs.Insertion
Layer: Proofs
Purpose: What insertion does to the nodes a buffer shows.  Each level of `InsertLeaves` hashes the
  parents of the nodes changed below it, once each and after all of them are final, so a
  successful insertion recomputes exactly the nodes above the inserted leaves.  `InsertLeaf` is
  the same program as `InsertLeaves` on one leaf.
Imports: Proofs.TreeReads
Trusted boundary: none
Main exports: lastWrite, dirtyLeaves, Inserted, Inserted.recomputed, insertLeaves_spec,
  insertLeaves_total, insertLeaf_eq_insertLeaves
-/
import MerkleProofService.Proofs.TreeReads

namespace MerkleProofService

open Library
open TreeLeafGetterSetter (getLeaf setLeaf)
open LawfulBuffer (content Over)

/-- The value the last leaf of the list at `index` carries. -/
def lastWrite : List TreeLeaf → TreeLeafIndex → Option U256
  | [], _ => none
  | leaf :: leaves, index =>
      (lastWrite leaves index).or (if leaf.index = index then some leaf.value else none)

/-- The indexes at which the leaves of a list stand. -/
def dirtyLeaves (leaves : List TreeLeaf) : Set Nat :=
  {index | ∃ leaf ∈ leaves, leaf.index.toNat = index}

theorem lastWrite_append (first second : List TreeLeaf) (index : TreeLeafIndex) :
    lastWrite (first ++ second) index =
      (lastWrite second index).or (lastWrite first index) := by
  induction first with
  | nil => simp [lastWrite]
  | cons leaf leaves ih => rw [List.cons_append, lastWrite, ih, lastWrite, Option.or_assoc]

/-- A list writes at an index exactly if one of its leaves stands there. -/
theorem lastWrite_isSome {leaves : List TreeLeaf} {index : TreeLeafIndex} :
    (lastWrite leaves index).isSome ↔ index.toNat ∈ dirtyLeaves leaves := by
  induction leaves with
  | nil => simp [lastWrite, dirtyLeaves]
  | cons leaf leaves ih =>
      have member : index.toNat ∈ dirtyLeaves (leaf :: leaves) ↔
          leaf.index = index ∨ index.toNat ∈ dirtyLeaves leaves := by
        simp [dirtyLeaves, UInt32.toNat_inj]
      rw [lastWrite, Option.isSome_or, Bool.or_eq_true, ih, member, or_comm]
      by_cases here : leaf.index = index <;> simp [here]

/-- A value written by a list is carried by one of its leaves. -/
theorem lastWrite_mem {leaves : List TreeLeaf} {index : TreeLeafIndex} {value : U256}
    (written : lastWrite leaves index = some value) :
    ∃ leaf ∈ leaves, leaf.index = index ∧ leaf.value = value := by
  induction leaves with
  | nil => cases written
  | cons leaf leaves ih =>
      rw [lastWrite, Option.or_eq_some_iff] at written
      rcases written with later | ⟨_, here⟩
      · obtain ⟨found, member, rest⟩ := ih later
        exact ⟨found, List.mem_cons_of_mem leaf member, rest⟩
      · by_cases same : leaf.index = index
        · rw [if_pos same] at here
          exact ⟨leaf, List.mem_cons_self, same, Option.some.inj here⟩
        · rw [if_neg same] at here
          cases here

theorem dirtyLeaves_append (first second : List TreeLeaf) :
    dirtyLeaves (first ++ second) = dirtyLeaves first ∪ dirtyLeaves second := by
  ext number
  simp only [dirtyLeaves, List.mem_append, Set.mem_union, Set.mem_ofPred_eq, or_and_right,
    exists_or]

/-- Positions of a tree fit the machine types. -/
theorem Library.InTree.toNat_ofNat {depth : TreeLevel} {level index : Nat}
    (inside : InTree 32 depth.toNat level index) :
    (UInt8.ofNat level).toNat = level ∧ (UInt32.ofNat index).toNat = index := by
  have low := Nat.lt_of_le_of_lt inside.1 depth.toNat_lt
  exact ⟨UInt8.toNat_ofNat_of_lt' low, UInt32.toNat_ofNat_of_lt' inside.lt_two_pow⟩

/-- An index in range is a leaf of the tree. -/
theorem leaf_inTree {depth : TreeLevel} {index : TreeLeafIndex}
    (inRange : index.toNat < 2 ^ depth.toNat) :
    InTree 32 depth.toNat (0 : TreeLevel).toNat index.toNat :=
  InTree.leaf inRange index.toNat_lt

section Insertion

variable {Buffer : Type} [TreeLeafGetterSetter Buffer] [LawfulBuffer Buffer]
variable {poseidon : PoseidonHash} {tree : SparseMerkleTree} {database : Database}
variable {nodes : Nat → Nat → U256}

/-! ### One level -/

/-- A successful pass over one level: `updated` are the parents done before it. -/
structure LevelInserted (poseidon : PoseidonHash) (tree : SparseMerkleTree)
    (nodes : Nat → Nat → U256) (level : TreeLevel) (leaves : List TreeLeaf)
    (updated : Finset TreeLeafIndex) (next : List TreeLeaf) (batch : Buffer)
    (next' : List TreeLeaf) (batch' : Buffer) : Prop where
  backed : Over batch' tree.storageLeafGetter
  collected : ∀ index : TreeLeafIndex, (∃ leaf ∈ next', leaf.index = index) ↔
    (∃ leaf ∈ next, leaf.index = index) ∨
      (index ∉ updated ∧ ∃ leaf ∈ leaves, leaf.index / 2 = index)
  beside : ∀ level' index, ¬ (level' = level + 1 ∧ index ∉ updated ∧
    ∃ leaf ∈ leaves, leaf.index / 2 = index) →
      content batch' level' index = content batch level' index
  hashed : ∀ index, index ∉ updated → (∃ leaf ∈ leaves, leaf.index / 2 = index) →
    ∃ hash, content batch' (level + 1) index = some hash ∧
      calculateHash poseidon (overlay batch nodes level.toNat (2 * index.toNat))
        (overlay batch nodes level.toNat (2 * index.toNat + 1)) = .ok hash

theorem overlay_setLeaf_ne {batch batch' : Buffer} {level : TreeLevel}
    {index : TreeLeafIndex} {value : U256}
    (isSet : setLeaf batch level index value = .ok batch') {level' : Nat}
    (other : UInt8.ofNat level' ≠ level) (index' : Nat) :
    overlay batch' nodes level' index' = overlay batch nodes level' index' := by
  rw [overlay, overlay, LawfulBuffer.content_setLeaf isSet, if_neg fun same => other same.1]

/-- The parent of the first leaf was done before, so it adds nothing. -/
theorem LevelInserted.skip {level : TreeLevel} {leaf : TreeLeaf} {leaves next next' : List TreeLeaf}
    {updated : Finset TreeLeafIndex} {batch batch' : Buffer} (seen : leaf.index / 2 ∈ updated)
    (rest : LevelInserted poseidon tree nodes level leaves updated next batch next' batch') :
    LevelInserted poseidon tree nodes level (leaf :: leaves) updated next batch next' batch' := by
  have drop : ∀ index : TreeLeafIndex, index ∉ updated →
      ((∃ other ∈ leaf :: leaves, other.index / 2 = index) ↔
        ∃ other ∈ leaves, other.index / 2 = index) := by
    intro index fresh
    simp only [List.mem_cons, exists_eq_or_imp, or_iff_right_iff_imp]
    rintro rfl
    exact absurd seen fresh
  exact
    { backed := rest.backed
      collected := fun index => by
        rw [rest.collected index]
        exact or_congr_right (and_congr_right fun fresh => (drop index fresh).symm)
      beside := fun level' index away => rest.beside level' index fun here =>
        away ⟨here.1, here.2.1, (drop index here.2.1).mpr here.2.2⟩
      hashed := fun index fresh parent =>
        rest.hashed index fresh ((drop index fresh).mp parent) }

/-- The parent of the first leaf is hashed and set before the others are. -/
theorem LevelInserted.parent {level : TreeLevel} {leaf : TreeLeaf}
    {leaves next next' : List TreeLeaf} {updated : Finset TreeLeafIndex}
    {batch batch₁ batch' : Buffer} {hash : U256} (unseen : leaf.index / 2 ∉ updated)
    (hashes : calculateHash poseidon
        (overlay batch nodes level.toNat (2 * (leaf.index.toNat / 2)))
        (overlay batch nodes level.toNat (2 * (leaf.index.toNat / 2) + 1)) = .ok hash)
    (isSet : setLeaf batch (level + 1) (leaf.index / 2) hash = .ok batch₁)
    (rest : LevelInserted poseidon tree nodes level leaves (insert (leaf.index / 2) updated)
      (next ++ [⟨leaf.index / 2, hash⟩]) batch₁ next' batch') :
    LevelInserted poseidon tree nodes level (leaf :: leaves) updated next batch next' batch' := by
  have same : ∀ index', overlay batch₁ nodes level.toNat index' =
      overlay batch nodes level.toNat index' :=
    overlay_setLeaf_ne isSet (by simp)
  exact
    { backed := rest.backed
      collected := fun index => by
        rw [rest.collected index]
        by_cases here : leaf.index / 2 = index
        · subst here
          simp [unseen]
        · simp [here, Ne.symm here]
      beside := fun level' index away => by
        rw [rest.beside level' index, LawfulBuffer.content_setLeaf isSet, if_neg]
        · rintro ⟨rfl, rfl⟩
          exact away ⟨rfl, unseen, leaf, List.mem_cons_self, rfl⟩
        · rintro ⟨rfl, fresh, other, member, rfl⟩
          exact away ⟨rfl, fun old => fresh (Finset.mem_insert_of_mem old), other,
            List.mem_cons_of_mem leaf member, rfl⟩
      hashed := fun index fresh parent => by
        by_cases here : leaf.index / 2 = index
        · subst here
          refine ⟨hash, ?_, ?_⟩
          · rw [rest.beside (level + 1) (leaf.index / 2) (by simp),
              LawfulBuffer.content_setLeaf isSet]
            simp
          · rw [uint32_div_two]
            exact hashes
        · simp only [List.mem_cons, exists_eq_or_imp, here, false_or] at parent
          obtain ⟨found, shown, computed⟩ := rest.hashed index
            (by simpa [Ne.symm here] using fresh) parent
          rw [same, same] at computed
          exact ⟨found, shown, computed⟩ }

/-- A pass that succeeds, over any storage: what could not be read was not needed. -/
theorem insertLevel_spec {level : TreeLevel} (below : level.toNat < tree.depth.toNat)
    {next' : List TreeLeaf} {batch' : Buffer} :
    ∀ {leaves : List TreeLeaf} {updated : Finset TreeLeafIndex} {next : List TreeLeaf}
      {batch : Buffer}, Over batch tree.storageLeafGetter →
      Read.evalOn database (tree.insertLevel poseidon level leaves updated next batch) =
        .ok (next', batch') →
      LevelInserted poseidon tree (readNodes poseidon tree database) level leaves updated next
        batch next' batch'
  | [], updated, next, batch, backed, run => by
      obtain ⟨rfl, rfl⟩ : next = next' ∧ batch = batch' := by
        simpa [SparseMerkleTree.insertLevel] using run
      exact
        { backed := backed
          collected := by simp
          beside := fun _ _ _ => rfl
          hashed := by simp }
  | leaf :: leaves, updated, next, batch, backed, run => by
      rw [SparseMerkleTree.insertLevel] at run
      by_cases seen : leaf.index / 2 ∈ updated
      · rw [if_pos seen] at run
        exact (insertLevel_spec below backed run).skip seen
      · rw [if_neg seen, Program.bind_eq, Read.evalOn_bind, Read.evalOn_wrapf,
          except_bind_eq_ok] at run
        rcases run with ⟨hash, hashed, run⟩
        have hashes := calculateHashForNode_eq_ok backed below (except_mapError_eq_ok.mp hashed)
        obtain ⟨batch₁, isSet⟩ :=
          LawfulBuffer.setLeaf_ok batch (level + 1) (leaf.index / 2) hash
        rw [Program.bind_eq, Read.evalOn_bind, Read.evalOn_wrapf, Read.evalOn_ofExcept,
          isSet] at run
        have rest := insertLevel_spec below (LawfulBuffer.over_setLeaf isSet backed) run
        exact rest.parent seen hashes isSet

/-! ### All levels -/

/-- The nodes above the leaves of a list that starts at `level`. -/
def AboveLeaves (leaves : List TreeLeaf) (steps : Nat) (index : Nat) : Prop :=
  ∃ leaf ∈ leaves, leaf.index.toNat / 2 ^ steps = index

/-- A successful run of the outer loop from `level` to the root. -/
structure LevelsInserted (poseidon : PoseidonHash) (tree : SparseMerkleTree)
    (nodes : Nat → Nat → U256) (level : TreeLevel) (leaves : List TreeLeaf)
    (batch batch' : Buffer) : Prop where
  backed : Over batch' tree.storageLeafGetter
  beside : ∀ (level' : TreeLevel) (index : TreeLeafIndex),
    ¬ (level.toNat < level'.toNat ∧ level'.toNat ≤ tree.depth.toNat ∧
      AboveLeaves leaves (level'.toNat - level.toNat) index.toNat) →
    content batch' level' index = content batch level' index
  hashed : ∀ level' index : Nat, level.toNat ≤ level' → level' < tree.depth.toNat →
    AboveLeaves leaves (level' + 1 - level.toNat) index →
    (content batch' (UInt8.ofNat (level' + 1)) (UInt32.ofNat index)).isSome ∧
      calculateHash poseidon (overlay batch' nodes level' (2 * index))
        (overlay batch' nodes level' (2 * index + 1)) =
          .ok (overlay batch' nodes (level' + 1) index)

theorem toNat_succ_level {level depth : TreeLevel} (below : level.toNat < depth.toNat) :
    (level + 1).toNat = level.toNat + 1 := by
  have bound := depth.toNat_lt
  rw [UInt8.toNat_add]
  simp
  omega

theorem uint8_ofNat_toNat_succ {level depth : TreeLevel} (below : level.toNat < depth.toNat) :
    UInt8.ofNat (level.toNat + 1) = level + 1 := by
  rw [← toNat_succ_level below, UInt8.ofNat_toNat]

/-- Going up one level turns the leaves into their parents. -/
theorem aboveLeaves_parents {leaves next : List TreeLeaf}
    (collected : ∀ index : TreeLeafIndex, (∃ leaf ∈ next, leaf.index = index) ↔
      ∃ leaf ∈ leaves, leaf.index / 2 = index) (steps index : Nat) :
    AboveLeaves next steps index ↔ AboveLeaves leaves (steps + 1) index := by
  constructor
  · rintro ⟨parent, member, rfl⟩
    obtain ⟨leaf, leafMember, half⟩ := (collected parent.index).mp ⟨parent, member, rfl⟩
    refine ⟨leaf, leafMember, ?_⟩
    rw [← half, uint32_div_two, Nat.div_div_eq_div_mul, pow_succ, Nat.mul_comm]
  · rintro ⟨leaf, member, rfl⟩
    obtain ⟨parent, parentMember, half⟩ :=
      (collected (leaf.index / 2)).mpr ⟨leaf, member, rfl⟩
    refine ⟨parent, parentMember, ?_⟩
    rw [half, uint32_div_two, Nat.div_div_eq_div_mul, pow_succ, Nat.mul_comm]

/-- A pass over one level leaves the parents of its leaves for the next. -/
theorem LevelInserted.parents {level : TreeLevel} {leaves next : List TreeLeaf}
    {batch batch₁ : Buffer}
    (pass : LevelInserted poseidon tree nodes level leaves ∅ [] batch next batch₁)
    (index : TreeLeafIndex) :
    (∃ leaf ∈ next, leaf.index = index) ↔ ∃ leaf ∈ leaves, leaf.index / 2 = index := by
  simpa using pass.collected index

/-- A pass over one level, and the loop from the next level on. -/
theorem LevelsInserted.step {level : TreeLevel} {leaves next : List TreeLeaf}
    {batch batch₁ batch' : Buffer} (below : level.toNat < tree.depth.toNat)
    (pass : LevelInserted poseidon tree nodes level leaves ∅ [] batch next batch₁)
    (rest : LevelsInserted poseidon tree nodes (level + 1) next batch₁ batch') :
    LevelsInserted poseidon tree nodes level leaves batch batch' := by
  have up := toNat_succ_level below
  have above := aboveLeaves_parents pass.parents
  -- later rounds only touch levels above `level + 1`
  have keep : ∀ (level' : TreeLevel) (index : TreeLeafIndex),
      level'.toNat ≤ level.toNat + 1 →
      content batch' level' index = content batch₁ level' index := by
    intro level' index low
    exact rest.beside level' index fun away => by omega
  have keepOverlay : ∀ index, overlay batch' nodes level.toNat index =
      overlay batch nodes level.toNat index := by
    intro index
    rw [overlay, overlay, UInt8.ofNat_toNat, keep level _ (by omega),
      pass.beside level _ fun here => by simp at here]
  refine
    { backed := rest.backed
      beside := fun level' index away => ?_
      hashed := fun level' index atLeast deep aboveNode => ?_ }
  · rw [rest.beside level' index, pass.beside level' index]
    · rintro ⟨rfl, _, leaf, member, half⟩
      refine away ⟨by omega, by omega, leaf, member, ?_⟩
      rw [up, Nat.add_sub_cancel_left, pow_one, ← half, uint32_div_two]
    · rintro ⟨high, within, aboveNext⟩
      refine away ⟨by omega, within, ?_⟩
      rw [above] at aboveNext
      rwa [show level'.toNat - level.toNat =
        level'.toNat - (level + 1).toNat + 1 by omega]
  · by_cases here : level' = level.toNat
    · subst here
      rcases aboveNode with ⟨leaf, member, half⟩
      rw [Nat.add_sub_cancel_left, pow_one] at half
      have typed : UInt32.ofNat index = leaf.index / 2 := by
        rw [← half, ← uint32_div_two, UInt32.ofNat_toNat]
      obtain ⟨hash, shown, computed⟩ := pass.hashed (leaf.index / 2)
        (Finset.notMem_empty _) ⟨leaf, member, rfl⟩
      rw [uint32_div_two, half] at computed
      have final : content batch' (UInt8.ofNat (level.toNat + 1)) (UInt32.ofNat index) =
          some hash := by
        rw [uint8_ofNat_toNat_succ below, typed, keep (level + 1) _ (by omega), shown]
      refine ⟨by rw [final]; rfl, ?_⟩
      rw [keepOverlay, keepOverlay, computed, overlay, final]
      rfl
    · refine rest.hashed level' index (by omega) deep ?_
      rw [above, show level' + 1 - (level + 1).toNat + 1 = level' + 1 - level.toNat by omega]
      exact aboveNode

theorem insertLevels_spec {batch' : Buffer} :
    ∀ {count : Nat} {level : TreeLevel} {leaves : List TreeLeaf} {batch : Buffer},
      level.toNat + count = tree.depth.toNat → Over batch tree.storageLeafGetter →
      Read.evalOn database (tree.insertLevels poseidon count level leaves batch) =
        .ok batch' →
      LevelsInserted poseidon tree (readNodes poseidon tree database) level leaves batch batch'
  | 0, level, leaves, batch, reach, backed, run => by
      obtain rfl : batch = batch' := by
        simpa [SparseMerkleTree.insertLevels] using run
      exact
        { backed := backed
          beside := fun _ _ _ => rfl
          hashed := fun level' index atLeast below => by omega }
  | count + 1, level, leaves, batch, reach, backed, run => by
      have below : level.toNat < tree.depth.toNat := by omega
      have up := toNat_succ_level below
      rw [SparseMerkleTree.insertLevels, Program.bind_eq, Read.evalOn_bind,
        except_bind_eq_ok] at run
      rcases run with ⟨⟨next, batch₁⟩, first, run⟩
      have pass := insertLevel_spec below backed first
      have rest := insertLevels_spec (by omega) pass.backed run
      exact rest.step below pass

/-! ### The whole insertion -/

theorem setLeaves_spec {leaves : List TreeLeaf} {batch batch' : Buffer}
    {storage : TreeLeafGetter} (backed : Over batch storage)
    (run : Read.evalOn database (SparseMerkleTree.setLeaves leaves batch) = .ok batch') :
    Over batch' storage ∧ ∀ level index, content batch' level index =
      if level = 0 then (lastWrite leaves index).or (content batch 0 index)
      else content batch level index := by
  induction leaves generalizing batch with
  | nil =>
      obtain rfl : batch = batch' := by simpa [SparseMerkleTree.setLeaves] using run
      refine ⟨backed, fun level index => ?_⟩
      by_cases ground : level = 0
      · simp [ground, lastWrite]
      · simp [ground]
  | cons leaf leaves ih =>
      obtain ⟨batch₁, isSet⟩ := LawfulBuffer.setLeaf_ok batch 0 leaf.index leaf.value
      rw [SparseMerkleTree.setLeaves, Program.bind_eq, Read.evalOn_bind, Read.evalOn_wrapf,
        Read.evalOn_ofExcept, isSet] at run
      obtain ⟨overRest, rest⟩ := ih (LawfulBuffer.over_setLeaf isSet backed) run
      refine ⟨overRest, fun level index => ?_⟩
      rw [rest, LawfulBuffer.content_setLeaf isSet, LawfulBuffer.content_setLeaf isSet]
      by_cases ground : level = 0
      · subst ground
        rw [if_pos rfl, if_pos rfl, lastWrite, Option.or_assoc]
        by_cases here : leaf.index = index
        · simp [here]
        · simp [here, Ne.symm here]
      · simp [ground]

/-- A successful insertion of `leaves`. -/
structure Inserted (poseidon : PoseidonHash) (tree : SparseMerkleTree)
    (nodes : Nat → Nat → U256) (leaves : List TreeLeaf) (batch batch' : Buffer) : Prop where
  backed : Over batch' tree.storageLeafGetter
  ground : ∀ index, content batch' 0 index =
    (lastWrite leaves index).or (content batch 0 index)
  beside : ∀ (level : TreeLevel) (index : TreeLeafIndex),
    ¬ (level.toNat ≤ tree.depth.toNat ∧ Above (dirtyLeaves leaves) level.toNat index.toNat) →
    content batch' level index = content batch level index
  shown : ∀ (level : TreeLevel) (index : TreeLeafIndex), level.toNat ≤ tree.depth.toNat →
    Above (dirtyLeaves leaves) level.toNat index.toNat → (content batch' level index).isSome
  hashed : ∀ level index : Nat, level < tree.depth.toNat →
    Above (dirtyLeaves leaves) (level + 1) index →
    calculateHash poseidon (overlay batch' nodes level (2 * index))
      (overlay batch' nodes level (2 * index + 1)) = .ok (overlay batch' nodes (level + 1) index)

theorem above_dirtyLeaves {leaves : List TreeLeaf} {level index : Nat} :
    Above (dirtyLeaves leaves) level index ↔ AboveLeaves leaves level index := by
  constructor
  · rintro ⟨_, ⟨leaf, member, rfl⟩, rfl⟩
    exact ⟨leaf, member, rfl⟩
  · rintro ⟨leaf, member, rfl⟩
    exact ⟨_, ⟨leaf, member, rfl⟩, rfl⟩

/-- An insertion that succeeds, of leaves at any indexes into any storage. -/
theorem insertLeaves_inserted {leaves : List TreeLeaf} {batch batch' : Buffer}
    (backed : Over batch tree.storageLeafGetter)
    (run : Read.evalOn database (tree.insertLeaves poseidon batch leaves) = .ok batch') :
    Inserted poseidon tree (readNodes poseidon tree database) leaves batch batch' := by
  rw [SparseMerkleTree.insertLeaves, Program.bind_eq, Read.evalOn_bind,
    except_bind_eq_ok] at run
  rcases run with ⟨batch₁, first, run⟩
  obtain ⟨over₁, set⟩ := setLeaves_spec backed first
  have zero : (0 : TreeLevel).toNat = 0 := rfl
  have rest := insertLevels_spec (by omega) over₁ run
  refine
    { backed := rest.backed
      ground := fun index => ?_
      beside := fun level index away => ?_
      shown := fun level index deep above => ?_
      hashed := fun level index deep above => ?_ }
  · rw [rest.beside 0 index fun here => by omega, set, if_pos rfl]
  · rw [rest.beside level index, set]
    · by_cases ground : level = 0
      · subst ground
        have clean : (lastWrite leaves index).isSome = false := by
          rw [Bool.eq_false_iff]
          intro written
          exact away ⟨by simp, by simpa using lastWrite_isSome.mp written⟩
        rw [if_pos rfl, Option.isSome_eq_false_iff.mp clean |> Option.isNone_iff_eq_none.mp]
        rfl
      · rw [if_neg ground]
    · rintro ⟨_, within, above⟩
      rw [zero, Nat.sub_zero] at above
      exact away ⟨within, above_dirtyLeaves.mpr above⟩
  · by_cases ground : level = 0
    · subst ground
      rw [rest.beside 0 index fun here => by omega, set, if_pos rfl, Option.isSome_or,
        Bool.or_eq_true]
      exact Or.inl (lastWrite_isSome.mpr (by simpa using above))
    · have positive : level.toNat ≠ 0 := fun same =>
        ground (UInt8.toNat_inj.mp (by simpa using same))
      have found := (rest.hashed (level.toNat - 1) index.toNat (by omega) (by omega) (by
        rw [zero, Nat.sub_zero, Nat.sub_add_cancel (by omega)]
        exact above_dirtyLeaves.mp above)).1
      rw [Nat.sub_add_cancel (by omega)] at found
      simpa using found
  · refine (rest.hashed level index (by omega) deep ?_).2
    rw [zero, Nat.sub_zero]
    exact above_dirtyLeaves.mp above

theorem dirtyLeaves_fit (leaves : List TreeLeaf) : ∀ leaf ∈ dirtyLeaves leaves, leaf < 2 ^ 32 := by
  rintro _ ⟨leaf, _, rfl⟩
  exact leaf.index.toNat_lt

/-- An insertion hashes the nodes above the inserted leaves again and changes nothing else. -/
theorem Inserted.rehashed {leaves : List TreeLeaf} {batch batch' : Buffer}
    (inserted : Inserted poseidon tree nodes leaves batch batch') :
    Rehashed (calculateHash poseidon) 32 tree.depth.toNat (dirtyLeaves leaves)
      (overlay batch nodes) (overlay batch' nodes) where
  beside := by
    intro level index within fits clean
    have low := Nat.lt_of_le_of_lt within tree.depth.toNat_lt
    rw [overlay, overlay, inserted.beside]
    rintro ⟨_, above⟩
    rw [UInt8.toNat_ofNat_of_lt' low, UInt32.toNat_ofNat_of_lt' fits] at above
    exact clean above
  above := fun below above => inserted.hashed _ _ below above

/-- For leaves of the tree only the nodes of the tree count. -/
theorem Inserted.congr {nodes' : Nat → Nat → U256} {leaves : List TreeLeaf}
    {batch batch' : Buffer} (inserted : Inserted poseidon tree nodes leaves batch batch')
    (inRange : ∀ leaf ∈ leaves, leaf.index.toNat < 2 ^ tree.depth.toNat)
    (same : ∀ {level index}, InTree 32 tree.depth.toNat level index →
      nodes level index = nodes' level index) :
    Inserted poseidon tree nodes' leaves batch batch' where
  backed := inserted.backed
  ground := inserted.ground
  beside := inserted.beside
  shown := inserted.shown
  hashed := fun level index below above => by
    have inTree : ∀ leaf ∈ dirtyLeaves leaves, InTree 32 tree.depth.toNat 0 leaf := by
      rintro _ ⟨leaf, member, rfl⟩
      exact leaf_inTree (inRange leaf member)
    have right := above.right (by decide) below inTree
    have hashed := inserted.hashed level index below above
    simp only [overlay] at hashed ⊢
    rwa [same right, same right.left, same (right.ofRight below)] at hashed

/-- What is read from the storage is what the table says. -/
theorem ReadsNodes.readNodes_eq (reads : ReadsNodes poseidon tree database nodes)
    {level index : Nat} (inside : InTree 32 tree.depth.toNat level index) :
    readNodes poseidon tree database level index = nodes level index := by
  rcases inside.toNat_ofNat with ⟨typedLevel, typedIndex⟩
  have read := reads (UInt8.ofNat level) (UInt32.ofNat index)
    (by rw [typedLevel, typedIndex]; exact inside)
  rw [typedLevel, typedIndex] at read
  rw [readNodes, read]
  rfl

/-- An insertion of leaves of the tree. -/
theorem insertLeaves_spec (reads : ReadsNodes poseidon tree database nodes)
    {leaves : List TreeLeaf} {batch batch' : Buffer}
    (backed : Over batch tree.storageLeafGetter)
    (inRange : ∀ leaf ∈ leaves, leaf.index.toNat < 2 ^ tree.depth.toNat)
    (run : Read.evalOn database (tree.insertLeaves poseidon batch leaves) = .ok batch') :
    Inserted poseidon tree nodes leaves batch batch' :=
  (insertLeaves_inserted backed run).congr inRange reads.readNodes_eq

/-- An insertion recomputes the nodes above the inserted leaves and nothing else. -/
theorem Inserted.recomputed {leaves : List TreeLeaf} {batch batch' : Buffer}
    (inserted : Inserted poseidon tree nodes leaves batch batch') :
    Recomputed (calculateHash poseidon) 32 tree.depth.toNat (dirtyLeaves leaves)
      (overlay batch nodes) (overlay batch' nodes) :=
  inserted.rehashed.recomputed

/-- The leaves of the overlay after an insertion. -/
theorem Inserted.overlay_leaf {leaves : List TreeLeaf} {batch batch' : Buffer}
    (inserted : Inserted poseidon tree nodes leaves batch batch') (index : Nat) :
    overlay batch' nodes 0 index =
      (lastWrite leaves (UInt32.ofNat index)).getD (overlay batch nodes 0 index) := by
  have ground : UInt8.ofNat 0 = 0 := rfl
  rw [overlay, overlay, ground, inserted.ground]
  cases lastWrite leaves (UInt32.ofNat index) <;> rfl

theorem dirtyLeaves_singleton (index : TreeLeafIndex) (value : U256) :
    dirtyLeaves [⟨index, value⟩] = {index.toNat} := by
  ext leaf
  simp [dirtyLeaves, eq_comm]

/-! ### Insertion succeeds on values the hash accepts -/

/-- The hash is total on a set of values and stays in it. -/
def HashClosed (poseidon : PoseidonHash) (Accepts : U256 → Prop) : Prop :=
  ∀ left right, Accepts left → Accepts right →
    ∃ hash, calculateHash poseidon left right = .ok hash ∧ Accepts hash

variable {Accepts : U256 → Prop}

/-- Every node the buffer shows is a value the hash accepts. -/
def ShowsAccepted (tree : SparseMerkleTree) (nodes : Nat → Nat → U256)
    (Accepts : U256 → Prop) (batch : Buffer) : Prop :=
  ∀ level index, InTree 32 tree.depth.toNat level index → Accepts (overlay batch nodes level index)

theorem ShowsAccepted.setLeaf {batch batch' : Buffer} {level : TreeLevel}
    {index : TreeLeafIndex} {value : U256}
    (shows : ShowsAccepted tree nodes Accepts batch) (accepted : Accepts value)
    (isSet : setLeaf batch level index value = .ok batch') :
    ShowsAccepted tree nodes Accepts batch' := by
  intro level' index' inside
  rw [overlay, LawfulBuffer.content_setLeaf isSet]
  by_cases here : UInt8.ofNat level' = level ∧ UInt32.ofNat index' = index
  · rw [if_pos here]
    exact accepted
  · rw [if_neg here]
    exact shows level' index' inside

/-- The rounds above the nodes of `domain` can be made: the hash for such a node succeeds, and
setting it keeps the buffer good. -/
structure Hashable (poseidon : PoseidonHash) (tree : SparseMerkleTree) (database : Database)
    (domain : TreeLevel → TreeLeafIndex → Prop) (Good : Buffer → Prop) : Prop where
  backed : ∀ {batch}, Good batch → Over batch tree.storageLeafGetter
  parent : ∀ {level index}, level.toNat < tree.depth.toNat → domain level index →
    domain (level + 1) (index / 2)
  hash : ∀ {batch level index}, Good batch → level.toNat < tree.depth.toNat →
    domain level index →
    ∃ hash, Read.evalOn database (tree.calculateHashForNode poseidon batch level index) =
        .ok hash ∧
      ∀ {batch'}, setLeaf batch (level + 1) (index / 2) hash = .ok batch' → Good batch'

section Total

variable {domain : TreeLevel → TreeLeafIndex → Prop} {Good : Buffer → Prop}

/-- A pass over one level succeeds if every hash in it does. -/
theorem insertLevel_total {level : TreeLevel} {round : TreeLeafIndex → Prop}
    (hash : ∀ {batch index}, Good batch → round index →
      ∃ hash, Read.evalOn database (tree.calculateHashForNode poseidon batch level index) =
          .ok hash ∧
        ∀ {batch'}, setLeaf batch (level + 1) (index / 2) hash = .ok batch' → Good batch') :
    ∀ (leaves : List TreeLeaf) (updated : Finset TreeLeafIndex) (next : List TreeLeaf)
      {batch : Buffer}, Good batch → (∀ leaf ∈ leaves, round leaf.index) →
      ∃ next' batch', Read.evalOn database
          (tree.insertLevel poseidon level leaves updated next batch) = .ok (next', batch') ∧
        Good batch'
  | [], updated, next, batch, good, inside => ⟨next, batch, rfl, good⟩
  | leaf :: leaves, updated, next, batch, good, inside => by
      have insideRest : ∀ other ∈ leaves, round other.index :=
        fun other member => inside other (List.mem_cons_of_mem leaf member)
      rw [SparseMerkleTree.insertLevel]
      by_cases seen : leaf.index / 2 ∈ updated
      · rw [if_pos seen]
        exact insertLevel_total hash leaves updated next good insideRest
      · obtain ⟨value, hashes, keeps⟩ := hash good (inside leaf List.mem_cons_self)
        obtain ⟨batch₁, isSet⟩ :=
          LawfulBuffer.setLeaf_ok batch (level + 1) (leaf.index / 2) value
        rw [if_neg seen, Program.bind_eq, Read.evalOn_bind, Read.evalOn_wrapf, hashes,
          except_mapError_ok, except_bind_ok, Program.bind_eq, Read.evalOn_bind,
          Read.evalOn_wrapf, Read.evalOn_ofExcept, isSet]
        exact insertLevel_total hash leaves _ _ (keeps isSet) insideRest

theorem insertLevels_total (hashable : Hashable poseidon tree database domain Good) :
    ∀ {count : Nat} {level : TreeLevel} {leaves : List TreeLeaf} {batch : Buffer},
      level.toNat + count = tree.depth.toNat → Good batch →
      (∀ leaf ∈ leaves, domain level leaf.index) →
      ∃ batch', Read.evalOn database
          (tree.insertLevels poseidon count level leaves batch) = .ok batch' ∧ Good batch'
  | 0, level, leaves, batch, reach, good, inside => ⟨batch, rfl, good⟩
  | count + 1, level, leaves, batch, reach, good, inside => by
      have below : level.toNat < tree.depth.toNat := by omega
      have up := toNat_succ_level below
      obtain ⟨next, batch₁, run, good₁⟩ :=
        insertLevel_total (fun good => hashable.hash good below) leaves ∅ [] good inside
      have pass := insertLevel_spec below (hashable.backed good) run
      have insideNext : ∀ leaf ∈ next, domain (level + 1) leaf.index := by
        intro parent member
        obtain ⟨leaf, leafMember, half⟩ := (pass.parents parent.index).mp ⟨parent, member, rfl⟩
        rw [← half]
        exact hashable.parent below (inside leaf leafMember)
      rw [SparseMerkleTree.insertLevels, Program.bind_eq, Read.evalOn_bind, run,
        except_bind_ok]
      exact insertLevels_total hashable (by omega) good₁ insideNext

end Total

/-- Hashes of accepted values of the tree can be calculated. -/
theorem hashable_inTree (reads : ReadsNodes poseidon tree database nodes)
    (closed : HashClosed poseidon Accepts) :
    Hashable poseidon tree database
      (fun level index => InTree 32 tree.depth.toNat level.toNat index.toNat)
      (fun batch : Buffer => Over batch tree.storageLeafGetter ∧
        ShowsAccepted tree nodes Accepts batch) where
  backed := fun good => good.1
  parent := fun below inside => by
    rw [toNat_succ_level below, uint32_div_two]
    exact inside.parent below
  hash := fun good below inside => by
    obtain ⟨hash, hashes, accepted⟩ := closed _ _ (good.2 _ _ inside.leftOfParent)
      (good.2 _ _ (inside.rightOfParent (by decide) below))
    refine ⟨hash, by rw [evalOn_calculateHashForNode reads good.1 inside below, hashes], ?_⟩
    intro batch' isSet
    exact ⟨LawfulBuffer.over_setLeaf isSet good.1, good.2.setLeaf accepted isSet⟩

theorem setLeaves_total {leaves : List TreeLeaf} {batch : Buffer}
    (accepted : ∀ leaf ∈ leaves, Accepts leaf.value)
    (shows : ShowsAccepted tree nodes Accepts batch) :
    ∃ batch', Read.evalOn database (SparseMerkleTree.setLeaves leaves batch) = .ok batch' ∧
      ShowsAccepted tree nodes Accepts batch' := by
  induction leaves generalizing batch with
  | nil => exact ⟨batch, rfl, shows⟩
  | cons leaf leaves ih =>
      obtain ⟨batch₁, isSet⟩ := LawfulBuffer.setLeaf_ok batch 0 leaf.index leaf.value
      rw [SparseMerkleTree.setLeaves, Program.bind_eq, Read.evalOn_bind, Read.evalOn_wrapf,
        Read.evalOn_ofExcept, isSet]
      exact ih (fun other member => accepted other (List.mem_cons_of_mem leaf member))
        (shows.setLeaf (accepted leaf List.mem_cons_self) isSet)

/-- Inserting accepted values into a tree of accepted values succeeds and keeps the tree so. -/
theorem insertLeaves_total (reads : ReadsNodes poseidon tree database nodes)
    (closed : HashClosed poseidon Accepts) {leaves : List TreeLeaf} {batch : Buffer}
    (backed : Over batch tree.storageLeafGetter)
    (inRange : ∀ leaf ∈ leaves, leaf.index.toNat < 2 ^ tree.depth.toNat)
    (accepted : ∀ leaf ∈ leaves, Accepts leaf.value)
    (shows : ShowsAccepted tree nodes Accepts batch) :
    ∃ batch', Read.evalOn database (tree.insertLeaves poseidon batch leaves) = .ok batch' ∧
      ShowsAccepted tree nodes Accepts batch' := by
  obtain ⟨batch₁, first, shows₁⟩ := @setLeaves_total _ _ _ tree database _ _ leaves batch
    accepted shows
  obtain ⟨over₁, _⟩ := setLeaves_spec backed first
  rw [SparseMerkleTree.insertLeaves, Program.bind_eq, Read.evalOn_bind, first, except_bind_ok]
  obtain ⟨batch', run, good⟩ := insertLevels_total (hashable_inTree reads closed)
    (Nat.zero_add _) ⟨over₁, shows₁⟩ fun leaf member => leaf_inTree (inRange leaf member)
  exact ⟨batch', run, good.2⟩

/-! ### One leaf -/

omit [LawfulBuffer Buffer] in
theorem insertLeafLoop_eq_insertLevels (value : U256) :
    ∀ (count : Nat) (level : TreeLevel) (index : TreeLeafIndex) (batch : Buffer),
      tree.insertLeafLoop poseidon count level index batch =
        tree.insertLevels poseidon count level [⟨index, value⟩] batch
  | 0, _, _, _ => rfl
  | count + 1, level, index, batch => by
      simp only [SparseMerkleTree.insertLeafLoop, SparseMerkleTree.insertLevels,
        SparseMerkleTree.insertLevel, Finset.notMem_empty, if_false, Program.bind_eq,
        Program.bind_assoc, List.nil_append]
      congr 1
      funext nodeHash
      congr 1
      funext batch₁
      exact insertLeafLoop_eq_insertLevels nodeHash count (level + 1) (index / 2) batch₁

omit [LawfulBuffer Buffer] in
/-- `InsertLeaf` does what `InsertLeaves` does with a single leaf. -/
theorem insertLeaf_eq_insertLeaves (batch : Buffer) (index : TreeLeafIndex) (value : U256) :
    tree.insertLeaf poseidon batch index value =
      tree.insertLeaves poseidon batch [⟨index, value⟩] := by
  simp only [SparseMerkleTree.insertLeaf, SparseMerkleTree.insertLeaves,
    SparseMerkleTree.setLeaves, Program.bind_eq, Program.bind_assoc]
  congr 1
  funext batch₁
  exact insertLeafLoop_eq_insertLevels value _ _ _ _

end Insertion

end MerkleProofService
