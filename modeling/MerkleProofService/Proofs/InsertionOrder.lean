/-
Module: MerkleProofService.Proofs.InsertionOrder
Layer: Proofs
Purpose: Inserting many leaves at once and inserting them one by one.  `InsertLeaves` hashes each
  node above the leaves once, `InsertLeaf` hashes a whole way up for every leaf; both call on the
  same nodes, and the last hash of each is the same.  Nothing is assumed of the storage: a
  successful insertion only depends on what it reads.  At depth 255 the table of empty branches has
  no entries, and the two ways come apart.
Imports: Proofs.EmptyBranches, Proofs.NodeCalls
Trusted boundary: none
Main exports: insertEach, Inserted.trans, Inserted.content_unique, insertLeaves_agrees,
  insertLeaves_total_forest, insertLeaves_eq_insertEach, InsertsAlike, depth255_separates
-/
import MerkleProofService.Proofs.EmptyBranches
import MerkleProofService.Proofs.NodeCalls

namespace MerkleProofService

open Library
open TreeLeafGetterSetter (getLeaf setLeaf)
open LawfulBuffer (content Over)

/-- `InsertLeaf` on the leaves of a list, in order. -/
def SparseMerkleTree.insertEach {Buffer : Type} [TreeLeafGetterSetter Buffer]
    (poseidon : PoseidonHash) (tree : SparseMerkleTree) :
    List TreeLeaf → Buffer → Read Buffer
  | [], batch => return batch
  | leaf :: leaves, batch => do
      let batch ← tree.insertLeaf poseidon batch leaf.index leaf.value
      insertEach poseidon tree leaves batch

section Insertions

variable {Buffer : Type} [TreeLeafGetterSetter Buffer] [LawfulBuffer Buffer]
variable {poseidon : PoseidonHash} {tree : SparseMerkleTree} {database : Database}
variable {nodes : Nat → Nat → U256} {leaves : List TreeLeaf}

/-! ### Insertions one after the other -/

theorem Inserted.none {batch : Buffer} (backed : Over batch tree.storageLeafGetter) :
    Inserted poseidon tree nodes [] batch batch where
  backed := backed
  ground := fun _ => rfl
  beside := fun _ _ _ => rfl
  shown := fun level index _ above => by simp [Above, dirtyLeaves] at above
  hashed := fun level index _ above => by simp [Above, dirtyLeaves] at above

/-- Two insertions in a row insert the leaves of both. -/
theorem Inserted.trans {more : List TreeLeaf} {batch batch₁ batch' : Buffer}
    (first : Inserted poseidon tree nodes leaves batch batch₁)
    (second : Inserted poseidon tree nodes more batch₁ batch') :
    Inserted poseidon tree nodes (leaves ++ more) batch batch' where
  backed := second.backed
  ground := fun index => by
    rw [second.ground, first.ground, lastWrite_append, Option.or_assoc]
  beside := fun level index away => by
    rw [dirtyLeaves_append, above_union] at away
    rw [second.beside level index fun here => away ⟨here.1, Or.inr here.2⟩,
      first.beside level index fun here => away ⟨here.1, Or.inl here.2⟩]
  shown := fun level index within above => by
    rw [dirtyLeaves_append, above_union] at above
    by_cases again : Above (dirtyLeaves more) level.toNat index.toNat
    · exact second.shown level index within again
    · rw [second.beside level index fun here => again here.2]
      exact first.shown level index within (above.resolve_right again)
  hashed := fun level index below above => by
    rw [dirtyLeaves_append] at above
    exact (first.rehashed.trans (by decide) (dirtyLeaves_fit leaves) second.rehashed).above
      below above

/-- What an insertion leaves in the buffer is determined by the buffer and the leaves. -/
theorem Inserted.content_unique {batch first second : Buffer}
    (one : Inserted poseidon tree nodes leaves batch first)
    (two : Inserted poseidon tree nodes leaves batch second) (level : TreeLevel)
    (index : TreeLeafIndex) : content first level index = content second level index := by
  by_cases here : level.toNat ≤ tree.depth.toNat ∧
      Above (dirtyLeaves leaves) level.toNat index.toNat
  · have agree : overlay first nodes level.toNat index.toNat =
        overlay second nodes level.toNat index.toNat := by
      refine one.rehashed.unique (by decide) (dirtyLeaves_fit leaves) two.rehashed ?_ here.1
        index.toNat_lt
      intro leaf _
      rw [one.overlay_leaf, two.overlay_leaf]
    obtain ⟨value, shown⟩ := Option.isSome_iff_exists.mp (one.shown level index here.1 here.2)
    obtain ⟨other, shownToo⟩ := Option.isSome_iff_exists.mp (two.shown level index here.1 here.2)
    rw [overlay_toNat, overlay_toNat, shown, shownToo] at agree
    rw [shown, shownToo]
    exact congrArg some agree
  · rw [one.beside level index here, two.beside level index here]

/-- Inserting one by one inserts all leaves, and calls on the nodes above them. -/
theorem insertEach_spec {batch batch' : Buffer} (backed : Over batch tree.storageLeafGetter)
    (run : Read.evalOn database (tree.insertEach poseidon leaves batch) = .ok batch') :
    Inserted poseidon tree (readNodes poseidon tree database) leaves batch batch' ∧
      ∃ calls, setCalls calls batch = .ok batch' ∧
        ∀ (level : TreeLevel) (index : TreeLeafIndex), Touches calls level index ↔
          level.toNat ≤ tree.depth.toNat ∧
            Above (dirtyLeaves leaves) level.toNat index.toNat := by
  induction leaves generalizing batch with
  | nil =>
      obtain rfl : batch = batch' := by simpa [SparseMerkleTree.insertEach] using run
      exact ⟨Inserted.none backed, [], rfl, by simp [Above, dirtyLeaves]⟩
  | cons leaf leaves ih =>
      rw [SparseMerkleTree.insertEach, Program.bind_eq, Read.evalOn_bind, except_bind_eq_ok,
        insertLeaf_eq_insertLeaves] at run
      rcases run with ⟨batch₁, first, rest⟩
      have inserted := insertLeaves_inserted backed first
      obtain ⟨calls, called, touched⟩ := insertLeaves_calls backed first
      obtain ⟨insertedRest, more, calledRest, touchedRest⟩ := ih inserted.backed rest
      refine ⟨inserted.trans insertedRest, calls ++ more, ?_, fun level index => ?_⟩
      · rw [setCalls_append, called]
        exact calledRest
      · have split : leaf :: leaves = [leaf] ++ leaves := rfl
        rw [touches_append, touched, touchedRest, ← and_or_left, split, dirtyLeaves_append,
          above_union]

end Insertions

section Agreement

variable {poseidon : PoseidonHash} {tree : SparseMerkleTree} {database : Database}
variable {leaves : List TreeLeaf}

/-- Whenever both ways of inserting succeed they leave the same batch. -/
theorem insertLeaves_sameBatch {batch batched single : BatchWithLeavesBuffer}
    (atOnce : Read.evalOn database (tree.insertLeaves poseidon batch leaves) = .ok batched)
    (oneByOne : Read.evalOn database (tree.insertEach poseidon leaves batch) = .ok single) :
    SameBatch batched single := by
  have inserted := insertLeaves_inserted trivial atOnce
  obtain ⟨calls, called, touched⟩ := insertLeaves_calls trivial atOnce
  obtain ⟨insertedEach, callsEach, calledEach, touchedEach⟩ := insertEach_spec trivial oneByOne
  refine setCalls_sameBatch called calledEach (fun level index => ?_)
    (inserted.content_unique insertedEach)
  rw [touched, touchedEach]

/-! ### Insertion at any index -/

section Total

variable {Buffer : Type} [TreeLeafGetterSetter Buffer] [LawfulBuffer Buffer]
variable {Accepts : U256 → Prop}

/-- Every node below the root level is read, at whatever index, and is an accepted value. -/
def ReadsAccepted (poseidon : PoseidonHash) (tree : SparseMerkleTree) (database : Database)
    (Accepts : U256 → Prop) : Prop :=
  ∀ (level : TreeLevel) (index : TreeLeafIndex), level.toNat < tree.depth.toNat →
    ∃ value, Read.evalOn database (tree.getLeafFromStorage poseidon level index) = .ok value ∧
      Accepts value

/-- Every value set in the buffer is accepted. -/
def HoldsAccepted (Accepts : U256 → Prop) (batch : Buffer) : Prop :=
  ∀ level index value, content batch level index = some value → Accepts value

theorem HoldsAccepted.setLeaf {batch batch' : Buffer} {level : TreeLevel}
    {index : TreeLeafIndex} {value : U256} (holds : HoldsAccepted Accepts batch)
    (accepted : Accepts value) (isSet : setLeaf batch level index value = .ok batch') :
    HoldsAccepted Accepts batch' := by
  intro level' index' other shown
  rw [LawfulBuffer.content_setLeaf isSet] at shown
  by_cases here : level' = level ∧ index' = index
  · rw [if_pos here] at shown
    exact Option.some.inj shown ▸ accepted
  · rw [if_neg here] at shown
    exact holds level' index' other shown

/-- Hashes of accepted values can be calculated at any index. -/
theorem hashable_forest (reads : ReadsAccepted poseidon tree database Accepts)
    (closed : HashClosed poseidon Accepts) :
    Hashable poseidon tree database (fun _ _ => True)
      (fun batch : Buffer => Over batch tree.storageLeafGetter ∧
        HoldsAccepted Accepts batch) where
  backed := fun good => good.1
  parent := fun _ _ => trivial
  hash := by
    intro batch level index good below _
    -- a child is what the buffer holds or what the storage shows
    have child : ∀ position, ∃ value, Read.evalOn database
        (tree.getLeafFromBatchOrStorage poseidon batch level position) = .ok value ∧
          Accepts value := by
      intro position
      obtain ⟨value, read, accepted⟩ := reads level position below
      refine ⟨_, evalOn_getLeafFromBatchOrStorage_of_read good.1 read, ?_⟩
      cases shown : content batch level position with
      | none => exact accepted
      | some other => exact good.2 level position other shown
    obtain ⟨left, leftRead, leftAccepted⟩ := child (2 * (index / 2))
    obtain ⟨right, rightRead, rightAccepted⟩ := child (2 * (index / 2) + 1)
    obtain ⟨hash, hashes, accepted⟩ := closed left right leftAccepted rightAccepted
    refine ⟨hash, by rw [evalOn_calculateHashForNode_of_reads leftRead rightRead, hashes], ?_⟩
    intro batch' isSet
    exact ⟨LawfulBuffer.over_setLeaf isSet good.1, good.2.setLeaf accepted isSet⟩

theorem setLeaves_holdsAccepted {batch batch' : Buffer}
    (backed : Over batch tree.storageLeafGetter) (holds : HoldsAccepted Accepts batch)
    (accepted : ∀ index value, lastWrite leaves index = some value → Accepts value)
    (run : Read.evalOn database (SparseMerkleTree.setLeaves leaves batch) = .ok batch') :
    HoldsAccepted Accepts batch' := by
  intro level index value shown
  rw [(setLeaves_spec backed run).2] at shown
  by_cases ground : level = 0
  · rw [if_pos ground, Option.or_eq_some_iff] at shown
    rcases shown with written | ⟨_, kept⟩
    · exact accepted index value written
    · exact holds 0 index value kept
  · rw [if_neg ground] at shown
    exact holds level index value shown

theorem setLeaves_ok (leaves : List TreeLeaf) (batch : Buffer) (database : Database) :
    ∃ batch', Read.evalOn database (SparseMerkleTree.setLeaves leaves batch) = .ok batch' := by
  induction leaves generalizing batch with
  | nil => exact ⟨batch, rfl⟩
  | cons leaf leaves ih =>
      obtain ⟨batch₁, isSet⟩ := LawfulBuffer.setLeaf_ok batch 0 leaf.index leaf.value
      rw [SparseMerkleTree.setLeaves, Program.bind_eq, Read.evalOn_bind, Read.evalOn_wrapf,
        Read.evalOn_ofExcept, isSet]
      exact ih batch₁

/-- An insertion succeeds if the hash accepts what is read and what is left at each leaf; a value
overwritten by a later leaf of the list is never hashed. -/
theorem insertLeaves_total_forest (reads : ReadsAccepted poseidon tree database Accepts)
    (closed : HashClosed poseidon Accepts) {batch : Buffer}
    (backed : Over batch tree.storageLeafGetter) (holds : HoldsAccepted Accepts batch)
    (accepted : ∀ index value, lastWrite leaves index = some value → Accepts value) :
    ∃ batch', Read.evalOn database (tree.insertLeaves poseidon batch leaves) = .ok batch' ∧
      Over batch' tree.storageLeafGetter ∧ HoldsAccepted Accepts batch' := by
  obtain ⟨batch₁, first⟩ := setLeaves_ok leaves batch database
  have good := setLeaves_holdsAccepted backed holds accepted first
  rw [SparseMerkleTree.insertLeaves, Program.bind_eq, Read.evalOn_bind, first, except_bind_ok]
  exact insertLevels_total (hashable_forest reads closed) (Nat.zero_add _)
    ⟨(setLeaves_spec backed first).1, good⟩ fun _ _ => trivial

theorem insertEach_total (reads : ReadsAccepted poseidon tree database Accepts)
    (closed : HashClosed poseidon Accepts) {batch : Buffer}
    (backed : Over batch tree.storageLeafGetter) (holds : HoldsAccepted Accepts batch)
    (accepted : ∀ leaf ∈ leaves, Accepts leaf.value) :
    ∃ batch', Read.evalOn database (tree.insertEach poseidon leaves batch) = .ok batch' := by
  induction leaves generalizing batch with
  | nil => exact ⟨batch, rfl⟩
  | cons leaf leaves ih =>
      have single : ∀ index value,
          lastWrite [⟨leaf.index, leaf.value⟩] index = some value → Accepts value := by
        intro index value written
        obtain ⟨other, member, _, rfl⟩ := lastWrite_mem written
        obtain rfl := List.mem_singleton.mp member
        exact accepted leaf List.mem_cons_self
      obtain ⟨batch₁, first, backed₁, holds₁⟩ :=
        insertLeaves_total_forest reads closed backed holds single
      rw [SparseMerkleTree.insertEach, Program.bind_eq, Read.evalOn_bind,
        insertLeaf_eq_insertLeaves, first, except_bind_ok]
      exact ih backed₁ holds₁ fun other member => accepted other (List.mem_cons_of_mem leaf member)

/-! ### Insertion towards a known result -/

theorem ReadsAccepted.read (reads : ReadsAccepted poseidon tree database Accepts)
    {level : TreeLevel} (below : level.toNat < tree.depth.toNat) (index : TreeLeafIndex) :
    Read.evalOn database (tree.getLeafFromStorage poseidon level index) =
      .ok (readNodes poseidon tree database level.toNat index.toNat) := by
  obtain ⟨value, read, _⟩ := reads level index below
  rw [read, readNodes_of_ok read]

/-- What the rounds from a level up need of the buffer: it shows `target` at that level and beside
the nodes still to be hashed. -/
def ShowsTarget (tree : SparseMerkleTree) (nodes target : Nat → Nat → U256) (dirty : Set Nat)
    (level : TreeLevel) (batch : Buffer) : Prop :=
  ∀ (level' : TreeLevel) (index : TreeLeafIndex), level.toNat ≤ level'.toNat →
    level'.toNat ≤ tree.depth.toNat →
    level' = level ∨ ¬ Above dirty level'.toNat index.toNat →
    overlay batch nodes level'.toNat index.toNat = target level'.toNat index.toNat

variable {target : Nat → Nat → U256} {dirty : Set Nat}

/-- The hash for a node below a dirty parent is the one `target` has. -/
theorem evalOn_calculateHashForNode_target
    (reads : ReadsAccepted poseidon tree database Accepts)
    (hashed : ∀ {level index}, level < tree.depth.toNat → Above dirty (level + 1) index →
      calculateHash poseidon (target level (2 * index)) (target level (2 * index + 1)) =
        .ok (target (level + 1) index))
    {level : TreeLevel} (below : level.toNat < tree.depth.toNat) {batch : Buffer}
    (backed : Over batch tree.storageLeafGetter)
    (shows : ∀ index : TreeLeafIndex,
      overlay batch (readNodes poseidon tree database) level.toNat index.toNat =
        target level.toNat index.toNat)
    {index : TreeLeafIndex} (above : Above dirty level.toNat index.toNat) :
    Read.evalOn database (tree.calculateHashForNode poseidon batch level index) =
      .ok (target (level.toNat + 1) (index.toNat / 2)) := by
  have child : ∀ position, Read.evalOn database
      (tree.getLeafFromBatchOrStorage poseidon batch level position) =
        .ok (target level.toNat position.toNat) := by
    intro position
    rw [evalOn_getLeafFromBatchOrStorage_of_read backed (reads.read below position),
      ← overlay_toNat, shows]
  rw [evalOn_calculateHashForNode_of_reads (child _) (child _), toNat_leftOfParent,
    toNat_rightOfParent]
  exact hashed below above.parent

/-- A round that succeeds leaves the next level at `target`. -/
theorem ShowsTarget.next
    (hashed : ∀ {level index}, level < tree.depth.toNat → Above dirty (level + 1) index →
      calculateHash poseidon (target level (2 * index)) (target level (2 * index + 1)) =
        .ok (target (level + 1) index))
    {nodes : Nat → Nat → U256} {level : TreeLevel} (below : level.toNat < tree.depth.toNat)
    {next : List TreeLeaf} {batch batch₁ : Buffer}
    (cover : ∀ index : TreeLeafIndex, (∃ leaf ∈ leaves, leaf.index / 2 = index) ↔
      Above dirty (level.toNat + 1) index.toNat)
    (shows : ShowsTarget tree nodes target dirty level batch)
    (pass : LevelInserted poseidon tree nodes level leaves ∅ [] batch next batch₁) :
    ShowsTarget tree nodes target dirty (level + 1) batch₁ := by
  have up := toNat_succ_level below
  intro level' index higher within position
  rw [up] at higher
  by_cases here : level' = level + 1 ∧ Above dirty level'.toNat index.toNat
  · obtain ⟨rfl, above⟩ := here
    rw [up] at above
    obtain ⟨leaf, member, rfl⟩ := (cover index).mpr above
    obtain ⟨hash, shown, computed⟩ :=
      pass.hashed (leaf.index / 2) (Finset.notMem_empty _) ⟨leaf, member, rfl⟩
    have child : ∀ position : TreeLeafIndex,
        overlay batch nodes level.toNat position.toNat = target level.toNat position.toNat :=
      fun position => shows level position (Nat.le_refl _) below.le (Or.inl rfl)
    have left := child (2 * (leaf.index / 2))
    have right := child (2 * (leaf.index / 2) + 1)
    rw [toNat_leftOfParent] at left
    rw [toNat_rightOfParent] at right
    rw [uint32_div_two] at computed above
    rw [left, right, hashed below above] at computed
    rw [overlay_toNat, shown, up, uint32_div_two]
    exact (Except.ok.inj computed).symm
  · have away : ¬ Above dirty level'.toNat index.toNat := fun above =>
      here ⟨position.resolve_right fun clean => clean above, above⟩
    have kept : content batch₁ level' index = content batch level' index := by
      refine pass.beside level' index ?_
      rintro ⟨rfl, _, parent⟩
      exact away (up ▸ (cover index).mp parent)
    have before := shows level' index (by omega) within (Or.inr away)
    rw [overlay_toNat] at before ⊢
    rw [kept]
    exact before

/-- The leaves of a round are the dirty nodes of its level; their parents are those of the next. -/
theorem cover_parents {level : TreeLevel} (fits : ∀ leaf ∈ dirty, leaf < 2 ^ 32)
    (cover : ∀ index : TreeLeafIndex, (∃ leaf ∈ leaves, leaf.index = index) ↔
      Above dirty level.toNat index.toNat) (index : TreeLeafIndex) :
    (∃ leaf ∈ leaves, leaf.index / 2 = index) ↔ Above dirty (level.toNat + 1) index.toNat := by
  constructor
  · rintro ⟨leaf, member, rfl⟩
    rw [uint32_div_two]
    exact ((cover leaf.index).mp ⟨leaf, member, rfl⟩).parent
  · rintro ⟨number, member, same⟩
    have small : number / 2 ^ level.toNat < 2 ^ 32 :=
      Nat.lt_of_le_of_lt (Nat.div_le_self _ _) (fits number member)
    have typed : (UInt32.ofNat (number / 2 ^ level.toNat)).toNat = number / 2 ^ level.toNat :=
      UInt32.toNat_ofNat_of_lt' small
    obtain ⟨leaf, leafMember, position⟩ :=
      (cover (UInt32.ofNat (number / 2 ^ level.toNat))).mpr ⟨number, member, typed.symm⟩
    refine ⟨leaf, leafMember, UInt32.toNat_inj.mp ?_⟩
    rw [uint32_div_two, position, typed, Nat.div_div_eq_div_mul, ← pow_succ, same]

theorem insertLevels_reach (reads : ReadsAccepted poseidon tree database Accepts)
    (fits : ∀ leaf ∈ dirty, leaf < 2 ^ 32)
    (hashed : ∀ {level index}, level < tree.depth.toNat → Above dirty (level + 1) index →
      calculateHash poseidon (target level (2 * index)) (target level (2 * index + 1)) =
        .ok (target (level + 1) index)) :
    ∀ {count : Nat} {level : TreeLevel} {leaves : List TreeLeaf} {batch : Buffer},
      level.toNat + count = tree.depth.toNat → Over batch tree.storageLeafGetter →
      (∀ index : TreeLeafIndex, (∃ leaf ∈ leaves, leaf.index = index) ↔
        Above dirty level.toNat index.toNat) →
      ShowsTarget tree (readNodes poseidon tree database) target dirty level batch →
      ∃ batch', Read.evalOn database (tree.insertLevels poseidon count level leaves batch) =
        .ok batch'
  | 0, level, leaves, batch, reach, backed, cover, shows => ⟨batch, rfl⟩
  | count + 1, level, leaves, batch, reach, backed, cover, shows => by
      have below : level.toNat < tree.depth.toNat := by omega
      have up := toNat_succ_level below
      let Good : Buffer → Prop := fun batch => Over batch tree.storageLeafGetter ∧
        ∀ index : TreeLeafIndex,
          overlay batch (readNodes poseidon tree database) level.toNat index.toNat =
            target level.toNat index.toNat
      have start : Good batch :=
        ⟨backed, fun index => shows level index (Nat.le_refl _) below.le (Or.inl rfl)⟩
      have hash : ∀ {batch : Buffer} {index : TreeLeafIndex}, Good batch →
          Above dirty level.toNat index.toNat →
          ∃ hash, Read.evalOn database (tree.calculateHashForNode poseidon batch level index) =
              .ok hash ∧
            ∀ {batch'}, setLeaf batch (level + 1) (index / 2) hash = .ok batch' →
              Good batch' := by
        intro batch index good above
        refine ⟨_, evalOn_calculateHashForNode_target reads hashed below good.1 good.2 above, ?_⟩
        intro batch' isSet
        refine ⟨LawfulBuffer.over_setLeaf isSet good.1, fun position => ?_⟩
        rw [overlay_setLeaf_ne isSet (by simp)]
        exact good.2 position
      obtain ⟨next, batch₁, run, _⟩ := insertLevel_total hash leaves ∅ [] start
        fun leaf member => (cover leaf.index).mp ⟨leaf, member, rfl⟩
      have pass := insertLevel_spec below backed run
      have parents := cover_parents fits cover
      have coverNext : ∀ index : TreeLeafIndex, (∃ leaf ∈ next, leaf.index = index) ↔
          Above dirty (level + 1).toNat index.toNat := by
        intro index
        rw [pass.parents, up]
        exact parents index
      rw [SparseMerkleTree.insertLevels, Program.bind_eq, Read.evalOn_bind, run, except_bind_ok]
      exact insertLevels_reach reads fits hashed (by omega) pass.backed coverNext
        (shows.next hashed below parents pass)

/-- An insertion succeeds if there is a table its hashes lead to. -/
theorem insertLeaves_reach (reads : ReadsAccepted poseidon tree database Accepts)
    {batch : Buffer} (backed : Over batch tree.storageLeafGetter)
    (rehashed : Rehashed (calculateHash poseidon) 32 tree.depth.toNat (dirtyLeaves leaves)
      (overlay batch (readNodes poseidon tree database)) target)
    (ground : ∀ index : TreeLeafIndex, target 0 index.toNat =
      (lastWrite leaves index).getD
        (overlay batch (readNodes poseidon tree database) 0 index.toNat)) :
    ∃ batch', Read.evalOn database (tree.insertLeaves poseidon batch leaves) = .ok batch' := by
  obtain ⟨batch₁, first⟩ := setLeaves_ok leaves batch database
  obtain ⟨backed₁, set⟩ := setLeaves_spec backed first
  rw [SparseMerkleTree.insertLeaves, Program.bind_eq, Read.evalOn_bind, first, except_bind_ok]
  refine insertLevels_reach reads (dirtyLeaves_fit leaves) rehashed.above (Nat.zero_add _) backed₁
    (fun index => ?_) fun level index _ within position => ?_
  · simp [dirtyLeaves, UInt32.toNat_inj]
  · by_cases leaf : level = 0
    · subst leaf
      have here := ground index
      rw [overlay_toNat, set, if_pos rfl]
      change _ = target 0 index.toNat
      rw [here, overlay]
      cases lastWrite leaves index with
      | none => simp
      | some value => rfl
    · have clean := position.resolve_left leaf
      rw [overlay_toNat, set, if_neg leaf, ← overlay_toNat,
        rehashed.beside within index.toNat_lt clean]

end Total

/-- A registry's tree reads field elements if it stores field elements. -/
theorem readsAccepted_field {depth : TreeLevel} {emptyValue : U256}
    {registryIndex : RegistryIndex} (spec : PoseidonSpec poseidon)
    (made : TreeOf poseidon depth emptyValue registryIndex tree) (shallow : depth ≠ 255)
    (emptyField : InField emptyValue)
    (stored : ∀ level index value,
      storedLeaf database registryIndex level index = some value → InField value) :
    ReadsAccepted poseidon tree database InField := by
  intro level index below
  obtain ⟨sameDepth, sameEmpty, getter⟩ := made.shape
  have low : tree.depth.toNat < 255 := by
    have bound := tree.depth.toNat_lt
    have apart : tree.depth.toNat ≠ 255 := fun same =>
      shallow (sameDepth ▸ UInt8.toNat_inj.mp (same.trans rfl))
    omega
  obtain ⟨empty, branches, emptyAccepted⟩ := emptyBranches_exist spec.closed
    (sameEmpty ▸ emptyField) (by omega) low made.cacheSound
  refine ⟨_, evalOn_getLeafFromStorage branches getter below.le index, ?_⟩
  cases found : storedLeaf database registryIndex level index with
  | none => exact emptyAccepted level.toNat
  | some value => exact stored level index value found

/-- Inserting at once and one by one succeed and leave the same buffer and the same store, from any
buffer over any storage of field elements, in a tree of any depth but 255. -/
theorem insertLeaves_eq_insertEach {depth : TreeLevel} {emptyValue : U256}
    {registryIndex : RegistryIndex} (spec : PoseidonSpec poseidon)
    (made : TreeOf poseidon depth emptyValue registryIndex tree) (shallow : depth ≠ 255)
    (emptyField : InField emptyValue)
    (stored : ∀ level index value,
      storedLeaf database registryIndex level index = some value → InField value)
    {batch : BatchWithLeavesBuffer} (pending : HoldsAccepted InField batch)
    (values : ∀ leaf ∈ leaves, InField leaf.value) :
    ∃ batched single,
      Read.evalOn database (tree.insertLeaves poseidon batch leaves) = .ok batched ∧
      Read.evalOn database (tree.insertEach poseidon leaves batch) = .ok single ∧
      SameBatch batched single := by
  have reads := readsAccepted_field spec made shallow emptyField stored
  have left : ∀ index value, lastWrite leaves index = some value → InField value := by
    intro index value written
    obtain ⟨leaf, member, _, rfl⟩ := lastWrite_mem written
    exact values leaf member
  obtain ⟨batched, atOnce, _⟩ := insertLeaves_total_forest reads spec.closed trivial pending left
  obtain ⟨single, oneByOne⟩ := insertEach_total reads spec.closed trivial pending values
  exact ⟨batched, single, atOnce, oneByOne, insertLeaves_sameBatch atOnce oneByOne⟩

end Agreement

/-! ### Depth 255 -/

/-- A tree of depth 255: the size of its table of empty branches wraps to zero. -/
def deepTree (emptyValue : U256) : SparseMerkleTree :=
  newSparseTree 255 emptyValue (LeafView.getter ⟨0⟩)

/-- The first two nodes of every level between the leaves and the root. -/
def deepKeys : List Bytes :=
  (List.range 254).flatMap fun step =>
    [makeLeafKey 0 (UInt8.ofNat (step + 1)) 0, makeLeafKey 0 (UInt8.ofNat (step + 1)) 1]

def deepStore : Database :=
  Store.write ∅ (deepKeys.map fun key => .set key [1])

theorem deepStore_stored {level : TreeLevel} {index : TreeLeafIndex} (inner : 0 < level.toNat)
    (below : level.toNat < 255) (first : index = 0 ∨ index = 1) :
    storedLeaf deepStore 0 level index = some 1 := by
  have member : makeLeafKey 0 level index ∈ deepKeys := by
    refine List.mem_flatMap.mpr ⟨level.toNat - 1, List.mem_range.mpr (by omega), ?_⟩
    rw [Nat.sub_add_cancel inner, UInt8.ofNat_toNat]
    rcases first with rfl | rfl <;> simp
  rw [storedLeaf, deepStore, Store.lookup_write, lastEffect_map_set, if_pos member]
  rfl

theorem deepStore_noLeaf (index : TreeLeafIndex) : storedLeaf deepStore 0 0 index = none := by
  have absent : makeLeafKey 0 0 index ∉ deepKeys := by
    intro member
    obtain ⟨step, small, found⟩ := List.mem_flatMap.mp member
    rw [List.mem_range] at small
    have level : UInt8.ofNat (step + 1) = 0 := by
      simp only [List.mem_cons, makeLeafKey_inj, List.not_mem_nil, or_false, true_and] at found
      rcases found with same | same <;> exact same.1.symm
    have number := congrArg UInt8.toNat level
    rw [UInt8.toNat_ofNat_of_lt' (show step + 1 < 256 by omega)] at number
    exact Nat.succ_ne_zero step number
  rw [storedLeaf, deepStore, Store.lookup_write, lastEffect_map_set, if_neg absent]
  rfl

theorem deepStore_field {level : TreeLevel} {index : TreeLeafIndex} {value : U256}
    (found : storedLeaf deepStore 0 level index = some value) : InField value := by
  rw [storedLeaf, deepStore, Store.lookup_write, lastEffect_map_set] at found
  split at found
  · obtain rfl := Option.some.inj found
    decide
  · cases found

section Deep

variable {poseidon : PoseidonHash} {emptyValue : U256}

/-- Over this store an insertion of the first two leaves never needs an empty branch. -/
theorem hashable_deep (spec : PoseidonSpec poseidon) :
    Hashable poseidon (deepTree emptyValue) deepStore
      (fun level index => index = 0 ∨ level = 0 ∧ index = 1)
      (fun batch : BatchWithLeavesBuffer => HoldsAccepted InField batch ∧
        (content batch 0 0).isSome ∧ (content batch 0 1).isSome) where
  backed := fun _ => trivial
  parent := by
    rintro level index _ (rfl | ⟨_, rfl⟩) <;> exact Or.inl rfl
  hash := by
    intro batch level index good below first
    have child : ∀ position, position = 0 ∨ position = 1 → ∃ value, Read.evalOn deepStore
        ((deepTree emptyValue).getLeafFromBatchOrStorage poseidon batch level position) =
          .ok value ∧ InField value := by
      intro position here
      by_cases ground : level = 0
      · subst ground
        have isSome : (content batch 0 position).isSome := by
          rcases here with rfl | rfl
          · exact good.2.1
          · exact good.2.2
        obtain ⟨value, shown⟩ := Option.isSome_iff_exists.mp isSome
        exact ⟨value, evalOn_getLeafFromBatchOrStorage_of_content shown,
          good.1 0 position value shown⟩
      · have inner : 0 < level.toNat := Nat.pos_of_ne_zero fun zero =>
          ground (UInt8.toNat_inj.mp (by simpa using zero))
        have read := @evalOn_getLeafFromStorage_stored poseidon (deepTree emptyValue) deepStore 0
          rfl level below.le position
        rw [deepStore_stored inner below here] at read
        refine ⟨_, evalOn_getLeafFromBatchOrStorage_of_read trivial read, ?_⟩
        cases shown : content batch level position with
        | none => decide
        | some value => exact good.1 level position value shown
    have left : 2 * (index / 2) = 0 := by rcases first with rfl | ⟨_, rfl⟩ <;> rfl
    obtain ⟨leftValue, leftRead, leftField⟩ := child 0 (Or.inl rfl)
    obtain ⟨rightValue, rightRead, rightField⟩ := child 1 (Or.inr rfl)
    obtain ⟨hash, hashes, field⟩ := spec.closed _ _ leftField rightField
    refine ⟨hash, ?_, ?_⟩
    · rw [evalOn_calculateHashForNode_of_reads (by rw [left]; exact leftRead)
        (by rw [left]; exact rightRead), hashes]
    · intro batch' isSet
      refine ⟨good.1.setLeaf field isSet, ?_⟩
      rw [LawfulBuffer.content_setLeaf isSet, LawfulBuffer.content_setLeaf isSet]
      constructor <;> split <;> simp [good.2]

def deepLeaves : List TreeLeaf := [⟨0, 1⟩, ⟨1, 1⟩]

theorem deepTree_insertLeaves (spec : PoseidonSpec poseidon) :
    ∃ batched, Read.evalOn deepStore ((deepTree emptyValue).insertLeaves poseidon
      (newBatchWithLeavesBuffer [] 0) deepLeaves) = .ok batched := by
  obtain ⟨batch, first⟩ := setLeaves_ok deepLeaves (newBatchWithLeavesBuffer [] 0) deepStore
  have set := (@setLeaves_spec _ _ _ deepStore _ _ _ (deepTree emptyValue).storageLeafGetter
    trivial first).2
  have holds : HoldsAccepted InField batch := by
    refine @setLeaves_holdsAccepted (deepTree emptyValue) deepStore deepLeaves _ _ _ InField _ _
      trivial ?_ ?_ first
    · intro level index value shown
      cases shown
    · intro index value written
      obtain ⟨leaf, member, _, rfl⟩ := lastWrite_mem written
      exact (show ∀ leaf ∈ deepLeaves, InField leaf.value by decide) leaf member
  obtain ⟨batched, run, _⟩ := @insertLevels_total _ _ _ _ _ _ _ _
    (@hashable_deep _ emptyValue spec) 255 0 deepLeaves batch rfl
    ⟨holds, by rw [set]; rfl, by rw [set]; rfl⟩
    (show ∀ leaf ∈ deepLeaves, leaf.index = 0 ∨ (0 : TreeLevel) = 0 ∧ leaf.index = 1 by decide)
  refine ⟨batched, ?_⟩
  rw [SparseMerkleTree.insertLeaves, Program.bind_eq, Read.evalOn_bind, first, except_bind_ok]
  exact run

/-- The first entry of a table without entries. -/
theorem deepTree_calculateEmptyBranchHashes :
    (deepTree emptyValue).calculateEmptyBranchHashes poseidon =
      .error (.panic "index out of range [0] with length 0") := by
  have deep : ¬ (255 : TreeLevel) < 1 := by decide
  have wraps : (255 + 1 : TreeLevel) = 0 := by decide
  exact (if_neg deep).trans (if_pos wraps)

/-- The sibling of the first leaf is not stored, and its empty branch cannot be looked up. -/
theorem deepTree_sibling {batch : BatchWithLeavesBuffer} (missing : content batch 0 1 = none) :
    Read.evalOn deepStore
        ((deepTree emptyValue).getLeafFromBatchOrStorage poseidon batch 0 1) =
      .error (.panic "index out of range [0] with length 0") := by
  have read := @evalOn_getLeafFromStorage_stored poseidon (deepTree emptyValue) deepStore 0 rfl 0
    (Nat.zero_le _) 1
  have noValue : (deepTree emptyValue).getEmptyBranchValue poseidon 0 =
      .error (.panic "index out of range [0] with length 0") := by
    have table : (deepTree emptyValue).emptyBranchTable poseidon =
        .error (.panic "index out of range [0] with length 0") :=
      congrArg (Except.mapError (GoError.wrapf "calculate empty branch hashes"))
        deepTree_calculateEmptyBranchHashes
    have inside : ¬ (0 : TreeLevel) > 255 := by decide
    rw [SparseMerkleTree.getEmptyBranchValue, table]
    exact if_neg inside
  rw [deepStore_noLeaf] at read
  rw [evalOn_getLeafFromBatchOrStorage_missing missing, read, noValue]
  rfl

/-- At depth 255 inserting at once succeeds where inserting one by one panics on the table of empty
branches, whatever the empty leaf is. -/
theorem depth255_separates (spec : PoseidonSpec poseidon) (emptyValue : U256) :
    (∃ batched, Read.evalOn deepStore ((deepTree emptyValue).insertLeaves poseidon
      (newBatchWithLeavesBuffer [] 0) deepLeaves) = .ok batched) ∧
    Read.evalOn deepStore ((deepTree emptyValue).insertEach poseidon deepLeaves
      (newBatchWithLeavesBuffer [] 0)) =
        .error (.panic "index out of range [0] with length 0") := by
  refine ⟨deepTree_insertLeaves spec, ?_⟩
  obtain ⟨batch, isSet⟩ :=
    LawfulBuffer.setLeaf_ok (newBatchWithLeavesBuffer [] 0) 0 (0 : TreeLeafIndex) (1 : U256)
  have shown := LawfulBuffer.content_setLeaf isSet
  have leaf : content batch 0 0 = some 1 := by rw [shown, if_pos ⟨rfl, rfl⟩]
  have sibling : content batch 0 1 = none := by
    rw [shown, if_neg (by decide)]
    rfl
  have hashing : Read.evalOn deepStore
      ((deepTree emptyValue).calculateHashForNode poseidon batch 0 0) =
        .error (.panic "index out of range [0] with length 0") := by
    have left : (2 * (0 / 2) : TreeLeafIndex) = 0 := rfl
    have right : (0 + 1 : TreeLeafIndex) = 1 := rfl
    simp only [SparseMerkleTree.calculateHashForNode, Program.bind_eq, Read.evalOn_bind,
      Read.evalOn_wrapf, getSiblingNodes_eq, left, right,
      evalOn_getLeafFromBatchOrStorage_of_content leaf, deepTree_sibling sibling, except_bind_ok,
      except_bind_error]
    rfl
  have loop : Read.evalOn deepStore
      ((deepTree emptyValue).insertLeafLoop poseidon 255 0 0 batch) =
        .error (.panic "index out of range [0] with length 0") := by
    rw [SparseMerkleTree.insertLeafLoop, Program.bind_eq, Read.evalOn_bind, Read.evalOn_wrapf,
      hashing]
    rfl
  have levels : (deepTree emptyValue).depth.toNat = 255 := rfl
  simp only [deepLeaves, SparseMerkleTree.insertEach, SparseMerkleTree.insertLeaf, levels,
    Program.bind_eq, Read.evalOn_bind, Read.evalOn_wrapf, Read.evalOn_ofExcept, isSet,
    except_mapError_ok, except_bind_ok, loop, except_bind_error]

end Deep

/-- The small case: the empty leaf 0 and the two leaves at the left end. -/
theorem deepTree_separates :
    (∃ batched, Read.evalOn deepStore ((deepTree 0).insertLeaves fieldHash
      (newBatchWithLeavesBuffer [] 0) deepLeaves) = .ok batched) ∧
    Read.evalOn deepStore ((deepTree 0).insertEach fieldHash deepLeaves
      (newBatchWithLeavesBuffer [] 0)) =
        .error (.panic "index out of range [0] with length 0") :=
  depth255_separates fieldHash_spec 0

/-! ### Every depth -/

/-- In the trees of a depth and an empty leaf, over any storage of field elements and from any
buffer of field elements, inserting leaves at once and inserting them one by one both succeed and
leave the same buffer and the same store. -/
def InsertsAlike (poseidon : PoseidonHash) (depth : TreeLevel) (emptyValue : U256) : Prop :=
  ∀ (registryIndex : RegistryIndex) (tree : SparseMerkleTree) (database : Database)
    (batch : BatchWithLeavesBuffer) (leaves : List TreeLeaf),
    TreeOf poseidon depth emptyValue registryIndex tree →
    (∀ level index value,
      storedLeaf database registryIndex level index = some value → InField value) →
    HoldsAccepted InField batch → (∀ leaf ∈ leaves, InField leaf.value) →
    ∃ batched single,
      Read.evalOn database (tree.insertLeaves poseidon batch leaves) = .ok batched ∧
      Read.evalOn database (tree.insertEach poseidon leaves batch) = .ok single ∧
      SameBatch batched single

/-- With an empty leaf that is a field element, the two ways of inserting come to the same exactly
at the depths other than 255. -/
theorem insertLeaves_eq_insertEach_iff {poseidon : PoseidonHash} (spec : PoseidonSpec poseidon)
    {emptyValue : U256} (emptyField : InField emptyValue) (depth : TreeLevel) :
    InsertsAlike poseidon depth emptyValue ↔ depth ≠ 255 := by
  constructor
  · rintro alike rfl
    obtain ⟨_, single, _, oneByOne, _⟩ := alike 0 (deepTree emptyValue) deepStore
      (newBatchWithLeavesBuffer [] 0) deepLeaves .created (fun _ _ _ => deepStore_field)
      (fun _ _ _ shown => by cases shown) (by decide)
    rw [(depth255_separates spec emptyValue).2] at oneByOne
    cases oneByOne
  · intro shallow registryIndex tree database batch leaves made stored pending values
    exact insertLeaves_eq_insertEach spec made shallow emptyField stored pending values

/-- A store in which a node is no hash of its children, and leaves with a repeated index, siblings
and an index beyond the tree; and the depth at which the two ways come apart. -/
theorem insertLeaves_eq_insertEach_iff_inconsistentStore :
    (∃ batched single,
      Read.evalOn (Store.write ∅ [.set (makeLeafKey 0 1 1) [9]])
        ((newSparseTree 2 5 (LeafView.getter ⟨0⟩)).insertLeaves fieldHash
          (newBatchWithLeavesBuffer [] 0) [⟨1, 7⟩, ⟨0, 8⟩, ⟨1, 9⟩, ⟨6, 1⟩]) = .ok batched ∧
      Read.evalOn (Store.write ∅ [.set (makeLeafKey 0 1 1) [9]])
        ((newSparseTree 2 5 (LeafView.getter ⟨0⟩)).insertEach fieldHash
          [⟨1, 7⟩, ⟨0, 8⟩, ⟨1, 9⟩, ⟨6, 1⟩] (newBatchWithLeavesBuffer [] 0)) = .ok single ∧
      SameBatch batched single) ∧
    ¬ InsertsAlike fieldHash 255 5 := by
  have emptyField : InField 5 := by decide
  refine ⟨?_, fun alike =>
    (insertLeaves_eq_insertEach_iff fieldHash_spec emptyField 255).mp alike rfl⟩
  refine (insertLeaves_eq_insertEach_iff fieldHash_spec emptyField 2).mpr (by decide) 0 _ _ _ _
    .created ?_ ?_ (by decide)
  · intro level index value found
    rw [storedLeaf, Store.lookup_write, lastEffect_singleton, WriteOp.key, WriteOp.left] at found
    by_cases here : makeLeafKey 0 1 1 = makeLeafKey 0 level index
    · rw [if_pos here] at found
      obtain rfl := Option.some.inj found
      decide
    · rw [if_neg here] at found
      cases found
  · intro level index value shown
    cases shown

end MerkleProofService
