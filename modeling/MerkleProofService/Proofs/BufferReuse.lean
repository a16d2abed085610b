/-
Module: MerkleProofService.Proofs.BufferReuse
Layer: Proofs
Purpose: `InsertLeaves` may reuse one array for the leaves of a level and for their parents.  On
  slices, with the array reused or with a new one for every level, the loops are in lockstep with
  the loops on lists: they visit the same leaves in the same order and write the same nodes, and no
  array that the caller has is stored into.
Imports: ZkRegistry.SliceInsertion, Proofs.EmptyBranches
Trusted boundary: none
Main exports: SparseMerkleTree.insertLeavesOnLists, insertLeavesRenewing_lockstep,
  insertRanges_inPlace, insertLeavesReusing_eq_insertLeaves, buffer_reuse_exact
-/
import MerkleProofService.ZkRegistry.SliceInsertion
import MerkleProofService.Proofs.EmptyBranches

namespace MerkleProofService

open Library

/-! ### The loops on lists -/

namespace SparseMerkleTree

variable (poseidon : PoseidonHash) (tree : SparseMerkleTree) {Buffer : Type}
variable [TreeLeafGetterSetter Buffer]

/-- The first loop of `InsertLeaves` on a list. -/
def setList : List TreeLeaf → InsertRun Buffer Unit Unit
  | [] => return ()
  | leaf :: leaves => do
      InsertRun.setLeaf "set leaf" 0 leaf
      setList leaves

/-- The inner loop of `InsertLeaves` on lists. -/
def insertList (level : TreeLevel) : List TreeLeaf → Finset TreeLeafIndex → List TreeLeaf →
    InsertRun Buffer Unit (List TreeLeaf)
  | [], _, nextLevelLeaves => return nextLevelLeaves
  | leaf :: leaves, updatedIndexes, nextLevelLeaves => do
      InsertRun.visit level leaf
      if leaf.index / 2 ∈ updatedIndexes then
        insertList level leaves updatedIndexes nextLevelLeaves
      else
        let nodeHash ← tree.hashParent poseidon level leaf
        InsertRun.setLeaf "set node" (level + 1) ⟨leaf.index / 2, nodeHash⟩
        insertList level leaves (insert (leaf.index / 2) updatedIndexes)
          (nextLevelLeaves ++ [⟨leaf.index / 2, nodeHash⟩])

/-- The outer loop of `InsertLeaves` on lists. -/
def insertLists : Nat → TreeLevel → List TreeLeaf → InsertRun Buffer Unit Unit
  | 0, _, _ => return ()
  | count + 1, level, leaves => do
      let nextLevelLeaves ← tree.insertList poseidon level leaves ∅ []
      insertLists count (level + 1) nextLevelLeaves

/-- `InsertLeaves` on a list, with its history. -/
def insertLeavesOnLists (leaves : List TreeLeaf) : InsertRun Buffer Unit Unit := do
  setList leaves
  tree.insertLists poseidon tree.depth.toNat 0 leaves

end SparseMerkleTree

/-! ### Lockstep -/

section Lockstep

open SparseMerkleTree

variable {poseidon : PoseidonHash} {tree : SparseMerkleTree} {Buffer : Type}
variable [TreeLeafGetterSetter Buffer] {growth : Nat → Nat} {before : Heap TreeLeaf}

/-- All but the arrays. -/
def InsertState.forget {Memory : Type} (s : InsertState Buffer Memory) : InsertState Buffer Unit :=
  ⟨s.batch, (), s.visited, s.written⟩

/-- The run on lists has the same history, and the arrays of `before` are as they were. -/
def Accompanies (before : Heap TreeLeaf) (s : InsertState Buffer (Heap TreeLeaf))
    (t : InsertState Buffer Unit) : Prop :=
  t = s.forget ∧ before.StaysIn s.memory

theorem setLeaf_lockstep {s : InsertState Buffer (Heap TreeLeaf)}
    (stays : before.StaysIn s.memory) (text : String) (level : TreeLevel) (leaf : TreeLeaf) :
    (InsertRun.setLeaf text level leaf s).Lockstep
      (Stateful.Alike (fun _ s' _ t' => t' = s'.forget ∧ s'.memory = s.memory)
        (Accompanies before))
      (InsertRun.setLeaf text level leaf s.forget) := by
  refine Stateful.lockstep_bind (Stateful.lockstep_ofProgram ?_ ⟨rfl, stays⟩) ?_
  · rfl
  · rintro batch _ _ _ ⟨rfl, rfl, rfl⟩
    exact .done (.ok ⟨rfl, rfl⟩)

theorem setRange_lockstep (leaves : Slice) :
    ∀ (remaining position : Nat) {s : InsertState Buffer (Heap TreeLeaf)},
      before.StaysIn s.memory →
      (setRange leaves remaining position s).Lockstep
        (Stateful.Alike (fun _ s' _ t' => t' = s'.forget ∧ s'.memory = s.memory)
          (Accompanies before))
        (setList (s.memory.window leaves position remaining) s.forget)
  | 0, _, _, _ => .done (.ok ⟨rfl, rfl⟩)
  | remaining + 1, position, s, stays => by
      rw [Heap.window_succ, setList, setRange, InsertRun.get, Stateful.step_bind]
      apply Stateful.lockstep_bind (setLeaf_lockstep stays "set leaf" 0 _)
      rintro _ s' _ _ ⟨rfl, same⟩
      have rest := setRange_lockstep leaves remaining (position + 1) (same ▸ stays)
      rw [same] at rest
      exact rest

/-- Hashing a parent and writing it, with whatever follows. -/
theorem parent_lockstep {α β : Type}
    {related : α → InsertState Buffer (Heap TreeLeaf) → β → InsertState Buffer Unit → Prop}
    {rest : U256 → InsertRun Buffer (Heap TreeLeaf) α} {rest' : U256 → InsertRun Buffer Unit β}
    (level : TreeLevel) (leaf : TreeLeaf) {s : InsertState Buffer (Heap TreeLeaf)}
    (stays : before.StaysIn s.memory)
    (next : ∀ nodeHash (s' : InsertState Buffer (Heap TreeLeaf)), s'.memory = s.memory →
      (rest nodeHash s').Lockstep (Stateful.Alike related (Accompanies before))
        (rest' nodeHash s'.forget)) :
    ((do
      let nodeHash ← tree.hashParent poseidon level leaf
      InsertRun.setLeaf "set node" (level + 1) ⟨leaf.index / 2, nodeHash⟩
      rest nodeHash : InsertRun Buffer (Heap TreeLeaf) α) s).Lockstep
      (Stateful.Alike related (Accompanies before))
      ((do
      let nodeHash ← tree.hashParent poseidon level leaf
      InsertRun.setLeaf "set node" (level + 1) ⟨leaf.index / 2, nodeHash⟩
      rest' nodeHash : InsertRun Buffer Unit β) s.forget) := by
  refine Stateful.lockstep_bind (Stateful.lockstep_ofProgram ?_ ⟨rfl, stays⟩) ?_
  · rfl
  · rintro nodeHash _ _ _ ⟨rfl, rfl, rfl⟩
    apply Stateful.lockstep_bind (setLeaf_lockstep stays "set node" _ _)
    rintro _ s' _ _ ⟨rfl, same⟩
    exact next nodeHash s' same

/-- At the end of a level: the parents stand in a slice that no array of the caller backs. -/
def Collected (before : Heap TreeLeaf) (nextLevelLeaves : Slice)
    (s : InsertState Buffer (Heap TreeLeaf)) (parents : List TreeLeaf)
    (t : InsertState Buffer Unit) : Prop :=
  Accompanies before s t ∧ s.memory.Has nextLevelLeaves ∧
    before.arrays.length ≤ nextLevelLeaves.array ∧ s.memory.elements nextLevelLeaves = parents

theorem insertRange_lockstep (level : TreeLevel) (leaves : Slice) :
    ∀ (remaining position : Nat) (updated : Finset TreeLeafIndex) (nextLevelLeaves : Slice)
      {s : InsertState Buffer (Heap TreeLeaf)},
      Trails before s.memory leaves position nextLevelLeaves →
      (tree.insertRange poseidon growth level leaves remaining position updated nextLevelLeaves
          s).Lockstep
        (Stateful.Alike (Collected before) (Accompanies before))
        (tree.insertList poseidon level (s.memory.window leaves position remaining) updated
          (s.memory.elements nextLevelLeaves) s.forget)
  | 0, _, _, _, _, trails =>
      .done (.ok ⟨⟨rfl, trails.stays⟩, trails.has, trails.beyond, rfl⟩)
  | remaining + 1, position, updated, nextLevelLeaves, s, trails => by
      rw [Heap.window_succ, insertList, insertRange, InsertRun.get, Stateful.step_bind,
        InsertRun.visit, Stateful.step_bind, InsertRun.visit, Stateful.step_bind]
      by_cases seen : (s.memory.get leaves position).index / 2 ∈ updated
      · simp only [if_pos seen]
        exact insertRange_lockstep level leaves remaining (position + 1) updated nextLevelLeaves
          trails.advance
      · simp only [if_neg seen]
        refine parent_lockstep level (s.memory.get leaves position) trails.stays ?_
        intro nodeHash s' same
        change s'.memory = s.memory at same
        rw [← same] at trails ⊢
        -- the leaf was copied out of the array before its parent is stored into it
        generalize s'.memory.get leaves position = leaf
        have rest := insertRange_lockstep level leaves remaining (position + 1)
          (insert (leaf.index / 2) updated) _
          (s := ⟨s'.batch, _, s'.visited, s'.written⟩)
          (trails.append growth ⟨leaf.index / 2, nodeHash⟩)
        rw [trails.window_append, Heap.elements_append trails.has] at rest
        exact rest

/-- `renew` gives an empty slice to append to while the leaves are read, and leaves them alone. -/
def Renews (renew : Slice → InsertRun Buffer (Heap TreeLeaf) Slice) : Prop :=
  ∀ (before : Heap TreeLeaf) (leaves : Slice) (s : InsertState Buffer (Heap TreeLeaf)),
    before.StaysIn s.memory → s.memory.Has leaves → before.arrays.length ≤ leaves.array →
    ∃ nextLevelLeaves memory,
      renew leaves s = .done (.ok nextLevelLeaves, { s with memory := memory }) ∧
      nextLevelLeaves.length = 0 ∧ Trails before memory leaves 0 nextLevelLeaves ∧
      memory.elements leaves = s.memory.elements leaves

omit [TreeLeafGetterSetter Buffer] in
theorem renews_reuse : Renews (reuse : Slice → InsertRun Buffer (Heap TreeLeaf) Slice) :=
  fun _ leaves s stays has beyond =>
    ⟨leaves.upTo 0 (Nat.zero_le _), s.memory, rfl, rfl, Trails.ofUpTo stays has beyond, rfl⟩

omit [TreeLeafGetterSetter Buffer] in
theorem renews_makeLeaves :
    Renews (fun _ => InsertRun.makeLeaves : Slice → InsertRun Buffer (Heap TreeLeaf) Slice) :=
  fun _ _ s stays has _ =>
    ⟨(s.memory.make 0).1, (s.memory.make 0).2, rfl, rfl, Trails.ofMake stays has.allocated,
      Heap.elements_make has.allocated 0⟩

variable {renew : Slice → InsertRun Buffer (Heap TreeLeaf) Slice}

theorem insertRanges_lockstep (renews : Renews renew) :
    ∀ (count : Nat) (level : TreeLevel) (leaves nextLevelLeaves : Slice)
      {s : InsertState Buffer (Heap TreeLeaf)},
      Trails before s.memory leaves 0 nextLevelLeaves → nextLevelLeaves.length = 0 →
      (tree.insertRanges poseidon growth renew count level leaves nextLevelLeaves s).Lockstep
        (Stateful.Alike (fun _ s' _ t' => Accompanies before s' t') (Accompanies before))
        (tree.insertLists poseidon count level (s.memory.elements leaves) s.forget)
  | 0, _, _, _, _, trails, _ => .done (.ok ⟨rfl, trails.stays⟩)
  | count + 1, level, leaves, nextLevelLeaves, s, trails, empty => by
      rw [insertRanges, insertLists]
      have inner : (tree.insertRange poseidon growth level leaves leaves.length 0 ∅ nextLevelLeaves
          s).Lockstep _ _ :=
        insertRange_lockstep level leaves leaves.length 0 ∅ nextLevelLeaves trails
      have noParents : s.memory.elements nextLevelLeaves = [] :=
        List.length_eq_zero_iff.mp ((Heap.length_elements ..).trans empty)
      rw [← Heap.elements_eq_window, noParents] at inner
      apply Stateful.lockstep_bind inner
      rintro parents s' _ _ ⟨⟨rfl, stays⟩, has, beyond, rfl⟩
      obtain ⟨fresh, memory, returns, length, trails', same⟩ := renews before parents s' stays has
        beyond
      -- the new slice trails the parents, which are the leaves of the next level
      rw [Stateful.bind_of_done returns, ← same]
      exact insertRanges_lockstep renews count (level + 1) parents fresh trails' length

variable (poseidon tree growth) in
/-- `InsertLeaves` on slices, whichever way the slice of the next level is renewed, is in lockstep
with `InsertLeaves` on the list of the elements. -/
theorem insertLeavesRenewing_lockstep (renews : Renews renew) (batch : Buffer)
    {heap : Heap TreeLeaf} {leaves : Slice} (has : heap.Has leaves) :
    (tree.insertLeavesRenewing poseidon growth renew leaves (.start batch heap)).Lockstep
      (Stateful.Alike (fun _ s' _ t' => Accompanies heap s' t') (Accompanies heap))
      (tree.insertLeavesOnLists poseidon (heap.elements leaves) (.start batch ())) := by
  have first := setRange_lockstep leaves leaves.length 0
    (s := InsertState.start batch heap) (Heap.StaysIn.refl heap)
  apply Stateful.lockstep_bind ((Heap.elements_eq_window heap leaves) ▸ first)
  rintro _ s' _ _ ⟨rfl, same⟩
  change s'.memory = heap at same
  subst same
  rw [InsertRun.makeLeaves, Stateful.step_bind, ← Heap.elements_make has.allocated 0]
  exact insertRanges_lockstep renews tree.depth.toNat 0 leaves _
    (Trails.ofMake (Heap.StaysIn.refl _) has.allocated) rfl

end Lockstep

/-! ### The loops on lists and the model without history -/

section Reports

open SparseMerkleTree

variable {poseidon : PoseidonHash} {tree : SparseMerkleTree} {Buffer : Type}
variable [TreeLeafGetterSetter Buffer]

theorem setLeaf_reports {Memory : Type} (text : String) (level : TreeLevel) (leaf : TreeLeaf)
    (s : InsertState Buffer Memory) :
    (InsertRun.setLeaf text level leaf s).Lockstep (Stateful.Reports fun _ t => t.batch)
      (Read.wrapf text (.ofExcept (TreeLeafGetterSetter.setLeaf s.batch level leaf.index
        leaf.value))).attempt := by
  rw [← Program.bind_done (Read.wrapf text _)]
  exact Stateful.reports_ofProgram_bind fun _ => .done rfl

theorem setList_reports : ∀ (leaves : List TreeLeaf) (s : InsertState Buffer Unit),
    (setList leaves s).Lockstep (Stateful.Reports fun _ t => t.batch)
      (SparseMerkleTree.setLeaves leaves s.batch).attempt
  | [], _ => .done rfl
  | leaf :: leaves, s =>
      Stateful.reports_bind (setLeaf_reports "set leaf" 0 leaf s) fun _ t =>
        setList_reports leaves t

theorem insertList_reports (level : TreeLevel) :
    ∀ (leaves : List TreeLeaf) (updated : Finset TreeLeafIndex) (nextLevelLeaves : List TreeLeaf)
      (s : InsertState Buffer Unit),
      (tree.insertList poseidon level leaves updated nextLevelLeaves s).Lockstep
        (Stateful.Reports fun next t => (next, t.batch))
        (tree.insertLevel poseidon level leaves updated nextLevelLeaves s.batch).attempt
  | [], _, _, _ => .done rfl
  | leaf :: leaves, updated, nextLevelLeaves, s => by
      rw [insertList, SparseMerkleTree.insertLevel, InsertRun.visit, Stateful.step_bind]
      by_cases seen : leaf.index / 2 ∈ updated
      · simp only [if_pos seen]
        exact insertList_reports level leaves updated nextLevelLeaves _
      · simp only [if_neg seen]
        apply Stateful.reports_ofProgram_bind
        intro nodeHash
        apply Stateful.reports_bind (setLeaf_reports "set node" (level + 1) _ _)
        intro _ t
        exact insertList_reports level leaves _ _ t

theorem insertLists_reports :
    ∀ (count : Nat) (level : TreeLevel) (leaves : List TreeLeaf) (s : InsertState Buffer Unit),
      (tree.insertLists poseidon count level leaves s).Lockstep
        (Stateful.Reports fun _ t => t.batch)
        (tree.insertLevels poseidon count level leaves s.batch).attempt
  | 0, _, _, _ => .done rfl
  | count + 1, level, leaves, s =>
      Stateful.reports_bind (insertList_reports level leaves ∅ [] s) fun parents t =>
        insertLists_reports count (level + 1) parents t

theorem insertLeavesOnLists_reports (leaves : List TreeLeaf) (s : InsertState Buffer Unit) :
    (tree.insertLeavesOnLists poseidon leaves s).Lockstep (Stateful.Reports fun _ t => t.batch)
      (tree.insertLeaves poseidon s.batch leaves).attempt :=
  Stateful.reports_bind (setList_reports leaves s) fun _ t =>
    insertLists_reports tree.depth.toNat 0 leaves t

end Reports

/-! ### Every parent once -/

/-- Where the nodes above the leaves were written, in order. -/
def parentKeys (written : List (TreeLevel × TreeLeaf)) : List (TreeLevel × TreeLeafIndex) :=
  (written.filter fun call => call.1 ≠ 0).map fun call => (call.1, call.2.index)

theorem parentKeys_leaf (written : List (TreeLevel × TreeLeaf)) (leaf : TreeLeaf) :
    parentKeys (written ++ [(0, leaf)]) = parentKeys written := by
  simp [parentKeys]

theorem parentKeys_parent (written : List (TreeLevel × TreeLeaf)) {level : TreeLevel}
    (above : level ≠ 0) (leaf : TreeLeaf) :
    parentKeys (written ++ [(level, leaf)]) = parentKeys written ++ [(level, leaf.index)] := by
  simp [parentKeys, above]

/-- While the loop is at `level`: no parent was written twice, and those of this level are the ones
in `updated`. -/
structure WrittenOnce (level : TreeLevel) (updated : Finset TreeLeafIndex)
    (written : List (TreeLevel × TreeLeaf)) : Prop where
  once : (parentKeys written).Nodup
  places : ∀ key ∈ parentKeys written,
    key.1.toNat ≤ level.toNat ∨ key.1 = level + 1 ∧ key.2 ∈ updated

section Once

open SparseMerkleTree

variable {poseidon : PoseidonHash} {tree : SparseMerkleTree} {Buffer : Type}
variable [TreeLeafGetterSetter Buffer]

theorem WrittenOnce.write {level : TreeLevel} {updated : Finset TreeLeafIndex}
    {written : List (TreeLevel × TreeLeaf)} (here : WrittenOnce level updated written)
    (below : level.toNat < tree.depth.toNat) (parent : TreeLeaf)
    (fresh : parent.index ∉ updated) :
    WrittenOnce level (insert parent.index updated) (written ++ [(level + 1, parent)]) := by
  have up := toNat_succ_level below
  have above : level + 1 ≠ 0 := by
    intro zero
    rw [zero] at up
    exact Nat.succ_ne_zero _ up.symm
  have keys := parentKeys_parent written above parent
  constructor
  · rw [keys]
    refine List.nodup_append.mpr ⟨here.once, List.nodup_singleton _, fun key member other last => ?_⟩
    rw [List.mem_singleton.mp last]
    rintro rfl
    rcases here.places _ member with lower | ⟨_, seen⟩
    · change (level + 1).toNat ≤ level.toNat at lower
      omega
    · exact fresh seen
  · intro key member
    rw [keys, List.mem_append, List.mem_singleton] at member
    rcases member with earlier | rfl
    · exact (here.places key earlier).imp id fun ⟨same, seen⟩ =>
        ⟨same, Finset.mem_insert_of_mem seen⟩
    · exact Or.inr ⟨rfl, Finset.mem_insert_self _ _⟩

theorem WrittenOnce.nextLevel {level : TreeLevel} {updated : Finset TreeLeafIndex}
    {written : List (TreeLevel × TreeLeaf)} (here : WrittenOnce level updated written)
    (below : level.toNat < tree.depth.toNat) : WrittenOnce (level + 1) ∅ written := by
  refine ⟨here.once, fun key member => Or.inl ?_⟩
  rw [toNat_succ_level below]
  rcases here.places key member with lower | ⟨same, _⟩
  · exact Nat.le_succ_of_le lower
  · rw [same, toNat_succ_level below]

theorem setLeaf_asks {Memory : Type} {s : InsertState Buffer Memory}
    {bad : InsertState Buffer Memory → Prop} (holds : bad s) (text : String) (level : TreeLevel)
    (leaf : TreeLeaf) :
    (InsertRun.setLeaf text level leaf s).Asks (fun _ => True) (Stateful.Ending
      (fun _ t => t.written = s.written ++ [(level, leaf)] ∧ t.memory = s.memory) bad) := by
  apply Stateful.asks_bind (Stateful.asks_ofProgram holds)
  rintro batch _ rfl
  exact ⟨rfl, rfl⟩

/-- Hashing a parent and writing it, with whatever follows. -/
theorem parent_asks {Memory α : Type} {good : α → InsertState Buffer Memory → Prop}
    {bad : InsertState Buffer Memory → Prop} {rest : U256 → InsertRun Buffer Memory α}
    (level : TreeLevel) (leaf : TreeLeaf) {s : InsertState Buffer Memory} (holds : bad s)
    (next : ∀ nodeHash t, t.written = s.written ++ [(level + 1, ⟨leaf.index / 2, nodeHash⟩)] →
      t.memory = s.memory →
      (rest nodeHash t).Asks (fun _ => True) (Stateful.Ending good bad)) :
    ((do
      let nodeHash ← tree.hashParent poseidon level leaf
      InsertRun.setLeaf "set node" (level + 1) ⟨leaf.index / 2, nodeHash⟩
      rest nodeHash : InsertRun Buffer Memory α) s).Asks (fun _ => True)
      (Stateful.Ending good bad) := by
  apply Stateful.asks_bind (Stateful.asks_ofProgram holds)
  rintro nodeHash _ rfl
  apply Stateful.asks_bind (setLeaf_asks holds "set node" (level + 1) _)
  rintro _ t ⟨written, memory⟩
  exact next nodeHash t written memory

theorem setList_asks : ∀ (leaves : List TreeLeaf) {s : InsertState Buffer Unit},
    parentKeys s.written = [] →
    (setList leaves s).Asks (fun _ => True)
      (Stateful.Ending (fun _ t => parentKeys t.written = [])
        fun t => (parentKeys t.written).Nodup)
  | [], _, empty => empty
  | leaf :: leaves, s, empty => by
      refine Stateful.asks_bind (setLeaf_asks ?_ "set leaf" 0 leaf) ?_
      · rw [empty]
        exact List.nodup_nil
      · rintro _ t ⟨written, _⟩
        exact setList_asks leaves (by rw [written, parentKeys_leaf, empty])

theorem insertList_asks {level : TreeLevel} (below : level.toNat < tree.depth.toNat) :
    ∀ (leaves : List TreeLeaf) (updated : Finset TreeLeafIndex) (nextLevelLeaves : List TreeLeaf)
      {s : InsertState Buffer Unit}, WrittenOnce level updated s.written →
      (tree.insertList poseidon level leaves updated nextLevelLeaves s).Asks (fun _ => True)
        (Stateful.Ending (fun _ t => ∃ updated', WrittenOnce level updated' t.written)
          fun t => (parentKeys t.written).Nodup)
  | [], updated, _, _, here => ⟨updated, here⟩
  | leaf :: leaves, updated, nextLevelLeaves, s, here => by
      rw [insertList, InsertRun.visit, Stateful.step_bind]
      by_cases seen : leaf.index / 2 ∈ updated
      · simp only [if_pos seen]
        exact insertList_asks below leaves updated nextLevelLeaves here
      · simp only [if_neg seen]
        refine parent_asks level leaf ?_ ?_
        · exact here.once
        · intro nodeHash t written _
          apply insertList_asks below
          rw [written]
          exact here.write below ⟨leaf.index / 2, nodeHash⟩ seen

theorem insertLists_asks :
    ∀ (count : Nat) {level : TreeLevel} (leaves : List TreeLeaf) {s : InsertState Buffer Unit},
      level.toNat + count = tree.depth.toNat → WrittenOnce level ∅ s.written →
      (tree.insertLists poseidon count level leaves s).Asks (fun _ => True)
        (Stateful.Ending (fun _ t => (parentKeys t.written).Nodup)
          fun t => (parentKeys t.written).Nodup)
  | 0, _, _, _, _, here => here.once
  | count + 1, level, leaves, s, reach, here => by
      have below : level.toNat < tree.depth.toNat := by omega
      apply Stateful.asks_bind (insertList_asks below leaves ∅ [] here)
      rintro parents t ⟨updated, written⟩
      apply insertLists_asks count parents _ (written.nextLevel below)
      rw [toNat_succ_level below]
      omega

/-- The loops write every parent once, whatever the storage answers and wherever they fail. -/
theorem insertLeavesOnLists_once (leaves : List TreeLeaf) (batch : Buffer) :
    (tree.insertLeavesOnLists poseidon leaves (.start batch ())).Asks (fun _ => True)
      fun ended => (parentKeys ended.2.written).Nodup := by
  have ends : (tree.insertLeavesOnLists poseidon leaves (.start batch ())).Asks (fun _ => True)
      (Stateful.Ending (fun _ t => (parentKeys t.written).Nodup)
        fun t => (parentKeys t.written).Nodup) := by
    apply Stateful.asks_bind (setList_asks leaves rfl)
    intro _ t empty
    apply insertLists_asks tree.depth.toNat leaves (by simp)
    constructor
    · rw [empty]
      exact List.nodup_nil
    · intro key member
      rw [empty] at member
      cases member
  apply ends.weaken
  rintro ⟨outcome, t⟩ ending
  cases outcome <;> exact ending

end Once

/-! ### The array is reused -/

section InPlace

open SparseMerkleTree

variable {poseidon : PoseidonHash} {tree : SparseMerkleTree} {Buffer : Type}
variable [TreeLeafGetterSetter Buffer] {growth : Nat → Nat} {before : Heap TreeLeaf}

/-- A slice in the array of the leaves, with their capacity and not longer than what was read of
them, stays there: there is room for every parent. -/
theorem insertRange_inPlace (level : TreeLevel) (leaves : Slice) :
    ∀ (remaining position : Nat) (updated : Finset TreeLeafIndex) (nextLevelLeaves : Slice)
      {s : InsertState Buffer (Heap TreeLeaf)}, position + remaining = leaves.length →
      nextLevelLeaves.array = leaves.array → nextLevelLeaves.capacity = leaves.capacity →
      nextLevelLeaves.length ≤ position → before.OnlyInto leaves.array s.memory →
      (tree.insertRange poseidon growth level leaves remaining position updated nextLevelLeaves
        s).Asks (fun _ => True) (Stateful.Ending
          (fun next t => next.array = leaves.array ∧ before.OnlyInto leaves.array t.memory)
          fun t => before.OnlyInto leaves.array t.memory)
  | 0, _, _, _, _, _, shared, _, _, only => ⟨shared, only⟩
  | remaining + 1, position, updated, nextLevelLeaves, s, reach, shared, capacity, behind,
      only => by
      rw [insertRange, InsertRun.get, Stateful.step_bind, InsertRun.visit, Stateful.step_bind]
      by_cases seen : (s.memory.get leaves position).index / 2 ∈ updated
      · simp only [if_pos seen]
        exact insertRange_inPlace level leaves remaining (position + 1) updated nextLevelLeaves
          (by omega) shared capacity (Nat.le_succ_of_le behind) only
      · simp only [if_neg seen]
        refine parent_asks level (s.memory.get leaves position) ?_ ?_
        · exact only
        intro nodeHash t _ same
        rw [InsertRun.append, Stateful.step_bind]
        have room : nextLevelLeaves.length < nextLevelLeaves.capacity := by
          have fits := leaves.length_le
          omega
        apply insertRange_inPlace level leaves remaining (position + 1)
        · omega
        · rw [Heap.append_of_room room]
          exact shared
        · rw [Heap.append_of_room room]
          exact capacity
        · rw [Heap.append_of_room room]
          exact Nat.succ_le_succ behind
        · rw [← shared] at only ⊢
          exact (same ▸ only).trans (.append room growth t.memory _)

/-- Once the array is shared, from the second level on, it is the only one: for all the levels that
follow no array is allocated, and the parents are stored into it alone. -/
theorem insertRanges_inPlace :
    ∀ (count : Nat) (level : TreeLevel) (leaves : Slice) {s : InsertState Buffer (Heap TreeLeaf)},
      before.OnlyInto leaves.array s.memory →
      (tree.insertRanges poseidon growth reuse count level leaves
        (leaves.upTo 0 (Nat.zero_le _)) s).Asks (fun _ => True) (Stateful.Ending
          (fun _ t => before.OnlyInto leaves.array t.memory)
          fun t => before.OnlyInto leaves.array t.memory)
  | 0, _, _, _, only => only
  | count + 1, level, leaves, s, only => by
      rw [insertRanges]
      refine Stateful.asks_bind (insertRange_inPlace level leaves leaves.length 0 ∅ _
        (Nat.zero_add _) rfl rfl (Nat.zero_le _) only) ?_
      rintro parents t ⟨shared, only'⟩
      have rest := insertRanges_inPlace count (level + 1) parents (s := t) (shared ▸ only')
      rw [shared] at rest
      exact rest

end InPlace

/-! ### Reuse and allocation -/

section Reuse

open SparseMerkleTree

variable (poseidon : PoseidonHash) (tree : SparseMerkleTree) {Buffer : Type}
variable [TreeLeafGetterSetter Buffer] (growth : Nat → Nat) (batch : Buffer)
variable {heap : Heap TreeLeaf} {leaves : Slice}

/-- All but the arrays is as on lists. -/
theorem forget_insertLeavesRenewing {renew : Slice → InsertRun Buffer (Heap TreeLeaf) Slice}
    (renews : Renews renew) (has : heap.Has leaves) :
    Prod.map id InsertState.forget <$>
        tree.insertLeavesRenewing poseidon growth renew leaves (.start batch heap) =
      tree.insertLeavesOnLists poseidon (heap.elements leaves) (.start batch ()) := by
  apply (insertLeavesRenewing_lockstep poseidon tree growth renews batch has).map_eq
  intro ended ended' alike
  cases alike with
  | ok holds => exact congrArg (Prod.mk _) holds.1.symm
  | error failure holds => exact congrArg (Prod.mk _) holds.1.symm

/-- On slices `InsertLeaves` ends as it does on the list of the elements. -/
theorem insertLeavesReusing_eq_insertLeaves (has : heap.Has leaves) :
    (fun ended : Except GoError Unit × InsertState Buffer (Heap TreeLeaf) =>
        ended.1.map fun _ => ended.2.batch) <$>
          tree.insertLeavesReusing poseidon growth leaves (.start batch heap) =
      (tree.insertLeaves poseidon batch (heap.elements leaves)).attempt := by
  have onLists := insertLeavesRenewing_lockstep poseidon tree growth renews_reuse batch has
  apply (onLists.trans (insertLeavesOnLists_reports _ _)).map_eq
  rintro ended outcome ⟨listed, alike, rfl⟩
  cases alike with
  | ok holds => rw [holds.1]; rfl
  | error failure holds => rfl

/-- Reusing one array for two levels is safe.  Whatever the storage answers, `InsertLeaves` asks it
the same and ends with the same outcome, the same batch and the same history as the loop that makes
a slice for every level: it visits the same leaves of every level in the same order and writes the
same nodes.  Every parent is written once, and no array that was there when it was called is stored
into, also where it returns an error.  The arrays may grow in any way. -/
theorem buffer_reuse_exact (growth' : Nat → Nat) (heap : Heap TreeLeaf) (leaves : Slice)
    (has : heap.Has leaves) :
    Prod.map id InsertState.forget <$>
        tree.insertLeavesReusing poseidon growth leaves (.start batch heap) =
      Prod.map id InsertState.forget <$>
        tree.insertLeavesAllocating poseidon growth' leaves (.start batch heap) ∧
    (tree.insertLeavesReusing poseidon growth leaves (.start batch heap)).Asks (fun _ => True)
      fun ended => (parentKeys ended.2.written).Nodup ∧ heap.StaysIn ended.2.memory := by
  constructor
  · exact (forget_insertLeavesRenewing poseidon tree growth batch renews_reuse has).trans
      (forget_insertLeavesRenewing poseidon tree growth' batch renews_makeLeaves has).symm
  · apply (insertLeavesRenewing_lockstep poseidon tree growth renews_reuse batch has).asks
      (insertLeavesOnLists_once (heap.elements leaves) batch)
    intro ended ended' alike once
    cases alike with
    | ok holds =>
        obtain ⟨rfl, stays⟩ := holds
        exact ⟨once, stays⟩
    | error failure holds =>
        obtain ⟨rfl, stays⟩ := holds
        exact ⟨once, stays⟩

end Reuse

/-- Three leaves in the middle of an array of the caller. -/
def callerHeap : Heap TreeLeaf := ⟨[[⟨9, 9⟩, ⟨0, 7⟩, ⟨3, 8⟩, ⟨1, 6⟩, ⟨9, 9⟩]], []⟩

def threeLeaves : Slice := ⟨0, 1, 3, 4, by decide⟩

/-- In a tree of depth 2 the two parents of the leaves move to array 3, the second that `append`
makes, and the root is stored into its first place while they are read from it. -/
theorem buffer_reuse_exact_threeLeaves :
    (Prod.map id InsertState.forget <$>
        (newSparseTree 2 5 (LeafView.getter ⟨0⟩)).insertLeavesReusing fieldHash (fun _ => 0)
          threeLeaves (.start (newBatchWithLeavesBuffer [] 0) callerHeap) =
      Prod.map id InsertState.forget <$>
        (newSparseTree 2 5 (LeafView.getter ⟨0⟩)).insertLeavesAllocating fieldHash (fun _ => 0)
          threeLeaves (.start (newBatchWithLeavesBuffer [] 0) callerHeap)) ∧
    (Read.evalOn ∅ ((newSparseTree 2 5 (LeafView.getter ⟨0⟩)).insertLeavesReusing fieldHash
        (fun _ => 0) threeLeaves (.start (newBatchWithLeavesBuffer [] 0) callerHeap))).map
      (fun ended => (ended.2.memory.stores, parentKeys ended.2.written)) =
        .ok ([(2, 0), (3, 1), (3, 0)], [(1, 0), (1, 1), (2, 0)]) :=
  ⟨(buffer_reuse_exact fieldHash (newSparseTree 2 5 (LeafView.getter ⟨0⟩)) (fun _ => 0)
    (newBatchWithLeavesBuffer [] 0) (fun _ => 0) callerHeap threeLeaves
    ⟨5, rfl, by decide⟩).1, by decide +kernel⟩

end MerkleProofService
