/-
Module: MerkleProofService.Library.HashTree
Layer: Library
Purpose: Full binary hash trees over any type of node values and any, possibly failing, hash
  of two nodes.  A node is addressed by its level (leaves are level 0) and its index in the
  level; the children of `(level + 1, index)` are `(level, 2 * index)` and
  `(level, 2 * index + 1)`.  Indexes have a width in bits: a tree deeper than that has nodes
  that no index reaches, and nothing is said about them.  The module has the reference value
  of a node, consistency of a whole table of nodes, the path that leads from a leaf to the
  root, and recomputation of the nodes above a set of changed leaves.
Imports: Mathlib sets and tactics
Trusted boundary: none
Main exports: InTree, referenceNode, Consistent, foldPath, siblings, foldPath_siblings,
  Above, Recomputed, Recomputed.consistent, Recomputed.unique, Consistent.eq_referenceNode,
  Rehashed, Rehashed.unique, Rehashed.trans
-/
import Mathlib.Data.Set.Basic
import Mathlib.Tactic.Ring

namespace MerkleProofService.Library

/-! ### Positions -/

/-- The address `(level, index)` lies inside a tree of this depth and fits the index width. -/
def InTree (width depth level index : Nat) : Prop :=
  level ≤ depth ∧ index < 2 ^ min width (depth - level)

/-- The other child of the parent of `index`. -/
def siblingIndex (index : Nat) : Nat :=
  if index % 2 = 0 then index + 1 else index - 1

namespace InTree

variable {width depth level index : Nat}

theorem root : InTree width depth depth 0 := ⟨Nat.le_refl _, Nat.two_pow_pos _⟩

theorem leaf (bound : index < 2 ^ depth) (fits : index < 2 ^ width) :
    InTree width depth 0 index := by
  refine ⟨Nat.zero_le _, ?_⟩
  rcases Nat.le_total width depth with narrow | wide
  · rwa [Nat.sub_zero, Nat.min_eq_left narrow]
  · rwa [Nat.sub_zero, Nat.min_eq_right wide]

theorem lt_two_pow (inside : InTree width depth level index) : index < 2 ^ width :=
  Nat.lt_of_lt_of_le inside.2 (Nat.pow_le_pow_right (by decide) (Nat.min_le_left _ _))

theorem parent (inside : InTree width depth level index) (below : level < depth) :
    InTree width depth (level + 1) (index / 2) := by
  rcases inside with ⟨_, bound⟩
  refine ⟨below, ?_⟩
  have shift : min width (depth - level) ≤ min width (depth - (level + 1)) + 1 := by omega
  have wider := Nat.lt_of_lt_of_le bound (Nat.pow_le_pow_right (by decide) shift)
  rw [pow_succ] at wider
  omega

theorem leftOfParent (inside : InTree width depth level index) :
    InTree width depth level (2 * (index / 2)) :=
  ⟨inside.1, Nat.lt_of_le_of_lt (Nat.mul_div_le index 2) inside.2⟩

/-- Below the root the number of indexes of a level is even, so no right child is missing. -/
theorem rightOfParent (inside : InTree width depth level index) (positive : 0 < width)
    (below : level < depth) : InTree width depth level (2 * (index / 2) + 1) := by
  rcases inside with ⟨within, bound⟩
  obtain ⟨bits, same⟩ : ∃ bits, min width (depth - level) = bits + 1 :=
    ⟨min width (depth - level) - 1, by omega⟩
  refine ⟨within, ?_⟩
  rw [same, pow_succ] at bound ⊢
  omega

theorem sibling (inside : InTree width depth level index) (positive : 0 < width)
    (below : level < depth) : InTree width depth level (siblingIndex index) := by
  by_cases even : index % 2 = 0
  · have same : siblingIndex index = 2 * (index / 2) + 1 := by
      rw [siblingIndex, if_pos even]
      omega
    rw [same]
    exact inside.rightOfParent positive below
  · have same : siblingIndex index = 2 * (index / 2) := by
      rw [siblingIndex, if_neg even]
      omega
    rw [same]
    exact inside.leftOfParent

/-- The left child is inside where the right one is. -/
theorem left (inside : InTree width depth level (2 * index + 1)) :
    InTree width depth level (2 * index) :=
  ⟨inside.1, Nat.lt_of_succ_lt inside.2⟩

theorem ofRight (inside : InTree width depth level (2 * index + 1)) (below : level < depth) :
    InTree width depth (level + 1) index := by
  have up := inside.parent below
  rwa [show (2 * index + 1) / 2 = index by omega] at up

/-- In a tree no deeper than the indexes are wide every inner node has its children. -/
theorem right (inside : InTree width depth (level + 1) index) (narrow : depth ≤ width) :
    InTree width depth level (2 * index + 1) := by
  rcases inside with ⟨below, bound⟩
  refine ⟨by omega, ?_⟩
  have shift : min width (depth - level) = min width (depth - (level + 1)) + 1 := by omega
  rw [shift, pow_succ]
  omega

end InTree

theorem siblingIndex_ne (index : Nat) : siblingIndex index ≠ index := by
  unfold siblingIndex
  split <;> omega

/-! ### Reference values and consistent tables -/

section Tree

variable {Value Failure : Type} (hash : Value → Value → Except Failure Value)

/-- The value of a node, computed from the leaves below it and nothing else. -/
def referenceNode (leaf : Nat → Value) : Nat → Nat → Except Failure Value
  | 0, index => .ok (leaf index)
  | level + 1, index =>
      (referenceNode leaf level (2 * index)).bind fun left =>
        (referenceNode leaf level (2 * index + 1)).bind fun right => hash left right

/-- Every node of the table whose children are in it is the hash of the two. -/
def Consistent (width depth : Nat) (nodes : Nat → Nat → Value) : Prop :=
  ∀ level index, level < depth → InTree width depth level (2 * index + 1) →
    hash (nodes level (2 * index)) (nodes level (2 * index + 1)) =
      .ok (nodes (level + 1) index)

/-- Hash a node with its path towards the root: bit `l` of `index` says on which side the
`l`-th path element stands. -/
def foldPath : Value → List Value → Nat → Except Failure Value
  | node, [], _ => .ok node
  | node, element :: path, index =>
      (if index % 2 = 0 then hash node element else hash element node).bind fun parent =>
        foldPath parent path (index / 2)

/-- The siblings met on the way up from `(level, index)`, `count` of them. -/
def siblings (nodes : Nat → Nat → Value) : Nat → Nat → Nat → List Value
  | 0, _, _ => []
  | count + 1, level, index =>
      nodes level (siblingIndex index) :: siblings nodes count (level + 1) (index / 2)

@[simp] theorem length_siblings (nodes : Nat → Nat → Value) (count level index : Nat) :
    (siblings nodes count level index).length = count := by
  induction count generalizing level index with
  | zero => rfl
  | succ count ih => simp [siblings, ih]

variable {hash} {width depth : Nat} {nodes : Nat → Nat → Value}

/-- A consistent table holds the reference values of its own leaves. -/
theorem Consistent.eq_referenceNode (consistent : Consistent hash width depth nodes)
    (narrow : depth ≤ width) :
    ∀ {level index : Nat}, InTree width depth level index →
      referenceNode hash (nodes 0) level index = .ok (nodes level index)
  | 0, _, _ => rfl
  | level + 1, index, inside => by
      have right := inside.right narrow
      rw [referenceNode, consistent.eq_referenceNode narrow right.left,
        consistent.eq_referenceNode narrow right]
      exact consistent level index inside.1 right

/-- What the leaves have and the hash keeps, all nodes of a consistent tree have. -/
theorem Consistent.forall_nodes {accepts : Value → Prop}
    (consistent : Consistent hash width depth nodes) (narrow : depth ≤ width)
    (closed : ∀ left right value, accepts left → accepts right →
      hash left right = .ok value → accepts value)
    (leaves : ∀ index, InTree width depth 0 index → accepts (nodes 0 index)) :
    ∀ {level index : Nat}, InTree width depth level index → accepts (nodes level index)
  | 0, index, inside => leaves index inside
  | level + 1, index, inside => by
      have right := inside.right narrow
      exact closed _ _ _ (consistent.forall_nodes narrow closed leaves right.left)
        (consistent.forall_nodes narrow closed leaves right)
        (consistent level index inside.1 right)

/-- The reference value of a node only depends on the leaves of the tree. -/
theorem referenceNode_congr {first second : Nat → Value} (narrow : depth ≤ width)
    (same : ∀ index, index < 2 ^ depth → first index = second index) :
    ∀ {level index : Nat}, InTree width depth level index →
      referenceNode hash first level index = referenceNode hash second level index
  | 0, index, inside => by
      have bound := inside.2
      rw [Nat.sub_zero, Nat.min_eq_right narrow] at bound
      rw [referenceNode, referenceNode, same index bound]
  | level + 1, index, inside => by
      have right := inside.right narrow
      rw [referenceNode, referenceNode, referenceNode_congr narrow same right.left,
        referenceNode_congr narrow same right]

/-- A node and its sibling, the left one first. -/
def placed (node sibling : Value) (index : Nat) : Value × Value :=
  if index % 2 = 0 then (node, sibling) else (sibling, node)

/-- One step of a fold hashes the two in their places. -/
theorem foldPath_cons (node element : Value) (path : List Value) (index : Nat) :
    foldPath hash node (element :: path) index =
      (hash (placed node element index).1 (placed node element index).2).bind fun parent =>
        foldPath hash parent path (index / 2) := by
  rw [foldPath, placed]
  split <;> rfl

/-- A node and its sibling in their places are the children of the parent. -/
theorem placed_sibling (nodes : Nat → Nat → Value) (level index : Nat) :
    placed (nodes level index) (nodes level (siblingIndex index)) index =
      (nodes level (2 * (index / 2)), nodes level (2 * (index / 2) + 1)) := by
  by_cases even : index % 2 = 0
  · have left : 2 * (index / 2) = index := by omega
    rw [placed, siblingIndex, if_pos even, if_pos even, left]
  · have right : 2 * (index / 2) + 1 = index := by omega
    have left : 2 * (index / 2) = index - 1 := by omega
    rw [placed, siblingIndex, if_neg even, if_neg even, right, left]

/-- On the way up from a node, `count` levels of it, every node is the hash of its children. -/
def HashedUp (hash : Value → Value → Except Failure Value) (nodes : Nat → Nat → Value)
    (count level index : Nat) : Prop :=
  ∀ step, step < count →
    hash (nodes (level + step) (2 * (index / 2 ^ (step + 1))))
      (nodes (level + step) (2 * (index / 2 ^ (step + 1)) + 1)) =
        .ok (nodes (level + step + 1) (index / 2 ^ (step + 1)))

/-- The rest of the way, from the parent on. -/
theorem HashedUp.parent {count level index : Nat}
    (hashed : HashedUp hash nodes (count + 1) level index) :
    HashedUp hash nodes count (level + 1) (index / 2) := by
  intro step small
  have up := hashed (step + 1) (by omega)
  have shift : index / 2 / 2 ^ (step + 1) = index / 2 ^ (step + 1 + 1) := by
    rw [Nat.div_div_eq_div_mul, pow_succ 2 (step + 1), Nat.mul_comm]
  rwa [shift, show level + 1 + step = level + (step + 1) by omega]

/-- Folding a node with its siblings yields the node at the end of the way. -/
theorem HashedUp.foldPath_siblings :
    ∀ {count level index : Nat}, HashedUp hash nodes count level index →
      foldPath hash (nodes level index) (siblings nodes count level index) index =
        .ok (nodes (level + count) (index / 2 ^ count))
  | 0, level, index, _ => by
      rw [pow_zero, Nat.div_one]
      rfl
  | count + 1, level, index, hashed => by
      have first := hashed 0 (by omega)
      rw [zero_add, pow_one, Nat.add_zero] at first
      rw [siblings, foldPath_cons, placed_sibling, first]
      have rest := hashed.parent.foldPath_siblings
      rw [Nat.div_div_eq_div_mul, Nat.mul_comm, ← pow_succ,
        show level + 1 + count = level + (count + 1) by omega] at rest
      exact rest

theorem Consistent.hashedUp (consistent : Consistent hash width depth nodes)
    (positive : 0 < width) {level index : Nat} (inside : InTree width depth level index) :
    HashedUp hash nodes (depth - level) level index := by
  intro step
  induction step generalizing level index with
  | zero =>
      intro below
      have right := inside.rightOfParent positive (by omega)
      simpa using consistent level (index / 2) (by omega) right
  | succ step ih =>
      intro below
      have rest := ih (inside.parent (by omega)) (by omega)
      have shift : index / 2 / 2 ^ (step + 1) = index / 2 ^ (step + 1 + 1) := by
        rw [Nat.div_div_eq_div_mul, pow_succ 2 (step + 1), Nat.mul_comm]
      rwa [shift, show level + 1 + step = level + (step + 1) by omega] at rest

/-- Folding a node of a consistent table with its siblings yields the root. -/
theorem Consistent.foldPath_siblings (consistent : Consistent hash width depth nodes)
    (positive : 0 < width) {level index : Nat} (inside : InTree width depth level index) :
    foldPath hash (nodes level index) (siblings nodes (depth - level) level index) index =
      .ok (nodes depth 0) := by
  have bound : index < 2 ^ (depth - level) :=
    Nat.lt_of_lt_of_le inside.2 (Nat.pow_le_pow_right (by decide) (Nat.min_le_right _ _))
  have folded := (consistent.hashedUp positive inside).foldPath_siblings
  rwa [Nat.div_eq_of_lt bound, Nat.add_sub_cancel' inside.1] at folded

/-- Tables that agree beside the way up from a node have the same siblings there. -/
theorem siblings_congr {other : Nat → Nat → Value} (positive : 0 < width) :
    ∀ {count level index : Nat}, level + count = depth → InTree width depth level index →
      (∀ step, step < count →
        InTree width depth (level + step) (siblingIndex (index / 2 ^ step)) →
        nodes (level + step) (siblingIndex (index / 2 ^ step)) =
          other (level + step) (siblingIndex (index / 2 ^ step))) →
      siblings nodes count level index = siblings other count level index
  | 0, _, _, _, _, _ => rfl
  | count + 1, level, index, reach, inside, same => by
      have below : level < depth := by omega
      rw [siblings, siblings]
      congr 1
      · simpa using same 0 (by omega) (by simpa using inside.sibling positive below)
      · refine siblings_congr positive (by omega) (inside.parent below)
          fun step small within => ?_
        have shift : index / 2 / 2 ^ step = index / 2 ^ (step + 1) := by
          rw [Nat.div_div_eq_div_mul, pow_succ, Nat.mul_comm]
        have level_eq : level + 1 + step = level + (step + 1) := by omega
        rw [shift, level_eq] at within ⊢
        exact same (step + 1) (by omega) within

/-! ### Recomputation above changed leaves -/

/-- Some leaf of `dirty` lies below the node `(level, index)`. -/
def Above (dirty : Set Nat) (level index : Nat) : Prop :=
  ∃ leaf ∈ dirty, leaf / 2 ^ level = index

@[simp] theorem above_zero {dirty : Set Nat} {index : Nat} :
    Above dirty 0 index ↔ index ∈ dirty := by
  simp [Above]

theorem Above.parent {dirty : Set Nat} {level index : Nat}
    (above : Above dirty level index) : Above dirty (level + 1) (index / 2) := by
  rcases above with ⟨leaf, member, rfl⟩
  exact ⟨leaf, member, by rw [pow_succ, Nat.div_div_eq_div_mul]⟩

/-- Where a child is above a dirty leaf, so is its parent. -/
theorem Above.of_left {dirty : Set Nat} {level index : Nat}
    (above : Above dirty level (2 * index)) : Above dirty (level + 1) index := by
  have up := above.parent
  rwa [Nat.mul_div_cancel_left index (by omega)] at up

theorem Above.of_right {dirty : Set Nat} {level index : Nat}
    (above : Above dirty level (2 * index + 1)) : Above dirty (level + 1) index := by
  have up := above.parent
  rwa [show (2 * index + 1) / 2 = index by omega] at up

/-- The node above a leaf of the tree is a node of the tree. -/
theorem InTree.above {leaf : Nat} (inside : InTree width depth 0 leaf) :
    ∀ {level : Nat}, level ≤ depth → InTree width depth level (leaf / 2 ^ level)
  | 0, _ => by simpa using inside
  | level + 1, within => by
      have below := inside.above (Nat.le_of_succ_le within)
      rw [pow_succ, ← Nat.div_div_eq_div_mul]
      exact below.parent within

/-- A node above a dirty leaf of the tree has its children in the tree. -/
theorem Above.right {dirty : Set Nat} {level index : Nat}
    (above : Above dirty (level + 1) index) (positive : 0 < width) (below : level < depth)
    (leaves : ∀ leaf ∈ dirty, InTree width depth 0 leaf) :
    InTree width depth level (2 * index + 1) := by
  rcases above with ⟨leaf, member, rfl⟩
  rw [pow_succ, ← Nat.div_div_eq_div_mul]
  exact ((leaves leaf member).above (Nat.le_of_lt below)).rightOfParent positive below

/-- `updated` is `nodes` with every node above a dirty leaf hashed again from its children. -/
structure Recomputed (hash : Value → Value → Except Failure Value) (width depth : Nat)
    (dirty : Set Nat) (nodes updated : Nat → Nat → Value) : Prop where
  beside : ∀ {level index}, InTree width depth level index → ¬ Above dirty level index →
    updated level index = nodes level index
  above : ∀ {level index}, level < depth → InTree width depth level (2 * index + 1) →
    Above dirty (level + 1) index →
    hash (updated level (2 * index)) (updated level (2 * index + 1)) =
      .ok (updated (level + 1) index)

namespace Recomputed

variable {dirty : Set Nat} {updated other : Nat → Nat → Value}

/-- Recomputing above the changed leaves restores consistency of the whole table. -/
theorem consistent (recomputed : Recomputed hash width depth dirty nodes updated)
    (before : Consistent hash width depth nodes) : Consistent hash width depth updated := by
  intro level index below inside
  by_cases above : Above dirty (level + 1) index
  · exact recomputed.above below inside above
  · -- no leaf below the parent changed, so neither child nor the parent did
    rw [recomputed.beside inside.left fun dirtyLeft => above dirtyLeft.of_left,
      recomputed.beside inside fun dirtyRight => above dirtyRight.of_right,
      recomputed.beside (inside.ofRight below) above]
    exact before level index below inside

/-- Two recomputations of one table that agree on the dirty leaves agree everywhere. -/
theorem unique (positive : 0 < width) (inTree : ∀ leaf ∈ dirty, InTree width depth 0 leaf)
    (first : Recomputed hash width depth dirty nodes updated)
    (second : Recomputed hash width depth dirty nodes other)
    (leaves : ∀ {index}, index ∈ dirty → updated 0 index = other 0 index) :
    ∀ {level index : Nat}, InTree width depth level index →
      updated level index = other level index
  | 0, index, inside => by
      by_cases member : index ∈ dirty
      · exact leaves member
      · rw [first.beside inside (by simpa using member),
          second.beside inside (by simpa using member)]
  | level + 1, index, inside => by
      by_cases above : Above dirty (level + 1) index
      · have right := above.right positive inside.1 inTree
        have firstHash := first.above inside.1 right above
        rw [unique positive inTree first second leaves right.left,
          unique positive inTree first second leaves right,
          second.above inside.1 right above] at firstHash
        exact (Except.ok.inj firstHash).symm
      · rw [first.beside inside above, second.beside inside above]

end Recomputed

/-! ### Recomputation in a forest

Code that takes an index of the full width without comparing it with the size of the tree hashes
above leaves beyond the last one as well.  Its levels then hold all indexes of the width: the tree
is the first of a row of trees. -/

theorem above_union {first second : Set Nat} {level index : Nat} :
    Above (first ∪ second) level index ↔ Above first level index ∨ Above second level index := by
  simp only [Above, Set.mem_union, or_and_right, exists_or]

theorem Above.mono {part dirty : Set Nat} (subset : part ⊆ dirty) {level index : Nat}
    (above : Above part level index) : Above dirty level index := by
  rcases above with ⟨leaf, member, same⟩
  exact ⟨leaf, subset member, same⟩

/-- The children of a node above a leaf fit the width if the leaf does. -/
theorem Above.right_lt {dirty : Set Nat} {level index : Nat}
    (above : Above dirty (level + 1) index) (positive : 0 < width)
    (fits : ∀ leaf ∈ dirty, leaf < 2 ^ width) : 2 * index + 1 < 2 ^ width := by
  rcases above with ⟨leaf, member, rfl⟩
  have small : leaf / 2 ^ (level + 1) ≤ leaf / 2 := by
    rw [pow_succ, Nat.mul_comm, ← Nat.div_div_eq_div_mul]
    exact Nat.div_le_self _ _
  have bound := fits leaf member
  obtain ⟨bits, rfl⟩ : ∃ bits, width = bits + 1 := ⟨width - 1, by omega⟩
  have size : 2 ^ (bits + 1) = 2 ^ bits * 2 := pow_succ 2 bits
  omega

/-- `updated` is `nodes` with every node above a dirty leaf hashed again from its children,
whether or not it lies in the tree. -/
structure Rehashed (hash : Value → Value → Except Failure Value) (width depth : Nat)
    (dirty : Set Nat) (nodes updated : Nat → Nat → Value) : Prop where
  beside : ∀ {level index}, level ≤ depth → index < 2 ^ width → ¬ Above dirty level index →
    updated level index = nodes level index
  above : ∀ {level index}, level < depth → Above dirty (level + 1) index →
    hash (updated level (2 * index)) (updated level (2 * index + 1)) =
      .ok (updated (level + 1) index)

namespace Rehashed

variable {dirty : Set Nat} {updated other : Nat → Nat → Value}

/-- In particular the tree itself is recomputed. -/
theorem recomputed (rehashed : Rehashed hash width depth dirty nodes updated) :
    Recomputed hash width depth dirty nodes updated where
  beside := fun inside clean => rehashed.beside inside.1 inside.lt_two_pow clean
  above := fun below _ above => rehashed.above below above

theorem congr_right {updated' : Nat → Nat → Value} (positive : 0 < width)
    (fits : ∀ leaf ∈ dirty, leaf < 2 ^ width)
    (rehashed : Rehashed hash width depth dirty nodes updated)
    (same : ∀ {level index}, level ≤ depth → index < 2 ^ width →
      updated level index = updated' level index) :
    Rehashed hash width depth dirty nodes updated' where
  beside := fun within bound clean =>
    (same within bound).symm.trans (rehashed.beside within bound clean)
  above := fun below above => by
    have right := above.right_lt positive fits
    rw [← same below.le (Nat.lt_of_succ_lt right), ← same below.le right,
      ← same below (by omega)]
    exact rehashed.above below above

/-- Two recomputations of one table that agree on the dirty leaves agree everywhere. -/
theorem unique (positive : 0 < width) (fits : ∀ leaf ∈ dirty, leaf < 2 ^ width)
    (first : Rehashed hash width depth dirty nodes updated)
    (second : Rehashed hash width depth dirty nodes other)
    (leaves : ∀ {index}, index ∈ dirty → updated 0 index = other 0 index) :
    ∀ {level index : Nat}, level ≤ depth → index < 2 ^ width →
      updated level index = other level index
  | 0, index, within, bound => by
      by_cases member : index ∈ dirty
      · exact leaves member
      · rw [first.beside within bound (by simpa using member),
          second.beside within bound (by simpa using member)]
  | level + 1, index, within, bound => by
      by_cases above : Above dirty (level + 1) index
      · have right := above.right_lt positive fits
        have firstHash := first.above within above
        rw [unique positive fits first second leaves (Nat.le_of_succ_le within)
            (Nat.lt_of_succ_lt right),
          unique positive fits first second leaves (Nat.le_of_succ_le within) right,
          second.above within above] at firstHash
        exact (Except.ok.inj firstHash).symm
      · rw [first.beside within bound above, second.beside within bound above]

/-- Recomputing above some leaves and then above others recomputes above all of them. -/
theorem trans {later : Set Nat} (positive : 0 < width)
    (fits : ∀ leaf ∈ dirty, leaf < 2 ^ width)
    (first : Rehashed hash width depth dirty nodes updated)
    (second : Rehashed hash width depth later updated other) :
    Rehashed hash width depth (dirty ∪ later) nodes other where
  beside := fun within bound clean => by
    rw [above_union, not_or] at clean
    rw [second.beside within bound clean.2, first.beside within bound clean.1]
  above := by
    intro level index below above
    by_cases again : Above later (level + 1) index
    · exact second.above below again
    · -- the second pass changed neither the node nor its children
      have changed := (above_union.mp above).resolve_right again
      have right := changed.right_lt positive fits
      rw [second.beside below.le (Nat.lt_of_succ_lt right) fun dirtyLeft => again dirtyLeft.of_left,
        second.beside below.le right fun dirtyRight => again dirtyRight.of_right,
        second.beside below (by omega) again]
      exact first.above below changed

/-- A table just recomputed need not be recomputed again. -/
theorem again {part : Set Nat} (rehashed : Rehashed hash width depth dirty nodes updated)
    (subset : part ⊆ dirty) : Rehashed hash width depth part updated updated where
  beside := fun _ _ _ => rfl
  above := fun below above => rehashed.above below (above.mono subset)

end Rehashed

/-- Beside the way up from the changed leaf nothing changes, so the old path proves the new
leaf against the new root. -/
theorem Recomputed.siblings_eq {index : Nat} {updated : Nat → Nat → Value}
    (recomputed : Recomputed hash width depth {index} nodes updated) (positive : 0 < width)
    (inside : InTree width depth 0 index) :
    siblings updated depth 0 index = siblings nodes depth 0 index := by
  refine siblings_congr positive (by omega) inside fun step small within => ?_
  refine recomputed.beside within ?_
  rintro ⟨leaf, member, same⟩
  obtain rfl : leaf = index := member
  rw [Nat.zero_add] at same
  exact siblingIndex_ne _ same.symm

end Tree

end MerkleProofService.Library
