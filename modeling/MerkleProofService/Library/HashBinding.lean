/-
Module: MerkleProofService.Library.HashBinding
Layer: Library
Purpose: What the root of a hash tree says about its leaves.  Among pairs on which the hash has no
  collision a node and a path are determined by what they fold to; so a consistent table has one
  opening for each leaf, and tables with the same root have the same leaves.
Imports: Library.HashTree
Trusted boundary: none
Main exports: CollisionFree, foldPairs, foldPath_inj, childPairs, Consistent.opening_unique,
  Consistent.leaves_unique
-/
import MerkleProofService.Library.HashTree

namespace MerkleProofService.Library

variable {Value Failure : Type} {hash : Value → Value → Except Failure Value}

/-- No two pairs of the set have the same hash.  A hash that is injective wherever it is defined has
none in the set of all pairs. -/
def CollisionFree (hash : Value → Value → Except Failure Value) (pairs : Set (Value × Value)) :
    Prop :=
  ∀ first ∈ pairs, ∀ second ∈ pairs, ∀ value, hash first.1 first.2 = .ok value →
    hash second.1 second.2 = .ok value → first = second

/-! ### Folding along a path -/

theorem placed_inj {node sibling node' sibling' : Value} {index : Nat}
    (same : placed node sibling index = placed node' sibling' index) :
    node = node' ∧ sibling = sibling' := by
  unfold placed at same
  split at same
  · exact Prod.mk.inj same
  · exact (Prod.mk.inj same).symm

/-- The pairs that are hashed while a node is folded with a path. -/
def foldPairs (hash : Value → Value → Except Failure Value) :
    Value → List Value → Nat → List (Value × Value)
  | _, [], _ => []
  | node, element :: path, index =>
      placed node element index ::
        match hash (placed node element index).1 (placed node element index).2 with
        | .ok parent => foldPairs hash parent path (index / 2)
        | .error _ => []

/-- Without a collision, a node and a path are determined by what they fold to. -/
theorem foldPath_inj {pairs : Set (Value × Value)} (free : CollisionFree hash pairs) :
    ∀ {path path' : List Value} {node node' root : Value} {index : Nat},
      path.length = path'.length →
      foldPath hash node path index = .ok root → foldPath hash node' path' index = .ok root →
      (∀ pair ∈ foldPairs hash node path index, pair ∈ pairs) →
      (∀ pair ∈ foldPairs hash node' path' index, pair ∈ pairs) →
      node = node' ∧ path = path'
  | [], [], node, node', root, index, _, folds, folds', _, _ =>
      ⟨Except.ok.inj (folds.trans folds'.symm), rfl⟩
  | element :: path, element' :: path', node, node', root, index, sameLength, folds, folds',
      inPairs, inPairs' => by
      rw [foldPath_cons] at folds folds'
      -- the parents agree by induction on the rest of the path, hence so do the pairs hashed
      cases first : hash (placed node element index).1 (placed node element index).2 with
      | error err =>
          rw [first] at folds
          cases folds
      | ok parent =>
          cases second : hash (placed node' element' index).1 (placed node' element' index).2 with
          | error err =>
              rw [second] at folds'
              cases folds'
          | ok parent' =>
              rw [first] at folds
              rw [second] at folds'
              rw [foldPairs, first] at inPairs
              rw [foldPairs, second] at inPairs'
              obtain ⟨rfl, rfl⟩ := foldPath_inj free (Nat.succ.inj sameLength) folds folds'
                (fun pair member => inPairs pair (List.mem_cons_of_mem _ member))
                (fun pair member => inPairs' pair (List.mem_cons_of_mem _ member))
              have same := free _ (inPairs _ List.mem_cons_self) _
                (inPairs' _ List.mem_cons_self) parent first second
              obtain ⟨rfl, rfl⟩ := placed_inj same
              exact ⟨rfl, rfl⟩
  | [], _ :: _, _, _, _, _, sameLength, _, _, _, _ => by cases sameLength
  | _ :: _, [], _, _, _, _, sameLength, _, _, _, _ => by cases sameLength

/-! ### Openings of a table -/

/-- The pairs of children in a table. -/
def childPairs (width depth : Nat) (nodes : Nat → Nat → Value) : Set (Value × Value) :=
  {pair | ∃ level index, level < depth ∧ InTree width depth level (2 * index + 1) ∧
    pair = (nodes level (2 * index), nodes level (2 * index + 1))}

variable {width depth : Nat} {nodes : Nat → Nat → Value}

/-- Folding a node of a consistent table with its siblings hashes children of the table. -/
theorem Consistent.foldPairs_subset (consistent : Consistent hash width depth nodes)
    (positive : 0 < width) :
    ∀ {count level index : Nat}, level + count = depth → InTree width depth level index →
      ∀ pair ∈ foldPairs hash (nodes level index) (siblings nodes count level index) index,
        pair ∈ childPairs width depth nodes
  | 0, _, _, _, _, _, member => absurd member List.not_mem_nil
  | count + 1, level, index, reach, inside, pair, member => by
      have below : level < depth := by omega
      have right := inside.rightOfParent positive below
      rw [siblings, foldPairs, placed_sibling, consistent level (index / 2) below right] at member
      rcases List.mem_cons.mp member with rfl | later
      · exact ⟨level, index / 2, below, right, rfl⟩
      · exact consistent.foldPairs_subset positive (by omega) (inside.parent below) pair later

variable {pairs : Set (Value × Value)}

/-- A leaf of a consistent table has one opening. -/
theorem Consistent.opening_unique (consistent : Consistent hash width depth nodes)
    (positive : 0 < width) (free : CollisionFree hash pairs)
    (inPairs : childPairs width depth nodes ⊆ pairs) {index : Nat}
    (inside : InTree width depth 0 index) {leaf : Value} {path : List Value}
    (length : path.length = depth)
    (folded : ∀ pair ∈ foldPairs hash leaf path index, pair ∈ pairs)
    (folds : foldPath hash leaf path index = .ok (nodes depth 0)) :
    leaf = nodes 0 index ∧ path = siblings nodes depth 0 index := by
  refine foldPath_inj free (by rw [length, length_siblings]) folds
    (consistent.foldPath_siblings positive inside) folded fun pair member => ?_
  exact inPairs (consistent.foldPairs_subset positive (Nat.zero_add depth) inside pair member)

/-- Consistent tables with the same root have the same leaves. -/
theorem Consistent.leaves_unique {other : Nat → Nat → Value}
    (consistent : Consistent hash width depth nodes)
    (consistent' : Consistent hash width depth other) (positive : 0 < width)
    (free : CollisionFree hash pairs) (inPairs : childPairs width depth nodes ⊆ pairs)
    (inPairs' : childPairs width depth other ⊆ pairs) (root : other depth 0 = nodes depth 0)
    {index : Nat} (inside : InTree width depth 0 index) : other 0 index = nodes 0 index := by
  have folds := consistent'.foldPath_siblings positive inside
  rw [root] at folds
  refine (consistent.opening_unique positive free inPairs inside (length_siblings _ _ _ _) ?_
    folds).1
  intro pair member
  exact inPairs' (consistent'.foldPairs_subset positive (Nat.zero_add depth) inside pair member)

end MerkleProofService.Library
