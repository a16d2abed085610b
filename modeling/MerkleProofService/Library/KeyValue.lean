/-
Module: MerkleProofService.Library.KeyValue
Layer: Library
Purpose: A key-value store whose changes are collected in a batch and written at once.
  What a written batch leaves at a key is decided by the last operation on that key alone.
Imports: Mathlib finite maps, sorted lists
Trusted boundary: none
Main exports: Store, WriteOp, Store.write, lastEffect, Store.lookup_write, lastEffect_append,
  Store.keysInOrder, Store.pairwise_keysInOrder
-/
import Mathlib.Data.Finmap
import Mathlib.Data.List.Sort

namespace MerkleProofService.Library

/-- A finite map from keys to values. -/
abbrev Store (Key Value : Type) := Finmap fun _ : Key => Value

/-- One entry of a batch. -/
inductive WriteOp (Key Value : Type) where
  | set (key : Key) (value : Value)
  | delete (key : Key)
deriving DecidableEq, Repr

namespace WriteOp

variable {Key Value : Type}

/-- The key an operation is about. -/
def key : WriteOp Key Value → Key
  | .set key _ | .delete key => key

/-- What an operation leaves at its key; `none` is a deleted entry. -/
def left : WriteOp Key Value → Option Value
  | .set _ value => some value
  | .delete _ => none

end WriteOp

variable {Key Value : Type} [DecidableEq Key]

/-- Perform one operation. -/
def Store.apply (store : Store Key Value) : WriteOp Key Value → Store Key Value
  | .set key value => store.insert key value
  | .delete key => store.erase key

/-- Write a whole batch, its operations in order. -/
def Store.write (store : Store Key Value) (batch : List (WriteOp Key Value)) :
    Store Key Value :=
  batch.foldl Store.apply store

/-- What a batch does at a key: `none` when no operation is about it, otherwise what the last
one leaves there. -/
def lastEffect : List (WriteOp Key Value) → Key → Option (Option Value)
  | [], _ => none
  | op :: rest, key =>
      (lastEffect rest key).or (if op.key = key then some op.left else none)

theorem Store.lookup_apply (store : Store Key Value) (op : WriteOp Key Value) (key : Key) :
    (Store.apply store op).lookup key =
      if op.key = key then op.left else store.lookup key := by
  cases op with
  | set other value =>
      by_cases same : other = key
      · subst same
        simp [Store.apply, WriteOp.key, WriteOp.left]
      · simp [Store.apply, WriteOp.key, same,
          Finmap.lookup_insert_of_ne store (Ne.symm same)]
  | delete other =>
      by_cases same : other = key
      · subst same
        simp [Store.apply, WriteOp.key, WriteOp.left]
      · simp [Store.apply, WriteOp.key, same,
          Finmap.lookup_erase_ne (Ne.symm same)]

/-- A written batch shows its last effect on a key and the old entry where it has none. -/
theorem Store.lookup_write (store : Store Key Value) (batch : List (WriteOp Key Value))
    (key : Key) :
    (Store.write store batch).lookup key =
      (lastEffect batch key).getD (store.lookup key) := by
  induction batch generalizing store with
  | nil => rfl
  | cons op rest ih =>
      change (Store.write (Store.apply store op) rest).lookup key = _
      rw [ih, Store.lookup_apply, lastEffect]
      cases lastEffect rest key with
      | none => by_cases same : op.key = key <;> simp [same]
      | some effect => simp

theorem Store.write_append (store : Store Key Value) (first second : List (WriteOp Key Value)) :
    Store.write store (first ++ second) = Store.write (Store.write store first) second :=
  List.foldl_append

/-- An entry the batch says nothing about stays. -/
theorem Store.lookup_write_of_none {store : Store Key Value}
    {batch : List (WriteOp Key Value)} {key : Key} (untouched : lastEffect batch key = none) :
    (Store.write store batch).lookup key = store.lookup key := by
  rw [Store.lookup_write, untouched]
  rfl

/-- Batches that do the same at every key write the same. -/
theorem Store.write_congr {first second : List (WriteOp Key Value)}
    (same : ∀ key, lastEffect first key = lastEffect second key) (store : Store Key Value) :
    Store.write store first = Store.write store second := by
  refine Finmap.ext_lookup fun key => ?_
  rw [Store.lookup_write, Store.lookup_write, same key]

theorem lastEffect_append (first second : List (WriteOp Key Value)) (key : Key) :
    lastEffect (first ++ second) key =
      (lastEffect second key).or (lastEffect first key) := by
  induction first with
  | nil => simp [lastEffect]
  | cons op rest ih =>
      rw [List.cons_append, lastEffect, ih, lastEffect, Option.or_assoc]

@[simp] theorem lastEffect_nil (key : Key) :
    lastEffect ([] : List (WriteOp Key Value)) key = none := rfl

@[simp] theorem lastEffect_singleton (op : WriteOp Key Value) (key : Key) :
    lastEffect [op] key = if op.key = key then some op.left else none := by
  simp [lastEffect]

/-- A batch that leaves the same at each of some keys. -/
theorem lastEffect_map (op : Key → WriteOp Key Value) {left : Option Value}
    (ownKey : ∀ key, (op key).key = key) (leaves : ∀ key, (op key).left = left)
    (keys : List Key) (key : Key) :
    lastEffect (keys.map op) key = if key ∈ keys then some left else none := by
  induction keys with
  | nil => rfl
  | cons first keys ih =>
      rw [List.map_cons, lastEffect, ih, ownKey, leaves]
      by_cases later : key ∈ keys
      · simp [later]
      · simp [later, eq_comm]

/-- A batch that sets some keys to one value. -/
theorem lastEffect_map_set (keys : List Key) (value : Value) (key : Key) :
    lastEffect (keys.map fun other => WriteOp.set other value) key =
      if key ∈ keys then some (some value) else none :=
  lastEffect_map (fun other => .set other value) (fun _ => rfl) (fun _ => rfl) keys key

/-- A batch that deletes some keys. -/
theorem lastEffect_map_delete (keys : List Key) (key : Key) :
    lastEffect (keys.map (WriteOp.delete : Key → WriteOp Key Value)) key =
      if key ∈ keys then some none else none :=
  lastEffect_map .delete (fun _ => rfl) (fun _ => rfl) keys key

/-! ### Iteration in the order of the keys -/

section Order

variable (order : Key → Key → Prop) [DecidableRel order] [IsTrans Key order] [Std.Antisymm order]
variable [Std.Total order]

/-- The keys of the store in order. -/
def Store.keysInOrder (store : Store Key Value) : List Key :=
  Quot.liftOn store.keys.val (List.insertionSort order) fun first second perm =>
    ((List.perm_insertionSort order first).trans
        (perm.trans (List.perm_insertionSort order second).symm)).eq_of_pairwise
      (fun _ _ _ _ => antisymm) (List.pairwise_insertionSort order first)
      (List.pairwise_insertionSort order second)

variable (store : Store Key Value)

omit [DecidableEq Key] in
theorem Store.coe_keysInOrder :
    (Store.keysInOrder order store : Multiset Key) = store.keys.val := by
  unfold Store.keysInOrder
  induction store.keys.val using Quot.inductionOn with
  | h keys => exact Quot.sound (List.perm_insertionSort order keys)

theorem Store.mem_keysInOrder {key : Key} :
    key ∈ Store.keysInOrder order store ↔ (store.lookup key).isSome = true := by
  rw [← Multiset.mem_coe, Store.coe_keysInOrder, Finset.mem_val, Finmap.mem_keys,
    Finmap.lookup_isSome]

omit [DecidableEq Key] in
theorem Store.nodup_keysInOrder : (Store.keysInOrder order store).Nodup := by
  rw [← Multiset.coe_nodup, Store.coe_keysInOrder]
  exact store.keys.nodup

omit [DecidableEq Key] in
theorem Store.pairwise_keysInOrder : (Store.keysInOrder order store).Pairwise order := by
  unfold Store.keysInOrder
  induction store.keys.val using Quot.inductionOn with
  | h keys => exact List.pairwise_insertionSort order keys

end Order

end MerkleProofService.Library
