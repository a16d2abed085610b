/-
Module: MerkleProofService.Library.Slices
Layer: Library
Purpose: Slices over backing arrays that they may share.  A slice names its backing array, where it
  starts there, its length and its capacity; appending stores into the array while there is room
  and moves to a new array when there is none.  A slice that is appended to no faster than another
  one is read forward leaves what is still to be read as it was, also when the two share an array.
Imports: Mathlib.Data.List.Basic
Trusted boundary: none
Main exports: Slice, Slice.upTo, Heap, Heap.get, Heap.elements, Heap.window, Heap.make,
  Heap.append, Heap.Has, Heap.StaysIn, Heap.OnlyInto, Heap.elements_append, Trails,
  Trails.append, Trails.window_append
-/
import Mathlib.Data.List.Basic

namespace MerkleProofService.Library

/-- A window of a backing array: its elements begin at `offset`, and it may grow up to `capacity`
in place. -/
structure Slice where
  array : Nat
  offset : Nat
  length : Nat
  capacity : Nat
  length_le : length ≤ capacity
deriving DecidableEq

/-- `slice[:length]`. -/
def Slice.upTo (slice : Slice) (length : Nat) (fits : length ≤ slice.capacity) : Slice :=
  { slice with length := length, length_le := fits }

/-- The backing arrays, in the order in which they were allocated, and the places of them that were
stored into, each an array and a place in it. -/
structure Heap (α : Type) where
  arrays : List (List α)
  stores : List (Nat × Nat)

namespace Heap

variable {α : Type}

/-- What stands at a place of an array. -/
def cell (heap : Heap α) (array place : Nat) : Option α :=
  heap.arrays[array]?.bind fun contents => contents[place]?

def size (heap : Heap α) (array : Nat) : Option Nat :=
  heap.arrays[array]?.map List.length

def alloc (heap : Heap α) (contents : List α) : Heap α :=
  { heap with arrays := heap.arrays ++ [contents] }

def store (heap : Heap α) (array place : Nat) (value : α) : Heap α where
  arrays := heap.arrays.modify array fun contents => contents.set place value
  stores := heap.stores ++ [(array, place)]

/-- The slice lies in its array. -/
def Has (heap : Heap α) (slice : Slice) : Prop :=
  ∃ size, heap.size slice.array = some size ∧ slice.offset + slice.capacity ≤ size

section Operations

variable [Inhabited α]

/-- `slice[position]`. -/
def get (heap : Heap α) (slice : Slice) (position : Nat) : α :=
  (heap.cell slice.array (slice.offset + position)).getD default

def elements (heap : Heap α) (slice : Slice) : List α :=
  (List.range slice.length).map (heap.get slice)

/-- The elements from a position on, `count` of them. -/
def window (heap : Heap α) (slice : Slice) (position count : Nat) : List α :=
  (List.range' position count).map (heap.get slice)

/-- `make([]T, length)`. -/
def make (heap : Heap α) (length : Nat) : Slice × Heap α :=
  (⟨heap.arrays.length, 0, length, length, Nat.le_refl length⟩,
    heap.alloc (List.replicate length default))

/-- `append(slice, value)`.  Without room for it, the elements are copied to a new array first,
which has room for `growth capacity` elements more than are needed now. -/
def append (growth : Nat → Nat) (heap : Heap α) (slice : Slice) (value : α) : Slice × Heap α :=
  if room : slice.length < slice.capacity then
    ({ slice with length := slice.length + 1, length_le := room },
      heap.store slice.array (slice.offset + slice.length) value)
  else
    let spare := growth slice.capacity
    (⟨heap.arrays.length, 0, slice.length + 1, slice.length + 1 + spare, Nat.le_add_right _ _⟩,
      (heap.alloc (heap.elements slice ++ List.replicate (1 + spare) default)).store
        heap.arrays.length slice.length value)

end Operations

/-! ### Places -/

section Places

variable (heap : Heap α)

theorem size_eq_none_of_le {array : Nat} (beyond : heap.arrays.length ≤ array) :
    heap.size array = none := by
  rw [size, List.getElem?_eq_none beyond]
  rfl

theorem Has.allocated {heap : Heap α} {slice : Slice} (has : heap.Has slice) :
    slice.array < heap.arrays.length := by
  obtain ⟨size, known, _⟩ := has
  by_contra beyond
  rw [size_eq_none_of_le heap (Nat.le_of_not_lt beyond)] at known
  cases known

theorem cell_alloc_of_lt (contents : List α) {array : Nat} (allocated : array < heap.arrays.length)
    (place : Nat) : (heap.alloc contents).cell array place = heap.cell array place := by
  rw [cell, alloc, List.getElem?_append_left allocated, cell]

@[simp] theorem cell_alloc_self (contents : List α) (place : Nat) :
    (heap.alloc contents).cell heap.arrays.length place = contents[place]? := by
  rw [cell, alloc, List.getElem?_concat_length]
  rfl

@[simp] theorem size_alloc_self (contents : List α) :
    (heap.alloc contents).size heap.arrays.length = some contents.length := by
  rw [size, alloc, List.getElem?_concat_length]
  rfl

@[simp] theorem length_arrays_alloc (contents : List α) :
    (heap.alloc contents).arrays.length = heap.arrays.length + 1 := by
  rw [alloc, List.length_append, List.length_singleton]

@[simp] theorem length_arrays_store (array place : Nat) (value : α) :
    (heap.store array place value).arrays.length = heap.arrays.length :=
  List.length_modify _ _ _

@[simp] theorem size_store (array place : Nat) (value : α) (other : Nat) :
    (heap.store array place value).size other = heap.size other := by
  rw [size, size, store, List.getElem?_modify]
  cases heap.arrays[other]? with
  | none => rfl
  | some contents =>
      by_cases same : array = other <;> simp [same]

theorem cell_store_self {array place size : Nat} (known : heap.size array = some size)
    (inside : place < size) (value : α) :
    (heap.store array place value).cell array place = some value := by
  obtain ⟨contents, found, rfl⟩ := Option.map_eq_some_iff.mp known
  simp only [cell, store, List.getElem?_modify, found, if_true, Option.map_eq_map,
    Option.map_some, Option.bind_some]
  rw [List.getElem?_set_self inside]

theorem cell_store_of_ne {array place other otherPlace : Nat}
    (different : other = array → otherPlace ≠ place) (value : α) :
    (heap.store array place value).cell other otherPlace = heap.cell other otherPlace := by
  rw [cell, cell, store, List.getElem?_modify]
  cases heap.arrays[other]? with
  | none => rfl
  | some contents =>
      by_cases same : array = other
      · simp [same, List.getElem?_set_ne (different same.symm).symm]
      · simp [same]

end Places

/-! ### Appending -/

section Appending

variable [Inhabited α] {growth : Nat → Nat} {heap : Heap α} {slice : Slice} {value : α}

@[simp] theorem length_elements (heap : Heap α) (slice : Slice) :
    (heap.elements slice).length = slice.length := by
  rw [elements, List.length_map, List.length_range]

theorem elements_eq_window (heap : Heap α) (slice : Slice) :
    heap.elements slice = heap.window slice 0 slice.length := by
  rw [elements, window, List.range_eq_range']

theorem window_succ (heap : Heap α) (slice : Slice) (position count : Nat) :
    heap.window slice position (count + 1) =
      heap.get slice position :: heap.window slice (position + 1) count := by
  rw [window, List.range'_succ, List.map_cons, window]

theorem elements_congr {other : Heap α}
    (same : ∀ position < slice.length, other.get slice position = heap.get slice position) :
    other.elements slice = heap.elements slice :=
  List.map_congr_left fun position member => same position (List.mem_range.mp member)

theorem getElem?_elements {position : Nat} (inside : position < slice.length) :
    (heap.elements slice)[position]? = some (heap.get slice position) := by
  rw [elements, List.getElem?_map, List.getElem?_range inside]
  rfl

/-- The elements of a slice that is one longer. -/
theorem elements_of_succ {other : Heap α} {longer : Slice}
    (length : longer.length = slice.length + 1)
    (same : ∀ position < slice.length, other.get longer position = heap.get slice position)
    (last : other.get longer slice.length = value) :
    other.elements longer = heap.elements slice ++ [value] := by
  rw [elements, length, List.range_succ, List.map_append, List.map_singleton, last, elements]
  exact congrArg (· ++ [value]) (List.map_congr_left fun position member =>
    same position (List.mem_range.mp member))

theorem get_eq_of_cell {position : Nat}
    (found : heap.cell slice.array (slice.offset + position) = some value) :
    heap.get slice position = value := by
  rw [get, found]
  rfl

@[simp] theorem length_append : (heap.append growth slice value).1.length = slice.length + 1 := by
  rw [append]
  split <;> rfl

theorem Has.append (has : heap.Has slice) :
    (heap.append growth slice value).2.Has (heap.append growth slice value).1 := by
  rw [Heap.append]
  split
  case isTrue room =>
    obtain ⟨size, known, fits⟩ := has
    exact ⟨size, (size_store ..).trans known, fits⟩
  case isFalse full =>
    refine ⟨_, (size_store ..).trans (size_alloc_self ..), ?_⟩
    simp only [List.length_append, length_elements, List.length_replicate]
    omega

/-- Appending adds the value at the end, whether or not there is room. -/
theorem elements_append (has : heap.Has slice) :
    (heap.append growth slice value).2.elements (heap.append growth slice value).1 =
      heap.elements slice ++ [value] := by
  apply elements_of_succ length_append
  · intro position before
    rw [Heap.append]
    split
    case isTrue room =>
      have apart : slice.offset + position ≠ slice.offset + slice.length := by omega
      exact congrArg (Option.getD · default) (cell_store_of_ne heap (fun _ => apart) value)
    case isFalse full =>
      apply get_eq_of_cell
      change (Heap.store _ _ _ _).cell heap.arrays.length (0 + position) = _
      rw [cell_store_of_ne _ (fun _ => by omega), cell_alloc_self, Nat.zero_add,
        List.getElem?_append_left (by rwa [length_elements]), getElem?_elements before]
  · rw [Heap.append]
    split
    case isTrue room =>
      obtain ⟨size, known, fits⟩ := has
      exact get_eq_of_cell (cell_store_self heap known (by omega) value)
    case isFalse full =>
      apply get_eq_of_cell
      change (Heap.store _ _ _ _).cell heap.arrays.length (0 + slice.length) = _
      rw [Nat.zero_add]
      apply cell_store_self _ (size_alloc_self ..)
      simp only [List.length_append, length_elements, List.length_replicate]
      omega

theorem append_of_room (room : slice.length < slice.capacity) :
    (heap.append growth slice value).1 =
      { slice with length := slice.length + 1, length_le := room } := by
  rw [append, dif_pos room]

/-- A slice that is appended to stays where it is or moves to an array of its own. -/
theorem append_array : ((heap.append growth slice value).1.array = slice.array ∧
      (heap.append growth slice value).1.offset = slice.offset) ∨
    (heap.append growth slice value).1.array = heap.arrays.length := by
  rw [append]
  split
  case isTrue room => exact Or.inl ⟨rfl, rfl⟩
  case isFalse full => exact Or.inr rfl

theorem length_arrays_append :
    heap.arrays.length ≤ (heap.append growth slice value).2.arrays.length := by
  rw [append]
  split
  case isTrue room => exact Nat.le_of_eq (length_arrays_store ..).symm
  case isFalse full =>
    rw [length_arrays_store, length_arrays_alloc]
    exact Nat.le_succ _

/-- Of the arrays there were, appending changes at most the place after the slice. -/
theorem cell_append {array place : Nat} (allocated : array < heap.arrays.length)
    (apart : array = slice.array → place ≠ slice.offset + slice.length) :
    (heap.append growth slice value).2.cell array place = heap.cell array place := by
  rw [append]
  split
  case isTrue room => exact cell_store_of_ne heap apart value
  case isFalse full =>
    have other : array ≠ heap.arrays.length := Nat.ne_of_lt allocated
    rw [cell_store_of_ne _ (fun same => absurd same other), cell_alloc_of_lt heap _ allocated]

end Appending

/-! ### What stays -/

/-- Every array of the heap `before` is in `later` as it was, and since then nothing was stored into
one of them. -/
structure StaysIn (before later : Heap α) : Prop where
  arrays : ∀ array < before.arrays.length, later.arrays[array]? = before.arrays[array]?
  stores : ∃ made, later.stores = before.stores ++ made ∧
    ∀ place ∈ made, before.arrays.length ≤ place.1

section Staying

variable {before heap : Heap α}

theorem StaysIn.refl (heap : Heap α) : heap.StaysIn heap :=
  ⟨fun _ _ => rfl, [], (List.append_nil _).symm, fun _ member => (by cases member)⟩

theorem StaysIn.length_le (stays : before.StaysIn heap) :
    before.arrays.length ≤ heap.arrays.length := by
  by_contra fewer
  have lost := stays.arrays heap.arrays.length (Nat.lt_of_not_le fewer)
  rw [List.getElem?_eq_none (Nat.le_refl _)] at lost
  exact fewer (List.getElem?_eq_none_iff.mp lost.symm)

theorem StaysIn.alloc (stays : before.StaysIn heap) (contents : List α) :
    before.StaysIn (heap.alloc contents) := by
  refine ⟨fun array known => ?_, stays.stores⟩
  rw [← stays.arrays array known]
  exact List.getElem?_append_left (Nat.lt_of_lt_of_le known stays.length_le)

theorem StaysIn.store (stays : before.StaysIn heap) {array : Nat}
    (beyond : before.arrays.length ≤ array) (place : Nat) (value : α) :
    before.StaysIn (heap.store array place value) := by
  constructor
  · intro other known
    have different : array ≠ other := by omega
    rw [← stays.arrays other known]
    exact List.getElem?_modify_ne _ _ different
  · obtain ⟨made, history, places⟩ := stays.stores
    refine ⟨made ++ [(array, place)], ?_, ?_⟩
    · rw [Heap.store, history, List.append_assoc]
    · intro stored member
      rcases List.mem_append.mp member with earlier | last
      · exact places stored earlier
      · rw [List.mem_singleton.mp last]
        exact beyond

theorem StaysIn.append [Inhabited α] (stays : before.StaysIn heap) {slice : Slice}
    (beyond : before.arrays.length ≤ slice.array) (growth : Nat → Nat) (value : α) :
    before.StaysIn (heap.append growth slice value).2 := by
  rw [Heap.append]
  split
  case isTrue room => exact stays.store beyond _ value
  case isFalse full => exact (stays.alloc _).store stays.length_le _ value

end Staying

end Heap

/-! ### Appending in place -/

/-- No array was allocated since, and everything that was stored was stored into this one. -/
structure Heap.OnlyInto {α : Type} (array : Nat) (before later : Heap α) : Prop where
  length : later.arrays.length = before.arrays.length
  stores : ∃ made, later.stores = before.stores ++ made ∧ ∀ place ∈ made, place.1 = array

namespace Heap.OnlyInto

variable {α : Type} {array : Nat} {before middle later : Heap α}

theorem refl (array : Nat) (heap : Heap α) : OnlyInto array heap heap :=
  ⟨rfl, [], (List.append_nil _).symm, fun _ member => (by cases member)⟩

theorem trans (first : OnlyInto array before middle) (second : OnlyInto array middle later) :
    OnlyInto array before later := by
  obtain ⟨made, history, places⟩ := first.stores
  obtain ⟨made', history', places'⟩ := second.stores
  refine ⟨second.length.trans first.length, made ++ made', ?_, fun place member => ?_⟩
  · rw [history', history, List.append_assoc]
  · exact (List.mem_append.mp member).elim (places place) (places' place)

/-- Where there is room, appending allocates nothing. -/
theorem append [Inhabited α] {slice : Slice} (room : slice.length < slice.capacity)
    (growth : Nat → Nat) (heap : Heap α) (value : α) :
    OnlyInto slice.array heap (heap.append growth slice value).2 := by
  rw [Heap.append, dif_pos room]
  refine ⟨length_arrays_store .., [(slice.array, slice.offset + slice.length)], rfl, ?_⟩
  intro place member
  rw [List.mem_singleton.mp member]

end Heap.OnlyInto

/-! ### Appending behind a reader -/

/-- The slice `written` is appended to while `read` is read forward, from `position` on.  It lies in
an array that is not one of `before`; if that is the array of `read`, it ends where the reading has
been already. -/
structure Trails {α : Type} (before heap : Heap α) (read : Slice) (position : Nat)
    (written : Slice) : Prop where
  stays : before.StaysIn heap
  allocated : read.array < heap.arrays.length
  has : heap.Has written
  beyond : before.arrays.length ≤ written.array
  behind : written.array = read.array →
    written.offset + written.length ≤ read.offset + position

namespace Trails

variable {α : Type} {before heap : Heap α} {read written : Slice} {position : Nat}

theorem advance (trails : Trails before heap read position written) :
    Trails before heap read (position + 1) written :=
  { trails with behind := fun same => Nat.le_succ_of_le (trails.behind same) }

variable [Inhabited α] (growth : Nat → Nat) (value : α)

/-- One element read, one element appended. -/
theorem append (trails : Trails before heap read position written) :
    Trails before (heap.append growth written value).2 read (position + 1)
      (heap.append growth written value).1 := by
  apply Trails.mk
  · exact trails.stays.append trails.beyond growth value
  · exact Nat.lt_of_lt_of_le trails.allocated Heap.length_arrays_append
  · exact trails.has.append
  · rcases @Heap.append_array _ _ growth heap written value with ⟨same, _⟩ | new
    · rw [same]
      exact trails.beyond
    · rw [new]
      exact trails.stays.length_le
  · intro shared
    rcases @Heap.append_array _ _ growth heap written value with ⟨same, start⟩ | new
    · have ends := trails.behind (same.symm.trans shared)
      rw [start, Heap.length_append]
      omega
    · -- a new array is not the one that is read
      exact absurd (new.symm.trans shared) (Nat.ne_of_gt trails.allocated)

/-- What is still to be read is as it was. -/
theorem window_append (trails : Trails before heap read position written) (count : Nat) :
    (heap.append growth written value).2.window read (position + 1) count =
      heap.window read (position + 1) count := by
  apply List.map_congr_left
  intro later member
  have unread : position + 1 ≤ later := List.left_le_of_mem_range' member
  refine congrArg (Option.getD · default) (Heap.cell_append trails.allocated fun shared => ?_)
  have ends := trails.behind shared.symm
  omega

/-- A slice made now, in an array of its own. -/
theorem ofMake (stays : before.StaysIn heap) (allocated : read.array < heap.arrays.length) :
    Trails before (heap.make 0).2 read 0 (heap.make 0).1 := by
  apply Trails.mk
  · exact stays.alloc _
  · exact Nat.lt_of_lt_of_le allocated (by simp [Heap.make])
  · exact ⟨0, Heap.size_alloc_self .., Nat.le_refl 0⟩
  · exact stays.length_le
  · exact fun shared => absurd shared (Nat.ne_of_gt allocated)

omit [Inhabited α] in
/-- The slice that is read, cut to no elements: the array is shared from its first place on. -/
theorem ofUpTo (stays : before.StaysIn heap) (has : heap.Has read)
    (beyond : before.arrays.length ≤ read.array) :
    Trails before heap read 0 (read.upTo 0 (Nat.zero_le _)) :=
  ⟨stays, has.allocated, has, beyond, fun _ => Nat.le_refl _⟩

end Trails

theorem Heap.elements_make {α : Type} [Inhabited α] {heap : Heap α} {slice : Slice}
    (allocated : slice.array < heap.arrays.length) (length : Nat) :
    (heap.make length).2.elements slice = heap.elements slice :=
  Heap.elements_congr fun _ _ =>
    congrArg (Option.getD · default) (Heap.cell_alloc_of_lt heap _ allocated _)

end MerkleProofService.Library
