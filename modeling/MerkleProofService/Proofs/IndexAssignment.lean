/-
Module: MerkleProofService.Proofs.IndexAssignment
Layer: Proofs
Purpose: Which index a registry address is given.  The addresses applied so far are applied in the
  order of their first call, modulo 256: the database holds these numbers and, in the counter,
  the last of them.  An address keeps its index for ever, and no index is shared as long as at
  most 256 addresses are applied.
Imports: ZkRegistry.IndexStorage
Trusted boundary: none
Main exports: AppliedOrder, applyAll_spec, AssignsDistinct, assignsDistinct_iff
-/
import MerkleProofService.ZkRegistry.IndexStorage
import Mathlib.Data.Finset.Card
import Mathlib.Data.List.Dedup

namespace MerkleProofService

open Library

/-! ### Keys -/

@[simp] theorem makeRegistryIndexKey_inj {first second : Address} :
    makeRegistryIndexKey first = makeRegistryIndexKey second ↔ first = second := by
  rw [makeRegistryIndexKey, makeRegistryIndexKey, List.cons.injEq, Address.bytes_inj]
  exact and_iff_right rfl

@[simp] theorem makeRegistryIndexKey_ne_nil (address : Address) :
    makeRegistryIndexKey address ≠ [] :=
  List.cons_ne_nil _ _

@[simp] theorem makeRegistryIndexKey_ne_counterKey (address : Address) :
    makeRegistryIndexKey address ≠ makeRegistryIndexCounterKey := by
  intro same
  exact absurd (List.cons.inj same).1 (by decide)

/-! ### One call -/

section Calls

variable {addressString : Address → String} {database : Database} {address : Address}

theorem evalOn_findRegistryIndex_found {index : RegistryIndex}
    (entry : database.lookup (makeRegistryIndexKey address) = some [index]) :
    Read.evalOn database (findRegistryIndex address) = .ok index := by
  simp [findRegistryIndex, Program.bind_eq, entry]

theorem evalOn_findRegistryIndex_missing
    (entry : database.lookup (makeRegistryIndexKey address) = none) :
    Read.evalOn database (findRegistryIndex address) = .error .notFound := by
  simp [findRegistryIndex, Program.bind_eq, entry]

/-- An address that has an index is answered from the database. -/
theorem evalOn_applyAddressToIndex_found {index : RegistryIndex}
    (entry : database.lookup (makeRegistryIndexKey address) = some [index]) :
    Read.evalOn database (applyAddressToIndex addressString address) = .ok (index, []) := by
  have found := Read.evalOn_tryRun database (evalOn_findRegistryIndex_found entry) (by simp)
  simp [applyAddressToIndex, Program.bind_eq, found]

/-- A new address is given the next index, which also becomes the counter. -/
theorem evalOn_applyAddressToIndex_missing {next : RegistryIndex}
    (entry : database.lookup (makeRegistryIndexKey address) = none)
    (counted : Read.evalOn database getNextRegistryIndex = .ok next) :
    Read.evalOn database (applyAddressToIndex addressString address) =
      .ok (next, [.set (makeRegistryIndexKey address) [next],
        .set makeRegistryIndexCounterKey [next]]) := by
  have missing := Read.evalOn_tryRun database (evalOn_findRegistryIndex_missing entry) (by simp)
  have counterKey : makeRegistryIndexCounterKey ≠ [] := List.cons_ne_nil _ _
  simp [applyAddressToIndex, setIndex, setIndexCounter, Batch.set, Program.bind_eq, missing,
    counted, counterKey]

/-! ### The numbering -/

/-- The addresses `order` have been applied, in this order, and no other. -/
structure AppliedOrder (order : List Address) (database : Database) : Prop where
  nodup : order.Nodup
  entries : ∀ address, database.lookup (makeRegistryIndexKey address) =
    if address ∈ order then some [UInt8.ofNat (order.idxOf address)] else none
  counter : database.lookup makeRegistryIndexCounterKey =
    if order = [] then none else some [UInt8.ofNat (order.length - 1)]

theorem appliedOrder_empty : AppliedOrder [] ∅ where
  nodup := List.nodup_nil
  entries := fun _ => rfl
  counter := rfl

namespace AppliedOrder

variable {order : List Address}

theorem find_mem (applied : AppliedOrder order database) (member : address ∈ order) :
    Read.evalOn database (findRegistryIndex address) = .ok (UInt8.ofNat (order.idxOf address)) :=
  evalOn_findRegistryIndex_found (by rw [applied.entries, if_pos member])

/-- The next index is the number of addresses applied so far, in 8 bits. -/
theorem next (applied : AppliedOrder order database) :
    Read.evalOn database getNextRegistryIndex = .ok (UInt8.ofNat order.length) := by
  cases order with
  | nil => simp [getNextRegistryIndex, Program.bind_eq, applied.counter]
  | cons first rest =>
      simp [getNextRegistryIndex, Program.bind_eq, applied.counter, UInt8.ofNat_add]

/-- A new address takes the next number. -/
theorem snoc (applied : AppliedOrder order database) (fresh : address ∉ order) :
    AppliedOrder (order ++ [address]) (Store.write database
      [.set (makeRegistryIndexKey address) [UInt8.ofNat order.length],
        .set makeRegistryIndexCounterKey [UInt8.ofNat order.length]]) where
  nodup := applied.nodup.append (List.nodup_singleton address) (by simpa using fresh)
  entries := fun other => by
    rw [Store.lookup_write]
    by_cases same : address = other
    · subst same
      simp [lastEffect, WriteOp.key, WriteOp.left, List.idxOf_append_of_notMem fresh,
        Ne.symm (makeRegistryIndexKey_ne_counterKey address)]
    · by_cases member : other ∈ order
      · simp [lastEffect, WriteOp.key, same, applied.entries, member,
          List.idxOf_append_of_mem member, Ne.symm (makeRegistryIndexKey_ne_counterKey other)]
      · simp [lastEffect, WriteOp.key, same, applied.entries, member, Ne.symm same,
          Ne.symm (makeRegistryIndexKey_ne_counterKey other)]
  counter := by
    rw [Store.lookup_write]
    simp [lastEffect, WriteOp.key, WriteOp.left]

end AppliedOrder

/-- The addresses applied after a call. -/
def orderAfter (order : List Address) (address : Address) : List Address :=
  if address ∈ order then order else order ++ [address]

variable (addressString) in
/-- One call numbers its address and leaves the other numbers. -/
theorem applyAddressToIndex_spec {order : List Address} (applied : AppliedOrder order database)
    (address : Address) :
    ∃ batch, Read.evalOn database (applyAddressToIndex addressString address) =
        .ok (UInt8.ofNat ((orderAfter order address).idxOf address), batch) ∧
      AppliedOrder (orderAfter order address) (Store.write database batch) := by
  by_cases member : address ∈ order
  · rw [orderAfter, if_pos member]
    refine ⟨[], evalOn_applyAddressToIndex_found ?_, applied⟩
    rw [applied.entries, if_pos member]
  · rw [orderAfter, if_neg member, List.idxOf_append_of_notMem member]
    refine ⟨_, ?_, applied.snoc member⟩
    rw [evalOn_applyAddressToIndex_missing (by rw [applied.entries, if_neg member])
      applied.next]
    simp

/-! ### Sequences of calls -/

theorem prefix_orderAfter (order : List Address) (address : Address) :
    order <+: orderAfter order address := by
  rw [orderAfter]
  by_cases member : address ∈ order
  · rw [if_pos member]
  · rw [if_neg member]
    exact List.prefix_append _ _

theorem mem_orderAfter {order : List Address} {address other : Address} :
    other ∈ orderAfter order address ↔ other ∈ order ∨ other = address := by
  rw [orderAfter]
  by_cases member : address ∈ order
  · rw [if_pos member]
    constructor
    · exact Or.inl
    · rintro (old | rfl)
      · exact old
      · exact member
  · rw [if_neg member, List.mem_append, List.mem_singleton]

theorem mem_foldl_orderAfter {addresses order : List Address} {other : Address} :
    other ∈ addresses.foldl orderAfter order ↔ other ∈ order ∨ other ∈ addresses := by
  induction addresses generalizing order with
  | nil => simp
  | cons address addresses ih => rw [List.foldl_cons, ih, mem_orderAfter, List.mem_cons, or_assoc]

theorem prefix_foldl_orderAfter (addresses order : List Address) :
    order <+: addresses.foldl orderAfter order := by
  induction addresses generalizing order with
  | nil => exact List.prefix_rfl
  | cons address addresses ih => exact (prefix_orderAfter order address).trans (ih _)

/-- A number once given stays. -/
theorem idxOf_of_prefix {order later : List Address} (earlier : order <+: later)
    (member : address ∈ order) : later.idxOf address = order.idxOf address := by
  obtain ⟨rest, rfl⟩ := earlier
  exact List.idxOf_append_of_mem member

variable (addressString) in
/-- Every call of a sequence succeeds and answers with the number its address has in the end. -/
theorem applyAll_spec {order : List Address} (applied : AppliedOrder order database)
    (addresses : List Address) :
    ∃ database', applyAll addressString addresses database =
        .ok (addresses.map fun address =>
          UInt8.ofNat ((addresses.foldl orderAfter order).idxOf address), database') ∧
      AppliedOrder (addresses.foldl orderAfter order) database' := by
  induction addresses generalizing order database with
  | nil => exact ⟨database, rfl, applied⟩
  | cons address addresses ih =>
      obtain ⟨batch, called, applied₁⟩ :=
        applyAddressToIndex_spec addressString applied address
      obtain ⟨database', rest, applied'⟩ := ih applied₁
      refine ⟨database', ?_, applied'⟩
      have kept : (addresses.foldl orderAfter (orderAfter order address)).idxOf address =
          (orderAfter order address).idxOf address :=
        idxOf_of_prefix (prefix_foldl_orderAfter _ _) (mem_orderAfter.mpr (Or.inr rfl))
      simp only [applyAll, called, except_bind_ok, rest, List.map_cons, List.foldl_cons, kept]
      rfl

/-- The calls succeed, an address is answered by one index throughout, which the database holds
in the end, and distinct addresses have distinct indexes. -/
def AssignsDistinct (addressString : Address → String) (addresses : List Address) : Prop :=
  ∃ (assign : Address → RegistryIndex) (database : Database),
    applyAll addressString addresses ∅ = .ok (addresses.map assign, database) ∧
    (∀ address ∈ addresses,
      Read.evalOn database (findRegistryIndex address) = .ok (assign address)) ∧
    Set.InjOn assign {address | address ∈ addresses}

/-- The order in which distinct addresses were applied lists each of them once. -/
theorem AppliedOrder.length_eq {addresses : List Address}
    (applied : AppliedOrder (addresses.foldl orderAfter []) database) :
    (addresses.foldl orderAfter []).length = addresses.toFinset.card := by
  rw [← List.toFinset_card_of_nodup applied.nodup]
  congr 1
  ext address
  simp [mem_foldl_orderAfter]

/-- Numbers below 256 differ in 8 bits as well. -/
theorem idxOf_injOn {order : List Address} (small : order.length ≤ 256) :
    Set.InjOn (fun address => UInt8.ofNat (order.idxOf address))
      {address | address ∈ order} := by
  intro first firstMember second secondMember same
  have firstSmall := List.idxOf_lt_length_iff.mpr firstMember
  have secondSmall := List.idxOf_lt_length_iff.mpr secondMember
  have numbers := congrArg UInt8.toNat same
  rw [UInt8.toNat_ofNat_of_lt' (Nat.lt_of_lt_of_le firstSmall small),
    UInt8.toNat_ofNat_of_lt' (Nat.lt_of_lt_of_le secondSmall small)] at numbers
  exact (List.idxOf_inj firstMember).mp numbers

variable (addressString) in
/-- Registries never share an index exactly if at most 256 addresses are applied. -/
theorem assignsDistinct_iff (addresses : List Address) :
    AssignsDistinct addressString addresses ↔ addresses.toFinset.card ≤ 256 := by
  constructor
  · rintro ⟨assign, _, _, _, distinct⟩
    -- the addresses inject into the 256 values of a byte
    have injOn : Set.InjOn (fun address => (assign address).toNat)
        (addresses.toFinset : Set Address) := by
      intro first firstMember second secondMember same
      exact distinct (by simpa using firstMember) (by simpa using secondMember)
        (UInt8.toNat_inj.mp same)
    have fits : ∀ address ∈ addresses.toFinset, (assign address).toNat ∈ Finset.range 256 :=
      fun address _ => Finset.mem_range.mpr (assign address).toNat_lt
    simpa using Finset.card_le_card_of_injOn _ fits injOn
  · intro few
    obtain ⟨database, called, applied⟩ := applyAll_spec addressString appliedOrder_empty addresses
    refine ⟨_, database, called, fun address member => applied.find_mem ?_, ?_⟩
    · exact mem_foldl_orderAfter.mpr (Or.inr member)
    · have distinct := idxOf_injOn (applied.length_eq ▸ few)
      simpa [mem_foldl_orderAfter] using distinct

theorem foldl_orderAfter_of_nodup {addresses order : List Address}
    (nodup : (order ++ addresses).Nodup) :
    addresses.foldl orderAfter order = order ++ addresses := by
  induction addresses generalizing order with
  | nil => simp
  | cons address addresses ih =>
      have fresh : address ∉ order := fun member =>
        (List.nodup_append.mp nodup).2.2 address member address List.mem_cons_self rfl
      rw [List.append_cons] at nodup ⊢
      rw [List.foldl_cons, orderAfter, if_neg fresh, ih nodup]

end Calls

/-- The first `count` addresses. -/
def firstAddresses (count : Nat) : List Address :=
  (List.range count).map (BitVec.ofNat 160)

theorem firstAddresses_nodup {count : Nat} (small : count ≤ 2 ^ 160) :
    (firstAddresses count).Nodup := by
  refine List.Nodup.map_on ?_ List.nodup_range
  intro first firstMember second secondMember same
  rw [List.mem_range] at firstMember secondMember
  have numbers := congrArg BitVec.toNat same
  rwa [BitVec.toNat_ofNat, BitVec.toNat_ofNat, Nat.mod_eq_of_lt (by omega),
    Nat.mod_eq_of_lt (by omega)] at numbers

theorem idxOf_firstAddresses {total count : Nat} (few : total ≤ 2 ^ 160) (small : count < total) :
    (firstAddresses total).idxOf (BitVec.ofNat 160 count) = count := by
  have bound : count < (firstAddresses total).length := by simpa [firstAddresses] using small
  have here : (firstAddresses total)[count] = BitVec.ofNat 160 count := by simp [firstAddresses]
  rw [← here]
  exact (firstAddresses_nodup few).idxOf_getElem count bound

/-- After 257 addresses the counter has wrapped: the first and the last share index 0. -/
theorem wrapped_counter_shares_index :
    BitVec.ofNat 160 0 ≠ BitVec.ofNat 160 256 ∧
      ∃ indexes database,
        applyAll (fun _ => "") (firstAddresses 257) ∅ = .ok (indexes, database) ∧
        Read.evalOn database (findRegistryIndex (BitVec.ofNat 160 0)) = .ok 0 ∧
        Read.evalOn database (findRegistryIndex (BitVec.ofNat 160 256)) = .ok 0 := by
  obtain ⟨database, called, applied⟩ :=
    applyAll_spec (fun _ => "") appliedOrder_empty (firstAddresses 257)
  have order : (firstAddresses 257).foldl orderAfter [] = firstAddresses 257 :=
    foldl_orderAfter_of_nodup (firstAddresses_nodup (by decide))
  have member : ∀ count < 257, BitVec.ofNat 160 count ∈ firstAddresses 257 := fun count small =>
    List.mem_map_of_mem (List.mem_range.mpr small)
  rw [order] at applied
  refine ⟨by decide, _, database, called, ?_, ?_⟩
  · rw [applied.find_mem (member 0 (by decide)), idxOf_firstAddresses (by decide) (by decide)]
    rfl
  · rw [applied.find_mem (member 256 (by decide)), idxOf_firstAddresses (by decide) (by decide)]
    rfl

end MerkleProofService
