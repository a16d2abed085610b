/-
Module: MerkleProofService.Proofs.MutexRuns
Layer: Proofs
Purpose: One mutex per registry, for any number of goroutines in any interleaving.  Each goroutine
  is proved by itself against the contract of the mutexes.  The re-check before the insert is
  enough, every unlock finds the mutex its lock took, and the sections of a registry exclude each
  other.
Imports: Proofs.MutexContract, Library.GuardedRuns
Trusted boundary: none
Main exports: triple_getOrCreateMutex, triple_section, triple_runSections, one_mutex_per_registry
-/
import MerkleProofService.Proofs.MutexContract
import MerkleProofService.Library.GuardedRuns

namespace MerkleProofService

open Library

variable {Goroutine : Type}

/-! ### The map -/

/-- What was found lasts, even without the lock. -/
theorem lasting_found {kept : MutexState Goroutine → Prop} (lasting : Lasting kept)
    (address : RegistryIndex) (entry : Option Nat) :
    Lasting fun s : MutexState Goroutine =>
      kept s ∧ ∀ number, entry = some number → s.mutexes.lookup address = some number :=
  fun s t grows known => ⟨lasting s t grows known.1, fun number found =>
    grows.entries address number (known.2 number found)⟩

theorem lasting_entry {kept : MutexState Goroutine → Prop} (lasting : Lasting kept)
    (address : RegistryIndex) (number : Nat) :
    Lasting fun s : MutexState Goroutine =>
      kept s ∧ s.mutexes.lookup address = some number :=
  fun s t grows known => ⟨lasting s t grows known.1, grows.entries address number known.2⟩

/-- The holders of a mutex that is being created are nobody already. -/
theorem setLock_unused {s : MutexState Goroutine} (inv : MutexInv s) :
    (s.setLock (.entry s.created) .nobody).locks = s.locks := by
  rw [MutexState.setLock, ← inv.unused s.created (Nat.le_refl _)]
  exact Function.update_eq_self _ _

theorem MutexInv.created {s : MutexState Goroutine} (inv : MutexInv s) :
    MutexInv { s with created := s.created + 1 } :=
  ⟨inv.exclusive, fun number beyond => inv.unused number (Nat.le_of_succ_le beyond),
    fun index number found => Nat.lt_succ_of_lt (inv.known index number found), inv.distinct,
    inv.recorded, inv.guarded⟩

theorem lookup_insert_of_fresh {s : MutexState Goroutine} {address index : RegistryIndex}
    (missing : s.mutexes.lookup address = none) {number entry : Nat}
    (found : s.mutexes.lookup index = some entry) :
    (s.mutexes.insert address number).lookup index = some entry := by
  have different : index ≠ address := by
    rintro rfl
    cases missing.symm.trans found
  rw [Finmap.lookup_insert_of_ne _ different]
  exact found

/-- A mutex was created that is no entry of the map. -/
def Fresh (number : Nat) (s : MutexState Goroutine) : Prop :=
  number < s.created ∧ ∀ index, s.mutexes.lookup index ≠ some number

/-- A fresh mutex becomes the entry of an address that has none. -/
theorem MutexInv.setEntry {s : MutexState Goroutine} {address : RegistryIndex} (inv : MutexInv s)
    (missing : s.mutexes.lookup address = none) {number : Nat} (fresh : Fresh number s) :
    MutexInv { s with mutexes := s.mutexes.insert address number } := by
  -- an entry afterwards is the new one or an old one
  have cases_of : ∀ index entry, (s.mutexes.insert address number).lookup index = some entry →
      index = address ∧ entry = number ∨ s.mutexes.lookup index = some entry := by
    intro index entry found
    by_cases same : index = address
    · subst same
      rw [Finmap.lookup_insert] at found
      exact Or.inl ⟨rfl, (Option.some.inj found).symm⟩
    · rw [Finmap.lookup_insert_of_ne _ same] at found
      exact Or.inr found
  apply MutexInv.mk
  · exact inv.exclusive
  · exact inv.unused
  · intro index entry found
    rcases cases_of index entry found with ⟨_, rfl⟩ | old
    · exact fresh.1
    · exact inv.known index entry old
  · intro first second entry one two
    rcases cases_of first entry one with ⟨rfl, rfl⟩ | old
    · rcases cases_of second entry two with ⟨rfl, _⟩ | other
      · rfl
      · exact absurd other (fresh.2 second)
    · rcases cases_of second entry two with ⟨rfl, rfl⟩ | other
      · exact absurd old (fresh.2 first)
      · exact inv.distinct first second entry old other
  · intro call member
    exact lookup_insert_of_fresh missing (inv.recorded call member)
  · intro other kind index inside
    obtain ⟨entry, found, holds⟩ := inv.guarded other kind index inside
    exact ⟨entry, lookup_insert_of_fresh missing found, holds⟩

/-- The address has this entry. -/
def HasEntry (index : RegistryIndex) (number : Nat) (s : MutexState Goroutine) : Prop :=
  s.mutexes.lookup index = some number

theorem lasting_hasEntry (index : RegistryIndex) (number : Nat) :
    Lasting (HasEntry index number : MutexState Goroutine → Prop) :=
  fun _ _ grows entry => grows.entries index number entry

theorem created_hasEntry {index : RegistryIndex} {number : Nat} {s : MutexState Goroutine}
    (inv : MutexInv s) (entry : HasEntry index number s) : Created (.entry number) s := by
  intro other same
  obtain rfl := MutexRef.entry.inj same
  exact inv.known index number entry

variable [DecidableEq Goroutine]

section Entries

variable {g : Goroutine} {held : MutexRef → Option SectionKind} {address : RegistryIndex}
variable {kept : MutexState Goroutine → Prop}

/-- A query that changes neither locks nor map nor the place of any other goroutine. -/
theorem MutexRely.same {other : Goroutine} {s t : MutexState Goroutine} (locks : t.locks = s.locks)
    (mutexes : t.mutexes = s.mutexes) (created : s.created ≤ t.created)
    (inside : t.inside other = s.inside other) : MutexRely other s t := by
  refine ⟨⟨fun index number found => ?_, created⟩, fun mutex => ?_, fun mutex => ?_,
    fun _ => mutexes, inside⟩
  · rw [mutexes]
    exact found
  · rw [locks]
  · rw [locks]

/-- The goroutine has seen the entry of an address. -/
def Seen (g : Goroutine) (held : MutexRef → Option SectionKind)
    (kept : MutexState Goroutine → Prop) (address : RegistryIndex) (entry : Option Nat)
    (s : MutexState Goroutine) : Prop :=
  Outside g held kept s ∧ s.mutexes.lookup address = entry

/-- It stays what it is under the write lock of the map. -/
theorem stable_seen (lasting : Lasting kept) (locked : held .mu = some .batchWrite)
    (entry : Option Nat) : Stable mutexContract g (Seen g held kept address entry) := by
  rintro s t inv rely ⟨outside, seen⟩
  refine ⟨stable_outside lasting s t inv rely outside, ?_⟩
  rw [rely.still ((outside.1.writer .mu).mpr locked)]
  exact seen

theorem serves_getEntry {kind : SectionKind} (locked : held .mu = some kind) :
    Serves mutexMemory mutexContract g (Outside g held kept) (.getEntry address)
      fun (entry : Option Nat) => Seen g held kept address entry := by
  intro s inv outside
  refine ⟨⟨kind, (outside.1.holds_iff kind .mu).mpr locked⟩, fun answer after served => ?_⟩
  simp only [mutexMemory, Option.some.injEq] at served
  obtain ⟨rfl, rfl⟩ := Prod.mk.inj served
  exact ⟨⟨inv, fun other _ => mutexContract.refl other s⟩, outside, rfl⟩

theorem triple_getEntry_read (lasting : Lasting kept) (locked : held .mu = some .proofRead) :
    Triple mutexMemory mutexContract g (Outside g held kept) (Mutex.getEntry address)
      fun entry => Outside g held fun s =>
        kept s ∧ ∀ number, entry = some number → s.mutexes.lookup address = some number := by
  refine triple_query (stable_outside lasting) ?_ fun entry =>
    stable_outside (lasting_found lasting address entry)
  intro s inv outside
  obtain ⟨demanded, served⟩ := serves_getEntry locked s inv outside
  refine ⟨demanded, fun entry after answered => ?_⟩
  obtain ⟨kept', outside', seen⟩ := served entry after answered
  exact ⟨kept', outside'.1, outside'.2, fun number found => seen.trans found⟩

theorem triple_getEntry_write (lasting : Lasting kept) (locked : held .mu = some .batchWrite) :
    Triple mutexMemory mutexContract g (Outside g held kept) (Mutex.getEntry address)
      fun entry => Seen g held kept address entry :=
  triple_query (stable_outside lasting) (serves_getEntry locked)
    fun entry => stable_seen lasting locked entry

theorem stable_fresh (lasting : Lasting kept) (locked : held .mu = some .batchWrite)
    (number : Nat) :
    Stable mutexContract g fun s => Seen g held kept address none s ∧ Fresh number s := by
  rintro s t inv rely ⟨seen, below, unlisted⟩
  refine ⟨stable_seen lasting locked none s t inv rely seen,
    Nat.lt_of_lt_of_le below rely.grows.created, ?_⟩
  rw [rely.still ((seen.1.1.writer .mu).mpr locked)]
  exact unlisted

theorem triple_newMutex (lasting : Lasting kept) (locked : held .mu = some .batchWrite) :
    Triple mutexMemory mutexContract g (Seen g held kept address none) Mutex.newMutex
      fun number s => Seen g held kept address none s ∧ Fresh number s := by
  refine triple_query (stable_seen lasting locked none) ?_ fun number =>
    stable_fresh lasting locked number
  rintro s inv ⟨outside, seen⟩
  refine ⟨trivial, fun answer after served => ?_⟩
  simp only [mutexMemory, setLock_unused inv, Option.some.injEq] at served
  obtain ⟨rfl, rfl⟩ := Prod.mk.inj served
  have grows : MutexGrows s { s with created := s.created + 1 } :=
    ⟨fun _ _ found => found, Nat.le_succ _⟩
  refine ⟨⟨inv.created, fun other _ => .same rfl rfl (Nat.le_succ _) rfl⟩,
    ⟨⟨⟨outside.1.writer, outside.1.readers, outside.1.inside⟩,
      lasting s _ grows outside.2⟩, seen⟩, Nat.lt_succ_self _, fun index found => ?_⟩
  exact Nat.lt_irrefl _ (inv.known index _ found)

theorem triple_setEntry (lasting : Lasting kept) (locked : held .mu = some .batchWrite)
    (number : Nat) :
    Triple mutexMemory mutexContract g
      (fun s => Seen g held kept address none s ∧ Fresh number s)
      (Mutex.setEntry address number)
      fun _ => Outside g held fun s => kept s ∧ s.mutexes.lookup address = some number := by
  refine triple_query (stable_fresh lasting locked number) ?_ fun _ =>
    stable_outside (lasting_entry lasting address number)
  rintro s inv ⟨⟨outside, missing⟩, fresh⟩
  have own : (s.locks .mu).writer = some g := (outside.1.writer .mu).mpr locked
  refine ⟨⟨own, missing⟩, fun answer after served => ?_⟩
  simp only [mutexMemory, Option.some.injEq] at served
  obtain rfl := (Prod.mk.inj served).2
  have grows : MutexGrows s { s with mutexes := s.mutexes.insert address number } :=
    ⟨fun _ _ found => lookup_insert_of_fresh missing found, Nat.le_refl _⟩
  refine ⟨⟨inv.setEntry missing fresh, fun other different => ?_⟩,
    ⟨outside.1.writer, outside.1.readers, outside.1.inside⟩, lasting s _ grows outside.2,
    Finmap.lookup_insert _⟩
  refine ⟨grows, fun _ => Iff.rfl, fun _ => rfl, fun theirs => ?_, rfl⟩
  -- nobody else has the map write-locked
  exact absurd (Option.some.inj (own.symm.trans theirs)).symm different

/-! ### `getOrCreateMutex` -/

/-- The map is released as it was taken. -/
theorem update_mu_none (free : held .mu = none) (kind : SectionKind) :
    Function.update (Function.update held .mu (some kind)) .mu none = held := by
  rw [Function.update_idem, ← free]
  exact Function.update_eq_self _ _

theorem triple_unlock_mu (lasting : Lasting kept) (free : held .mu = none) :
    Triple mutexMemory mutexContract g
      (Outside g (Function.update held .mu (some .batchWrite)) kept) (RWMutex.unlock .mu)
      fun _ => Outside g held kept := by
  have released := @triple_unlock _ _ g (Function.update held .mu (some .batchWrite)) .mu kept
    lasting (fun _ _ _ => created_mu) (Function.update_self _ _ _) fun s owns =>
      (owns.holds_iff .batchWrite .mu).mpr (Function.update_self _ _ _)
  rw [update_mu_none free] at released
  exact released

theorem triple_rUnlock_mu (lasting : Lasting kept) (free : held .mu = none) :
    Triple mutexMemory mutexContract g
      (Outside g (Function.update held .mu (some .proofRead)) kept) (RWMutex.rUnlock .mu)
      fun _ => Outside g held kept := by
  have released := @triple_rUnlock _ _ g (Function.update held .mu (some .proofRead)) .mu kept
    lasting (fun _ _ _ => created_mu) (Function.update_self _ _ _) fun s owns =>
      (owns.holds_iff .proofRead .mu).mpr (Function.update_self _ _ _)
  rw [update_mu_none free] at released
  exact released

/-- What a program that ends with a number leaves. -/
theorem triple_return (lasting : Lasting kept) (number : Nat) :
    Triple mutexMemory mutexContract g
      (Outside g held fun s => kept s ∧ s.mutexes.lookup address = some number)
      (.done number : MutexProgram Nat)
      fun number => Outside g held fun s =>
        kept s ∧ s.mutexes.lookup address = some number :=
  triple_done (stable_outside (lasting_entry lasting address number)) fun _ _ => id

/-- The write-locked half: what it returns is the entry. -/
theorem triple_createMutex (lasting : Lasting kept) (free : held .mu = none) :
    Triple mutexMemory mutexContract g (Outside g held kept) (Mutex.createMutex address)
      fun number => Outside g held fun s =>
        kept s ∧ s.mutexes.lookup address = some number := by
  have locked : Function.update held .mu (some .batchWrite) .mu = some .batchWrite :=
    Function.update_self _ _ _
  apply (triple_lock lasting fun _ _ _ => created_mu).bind
  intro _
  apply (triple_getEntry_write lasting locked).bind
  intro entry
  cases entry with
  | some number =>
      have unlocks := triple_unlock_mu (lasting_entry lasting address number) free (g := g)
      refine (unlocks.weaken ?_ fun _ _ _ => id).bind fun _ => triple_return lasting number
      exact fun s _ seen => ⟨seen.1.1, seen.1.2, seen.2⟩
  | none =>
      apply (triple_newMutex lasting locked).bind
      intro number
      apply (triple_setEntry lasting locked number).bind
      intro _
      apply (triple_unlock_mu (lasting_entry lasting address number) free).bind
      exact fun _ => triple_return lasting number

/-- `getOrCreateMutex` returns the entry of the map, which it leaves there, and keeps what the
goroutine holds. -/
theorem triple_getOrCreateMutex (lasting : Lasting kept) (free : held .mu = none) :
    Triple mutexMemory mutexContract g (Outside g held kept) (Mutex.getOrCreateMutex address)
      fun number => Outside g held fun s =>
        kept s ∧ s.mutexes.lookup address = some number := by
  apply (triple_rLock lasting (fun _ _ _ => created_mu) free).bind
  intro _
  apply (triple_getEntry_read lasting (Function.update_self _ _ _)).bind
  intro entry
  apply (triple_rUnlock_mu (lasting_found lasting address entry) free).bind
  intro _
  cases entry with
  | some number =>
      apply (triple_return lasting number).weaken _ fun _ _ _ => id
      exact fun s _ outside => ⟨outside.1, outside.2.1, outside.2.2 number rfl⟩
  | none =>
      apply (triple_createMutex lasting free).weaken _ fun _ _ _ => id
      exact fun s _ outside => ⟨outside.1, outside.2.1⟩

end Entries

/-! ### Critical sections -/

section Sections

variable {g : Goroutine} {held : MutexRef → Option SectionKind} {index : RegistryIndex}
variable {kept : MutexState Goroutine → Prop}

/-- A call of `getOrCreateMutex` returns the entry, and the record of calls stays one of entries. -/
theorem triple_callGetOrCreateMutex (lasting : Lasting kept) (free : held .mu = none) :
    Triple mutexMemory mutexContract g (Outside g held kept) (Mutex.callGetOrCreateMutex index)
      fun mutex s => ∃ number, mutex = .entry number ∧
        Outside g held (fun s => kept s ∧ s.mutexes.lookup index = some number) s := by
  apply (triple_getOrCreateMutex lasting free).bind
  intro number
  have stable := @stable_outside _ _ g held _ (lasting_entry lasting index number)
  refine triple_query stable ?_ ?_
  · rintro s inv ⟨owns, knows, entry⟩
    refine ⟨trivial, fun answer after served => ?_⟩
    simp only [mutexMemory, Option.some.injEq] at served
    obtain rfl := (Prod.mk.inj served).2
    have recorded : ∀ call ∈ s.returned ++ [(index, number)],
        s.mutexes.lookup call.1 = some call.2 := by
      intro call member
      rcases List.mem_append.mp member with old | new
      · exact inv.recorded call old
      · obtain rfl := List.mem_singleton.mp new
        exact entry
    refine ⟨⟨⟨inv.exclusive, inv.unused, inv.known, inv.distinct, recorded, inv.guarded⟩,
      fun other _ => .same rfl rfl (Nat.le_refl _) rfl⟩, number, rfl,
      ⟨owns.writer, owns.readers, owns.inside⟩, ?_⟩
    exact lasting_entry lasting index number s _ ⟨fun _ _ found => found, Nat.le_refl _⟩
      ⟨knows, entry⟩
  · rintro mutex s t inv rely ⟨other, same, outside⟩
    exact ⟨other, same, stable_outside (lasting_entry lasting index other) s t inv rely outside⟩

/-- The goroutine holds no mutex. -/
def nothing : MutexRef → Option SectionKind := fun _ => none

/-- The goroutine holds the mutex of one registry. -/
def holding (number : Nat) (kind : SectionKind) : MutexRef → Option SectionKind :=
  Function.update nothing (.entry number) (some kind)

theorem Owns.onlyHolds {number : Nat} {kind : SectionKind}
    {place : Option (SectionKind × RegistryIndex)} {s : MutexState Goroutine}
    (owns : Owns g (holding number kind) place s) : s.OnlyHolds g kind number := by
  intro other otherNumber
  rw [owns.holds_iff, holding]
  by_cases same : otherNumber = number
  · subst same
    rw [Function.update_self]
    simp [eq_comm]
  · rw [Function.update_of_ne fun equal => same (MutexRef.entry.inj equal)]
    simp [nothing, same]

theorem holding_released (number : Nat) (kind : SectionKind) :
    Function.update (holding number kind) (.entry number) none = nothing := by
  rw [holding, Function.update_idem]
  exact Function.update_eq_self _ _

/-- A goroutine enters or leaves a body; it enters that of a registry whose mutex it holds. -/
theorem MutexInv.setInside {s : MutexState Goroutine} (inv : MutexInv s)
    {place : Option (SectionKind × RegistryIndex)}
    (guards : ∀ kind index, place = some (kind, index) →
      ∃ number, s.mutexes.lookup index = some number ∧ s.Holds g kind (.entry number)) :
    MutexInv { s with inside := Function.update s.inside g place } := by
  refine ⟨inv.exclusive, inv.unused, inv.known, inv.distinct, inv.recorded, ?_⟩
  intro other kind index (inside : Function.update s.inside g place other = some (kind, index))
  by_cases same : other = g
  · subst same
    rw [Function.update_self] at inside
    exact guards kind index inside
  · rw [Function.update_of_ne same] at inside
    exact inv.guarded other kind index inside

/-- The others see nothing of it, and the goroutine keeps what it holds. -/
theorem Owns.setInside {s : MutexState Goroutine}
    {place place' : Option (SectionKind × RegistryIndex)} (owns : Owns g held place s) :
    (∀ other ≠ g, MutexRely other s { s with inside := Function.update s.inside g place' }) ∧
      Owns g held place' { s with inside := Function.update s.inside g place' } :=
  ⟨fun _ different => .same rfl rfl (Nat.le_refl _) (Function.update_of_ne different _ _),
    owns.writer, owns.readers, Function.update_self _ _ _⟩

/-- The body of a section, with the mutex of the registry held. -/
theorem triple_body {number : Nat} {kind : SectionKind} (view : MutexView) :
    Triple mutexMemory mutexContract g
      (Outside g (holding number kind) (HasEntry view.index number))
      ((enterSection kind view).bind fun _ => leaveSection)
      fun _ => Outside g (holding number kind) (HasEntry view.index number) := by
  have lasting := @lasting_hasEntry Goroutine view.index number
  have stableInside : Stable mutexContract g fun s =>
      Owns g (holding number kind) (some (kind, view.index)) s ∧
        HasEntry view.index number s :=
    fun s t _ rely inside => ⟨inside.1.rely rely, lasting s t rely.grows inside.2⟩
  have enters : Triple mutexMemory mutexContract g
      (Outside g (holding number kind) (HasEntry view.index number)) (enterSection kind view)
      fun _ s => Owns g (holding number kind) (some (kind, view.index)) s ∧
        HasEntry view.index number s := by
    refine triple_query (stable_outside lasting) ?_ fun _ => stableInside
    rintro s inv ⟨owns, entry⟩
    refine ⟨trivial, fun answer after served => ?_⟩
    simp only [mutexMemory, Option.some.injEq] at served
    obtain rfl := (Prod.mk.inj served).2
    refine ⟨⟨inv.setInside ?_, owns.setInside.1⟩, owns.setInside.2, entry⟩
    intro other index same
    obtain ⟨rfl, rfl⟩ := Prod.mk.inj (Option.some.inj same)
    exact ⟨number, entry, (owns.onlyHolds kind number).mpr ⟨rfl, rfl⟩⟩
  apply enters.bind
  intro _
  refine triple_query stableInside ?_ fun _ => stable_outside lasting
  rintro s inv ⟨owns, entry⟩
  refine ⟨trivial, fun answer after served => ?_⟩
  simp only [mutexMemory, Option.some.injEq] at served
  obtain rfl := (Prod.mk.inj served).2
  refine ⟨⟨inv.setInside ?_, owns.setInside.1⟩, owns.setInside.2, entry⟩
  intro kind index same
  cases same

/-- A section: whatever way the mutex is taken and released, it is the same mutex both times. -/
theorem triple_section {kind : SectionKind} {take release : MutexRef → MutexProgram Unit}
    (view : MutexView)
    (takes : ∀ number, Triple mutexMemory mutexContract g
      (Outside g nothing (HasEntry view.index number)) (take (.entry number))
      fun _ => Outside g (holding number kind) (HasEntry view.index number))
    (releases : ∀ number, Triple mutexMemory mutexContract g
      (Outside g (holding number kind) (HasEntry view.index number)) (release (.entry number))
      fun _ => Outside g nothing (HasEntry view.index number)) :
    Triple mutexMemory mutexContract g (Outside g nothing fun _ => True)
      (((Mutex.callGetOrCreateMutex view.index).bind take).bind fun _ =>
        ((enterSection kind view).bind fun _ => leaveSection).bind fun _ =>
          (Mutex.callGetOrCreateMutex view.index).bind release)
      fun _ => Outside g nothing fun _ => True := by
  have taken : Triple mutexMemory mutexContract g (Outside g nothing fun _ => True)
      ((Mutex.callGetOrCreateMutex view.index).bind take)
      fun _ s => ∃ number, Outside g (holding number kind) (HasEntry view.index number) s := by
    apply (triple_callGetOrCreateMutex (fun _ _ _ => id) rfl).bind
    rintro mutex s inv ⟨number, rfl, owns, _, entry⟩
    exact ((takes number) s inv ⟨owns, entry⟩).weaken fun _ now _ reached => ⟨number, reached⟩
  apply taken.bind
  rintro _ s inv ⟨number, outside⟩
  have rest : Triple mutexMemory mutexContract g
      (Outside g (holding number kind) (HasEntry view.index number))
      (((enterSection kind view).bind fun _ => leaveSection).bind fun _ =>
        (Mutex.callGetOrCreateMutex view.index).bind release)
      fun _ => Outside g nothing fun _ => True := by
    apply (triple_body view).bind
    intro _
    apply (triple_callGetOrCreateMutex (lasting_hasEntry view.index number) rfl).bind
    rintro mutex now invNow ⟨other, rfl, owns, entry, found⟩
    -- the entry is still the one whose mutex was taken
    obtain rfl := Option.some.inj (entry.symm.trans found)
    exact ((releases number) now invNow ⟨owns, entry⟩).weaken fun _ later _ reached =>
      ⟨reached.1, trivial⟩
  exact rest s inv outside

theorem triple_writeBatchWithLock (view : MutexView) :
    Triple mutexMemory mutexContract g (Outside g nothing fun _ => True)
      (writeBatchWithLock view) fun _ => Outside g nothing fun _ => True := by
  apply triple_section view
  · intro number
    exact triple_lock (lasting_hasEntry view.index number) fun _ inv => created_hasEntry inv
  · intro number
    have released := @triple_unlock _ _ g (holding number .batchWrite) (.entry number) _
      (lasting_hasEntry view.index number) (fun _ inv => created_hasEntry inv)
      (Function.update_self _ _ _) fun _ owns => owns.onlyHolds
    rw [holding_released] at released
    exact released

theorem triple_readWithLock (view : MutexView) :
    Triple mutexMemory mutexContract g (Outside g nothing fun _ => True)
      (readWithLock view) fun _ => Outside g nothing fun _ => True := by
  apply triple_section view
  · intro number
    exact triple_rLock (lasting_hasEntry view.index number) (fun _ inv => created_hasEntry inv) rfl
  · intro number
    have released := @triple_rUnlock _ _ g (holding number .proofRead) (.entry number) _
      (lasting_hasEntry view.index number) (fun _ inv => created_hasEntry inv)
      (Function.update_self _ _ _) fun _ owns => owns.onlyHolds
    rw [holding_released] at released
    exact released

/-- A goroutine keeps the contract through all its sections. -/
theorem triple_runSections (sections : List (SectionKind × MutexView)) :
    Triple mutexMemory mutexContract g (Outside g nothing fun _ => True)
      (runSections sections) fun _ => Outside g nothing fun _ => True := by
  induction sections with
  | nil => exact triple_done (stable_outside fun _ _ _ => id) fun _ _ => id
  | cons first sections ih =>
      obtain ⟨kind, view⟩ := first
      cases kind with
      | batchWrite => exact (triple_writeBatchWithLock view).bind fun _ => ih
      | proofRead => exact (triple_readWithLock view).bind fun _ => ih

end Sections

/-! ### Any number of goroutines -/

section Goroutines

/-- All goroutines before their first section. -/
def startSections (sections : Goroutine → List (SectionKind × MutexView)) :
    MutexState Goroutine × (Goroutine → MutexProgram Unit) :=
  (newMutexState, fun g => runSections (sections g))

theorem allSecured_start (sections : Goroutine → List (SectionKind × MutexView)) :
    AllSecured mutexMemory mutexContract (fun g _ => Outside g nothing fun _ => True)
      (startSections sections) := by
  refine ⟨mutexInv_new, fun g => triple_runSections (sections g) _ mutexInv_new ⟨?_, trivial⟩⟩
  apply Owns.mk
  · intro mutex
    exact iff_of_false (Option.some_ne_none g).symm (Option.some_ne_none _).symm
  · intro mutex
    rfl
  · rfl

/-- A query whose demand is met leaves the entries that are there. -/
theorem grows_of_served {g : Goroutine} {s t : MutexState Goroutine} {query : MutexQuery}
    {answer : MutexAnswer query} (demanded : Demands g s query)
    (served : mutexMemory g s query = some (answer, t)) : MutexGrows s t := by
  cases query with
  | setEntry address mutex =>
      obtain rfl := (Prod.mk.inj (Option.some.inj served)).2
      exact ⟨fun _ _ found => lookup_insert_of_fresh demanded.2 found, Nat.le_refl _⟩
  | newMutex =>
      obtain rfl := (Prod.mk.inj (Option.some.inj served)).2
      exact ⟨fun _ _ found => found, Nat.le_succ _⟩
  | getEntry address | returned address mutex | enter kind index | leave =>
      obtain rfl := (Prod.mk.inj (Option.some.inj served)).2
      exact ⟨fun _ _ found => found, Nat.le_refl _⟩
  | rLock mutex | lock mutex =>
      simp only [mutexMemory] at served
      split at served
      · cases served
        exact ⟨fun _ _ found => found, Nat.le_refl _⟩
      · cases served
  | rUnlock mutex | unlock mutex =>
      simp only [mutexMemory] at served
      split at served
      all_goals
        cases served
        exact ⟨fun _ _ found => found, Nat.le_refl _⟩

/-- An entry once created is never replaced. -/
theorem entries_stay {post : Goroutine → Unit → MutexState Goroutine → Prop}
    {before after : MutexState Goroutine × (Goroutine → MutexProgram Unit)}
    (secured : AllSecured mutexMemory mutexContract post before)
    (run : Relation.ReflTransGen (ThreadStep mutexMemory) before after)
    {index : RegistryIndex} {number : Nat} (entry : HasEntry index number before.1) :
    HasEntry index number after.1 := by
  induction run with
  | refl => exact entry
  | tail reached step ih =>
      obtain ⟨g, query, next, answer, asks, served, _⟩ := step
      exact (grows_of_served ((secured.run reached).demands asks) served).entries index number ih

/-- One mutex per registry, for any number of goroutines that go through any sections, in every
interleaving.  The calls of `getOrCreateMutex` that have returned gave the same mutex exactly for
the same registry, and an entry of the map is never replaced.  No goroutine fails: whenever one
unlocks, it unlocks the one mutex of a registry that it holds, in the way it took it.  And a
goroutine in the body of a batch write of a registry is alone in the bodies of that registry. -/
theorem one_mutex_per_registry (sections : Goroutine → List (SectionKind × MutexView))
    {s : MutexState Goroutine} {pool : Goroutine → MutexProgram Unit}
    (run : Relation.ReflTransGen (ThreadStep mutexMemory) (startSections sections) (s, pool)) :
    (∀ first ∈ s.returned, ∀ second ∈ s.returned, first.2 = second.2 ↔ first.1 = second.1) ∧
    (∀ later, Relation.ReflTransGen (ThreadStep mutexMemory) (s, pool) later →
      ∀ index number, s.mutexes.lookup index = some number →
        later.1.mutexes.lookup index = some number) ∧
    (∀ g, (∀ err, pool g ≠ .fail err) ∧
      ∀ query next, pool g = .ask query next → Demands g s query) ∧
    ∀ first second kind index, s.inside first = some (.batchWrite, index) →
      s.inside second = some (kind, index) → first = second := by
  have secured := (allSecured_start sections).run run
  have inv : MutexInv s := secured.1
  refine ⟨?_, ?_, ?_, ?_⟩
  · intro first one second two
    have firstEntry := inv.recorded first one
    have secondEntry := inv.recorded second two
    constructor
    · intro same
      rw [same] at firstEntry
      exact inv.distinct _ _ _ firstEntry secondEntry
    · intro same
      rw [same] at firstEntry
      exact Option.some.inj (firstEntry.symm.trans secondEntry)
  · intro later goesOn index number entry
    exact entries_stay secured goesOn entry
  · intro g
    exact ⟨secured.not_fail g, fun query next asks => secured.demands asks⟩
  · intro first second kind index writes inside
    obtain ⟨number, entry, holds⟩ := inv.guarded first .batchWrite index writes
    obtain ⟨other, otherEntry, otherHolds⟩ := inv.guarded second kind index inside
    obtain rfl := Option.some.inj (entry.symm.trans otherEntry)
    have writer : (s.locks (.entry number)).writer = some first := holds
    cases kind with
    | batchWrite => exact Option.some.inj (writer.symm.trans otherHolds)
    | proofRead =>
        have alone := inv.exclusive (.entry number) (by rw [writer]; exact Option.some_ne_none _)
        rw [MutexState.Holds, alone] at otherHolds
        cases otherHolds

end Goroutines

/-! ### Two creators -/

/-- A batch write and a proof read of registry 7. -/
def twoSections : Bool → List (SectionKind × MutexView)
  | true => [(.batchWrite, ⟨7⟩)]
  | false => [(.proofRead, ⟨7⟩)]

/-- Both find no entry; the reader creates it, and the writer finds it at the re-check. -/
def bothMiss : List Bool :=
  List.flatten [[true, false, true, false, true, false], List.replicate 6 false,
    List.replicate 6 true]

def bothMissed : MutexState Bool × (Bool → MutexProgram Unit) :=
  played (fun _ _ => True) (threadMove mutexMemory) bothMiss (startSections twoSections)

theorem one_mutex_per_registry_bothMissed :
    Relation.ReflTransGen (ThreadStep mutexMemory) (startSections twoSections) bothMissed ∧
      bothMissed.1.returned = [(7, 0), (7, 0)] ∧
      bothMissed.1.inside true = some (.batchWrite, 7) ∧
      ∀ kind, bothMissed.1.inside false ≠ some (kind, 7) := by
  have made : (play (fun _ _ => True) (threadMove mutexMemory) bothMiss
      (startSections twoSections)).isSome = true := by decide
  have run : Relation.ReflTransGen (ThreadStep mutexMemory) (startSections twoSections)
      bothMissed := GuardedRun.steps (run_of_played made fun _ _ _ => threadMove_step)
  have inside : bothMissed.1.inside true = some (.batchWrite, 7) := by decide
  obtain ⟨_, _, _, exclusive⟩ := one_mutex_per_registry twoSections run
  refine ⟨run, by decide, inside, fun kind other => ?_⟩
  cases exclusive true false kind 7 inside other

end MerkleProofService
