/-
Module: MerkleProofService.Proofs.MutexContract
Layer: Proofs
Purpose: The contract of the goroutines that share the mutexes of the registries.  The map of
  mutexes only grows, a goroutine keeps what it holds, and the map does not change under a goroutine
  that has it write-locked.  The locks have their rules under this contract.
Imports: ZkRegistry.Mutex
Trusted boundary: none
Main exports: MutexInv, MutexRely, MutexState.OnlyHolds, Demands, mutexContract, Owns, Outside,
  triple_lock, triple_rLock, triple_unlock, triple_rUnlock
-/
import MerkleProofService.ZkRegistry.Mutex

namespace MerkleProofService

open Library

variable {Goroutine : Type}

/-! ### The contract -/

/-- The goroutine holds the mutex, for writing or for reading. -/
def MutexState.Holds (s : MutexState Goroutine) (g : Goroutine) :
    SectionKind → MutexRef → Prop
  | .batchWrite, mutex => (s.locks mutex).writer = some g
  | .proofRead, mutex => g ∈ (s.locks mutex).readers

/-- Of all mutexes of registries, the goroutine holds this one alone. -/
def MutexState.OnlyHolds (s : MutexState Goroutine) (g : Goroutine) (kind : SectionKind)
    (number : Nat) : Prop :=
  ∀ other otherNumber, s.Holds g other (.entry otherNumber) ↔
    other = kind ∧ otherNumber = number

structure MutexInv (s : MutexState Goroutine) : Prop where
  /-- A writer excludes readers. -/
  exclusive : ∀ mutex, (s.locks mutex).writer ≠ none → (s.locks mutex).readers = []
  /-- Nobody holds a mutex that was not created. -/
  unused : ∀ number, s.created ≤ number → s.locks (.entry number) = .nobody
  known : ∀ index number, s.mutexes.lookup index = some number → number < s.created
  distinct : ∀ first second number, s.mutexes.lookup first = some number →
    s.mutexes.lookup second = some number → first = second
  /-- What was returned is still the entry. -/
  recorded : ∀ call ∈ s.returned, s.mutexes.lookup call.1 = some call.2
  /-- In the body of a section, the goroutine holds the mutex of the registry. -/
  guarded : ∀ g kind index, s.inside g = some (kind, index) →
    ∃ number, s.mutexes.lookup index = some number ∧ s.Holds g kind (.entry number)

@[simp] theorem setLock_locks_self (s : MutexState Goroutine) (mutex : MutexRef)
    (holders : Holders Goroutine) : (s.setLock mutex holders).locks mutex = holders :=
  Function.update_self _ _ _

theorem setLock_locks_of_ne (s : MutexState Goroutine) {mutex ref : MutexRef}
    (different : ref ≠ mutex) (holders : Holders Goroutine) :
    (s.setLock mutex holders).locks ref = s.locks ref :=
  Function.update_of_ne different _ _

/-- The map and the mutexes created only grow. -/
structure MutexGrows (s t : MutexState Goroutine) : Prop where
  entries : ∀ index number, s.mutexes.lookup index = some number →
    t.mutexes.lookup index = some number
  created : s.created ≤ t.created

/-- What stays true while the map and the mutexes created grow. -/
def Lasting (kept : MutexState Goroutine → Prop) : Prop :=
  ∀ s t, MutexGrows s t → kept s → kept t

/-- The mutex exists. -/
def Created (mutex : MutexRef) (s : MutexState Goroutine) : Prop :=
  ∀ number, mutex = .entry number → number < s.created

theorem created_mu {s : MutexState Goroutine} : Created .mu s :=
  fun _ same => by cases same

theorem mutexInv_new : MutexInv (newMutexState : MutexState Goroutine) :=
  ⟨fun _ some => absurd rfl some, fun _ _ => rfl, fun _ _ found => (by cases found),
    fun _ _ _ found => (by cases found), fun _ member => (by cases member),
    fun _ _ _ inside => (by cases inside)⟩

variable [DecidableEq Goroutine]

/-- What a goroutine sees of the others: it keeps what it holds and its place, and the map does not
change while the goroutine has it write-locked. -/
structure MutexRely (g : Goroutine) (s t : MutexState Goroutine) : Prop where
  grows : MutexGrows s t
  writer : ∀ mutex, (t.locks mutex).writer = some g ↔ (s.locks mutex).writer = some g
  readers : ∀ mutex, (t.locks mutex).readers.count g = (s.locks mutex).readers.count g
  still : (s.locks .mu).writer = some g → t.mutexes = s.mutexes
  inside : t.inside g = s.inside g

/-- What has to hold when a goroutine makes a query.  It unlocks what it holds, and of the mutexes
of registries that is one only; it reads the map under a lock of it; and it adds an entry under the
write lock and where there is none. -/
def Demands (g : Goroutine) (s : MutexState Goroutine) : MutexQuery → Prop
  | .unlock .mu => s.Holds g .batchWrite .mu
  | .rUnlock .mu => s.Holds g .proofRead .mu
  | .unlock (.entry number) => s.OnlyHolds g .batchWrite number
  | .rUnlock (.entry number) => s.OnlyHolds g .proofRead number
  | .getEntry _ => ∃ kind, s.Holds g kind .mu
  | .setEntry address _ => s.Holds g .batchWrite .mu ∧ s.mutexes.lookup address = none
  | .rLock _ | .lock _ | .newMutex | .returned _ _ | .enter _ _ | .leave => True

def mutexContract : ThreadContract Goroutine (MutexState Goroutine) MutexQuery where
  inv := MutexInv
  rely := MutexRely
  demands := Demands
  refl _ _ := ⟨⟨fun _ _ => id, Nat.le_refl _⟩, fun _ => Iff.rfl, fun _ => rfl, fun _ => rfl, rfl⟩
  trans := by
    intro g s t u first second
    apply MutexRely.mk
    · exact ⟨fun index number found =>
        second.grows.entries _ _ (first.grows.entries index number found),
        Nat.le_trans first.grows.created second.grows.created⟩
    · exact fun mutex => (second.writer mutex).trans (first.writer mutex)
    · exact fun mutex => (second.readers mutex).trans (first.readers mutex)
    · intro locked
      exact (second.still ((first.writer .mu).mpr locked)).trans (first.still locked)
    · exact second.inside.trans first.inside

section Frames

variable {g : Goroutine} {s t : MutexState Goroutine}

theorem MutexRely.holds (rely : MutexRely g s t) (kind : SectionKind) (mutex : MutexRef) :
    t.Holds g kind mutex ↔ s.Holds g kind mutex := by
  cases kind with
  | batchWrite => exact rely.writer mutex
  | proofRead =>
      rw [MutexState.Holds, MutexState.Holds, ← List.count_pos_iff, ← List.count_pos_iff,
        rely.readers]

/-- What a goroutine does to the holders of a mutex: nothing to the others, and a writer excludes
readers afterwards. -/
structure Passes (g : Goroutine) (old new : Holders Goroutine) : Prop where
  exclusive : new.writer ≠ none → new.readers = []
  writer : ∀ other, other ≠ g → (new.writer = some other ↔ old.writer = some other)
  readers : ∀ other, other ≠ g → new.readers.count other = old.readers.count other

theorem MutexRely.setLock {other : Goroutine} (different : other ≠ g) {mutex : MutexRef}
    {holders : Holders Goroutine} (passes : Passes g (s.locks mutex) holders) :
    MutexRely other s (s.setLock mutex holders) := by
  apply MutexRely.mk
  · exact ⟨fun _ _ found => found, Nat.le_refl _⟩
  · intro ref
    by_cases same : ref = mutex
    · subst same
      rw [setLock_locks_self]
      exact passes.writer other different
    · rw [setLock_locks_of_ne s same]
  · intro ref
    by_cases same : ref = mutex
    · subst same
      rw [setLock_locks_self]
      exact passes.readers other different
    · rw [setLock_locks_of_ne s same]
  · exact fun _ => rfl
  · rfl

/-- Outside the body of a section, a goroutine that changes the holders of a created mutex keeps the
invariant. -/
theorem MutexInv.setLock (inv : MutexInv s) (outside : s.inside g = none) {mutex : MutexRef}
    (used : ∀ number, mutex = .entry number → number < s.created) {holders : Holders Goroutine}
    (passes : Passes g (s.locks mutex) holders) : MutexInv (s.setLock mutex holders) := by
  apply MutexInv.mk
  · intro ref
    by_cases same : ref = mutex
    · subst same
      rw [setLock_locks_self]
      exact passes.exclusive
    · rw [setLock_locks_of_ne s same]
      exact inv.exclusive ref
  · intro number beyond
    have different : MutexRef.entry number ≠ mutex := fun same =>
      absurd (used number same.symm) (Nat.not_lt.mpr beyond)
    rw [setLock_locks_of_ne s different]
    exact inv.unused number beyond
  · exact inv.known
  · exact inv.distinct
  · exact inv.recorded
  · intro other kind index inside
    have different : other ≠ g := by
      rintro rfl
      cases outside.symm.trans inside
    obtain ⟨number, found, holds⟩ := inv.guarded other kind index inside
    exact ⟨number, found, ((MutexRely.setLock different passes).holds kind _).mpr holds⟩

end Frames

/-! ### What a goroutine holds -/

section Owning

variable {g : Goroutine} {held : MutexRef → Option SectionKind}
variable {place : Option (SectionKind × RegistryIndex)} {s t : MutexState Goroutine}

/-- The goroutine holds what `held` says and nothing else, and is in the body of `place`. -/
structure Owns (g : Goroutine) (held : MutexRef → Option SectionKind)
    (place : Option (SectionKind × RegistryIndex)) (s : MutexState Goroutine) : Prop where
  writer : ∀ mutex, (s.locks mutex).writer = some g ↔ held mutex = some .batchWrite
  readers : ∀ mutex, (s.locks mutex).readers.count g =
    if held mutex = some .proofRead then 1 else 0
  inside : s.inside g = place

theorem Owns.holds_iff (owns : Owns g held place s) (kind : SectionKind) (mutex : MutexRef) :
    s.Holds g kind mutex ↔ held mutex = some kind := by
  cases kind with
  | batchWrite => exact owns.writer mutex
  | proofRead =>
      rw [MutexState.Holds, ← List.count_pos_iff, owns.readers]
      by_cases reads : held mutex = some .proofRead <;> simp [reads]

theorem Owns.rely (owns : Owns g held place s) (rely : MutexRely g s t) :
    Owns g held place t :=
  ⟨fun mutex => (rely.writer mutex).trans (owns.writer mutex),
    fun mutex => (rely.readers mutex).trans (owns.readers mutex), rely.inside.trans owns.inside⟩

/-- A change of the goroutine's own at one mutex. -/
theorem Owns.setLock (owns : Owns g held place s) {mutex : MutexRef}
    {holders : Holders Goroutine} {now : Option SectionKind}
    (writer : holders.writer = some g ↔ now = some .batchWrite)
    (readers : holders.readers.count g = if now = some .proofRead then 1 else 0) :
    Owns g (Function.update held mutex now) place (s.setLock mutex holders) := by
  apply Owns.mk
  · intro ref
    by_cases same : ref = mutex
    · subst same
      rw [setLock_locks_self, Function.update_self]
      exact writer
    · rw [setLock_locks_of_ne s same, Function.update_of_ne same]
      exact owns.writer ref
  · intro ref
    by_cases same : ref = mutex
    · subst same
      rw [setLock_locks_self, Function.update_self]
      exact readers
    · rw [setLock_locks_of_ne s same, Function.update_of_ne same]
      exact owns.readers ref
  · exact owns.inside

end Owning

/-! ### The locks -/

section Locks

variable {g : Goroutine} {held : MutexRef → Option SectionKind} {mutex : MutexRef}
variable {kept : MutexState Goroutine → Prop}

/-- The goroutine is in no body, holds what `held` says, and knows something that lasts. -/
def Outside (g : Goroutine) (held : MutexRef → Option SectionKind)
    (kept : MutexState Goroutine → Prop) (s : MutexState Goroutine) : Prop :=
  Owns g held none s ∧ kept s

theorem stable_outside (lasting : Lasting kept) :
    Stable mutexContract g (Outside g held kept) :=
  fun s t _ rely outside =>
    ⟨outside.1.rely rely, lasting s t rely.grows outside.2⟩

/-- Changing the holders of a mutex: what has to be shown of the change, for all queries that do
so. -/
theorem Outside.setLock {s : MutexState Goroutine} (inv : MutexInv s)
    (outside : Outside g held kept s) (lasting : Lasting kept) (created : Created mutex s)
    {holders : Holders Goroutine} {now : Option SectionKind}
    (passes : Passes g (s.locks mutex) holders)
    (writer : holders.writer = some g ↔ now = some .batchWrite)
    (readers : holders.readers.count g = if now = some .proofRead then 1 else 0) :
    (MutexInv (s.setLock mutex holders) ∧
        ∀ other, other ≠ g → MutexRely other s (s.setLock mutex holders)) ∧
      Outside g (Function.update held mutex now) kept (s.setLock mutex holders) :=
  ⟨⟨inv.setLock outside.1.inside created passes, fun _ different => .setLock different passes⟩,
    outside.1.setLock writer readers,
    lasting s _ ⟨fun _ _ found => found, Nat.le_refl _⟩ outside.2⟩

/-- After an unlock of what was held. -/
theorem triple_ended (was : Bool) {after : MutexState Goroutine → Prop}
    (stable : Stable mutexContract g after) (err : GoError) :
    Triple mutexMemory mutexContract g (fun s => was = true ∧ after s)
      (if was then .done () else .fail err : MutexProgram Unit) fun _ => after := by
  cases was with
  | false =>
      rintro s _ ⟨held, _⟩
      cases held
  | true =>
      intro s inv ⟨_, reached⟩ now invNow rely
      exact stable s now invNow rely reached

section Rules

variable (lasting : Lasting kept)
variable (created : ∀ s : MutexState Goroutine, MutexInv s → kept s → Created mutex s)

include lasting created

theorem triple_lock :
    Triple mutexMemory mutexContract g (Outside g held kept) (RWMutex.lock mutex)
      fun _ => Outside g (Function.update held mutex (some .batchWrite)) kept := by
  refine triple_query (stable_outside lasting) ?_ fun _ => stable_outside lasting
  intro s inv outside
  refine ⟨trivial, fun answer after served => ?_⟩
  by_cases free : (s.locks mutex).writer = none ∧ (s.locks mutex).readers = []
  · simp only [mutexMemory, if_pos free, Option.some.injEq] at served
    obtain rfl := (Prod.mk.inj served).2
    apply outside.setLock inv lasting (created s inv outside.2)
    · refine ⟨fun _ => rfl, fun other different => ?_, fun other _ => ?_⟩
      · rw [free.1]
        simp [Ne.symm different]
      · rw [free.2]
    · simp
    · simp
  · simp only [mutexMemory, if_neg free] at served
    cases served

theorem triple_rLock (fresh : held mutex = none) :
    Triple mutexMemory mutexContract g (Outside g held kept) (RWMutex.rLock mutex)
      fun _ => Outside g (Function.update held mutex (some .proofRead)) kept := by
  refine triple_query (stable_outside lasting) ?_ fun _ => stable_outside lasting
  intro s inv outside
  refine ⟨trivial, fun answer after served => ?_⟩
  by_cases free : (s.locks mutex).writer = none
  · simp only [mutexMemory, if_pos free, Option.some.injEq] at served
    obtain rfl := (Prod.mk.inj served).2
    have notYet := outside.1.readers mutex
    rw [fresh] at notYet
    apply outside.setLock inv lasting (created s inv outside.2)
    · refine ⟨fun some => absurd rfl some, fun other _ => ?_, fun other different => ?_⟩
      · rw [free]
      · exact List.count_cons_of_ne (Ne.symm different)
    · simp
    · simpa using notYet
  · simp only [mutexMemory, if_neg free] at served
    cases served

/-- Unlocking what is held for writing. -/
theorem triple_unlock (holds : held mutex = some .batchWrite)
    (demanded : ∀ s : MutexState Goroutine, Owns g held none s → Demands g s (.unlock mutex)) :
    Triple mutexMemory mutexContract g (Outside g held kept) (RWMutex.unlock mutex)
      fun _ => Outside g (Function.update held mutex none) kept := by
  have serves : Serves mutexMemory mutexContract g (Outside g held kept) (.unlock mutex)
      fun (was : Bool) s => was = true ∧ Outside g (Function.update held mutex none) kept s := by
    intro s inv outside
    refine ⟨demanded s outside.1, fun answer after served => ?_⟩
    have own : (s.locks mutex).writer = some g := (outside.1.writer mutex).mpr holds
    have noReaders : (s.locks mutex).readers = [] :=
      inv.exclusive mutex (by rw [own]; exact Option.some_ne_none g)
    simp only [mutexMemory, if_pos own, Option.some.injEq] at served
    obtain ⟨rfl, rfl⟩ := Prod.mk.inj served
    have passes : Passes g (s.locks mutex) ⟨none, (s.locks mutex).readers⟩ := by
      refine ⟨fun some => absurd rfl some, fun other different => ?_, fun _ _ => rfl⟩
      rw [own]
      simp [Ne.symm different]
    have writer : (none : Option Goroutine) = some g ↔ (none : Option SectionKind) =
        some .batchWrite := by simp
    obtain ⟨kept', outside'⟩ := outside.setLock inv lasting (created s inv outside.2) passes
      writer (by simp [noReaders])
    exact ⟨kept', rfl, outside'⟩
  exact triple_ask (stable_outside lasting) serves fun was =>
    triple_ended was (stable_outside lasting) _

/-- Unlocking what is held for reading. -/
theorem triple_rUnlock (holds : held mutex = some .proofRead)
    (demanded : ∀ s : MutexState Goroutine, Owns g held none s → Demands g s (.rUnlock mutex)) :
    Triple mutexMemory mutexContract g (Outside g held kept) (RWMutex.rUnlock mutex)
      fun _ => Outside g (Function.update held mutex none) kept := by
  have serves : Serves mutexMemory mutexContract g (Outside g held kept) (.rUnlock mutex)
      fun (was : Bool) s => was = true ∧ Outside g (Function.update held mutex none) kept s := by
    intro s inv outside
    refine ⟨demanded s outside.1, fun answer after served => ?_⟩
    have once := outside.1.readers mutex
    rw [if_pos holds] at once
    have own : g ∈ (s.locks mutex).readers := by
      rw [← List.count_pos_iff, once]
      exact Nat.one_pos
    have noWriter : (s.locks mutex).writer = none := by
      by_contra some
      rw [inv.exclusive mutex some] at own
      cases own
    simp only [mutexMemory, if_pos own, Option.some.injEq] at served
    obtain ⟨rfl, rfl⟩ := Prod.mk.inj served
    have passes : Passes g (s.locks mutex)
        ⟨(s.locks mutex).writer, (s.locks mutex).readers.erase g⟩ := by
      refine ⟨fun some => absurd noWriter some, fun _ _ => Iff.rfl, fun other different => ?_⟩
      exact List.count_erase_of_ne different
    have writer : (s.locks mutex).writer = some g ↔ (none : Option SectionKind) =
        some .batchWrite := by simp [noWriter]
    obtain ⟨kept', outside'⟩ := outside.setLock inv lasting (created s inv outside.2) passes
      writer (by simp [List.count_erase_self, once])
    exact ⟨kept', rfl, outside'⟩
  exact triple_ask (stable_outside lasting) serves fun was =>
    triple_ended was (stable_outside lasting) _

end Rules

end Locks

end MerkleProofService
