/-
Module: MerkleProofService.ZkRegistry.Mutex
Layer: ZkRegistry
Purpose: The mutexes of the registries (`internal/zkregistry/mutex.go`) and the two critical
  sections they guard: the write of a batch (`internal/indexer/ZkCertificateRegistry.go`) and the
  reading of a proof (`internal/zkregistry/zk_certificate_registry.go`).  Goroutines run these as
  programs; each operation on a `sync.RWMutex` and on the map of mutexes is one query to the shared
  memory.
Imports: ZkRegistry.LeafStorage, Library.Threads
Trusted boundary: human-reviewed spec; mutexMemory, the documented behaviour of sync.RWMutex
Main exports: Holders, MutexRef, SectionKind, MutexQuery, MutexProgram, Mutex.getOrCreateMutex,
  MutexView, writeBatchWithLock, readWithLock, runSections, MutexState, mutexMemory
-/
import MerkleProofService.ZkRegistry.LeafStorage
import MerkleProofService.Library.Threads

namespace MerkleProofService

open Library

/-! ### Queries -/

/-- A `sync.RWMutex`: the one that guards the map, or one that was created for a registry, by the
number of its creation. -/
inductive MutexRef where
  | mu
  | entry (number : Nat)
deriving DecidableEq, Repr

/-- What a critical section is for. -/
inductive SectionKind where
  | batchWrite
  | proofRead
deriving DecidableEq, Repr

inductive MutexQuery where
  | rLock (mutex : MutexRef)
  | rUnlock (mutex : MutexRef)
  | lock (mutex : MutexRef)
  | unlock (mutex : MutexRef)
  /-- `mutex, ok := m.mutexes[address]`. -/
  | getEntry (address : RegistryIndex)
  /-- `&sync.RWMutex{}`. -/
  | newMutex
  /-- `m.mutexes[address] = mutex`. -/
  | setEntry (address : RegistryIndex) (mutex : Nat)
  /-- `getOrCreateMutex` has returned; kept for the record. -/
  | returned (address : RegistryIndex) (mutex : Nat)
  /-- The lock is taken, and the body of the section starts; kept for the record. -/
  | enter (kind : SectionKind) (index : RegistryIndex)
  /-- The body has ended, and the deferred unlock starts; kept for the record. -/
  | leave
deriving DecidableEq, Repr

/-- An unlock is answered whether the mutex was held. -/
def MutexAnswer : MutexQuery → Type
  | .rLock _ | .lock _ | .setEntry _ _ | .returned _ _ | .enter _ _ | .leave => Unit
  | .rUnlock _ | .unlock _ => Bool
  | .getEntry _ => Option Nat
  | .newMutex => Nat

abbrev MutexProgram := Program MutexQuery MutexAnswer GoError

/-! ### `sync.RWMutex` -/

namespace RWMutex

def rLock (mutex : MutexRef) : MutexProgram Unit :=
  .ask (.rLock mutex) fun _ => .done ()

def lock (mutex : MutexRef) : MutexProgram Unit :=
  .ask (.lock mutex) fun _ => .done ()

/-- Unlocking what is not locked ends the process. -/
def rUnlock (mutex : MutexRef) : MutexProgram Unit :=
  .ask (.rUnlock mutex) fun (held : Bool) =>
    if held then .done () else .fail (.panic "sync: RUnlock of unlocked RWMutex")

def unlock (mutex : MutexRef) : MutexProgram Unit :=
  .ask (.unlock mutex) fun (held : Bool) =>
    if held then .done () else .fail (.panic "sync: Unlock of unlocked RWMutex")

end RWMutex

/-! ### `Mutex` -/

namespace Mutex

def getEntry (address : RegistryIndex) : MutexProgram (Option Nat) :=
  .ask (.getEntry address) fun (mutex : Option Nat) => .done mutex

def newMutex : MutexProgram Nat :=
  .ask .newMutex fun (mutex : Nat) => .done mutex

def setEntry (address : RegistryIndex) (mutex : Nat) : MutexProgram Unit :=
  .ask (.setEntry address mutex) fun _ => .done ()

/-- The write-locked half of `getOrCreateMutex`; its unlock is deferred. -/
def createMutex (address : RegistryIndex) : MutexProgram Nat := do
  RWMutex.lock .mu
  match ← getEntry address with
  | some mutex =>
      RWMutex.unlock .mu
      return mutex
  | none =>
      let mutex ← newMutex
      setEntry address mutex
      RWMutex.unlock .mu
      return mutex

def getOrCreateMutex (address : RegistryIndex) : MutexProgram Nat := do
  RWMutex.rLock .mu
  let found ← getEntry address
  RWMutex.rUnlock .mu
  match found with
  | some mutex => return mutex
  | none => createMutex address

/-- A call of `getOrCreateMutex`, with the record of what it returned. -/
def callGetOrCreateMutex (address : RegistryIndex) : MutexProgram MutexRef := do
  let mutex ← getOrCreateMutex address
  .ask (.returned address mutex) fun _ => .done (.entry mutex)

def lock (index : RegistryIndex) : MutexProgram Unit := do
  RWMutex.lock (← callGetOrCreateMutex index)

def unlock (index : RegistryIndex) : MutexProgram Unit := do
  RWMutex.unlock (← callGetOrCreateMutex index)

def rLock (index : RegistryIndex) : MutexProgram Unit := do
  RWMutex.rLock (← callGetOrCreateMutex index)

def rUnlock (index : RegistryIndex) : MutexProgram Unit := do
  RWMutex.rUnlock (← callGetOrCreateMutex index)

end Mutex

/-- `MutexView`, all views being of one `Mutex`. -/
structure MutexView where
  index : RegistryIndex
deriving DecidableEq, Repr

namespace MutexView

def lock (view : MutexView) : MutexProgram Unit := Mutex.lock view.index

def unlock (view : MutexView) : MutexProgram Unit := Mutex.unlock view.index

def rLock (view : MutexView) : MutexProgram Unit := Mutex.rLock view.index

def rUnlock (view : MutexView) : MutexProgram Unit := Mutex.rUnlock view.index

end MutexView

/-! ### The critical sections -/

def enterSection (kind : SectionKind) (view : MutexView) : MutexProgram Unit :=
  .ask (.enter kind view.index) fun _ => .done ()

def leaveSection : MutexProgram Unit :=
  .ask .leave fun _ => .done ()

/-- `writeBatchWithLock`.  The body, `batch.WriteSync()`, uses no mutex of a registry; it takes
place between `enterSection` and `leaveSection`. -/
def writeBatchWithLock (view : MutexView) : MutexProgram Unit := do
  view.lock
  enterSection .batchWrite view
  leaveSection
  view.unlock

/-- The read-locked part of `CreateProof` and `GetRandomEmptyLeafProof`.  The body,
`reg.Tree().CreateProof`, takes place between `enterSection` and `leaveSection`. -/
def readWithLock (view : MutexView) : MutexProgram Unit := do
  view.rLock
  enterSection .proofRead view
  leaveSection
  view.rUnlock

def runSection (kind : SectionKind) (view : MutexView) : MutexProgram Unit :=
  match kind with
  | .batchWrite => writeBatchWithLock view
  | .proofRead => readWithLock view

/-- A goroutine that goes through one critical section after the other. -/
def runSections : List (SectionKind × MutexView) → MutexProgram Unit
  | [] => return
  | (kind, view) :: sections => do
      runSection kind view
      runSections sections

/-! ### The memory -/

section Memory

variable {Goroutine : Type}

/-- Who holds a `sync.RWMutex`.  The mutex itself counts its readers and does not know its holders;
here an unlock counts as one of an unlocked mutex unless the goroutine itself holds it. -/
structure Holders (Goroutine : Type) where
  writer : Option Goroutine
  readers : List Goroutine
deriving DecidableEq

/-- The zero value. -/
def Holders.nobody : Holders Goroutine := ⟨none, []⟩

structure MutexState (Goroutine : Type) where
  locks : MutexRef → Holders Goroutine
  /-- `m.mutexes`. -/
  mutexes : Store RegistryIndex Nat
  /-- How many mutexes were created for registries. -/
  created : Nat
  /-- The calls of `getOrCreateMutex` that have returned. -/
  returned : List (RegistryIndex × Nat)
  /-- The section whose body a goroutine is in. -/
  inside : Goroutine → Option (SectionKind × RegistryIndex)

/-- `NewMutex`. -/
def newMutexState : MutexState Goroutine where
  locks _ := .nobody
  mutexes := ∅
  created := 0
  returned := []
  inside _ := none

variable [DecidableEq Goroutine]

def MutexState.setLock (s : MutexState Goroutine) (mutex : MutexRef)
    (holders : Holders Goroutine) : MutexState Goroutine :=
  { s with locks := Function.update s.locks mutex holders }

/-- How the queries of a goroutine are served; a lock that is not free makes it wait. -/
def mutexMemory : SharedMemory Goroutine (MutexState Goroutine) MutexQuery MutexAnswer
  | g, s, .rLock mutex =>
      if (s.locks mutex).writer = none then
        some ((), s.setLock mutex ⟨none, g :: (s.locks mutex).readers⟩)
      else none
  | g, s, .rUnlock mutex =>
      if g ∈ (s.locks mutex).readers then
        some (true, s.setLock mutex ⟨(s.locks mutex).writer, (s.locks mutex).readers.erase g⟩)
      else some (false, s)
  | g, s, .lock mutex =>
      if (s.locks mutex).writer = none ∧ (s.locks mutex).readers = [] then
        some ((), s.setLock mutex ⟨some g, []⟩)
      else none
  | g, s, .unlock mutex =>
      if (s.locks mutex).writer = some g then
        some (true, s.setLock mutex ⟨none, (s.locks mutex).readers⟩)
      else some (false, s)
  | _, s, .getEntry address => some (s.mutexes.lookup address, s)
  | _, s, .newMutex =>
      some (s.created, { s.setLock (.entry s.created) .nobody with created := s.created + 1 })
  | _, s, .setEntry address mutex =>
      some ((), { s with mutexes := s.mutexes.insert address mutex })
  | _, s, .returned address mutex =>
      some ((), { s with returned := s.returned ++ [(address, mutex)] })
  | g, s, .enter kind index =>
      some ((), { s with inside := Function.update s.inside g (some (kind, index)) })
  | g, s, .leave => some ((), { s with inside := Function.update s.inside g none })

end Memory

end MerkleProofService
