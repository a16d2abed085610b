/-
Module: MerkleProofService.Proofs.IndexFailures
Layer: Proofs
Purpose: What `ApplyAddressToIndex` does when reads or its write fail.  Each of its three reads asks
  for one entry, and only the outcome of the first lookup, "no error" or not, decides whether an
  index is given.  An address that has an index gets another one exactly if both lookups of it fail
  while the counter is read and the batch is written.
Imports: Proofs.IndexAssignment, ZkRegistry.Initialization
Trusted boundary: none
Main exports: ReadsEntry, ReadsEntry.tryRun_eq, faultChoices, served_applyAddressToIndex,
  KeepsIndex, keeps_index_iff
-/
import MerkleProofService.Proofs.IndexAssignment
import MerkleProofService.ZkRegistry.Initialization

namespace MerkleProofService

open Library
open ServiceProgram

/-! ### Computations that read one entry -/

/-- The computation reads one entry and decodes it. -/
def ReadsEntry {α : Type} (key : Bytes) (decode : Bytes → Except GoError α) (read : Read α) :
    Prop :=
  read = (Read.get key).bind fun entry => .ofExcept (decode entry)

/-- The index an entry holds. -/
def indexOfEntry : Bytes → Except GoError RegistryIndex
  | [] => .error .notFound
  | index :: _ => .ok index

/-- The index after the one a counter holds. -/
def nextOfCounter : Bytes → RegistryIndex
  | [] => 0
  | counter :: _ => counter + 1

theorem readsEntry_findRegistryIndex (address : Address) :
    ReadsEntry (makeRegistryIndexKey address) indexOfEntry (findRegistryIndex address) := by
  rw [ReadsEntry, findRegistryIndex, Program.bind_eq]
  congr 1
  funext entry
  cases entry <;> rfl

theorem readsEntry_getNextRegistryIndex :
    ReadsEntry makeRegistryIndexCounterKey (fun entry => .ok (nextOfCounter entry))
      getNextRegistryIndex := by
  rw [ReadsEntry, getNextRegistryIndex, Program.bind_eq]
  congr 1
  funext entry
  cases entry <;> rfl

theorem indexOfEntry_noPanic (entry : Bytes) : NoPanic (indexOfEntry entry) := by
  intro reason same
  cases entry <;> cases same

/-- What is made of the answer to the query. -/
def decodeAnswer {α : Type} (decode : Bytes → Except GoError α) (answer : Except GoError Bytes) :
    Except GoError α :=
  answer.bind decode

/-- Go on with an outcome unless it is a panic. -/
def resume {α β : Type} (rest : Except GoError α → ServiceProgram β) :
    Except GoError α → ServiceProgram β
  | .error (.panic reason) => .fail (.panic reason)
  | outcome => rest outcome

section Entries

variable {α β : Type} {key : Bytes} {decode : Bytes → Except GoError α} {read : Read α}

theorem resume_of_noPanic {outcome : Except GoError α} (calm : NoPanic outcome)
    (rest : Except GoError α → ServiceProgram β) : resume rest outcome = rest outcome := by
  cases outcome with
  | ok value => rfl
  | error err =>
      cases err with
      | panic reason => exact absurd rfl (calm reason)
      | notFound => rfl
      | message text => rfl
      | wrap text cause => rfl

/-- Looking at the outcome of such a computation is one query. -/
theorem ReadsEntry.tryRun_eq (reads : ReadsEntry key decode read) :
    ofRead read.tryRun =
      .ask (.read (.get key)) fun answer => resume .done (decodeAnswer decode answer) := by
  subst reads
  simp only [Read.get, Program.bind, Read.tryRun, Program.attempt, ofRead, Program.liftQuery]
  congr 1
  funext answer
  cases answer with
  | error err => cases err <;> rfl
  | ok entry =>
      simp only [decodeAnswer, Program.ofExcept, Program.bind, except_bind_ok]
      cases decode entry with
      | ok value => rfl
      | error err => cases err <;> rfl

/-- So is the computation itself. -/
theorem ReadsEntry.ofRead_eq (reads : ReadsEntry key decode read) :
    ofRead read =
      .ask (.read (.get key)) fun answer => .ofExcept (decodeAnswer decode answer) := by
  subst reads
  simp only [Read.get, Program.bind, ofRead, Program.liftQuery]
  congr 1
  funext answer
  cases answer with
  | error err => rfl
  | ok entry =>
      simp only [decodeAnswer, Program.ofExcept, Program.bind, except_bind_ok]
      cases decode entry with
      | ok value => rfl
      | error err => rfl

/-- Looking an entry up in a database. -/
theorem ReadsEntry.evalOn_eq (reads : ReadsEntry key decode read) (database : Database) :
    Read.evalOn database read = decode ((database.lookup key).getD []) := by
  subst reads
  rw [Read.evalOn_bind, Read.evalOn_get, except_bind_ok, Read.evalOn_ofExcept]

end Entries

/-- What `setIndex` makes of its own lookup: any error of it counts as no index. -/
def setIndexAfter (addressString : Address → String) (batch : Batch) (address : Address)
    (index : RegistryIndex) : Except GoError RegistryIndex → Except GoError Batch
  | .ok _ => .error (.message ("address index already set for address " ++ addressString address))
  | .error (.panic reason) => .error (.panic reason)
  | .error _ => batch.set (makeRegistryIndexKey address) [index]

theorem ofRead_setIndex (addressString : Address → String) (batch : Batch) (address : Address)
    (index : RegistryIndex) :
    ofRead (setIndex addressString batch address index) =
      .ask (.read (.get (makeRegistryIndexKey address))) fun answer =>
        .ofExcept (setIndexAfter addressString batch address index
          (decodeAnswer indexOfEntry answer)) := by
  have shape := readsEntry_findRegistryIndex address
  rw [ReadsEntry] at shape
  rw [setIndex, shape]
  simp only [Read.get, Program.bind_eq, Program.bind, Read.tryRun, Program.attempt, ofRead,
    Program.liftQuery]
  congr 1
  funext answer
  cases answer with
  | error err => cases err <;> rfl
  | ok entry => cases entry <;> rfl

theorem ServiceProgram.ofRead_wrapf {α : Type} (text : String) (computation : Read α) :
    ofRead (Read.wrapf text computation) = wrapf text (ofRead computation) :=
  Program.liftQuery_mapFail _ _ _ computation

theorem ServiceProgram.ofRead_bind {α β : Type} (computation : Read α) (rest : α → Read β) :
    ofRead (computation.bind rest) = (ofRead computation).bind fun value => ofRead (rest value) :=
  Program.liftQuery_bind _ _ computation rest

/-- The call with its write is the call up to it, and the write of a batch that is not empty. -/
theorem applyAddressToIndexSync_eq (addressString : Address → String) (address : Address) :
    applyAddressToIndexSync addressString address =
      (ofRead (applyAddressToIndex addressString address)).bind fun applied =>
        if applied.2 = [] then .done applied.1
        else (wrapf "write batch" (writeSync applied.2)).bind fun _ => .done applied.1 := by
  simp only [applyAddressToIndexSync, applyAddressToIndex, Program.bind_eq, ofRead_bind,
    Program.bind_assoc]
  congr 1
  funext outcome
  cases outcome with
  | ok index => rfl
  | error err =>
      simp only [ofRead_bind, Program.bind_assoc]
      congr 1
      funext index
      congr 1
      funext batch
      have nonempty : batch ++ [.set makeRegistryIndexCounterKey [index]] ≠ [] := by simp
      have counted : setIndexCounter batch index =
          .ok (batch ++ [.set makeRegistryIndexCounterKey [index]]) := rfl
      rw [counted]
      exact (if_neg nonempty).symm

/-! ### Failing calls -/

/-- The choices of a database of which the query number `number` fails if `faults` has an error for
it, and of a contract that answers every call the same way each time. -/
def faultChoices (faults : Nat → Option DatabaseError)
    (contract : Address → (call : ContractCall) → Except GoError (ContractValue call)) :
    Nat → (query : ServiceQuery) → ServiceChoice query
  | number, .read (.get _) => faults number
  | _, .read .ctxDone => (none : Option GoError)
  | number, .writeSync _ => faults number
  | _, .contract address call => contract address call

section Serve

variable {α : Type} (faults : Nat → Option DatabaseError)
variable (contract : Address → (call : ContractCall) → Except GoError (ContractValue call))
variable (database : Database)

theorem faultChoices_succ : (fun number => faultChoices faults contract (number + 1)) =
    faultChoices (fun number => faults (number + 1)) contract := by
  funext number query
  cases query with
  | read query => cases query <;> rfl
  | writeSync batch => rfl
  | contract address call => rfl

theorem serve_get (key : Bytes)
    (next : ServiceAnswer (.read (.get key)) → ServiceProgram α) :
    Program.serve serviceEnvironment (faultChoices faults contract) database
        (.ask (.read (.get key)) next) =
      Program.serve serviceEnvironment (faultChoices (fun number => faults (number + 1)) contract)
        database (next (getAnswer database key (faults 0))) := by
  rw [← faultChoices_succ]
  rfl

theorem serve_writeSync (batch : Batch)
    (next : ServiceAnswer (.writeSync batch) → ServiceProgram α) :
    Program.serve serviceEnvironment (faultChoices faults contract) database
        (.ask (.writeSync batch) next) =
      Program.serve serviceEnvironment (faultChoices (fun number => faults (number + 1)) contract)
        (writtenUnless database batch (faults 0)) (next (writeAnswer (faults 0))) := by
  rw [← faultChoices_succ]
  rfl

end Serve

theorem DatabaseError.noPanicOutcome {α : Type} (failed : DatabaseError) :
    NoPanic (.error failed.err : Except GoError α) := by
  intro reason same
  exact failed.noPanic reason (Except.error.inj same)

/-- Any error of the lookup makes `setIndex` go on. -/
theorem setIndexAfter_failed (addressString : Address → String) (batch : Batch) (address : Address)
    (index : RegistryIndex) (failed : DatabaseError) :
    setIndexAfter addressString batch address index (.error failed.err) =
      batch.set (makeRegistryIndexKey address) [index] := by
  cases same : failed.err with
  | panic reason => exact absurd same (failed.noPanic reason)
  | notFound => rfl
  | message text => rfl
  | wrap text cause => rfl

section Faults

variable {addressString : Address → String} {database : Database} {address : Address}
variable {index : RegistryIndex} {faults : Nat → Option DatabaseError}
variable {contract : Address → (call : ContractCall) → Except GoError (ContractValue call)}

/-- The four queries of a call for an address that has an index. -/
theorem served_applyAddressToIndex
    (found : Read.evalOn database (findRegistryIndex address) = .ok index) :
    Program.serve serviceEnvironment (faultChoices faults contract) database
        (applyAddressToIndexSync addressString address) =
      match faults 0, faults 1, faults 2, faults 3 with
      | none, _, _, _ => (.ok index, database)
      | some _, some failed, _, _ =>
          (.error (.wrapf "get next address index" failed.err), database)
      | some _, none, none, _ =>
          (.error (.wrap "set address to index"
            (.message ("address index already set for address " ++ addressString address))),
            database)
      | some _, none, some _, some failed => (.error (.wrapf "write batch" failed.err), database)
      | some _, none, some _, none =>
          let next := nextOfCounter ((database.lookup makeRegistryIndexCounterKey).getD [])
          (.ok next, Store.write database [.set (makeRegistryIndexKey address) [next],
            .set makeRegistryIndexCounterKey [next]]) := by
  have read : decodeAnswer indexOfEntry
      (getAnswer database (makeRegistryIndexKey address) none) = .ok index := by
    rw [readsEntry_findRegistryIndex address, Read.evalOn_bind, Read.evalOn_get, except_bind_ok,
      Read.evalOn_ofExcept] at found
    exact found
  rw [applyAddressToIndexSync, Program.bind_eq,
    (readsEntry_findRegistryIndex address).tryRun_eq]
  simp only [Program.bind]
  rw [serve_get]
  cases faults 0 with
  | none =>
      rw [read]
      rfl
  | some failed =>
      have lost : NoPanic (decodeAnswer indexOfEntry
          (getAnswer database (makeRegistryIndexKey address) (some failed))) :=
        failed.noPanicOutcome
      rw [resume_of_noPanic lost]
      simp only [getAnswer, decodeAnswer, except_bind_error]
      rw [Program.bind_eq, ofRead_wrapf, readsEntry_getNextRegistryIndex.ofRead_eq]
      simp only [wrapf, Program.mapFail, Program.bind]
      rw [serve_get]
      cases faults 1 with
      | some failed => rfl
      | none =>
          change Program.serve serviceEnvironment _ database (Program.bind (ofRead (Read.wrapf _
            (setIndex addressString [] address (nextOfCounter
              ((database.lookup makeRegistryIndexCounterKey).getD []))))) _) = _
          rw [ofRead_wrapf, ofRead_setIndex]
          simp only [wrapf, Program.mapFail, Program.bind]
          rw [serve_get]
          cases faults 2 with
          | none =>
              rw [read]
              rfl
          | some failed =>
              have lost : decodeAnswer indexOfEntry
                  (getAnswer database (makeRegistryIndexKey address) (some failed)) =
                    .error failed.err := rfl
              rw [lost, setIndexAfter_failed, Batch.set,
                if_neg (makeRegistryIndexKey_ne_nil address)]
              -- both entries are queued, and the write decides
              change Program.serve serviceEnvironment _ database (.ask (.writeSync _) _) = _
              rw [serve_writeSync]
              cases faults 3 with
              | none => rfl
              | some failed => rfl

end Faults

/-! ### Which failures give another index -/

/-- The index of every address and the counter are the same. -/
structure SameIndexes (before after : Database) : Prop where
  entries : ∀ address, after.lookup (makeRegistryIndexKey address) =
    before.lookup (makeRegistryIndexKey address)
  counter : after.lookup makeRegistryIndexCounterKey = before.lookup makeRegistryIndexCounterKey

/-- The call returns the index of the address or an error, and changes no index and no counter. -/
def KeepsIndex (addressString : Address → String) (faults : Nat → Option DatabaseError)
    (contract : Address → (call : ContractCall) → Except GoError (ContractValue call))
    (database : Database) (address : Address) (index : RegistryIndex) : Prop :=
  let served := Program.serve serviceEnvironment (faultChoices faults contract) database
    (applyAddressToIndexSync addressString address)
  (served.1 = .ok index ∨ ∃ err, served.1 = .error err) ∧ SameIndexes database served.2

/-- Both lookups of the address fail; the counter is read and the batch is written. -/
def BothLookupsFail (faults : Nat → Option DatabaseError) : Prop :=
  (faults 0).isSome ∧ faults 1 = none ∧ (faults 2).isSome ∧ faults 3 = none

/-- A counter is never the index after itself. -/
theorem nextOfCounter_ne (entry : Option Bytes) :
    some [nextOfCounter (entry.getD [])] ≠ entry := by
  rintro same
  rcases entry with _ | _ | ⟨counter, rest⟩
  · cases same
  · cases same
  · obtain ⟨equal, _⟩ := List.cons.inj (Option.some.inj same)
    have numbers := congrArg UInt8.toNat equal
    have small := counter.toNat_lt
    simp only [Option.getD_some, nextOfCounter, UInt8.toNat_add, UInt8.toNat_one] at numbers
    omega

/-- A call for an address that has an index keeps it under every pattern of failures but one. -/
theorem keeps_index_iff (addressString : Address → String) (faults : Nat → Option DatabaseError)
    (contract : Address → (call : ContractCall) → Except GoError (ContractValue call))
    {database : Database} {address : Address} {index : RegistryIndex}
    (found : Read.evalOn database (findRegistryIndex address) = .ok index) :
    KeepsIndex addressString faults contract database address index ↔
      ¬ BothLookupsFail faults := by
  unfold KeepsIndex BothLookupsFail
  rw [served_applyAddressToIndex found]
  have unchanged : SameIndexes database database := ⟨fun _ => rfl, rfl⟩
  cases faults 0 with
  | none => simp [unchanged]
  | some failed =>
      cases faults 1 with
      | some failed => simp [unchanged]
      | none =>
          cases faults 2 with
          | none => simp [unchanged]
          | some failed =>
              cases faults 3 with
              | some failed => simp [unchanged]
              | none =>
                  refine iff_of_false ?_ (by simp)
                  rintro ⟨_, same⟩
                  have counter := same.counter
                  rw [Store.lookup_write] at counter
                  simp only [lastEffect, WriteOp.key, WriteOp.left, if_true,
                    Option.or_some] at counter
                  exact nextOfCounter_ne _ counter

/-- An error of the database. -/
def ioError : DatabaseError where
  err := .message "input/output error"
  noPanic := by simp
  foreign := rfl

/-- A database in which address 1 has index 0. -/
def indexedDatabase : Database :=
  Store.write ∅ [.set (makeRegistryIndexKey 1) [0], .set makeRegistryIndexCounterKey [0]]

/-- One lookup fails: the second one finds the index, and the call returns an error. -/
theorem keeps_index_iff_oneLookup :
    Read.evalOn indexedDatabase (findRegistryIndex 1) = .ok 0 ∧
      KeepsIndex (fun _ => "") (fun number => if number = 0 then some ioError else none)
        (fun _ _ => .error .notFound) indexedDatabase 1 0 :=
  ⟨by decide, (keeps_index_iff _ _ _ (by decide)).mpr fun fails => by
    obtain ⟨_, _, third, _⟩ := fails
    cases third⟩

/-- Both lookups fail: address 1 gets index 1, and the tree it had under index 0 is detached. -/
theorem failed_lookups_reassign_index :
    ∃ database, Read.evalOn indexedDatabase (findRegistryIndex 1) = .ok 0 ∧
      Program.serve serviceEnvironment
        (faultChoices (fun number => if number % 2 = 0 then some ioError else none)
          fun _ _ => .error .notFound) indexedDatabase (applyAddressToIndexSync (fun _ => "") 1) =
        (.ok 1, database) ∧
      Read.evalOn database (findRegistryIndex 1) = .ok 1 :=
  ⟨_, by decide, rfl, by decide⟩

end MerkleProofService
