/-
Module: MerkleProofService.Storage.Database
Layer: Storage
Purpose: The values every package of the service shares: Go errors, 256-bit integers and their
  bytes, the byte-keyed database with its batches, and the computations that read it.  A read
  is one query to the environment, so that a writer can act between any two reads of the same
  computation.
Imports: Library.Program, Library.BigEndian, Library.KeyValue
Trusted boundary: human-reviewed spec
Main exports: GoError, U256, Address, NoPanic, Database, Batch, iteratePrefix, ReadQuery, Read,
  Read.get, Read.ctxDone, Read.evalOn
-/
import MerkleProofService.Library.Program
import MerkleProofService.Library.BigEndian
import MerkleProofService.Library.KeyValue

namespace MerkleProofService

open Library

/-! ### Errors -/

/-- A Go error value, as far as the code looks into it. -/
inductive GoError where
  /-- `types.ErrNotFound`. -/
  | notFound
  /-- An error that wraps no other. -/
  | message (text : String)
  /-- `fmt.Errorf(text + ": %w", cause)`. -/
  | wrap (text : String) (cause : GoError)
  /-- A run-time panic.  It is not an error value: no `err != nil` branch sees it. -/
  | panic (reason : String)
deriving DecidableEq, Repr

namespace GoError

/-- `errors.Is(err, types.ErrNotFound)`. -/
def isNotFound : GoError → Bool
  | .notFound => true
  | .wrap _ cause => cause.isNotFound
  | .message _ | .panic _ => false

/-- `fmt.Errorf(text + ": %w", err)`; a panic unwinds through the call instead. -/
def wrapf (text : String) : GoError → GoError
  | .panic reason => .panic reason
  | cause => .wrap text cause

end GoError

/-! ### 256-bit integers -/

/-- `uint256.Int`. -/
abbrev U256 := BitVec 256

namespace U256

/-- `Int.Bytes`: the value in big-endian order without leading zeros, empty for zero. -/
def bytes (value : U256) : Bytes :=
  minimalBigEndian 32 value.toNat

/-- `Int.Bytes32`. -/
def bytes32 (value : U256) : Bytes :=
  bigEndian 32 value.toNat

/-- `Int.SetBytes`; of more than 32 bytes the last 32 count. -/
def setBytes (buffer : Bytes) : U256 :=
  BitVec.ofNat 256 (decodeBigEndian buffer)

theorem toNat_lt (value : U256) : value.toNat < 256 ^ 32 := by
  have bound := value.isLt
  omega

/-- What `SetBytes` reads from `Bytes` is the value itself. -/
@[simp] theorem setBytes_bytes (value : U256) : setBytes (bytes value) = value := by
  rw [setBytes, bytes, decodeBigEndian_minimalBigEndian (toNat_lt value)]
  simp

/-- Zero is the one value whose bytes are the empty string. -/
@[simp] theorem bytes_eq_nil (value : U256) : bytes value = [] ↔ value = 0 := by
  rw [bytes, minimalBigEndian_eq_nil (toNat_lt value)]
  constructor
  · intro zero
    exact BitVec.eq_of_toNat_eq (by simpa using zero)
  · rintro rfl
    rfl

theorem bytes32_injective {first second : U256} (same : bytes32 first = bytes32 second) :
    first = second :=
  BitVec.eq_of_toNat_eq (bigEndian_injective (toNat_lt first) (toNat_lt second) same)

end U256

/-! ### Addresses -/

/-- `common.Address`. -/
abbrev Address := BitVec 160

namespace Address

/-- `Address.Bytes`. -/
def bytes (address : Address) : Bytes :=
  bigEndian 20 address.toNat

@[simp] theorem length_bytes (address : Address) : (bytes address).length = 20 :=
  length_bigEndian 20 _

@[simp] theorem bytes_inj {first second : Address} :
    bytes first = bytes second ↔ first = second := by
  constructor
  · intro same
    have fits : ∀ address : Address, address.toNat < 256 ^ 20 := fun address => by
      have bound := address.isLt
      omega
    exact BitVec.eq_of_toNat_eq (bigEndian_injective (fits first) (fits second) same)
  · rintro rfl
    rfl

end Address

/-! ### Outcomes -/

section Outcomes

variable {Failure α β : Type}

@[simp] theorem except_bind_ok (value : α) (rest : α → Except Failure β) :
    (Except.ok value : Except Failure α).bind rest = rest value := rfl

@[simp] theorem except_bind_error (failure : Failure) (rest : α → Except Failure β) :
    (Except.error failure : Except Failure α).bind rest = .error failure := rfl

@[simp] theorem except_mapError_ok {Other : Type} (value : α) (rewrite : Failure → Other) :
    (Except.ok value : Except Failure α).mapError rewrite = .ok value := rfl

/-- A sequence of two steps succeeds only if both do. -/
theorem except_bind_eq_ok {first : Except Failure α} {rest : α → Except Failure β}
    {result : β} :
    first.bind rest = .ok result ↔ ∃ value, first = .ok value ∧ rest value = .ok result := by
  cases first with
  | error failure => simp
  | ok value => simp

theorem except_mapError_eq_ok {Other : Type} {outcome : Except Failure α}
    {rewrite : Failure → Other} {value : α} :
    outcome.mapError rewrite = .ok value ↔ outcome = .ok value := by
  cases outcome with
  | error failure => simp [Except.mapError]
  | ok other => simp

theorem except_map_eq_ok {outcome : Except Failure α} {rewrite : α → β} {result : β} :
    outcome.map rewrite = .ok result ↔ ∃ value, outcome = .ok value ∧ rewrite value = result := by
  cases outcome with
  | error failure => simp [Except.map]
  | ok value => simp [Except.map]

@[simp] theorem except_toOption_mapError {Other : Type} (outcome : Except Failure α)
    (rewrite : Failure → Other) : (outcome.mapError rewrite).toOption = outcome.toOption := by
  cases outcome <;> rfl

theorem except_toOption_bind (first : Except Failure α) (rest : α → Except Failure β) :
    (first.bind rest).toOption = first.toOption.bind fun value => (rest value).toOption := by
  cases first <;> rfl

theorem except_toOption_eq_some {outcome : Except Failure α} {value : α} :
    outcome.toOption = some value ↔ outcome = .ok value := by
  cases outcome with
  | error failure => simp [Except.toOption]
  | ok other => simp [Except.toOption]

end Outcomes

/-- The outcome is a value or an error value, no run-time panic. -/
def NoPanic {α : Type} (outcome : Except GoError α) : Prop :=
  ∀ reason, outcome ≠ .error (.panic reason)

namespace NoPanic

variable {α β : Type} {outcome : Except GoError α}

theorem ok (value : α) : NoPanic (.ok value) := by
  intro reason same
  cases same

theorem bind {rest : α → Except GoError β} (first : NoPanic outcome)
    (second : ∀ value, outcome = .ok value → NoPanic (rest value)) :
    NoPanic (outcome.bind rest) := by
  cases outcome with
  | ok value => exact second value rfl
  | error err =>
      intro reason same
      exact first reason (congrArg Except.error (Except.error.inj same))

/-- Wrapping an error value gives an error value. -/
theorem error_wrapf {err : GoError} (text : String)
    (noPanic : NoPanic (.error err : Except GoError α)) :
    NoPanic (.error (.wrapf text err) : Except GoError β) := by
  intro reason same
  cases err with
  | panic other => exact noPanic other rfl
  | notFound => cases same
  | message text => cases same
  | wrap text cause => cases same

theorem mapError_wrapf (text : String) (noPanic : NoPanic outcome) :
    NoPanic (outcome.mapError (.wrapf text)) := by
  cases outcome with
  | ok value => exact ok value
  | error err => exact noPanic.error_wrapf text

theorem map (rewrite : α → β) (noPanic : NoPanic outcome) : NoPanic (outcome.map rewrite) := by
  intro reason same
  cases outcome with
  | ok value => cases same
  | error err => exact noPanic reason (congrArg Except.error (Except.error.inj same))

end NoPanic

/-! ### The database -/

/-- The key-value database. -/
abbrev Database := Store Bytes Bytes

/-- A database batch: the operations queued so far. -/
abbrev Batch := List (WriteOp Bytes Bytes)

namespace Batch

/-- `db.Batch.Set`; the database refuses the empty key. -/
def set (batch : Batch) (key value : Bytes) : Except GoError Batch :=
  if key = [] then .error (.message "key cannot be empty")
  else .ok (batch ++ [.set key value])

/-- `db.Batch.Delete`. -/
def delete (batch : Batch) (key : Bytes) : Except GoError Batch :=
  if key = [] then .error (.message "key cannot be empty")
  else .ok (batch ++ [.delete key])

end Batch

/-- `db.IteratePrefix`: the entries whose keys begin with the given bytes, in the order of the
keys. -/
def iteratePrefix (database : Database) (start : Bytes) : List (Bytes × Bytes) :=
  ((Store.keysInOrder (· ≤ ·) database).filter fun key => start.isPrefixOf key).map fun key =>
    (key, (database.lookup key).getD [])

/-! ### Key prefixes

All packages share one key space; the first byte of a key tells whose entry it is. -/

/-- `storage.JobKeyPrefix`. -/
def jobKeyPrefix : UInt8 := 0x00

/-- `storage.MerkleTreeLeafKeyPrefix`. -/
def merkleTreeLeafKeyPrefix : UInt8 := 0x01

/-- `storage.MerkleTreeLeafIndexPrefix`. -/
def merkleTreeLeafIndexPrefix : UInt8 := 0x02

/-- `storage.ZKCertificateRegistryKeyPrefix`. -/
def zkCertificateRegistryKeyPrefix : UInt8 := 0x03

/-- `storage.ZKCertificateRegistryIndexPrefix`. -/
def zkCertificateRegistryIndexPrefix : UInt8 := 0x04

/-- `storage.ZKCertificateRegistryCounterPrefix`. -/
def zkCertificateRegistryCounterPrefix : UInt8 := 0x05

/-! ### Reading -/

/-- What a computation that never writes asks of its environment. -/
inductive ReadQuery where
  /-- `database.Get(key)`. -/
  | get (key : Bytes)
  /-- `select { case <-ctx.Done(): ... default: }`. -/
  | ctxDone
deriving DecidableEq

/-- `Get` returns the entry, empty when there is none, or fails; the context is alive or is
done with an error. -/
def ReadAnswer : ReadQuery → Type
  | .get _ => Except GoError Bytes
  | .ctxDone => Option GoError

/-- A computation that reads the database. -/
abbrev Read := Program ReadQuery ReadAnswer GoError

namespace Read

variable {α : Type}

/-- `database.Get(key)`, its error returned as it is. -/
def get (key : Bytes) : Read Bytes :=
  .ask (.get key) fun (answer : Except GoError Bytes) => .ofExcept answer

/-- Leave the function with the context's error once the context is done. -/
def ctxDone : Read Unit :=
  .ask .ctxDone fun (answer : Option GoError) =>
    match answer with
    | none => .done ()
    | some err => .fail err

/-- `if err != nil { return fmt.Errorf(text + ": %w", err) }`. -/
def wrapf (text : String) (computation : Read α) : Read α :=
  computation.mapFail (GoError.wrapf text)

/-- Run a computation and look at the error it returned; a panic is not caught. -/
def tryRun (computation : Read α) : Read (Except GoError α) :=
  computation.attempt.bind fun outcome =>
    match outcome with
    | .error (.panic reason) => .fail (.panic reason)
    | outcome => .done outcome

/-- A database that never fails and a context that is never done. -/
def answersOf (database : Database) : (query : ReadQuery) → ReadAnswer query
  | .get key => .ok ((database.lookup key).getD [])
  | .ctxDone => none

/-- The outcome of a computation that reads one database state throughout. -/
def evalOn (database : Database) (computation : Read α) : Except GoError α :=
  computation.evalWith (answersOf database)

/-- The same run with the database passed along: no query of a reader changes it. -/
def runOn : Database → Read α → Except GoError α × Database
  | database, .done value => (.ok value, database)
  | database, .fail err => (.error err, database)
  | database, .ask query next => runOn database (next (answersOf database query))

/-- A reader leaves the database as it was. -/
theorem runOn_eq (database : Database) (computation : Read α) :
    runOn database computation = (evalOn database computation, database) := by
  induction computation with
  | done value => rfl
  | fail err => rfl
  | ask query next ih => exact ih (answersOf database query)

section Evaluation

variable {β : Type} (database : Database)

@[simp] theorem evalOn_done (value : α) :
    evalOn database (.done value : Read α) = .ok value := rfl

@[simp] theorem evalOn_fail (err : GoError) :
    evalOn database (.fail err : Read α) = .error err := rfl

@[simp] theorem evalOn_get (key : Bytes) :
    evalOn database (get key) = .ok ((database.lookup key).getD []) := rfl

@[simp] theorem evalOn_ctxDone : evalOn database ctxDone = .ok () := rfl

@[simp] theorem evalOn_ofExcept (outcome : Except GoError α) :
    evalOn database (.ofExcept outcome : Read α) = outcome :=
  Program.evalWith_ofExcept _ outcome

@[simp] theorem evalOn_bind (computation : Read α) (rest : α → Read β) :
    evalOn database (computation.bind rest) =
      (evalOn database computation).bind fun value => evalOn database (rest value) :=
  Program.evalWith_bind _ computation rest

@[simp] theorem evalOn_attempt (computation : Read α) :
    evalOn database computation.attempt = .ok (evalOn database computation) :=
  Program.evalWith_attempt _ computation

/-- Looking at an outcome that is no panic. -/
theorem evalOn_tryRun {computation : Read α} {outcome : Except GoError α}
    (evaluated : evalOn database computation = outcome)
    (noPanic : ∀ reason, outcome ≠ .error (.panic reason)) :
    evalOn database computation.tryRun = .ok outcome := by
  simp only [tryRun, evalOn_bind, evalOn_attempt, except_bind_ok, evaluated]
  cases outcome with
  | ok value => rfl
  | error err =>
      cases err with
      | panic reason => exact absurd rfl (noPanic reason)
      | notFound => rfl
      | message text => rfl
      | wrap text cause => rfl

/-- Looking at an error: it is seen, or it is a panic and goes on. -/
theorem evalOn_tryRun_error {computation : Read α} {err : GoError}
    (failed : evalOn database computation = .error err) :
    evalOn database computation.tryRun = .ok (.error err) ∨
      evalOn database computation.tryRun = .error err := by
  cases err with
  | panic reason =>
      right
      simp only [tryRun, evalOn_bind, evalOn_attempt, except_bind_ok, failed]
      rfl
  | notFound => exact Or.inl (evalOn_tryRun database failed (by simp))
  | message text => exact Or.inl (evalOn_tryRun database failed (by simp))
  | wrap text cause => exact Or.inl (evalOn_tryRun database failed (by simp))

@[simp] theorem evalOn_wrapf (text : String) (computation : Read α) :
    evalOn database (wrapf text computation) =
      (evalOn database computation).mapError (GoError.wrapf text) :=
  Program.evalWith_mapFail _ _ computation

end Evaluation

end Read

end MerkleProofService
