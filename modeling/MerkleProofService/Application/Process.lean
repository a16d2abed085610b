/-
Module: MerkleProofService.Application.Process
Layer: Application
Purpose: The process around the application: `Init` and `StartApplication`
  (`pkg/indexer/application.go`) and the loop of the start command
  (`cmd/galacticad-merkle/cmd/indexer/start.go`), which starts the application again whenever it has
  ended.  What the process holds open outlives a start: the handle of the database and the client of
  the node are closed by `StartApplication` once `Init` has succeeded, and by nobody before.
Imports: Application.Configuration, Library.TracedRuns
Trusted boundary: human-reviewed spec; initEnvironment, the node and the database backend
Main exports: InitQuery, Process, initEnvironment, initApplication, Attempt, ProcessStep
-/
import MerkleProofService.Application.Configuration
import MerkleProofService.Library.TracedRuns

namespace MerkleProofService

open Library

/-! ### `Init` -/

/-- What `Init` asks of its environment. -/
inductive InitQuery where
  /-- `ethclient.DialContext`, with its retries. -/
  | dial
  /-- `BlockNumber`. -/
  | blockNumber
  /-- `db.NewDB`. -/
  | newDB
  /-- A query of `configureZkCertificateRegistry`. -/
  | service (query : ServiceQuery)

def InitAnswer : InitQuery → Type
  | .dial | .newDB => Except GoError Unit
  | .blockNumber => Except GoError UInt64
  | .service query => ServiceAnswer query

abbrev InitProgram := Program InitQuery InitAnswer GoError

namespace InitProgram

def dial : InitProgram Unit :=
  .ask .dial fun (answer : Except GoError Unit) => .ofExcept answer

def blockNumber : InitProgram UInt64 :=
  .ask .blockNumber fun (answer : Except GoError UInt64) => .ofExcept answer

def newDB : InitProgram Unit :=
  .ask .newDB fun (answer : Except GoError Unit) => .ofExcept answer

def ofService {α : Type} (program : ServiceProgram α) : InitProgram α :=
  program.liftQuery .service fun _ answer => answer

def wrapf {α : Type} (text : String) (program : InitProgram α) : InitProgram α :=
  program.mapFail (GoError.wrapf text)

end InitProgram

/-- The error of `Init` without jobs. -/
def noJobs : GoError :=
  .message "no jobs to apply, please specify at least one zk certificate registry address"

/-- `Init`, up to the values it stores: the service and the jobs. -/
def initApplication (codec : MetadataCodec) (addressString : Address → String)
    (addresses : List Address) : InitProgram (Service × List JobDescriptor) := do
  InitProgram.wrapf "connect via RPC" InitProgram.dial
  let _ ← InitProgram.wrapf "get latest block" InitProgram.blockNumber
  InitProgram.wrapf "create storage DB" InitProgram.newDB
  let (service, jobs) ← InitProgram.wrapf "configure zk certificate registry"
    (.ofService (configureZkCertificateRegistry codec addressString addresses ⟨fun _ => none⟩ []))
  if jobs.length = 0 then .fail noJobs
  else return (service, jobs)

/-! ### The process -/

/-- The database and what the process holds open. -/
structure Process where
  database : Database
  /-- The values `NewDB` has returned that were not closed. -/
  handles : Nat
  /-- The clients that were not closed. -/
  clients : Nat

/-- What the environment chooses at a query. -/
def InitChoice : InitQuery → Type
  | .dial => Except GoError Unit
  | .blockNumber => Except GoError UInt64
  | .newDB => Option GoError
  | .service query => ServiceChoice query

/-- The error of a backend whose files are locked. -/
def databaseLocked : GoError := .message "resource temporarily unavailable"

/-- What `NewDB` returns: an exclusive backend, such as goleveldb, cannot be opened twice. -/
def newDBAnswer (exclusive : Bool) (handles : Nat) : Option GoError → Except GoError Unit
  | none => if exclusive ∧ 0 < handles then .error databaseLocked else .ok ()
  | some err => .error err

/-- One more is open if the call has succeeded. -/
def openedBy {α : Type} (count : Nat) : Except GoError α → Nat
  | .ok _ => count + 1
  | .error _ => count

def initEnvironment (exclusive : Bool) :
    Environment Process InitQuery InitAnswer InitChoice where
  answer
    | _, .dial, choice => choice
    | _, .blockNumber, choice => choice
    | s, .newDB, choice => newDBAnswer exclusive s.handles choice
    | s, .service query, choice => serviceEnvironment.answer s.database query choice
  after
    | s, .dial, choice => { s with clients := openedBy s.clients choice }
    | s, .blockNumber, _ => s
    | s, .newDB, choice =>
        { s with handles := openedBy s.handles (newDBAnswer exclusive s.handles choice) }
    | s, .service query, choice =>
        { s with database := serviceEnvironment.after s.database query choice }

/-- What a call of `StartApplication` has come to. -/
inductive Attempt where
  /-- It has returned this error. -/
  | failed (err : GoError)
  /-- The application has run, and has ended. -/
  | served
deriving DecidableEq, Repr

/-- One round of the loop of the start command.  A panic would end the process and is no step.
While the application runs, its jobs write to the database; at its end `StartApplication` closes
the handle and the client. -/
inductive ProcessStep (exclusive : Bool) (codec : MetadataCodec)
    (addressString : Address → String) (addresses : List Address) :
    Process → Option Attempt → Process → Prop where
  | fails {s t : Process} {err : GoError}
      (choices : Nat → (query : InitQuery) → InitChoice query)
      (ended : (initApplication codec addressString addresses).serve (initEnvironment exclusive)
        choices s = (.error err, t)) (noPanic : ∀ reason, err ≠ .panic reason) :
      ProcessStep exclusive codec addressString addresses s
        (some (.failed (.wrapf "init application" err))) t
  | serves {s t : Process} {made : Service × List JobDescriptor}
      (choices : Nat → (query : InitQuery) → InitChoice query)
      (ended : (initApplication codec addressString addresses).serve (initEnvironment exclusive)
        choices s = (.ok made, t)) (database : Database) :
      ProcessStep exclusive codec addressString addresses s (some .served)
        ⟨database, t.handles - 1, t.clients - 1⟩

end MerkleProofService
