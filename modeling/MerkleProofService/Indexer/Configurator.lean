/-
Module: MerkleProofService.Indexer.Configurator
Layer: Indexer
Purpose: Starting, stopping and resuming jobs (`internal/indexer/configurator.go` and
  `SelectAllJobs` of `internal/indexer/job_storage.go`).  The functions of the configurator are
  programs over its shared state: the map of jobs, the jobs that have been started, and the
  database.  Jobs run beside them: they commit, and when one returns an error it cancels all others.
Imports: Indexer.JobStorage, Library.ServedPrograms, Mathlib association lists
Trusted boundary: human-reviewed spec
Main exports: JobOutcome, indexError, JobInstance, ConfiguratorQuery, ConfiguratorProgram,
  selectAllJobs, startJob, stopJob, initConfiguratorFromStorage, reloadConfig, startUp,
  ConfiguratorState, configuratorEnvironment, JobActs
-/
import MerkleProofService.Indexer.JobStorage
import MerkleProofService.Library.ServedPrograms
import Mathlib.Data.List.AList

namespace MerkleProofService

open Library

/-! ### Queries -/

/-- How a job ended: `IndexEVMLogs` returned nil, an error that is `context.Canceled`, or another
error. -/
inductive JobOutcome where
  | finished
  | canceled (err : GoError)
  | failed (err : GoError)
deriving DecidableEq, Repr

/-- The error of a job's group: the goroutine of `StartJob` wraps what `IndexEVMLogs` returns. -/
def indexError (err : GoError) : GoError :=
  .wrapf "index EVM logs" err

/-- What the functions of the configurator ask of their environment.  A job context is the number of
the job it belongs to. -/
inductive ConfiguratorQuery where
  | iteratePrefix (start : Bytes)
  | ctxDone
  /-- `jobHandlersProducer.Produce`. -/
  | produce (jobDescriptor : JobDescriptor)
  /-- `jobHandler.FilterQuery()`. -/
  | filterQuery (jobDescriptor : JobDescriptor)
  /-- A new context is stored in `c.jobs`, and `IndexEVMLogs` is started with it. -/
  | launch (jobDescriptor : JobDescriptor) (startBlock : UInt64)
  /-- `_, ok := c.jobs[job]`. -/
  | hasJob (jobDescriptor : JobDescriptor)
  /-- `range c.jobs`. -/
  | rangeJobs
  /-- `jobContext := c.jobs[job]` and `delete(c.jobs, job)`. -/
  | takeJob (jobDescriptor : JobDescriptor)
  /-- `jobContext.CancelFunc()`. -/
  | cancel (jobContext : Nat)
  /-- `jobContext.WG.Wait()`. -/
  | wait (jobContext : Nat)
  | writeSync (batch : Batch)
deriving DecidableEq

def ConfiguratorAnswer : ConfiguratorQuery → Type
  | .iteratePrefix _ => Except GoError (List (Bytes × Bytes))
  | .ctxDone | .produce _ | .filterQuery _ | .writeSync _ => Option GoError
  | .launch _ _ | .cancel _ => Unit
  | .hasJob _ => Bool
  | .rangeJobs => List JobDescriptor
  | .takeJob _ => Option Nat
  | .wait _ => JobOutcome

abbrev ConfiguratorProgram := Program ConfiguratorQuery ConfiguratorAnswer GoError

namespace ConfiguratorProgram

variable {α : Type}

/-- `if err != nil { return fmt.Errorf(text + ": %w", err) }`. -/
def wrapf (text : String) (computation : ConfiguratorProgram α) : ConfiguratorProgram α :=
  computation.mapFail (GoError.wrapf text)

/-- Return the error, if there is one. -/
def check : Option GoError → ConfiguratorProgram Unit
  | none => .done ()
  | some err => .fail err

def ctxDone : ConfiguratorProgram Unit :=
  .ask .ctxDone fun (answer : Option GoError) => check answer

def produce (jobDescriptor : JobDescriptor) : ConfiguratorProgram Unit :=
  .ask (.produce jobDescriptor) fun (answer : Option GoError) => check answer

def filterQuery (jobDescriptor : JobDescriptor) : ConfiguratorProgram Unit :=
  .ask (.filterQuery jobDescriptor) fun (answer : Option GoError) => check answer

def launch (jobDescriptor : JobDescriptor) (startBlock : UInt64) : ConfiguratorProgram Unit :=
  .ask (.launch jobDescriptor startBlock) fun _ => .done ()

def hasJob (jobDescriptor : JobDescriptor) : ConfiguratorProgram Bool :=
  .ask (.hasJob jobDescriptor) fun (found : Bool) => .done found

def rangeJobs : ConfiguratorProgram (List JobDescriptor) :=
  .ask .rangeJobs fun (order : List JobDescriptor) => .done order

def takeJob (jobDescriptor : JobDescriptor) : ConfiguratorProgram (Option Nat) :=
  .ask (.takeJob jobDescriptor) fun (jobContext : Option Nat) => .done jobContext

def cancel (jobContext : Nat) : ConfiguratorProgram Unit :=
  .ask (.cancel jobContext) fun _ => .done ()

def wait (jobContext : Nat) : ConfiguratorProgram JobOutcome :=
  .ask (.wait jobContext) fun (outcome : JobOutcome) => .done outcome

def writeSync (batch : Batch) : ConfiguratorProgram Unit :=
  .ask (.writeSync batch) fun (answer : Option GoError) => check answer

end ConfiguratorProgram

open ConfiguratorProgram

/-! ### The configurator -/

/-- The loop of `SelectAllJobs`. -/
def selectJobs (codec : JobCodec) : List (Bytes × Bytes) → List Job →
    ConfiguratorProgram (List Job)
  | [], jobs => return jobs
  | entry :: entries, jobs => do
      ctxDone
      let job ← .ofExcept ((codec.decode entry.2).mapError (.wrapf "deserialize job"))
      selectJobs codec entries (jobs ++ [job])

/-- `SelectAllJobs`. -/
def selectAllJobs (codec : JobCodec) : ConfiguratorProgram (List Job) :=
  .ask (.iteratePrefix [jobKeyPrefix]) fun (entries : Except GoError (List (Bytes × Bytes))) => do
    selectJobs codec (← .ofExcept entries) []

/-- `StartJob`. -/
def startJob (jobDescriptor : JobDescriptor) (startBlock : UInt64) : ConfiguratorProgram Unit := do
  wrapf "create event handler" (produce jobDescriptor)
  wrapf "get job filter query" (filterQuery jobDescriptor)
  launch jobDescriptor startBlock

/-- The loop of `InitConfiguratorFromStorage`: stored jobs that are active are resumed. -/
def resumeJobs (activeSet : List JobDescriptor) : List Job → ConfiguratorProgram Unit
  | [] => return
  | job :: jobs => do
      if activeSet.contains job.descriptor then
        wrapf "start job" (startJob job.descriptor job.currentBlock)
      resumeJobs activeSet jobs

/-- `InitConfiguratorFromStorage`. -/
def initConfiguratorFromStorage (codec : JobCodec) (activeSet : List JobDescriptor) :
    ConfiguratorProgram Unit := do
  let jobs ← wrapf "select all jobs" (selectAllJobs codec)
  resumeJobs activeSet jobs

/-- `StopJob`.  The context of a job that is not in the map is the zero value, whose `CancelFunc` is
nil. -/
def stopJob (batch : Batch) (jobDescriptor : JobDescriptor) : ConfiguratorProgram Batch := do
  let jobContext ← takeJob jobDescriptor
  let batch ← wrapf "delete job from storage" (.ofExcept (deleteJob batch jobDescriptor))
  match jobContext with
  | none => .fail (.panic "invalid memory address or nil pointer dereference")
  | some jobContext =>
      cancel jobContext
      match ← wait jobContext with
      | .finished | .canceled _ => return batch
      | .failed err => .fail (.wrapf "wait for job" (indexError err))

/-- The first loop of `ReloadConfig`: jobs of the config that are not in the map are started. -/
def startMissing : List JobDescriptor → ConfiguratorProgram Unit
  | [] => return
  | job :: config => do
      if !(← hasJob job) then
        wrapf "start job while reloading config" (startJob job job.startBlock)
      startMissing config

/-- The second loop: jobs of the map that are not in the config are stopped. -/
def stopOthers (config : List JobDescriptor) : List JobDescriptor → Batch →
    ConfiguratorProgram Batch
  | [], batch => return batch
  | job :: jobs, batch => do
      if config.contains job then stopOthers config jobs batch
      else
        let batch ← wrapf "stop job while reloading config" (stopJob batch job)
        stopOthers config jobs batch

/-- `ReloadConfig`. -/
def reloadConfig (config : List JobDescriptor) : ConfiguratorProgram Unit := do
  startMissing config
  let jobs ← rangeJobs
  let batch ← stopOthers config jobs []
  wrapf "write batch to storage" (writeSync batch)

/-- The start of `RunIndexer`. -/
def startUp (codec : JobCodec) (jobs : List JobDescriptor) : ConfiguratorProgram Unit := do
  wrapf "init configurator" (initConfiguratorFromStorage codec jobs)
  wrapf "start job" (reloadConfig jobs)

/-! ### The shared state -/

/-- A job that has been started. -/
structure JobInstance where
  jobDescriptor : JobDescriptor
  startBlock : UInt64
  /-- Its context is cancelled. -/
  cancelled : Bool
  /-- How `IndexEVMLogs` returned, once it has. -/
  outcome : Option JobOutcome
deriving DecidableEq, Repr

/-- The database, the map `c.jobs`, and all jobs started so far; the map holds their numbers. -/
structure ConfiguratorState where
  database : Database
  jobs : AList fun _ : JobDescriptor => Nat
  instances : List JobInstance

namespace ConfiguratorState

/-- A context is cancelled. -/
def cancel (s : ConfiguratorState) (jobContext : Nat) : ConfiguratorState where
  database := s.database
  jobs := s.jobs
  instances := s.instances.modify jobContext fun job => { job with cancelled := true }

/-- `CancelAll`. -/
def cancelAll (s : ConfiguratorState) : ConfiguratorState :=
  s.jobs.entries.foldl (fun s entry => s.cancel entry.2) s

/-- `IndexEVMLogs` of a job returns and its own context is cancelled; if it returns an error, the
contexts of all jobs are. -/
def endJob (s : ConfiguratorState) (jobContext : Nat) (outcome : JobOutcome) :
    ConfiguratorState :=
  let s := match outcome with
    | .finished => s
    | .canceled _ | .failed _ => s.cancelAll
  { s with
    instances := s.instances.modify jobContext fun job =>
      { job with cancelled := true, outcome := some outcome } }

/-- How a job has ended, if it has. -/
def outcomeOf (s : ConfiguratorState) (jobContext : Nat) : Option JobOutcome :=
  s.instances[jobContext]?.bind JobInstance.outcome

/-- A job is started and stored in the map. -/
def launch (s : ConfiguratorState) (jobDescriptor : JobDescriptor) (startBlock : UInt64) :
    ConfiguratorState where
  database := s.database
  jobs := s.jobs.insert jobDescriptor s.instances.length
  instances := s.instances ++ [⟨jobDescriptor, startBlock, false, none⟩]

end ConfiguratorState

/-- What the environment chooses: what fails, the order of the map, and how a job that is waited for
ends. -/
def ConfiguratorChoice : ConfiguratorQuery → Type
  | .iteratePrefix _ | .ctxDone | .produce _ | .filterQuery _ | .writeSync _ => Option GoError
  | .launch _ _ | .cancel _ | .hasJob _ | .takeJob _ => Unit
  | .rangeJobs => List JobDescriptor
  | .wait _ => JobOutcome

/-- The entries, unless the iterator cannot be created. -/
def entriesUnless (entries : List (Bytes × Bytes)) :
    Option GoError → Except GoError (List (Bytes × Bytes))
  | none => .ok entries
  | some err => .error err

/-- The keys in the order the environment chooses. -/
def inChosenOrder (keys order : List JobDescriptor) : List JobDescriptor :=
  if order.Perm keys then order else keys

/-- A wait returns how the job has ended; a job that still runs ends first. -/
def configuratorEnvironment :
    Environment ConfiguratorState ConfiguratorQuery ConfiguratorAnswer ConfiguratorChoice where
  answer
    | s, .iteratePrefix start, choice => entriesUnless (iteratePrefix s.database start) choice
    | _, .ctxDone, choice | _, .produce _, choice | _, .filterQuery _, choice
    | _, .writeSync _, choice => (choice : Option GoError)
    | _, .launch _ _, _ | _, .cancel _, _ => ()
    | s, .hasJob jobDescriptor, _ => (s.jobs.lookup jobDescriptor).isSome
    | s, .rangeJobs, order => inChosenOrder s.jobs.keys order
    | s, .takeJob jobDescriptor, _ => s.jobs.lookup jobDescriptor
    | s, .wait jobContext, outcome => (s.outcomeOf jobContext).getD outcome
  after
    | s, .launch jobDescriptor startBlock, _ => s.launch jobDescriptor startBlock
    | s, .takeJob jobDescriptor, _ => { s with jobs := s.jobs.erase jobDescriptor }
    | s, .cancel jobContext, _ => s.cancel jobContext
    | s, .wait jobContext, outcome =>
        if (s.outcomeOf jobContext).isSome then s else s.endJob jobContext outcome
    | s, .writeSync batch, (choice : Option GoError) =>
        if choice.isNone then { s with database := Store.write s.database batch } else s
    | s, .iteratePrefix _, _ | s, .ctxDone, _ | s, .produce _, _ | s, .filterQuery _, _
    | s, .hasJob _, _ | s, .rangeJobs, _ => s

/-! ### Running jobs -/

/-- A commit of a job: what it queues for its registry is no record of a job, and its own record
comes with it. -/
def CommitsRecord (jobDescriptor : JobDescriptor) (before after : Database) : Prop :=
  ∃ queued record, (∀ other, lastEffect queued (makeJobKey other) = none) ∧
    after = Store.write before (queued ++ [.set (makeJobKey jobDescriptor) record])

/-- What the running jobs do: a job commits, also after its context is cancelled, until it
returns. -/
inductive JobActs : ConfiguratorState → ConfiguratorState → Prop where
  | commits {s : ConfiguratorState} {jobContext : Nat} {job : JobInstance} {database : Database}
      (started : s.instances[jobContext]? = some job) (runs : job.outcome = none)
      (committed : CommitsRecord job.jobDescriptor s.database database) :
      JobActs s { s with database := database }
  | returns {s : ConfiguratorState} {jobContext : Nat} {job : JobInstance}
      (started : s.instances[jobContext]? = some job) (runs : job.outcome = none)
      (outcome : JobOutcome) : JobActs s (s.endJob jobContext outcome)

end MerkleProofService
