/-
Module: MerkleProofService.Application.RunIndexer
Layer: Application
Purpose: The life of the indexer (`RunIndexer` in `pkg/indexer/application.go` with `Wait` of
  `internal/indexer/configurator.go`).  The jobs are started; then `RunIndexer` stands at a select
  between the end of its context and the channel of `Wait`, whose goroutine waits for the jobs of
  the map one after the other; at last the stored jobs are reported.
Imports: Indexer.Configurator
Trusted boundary: human-reviewed spec; IndexerRunStep, the documented behaviour of select, channels
  and error groups
Main exports: Waiter, Waiter.Step, IndexerStage, IndexerRun, IndexerRun.start, mappedJobs,
  contextDone, IndexerRunStep
-/
import MerkleProofService.Indexer.Configurator

namespace MerkleProofService

open Library

/-! ### The goroutine of `Wait` -/

/-- Where the goroutine stands. -/
inductive Waiter where
  /-- At `job.WG.Wait()` of the first of these jobs, or at the end of its loop. -/
  | waits (jobContexts : List Nat)
  /-- At `done <- err`. -/
  | sends (err : GoError) (jobContexts : List Nat)
  /-- It has closed its channel. -/
  | closed
deriving DecidableEq, Repr

/-- The body of the loop after a wait: an error of the group that is not `context.Canceled` is
sent. -/
def Waiter.afterWait (jobContexts : List Nat) : JobOutcome → Waiter
  | .finished | .canceled _ => .waits jobContexts
  | .failed err => .sends (indexError err) jobContexts

/-- A step of the goroutine on its own. -/
inductive Waiter.Step (shared : ConfiguratorState) : Waiter → Waiter → Prop where
  | waited {jobContext : Nat} {jobContexts : List Nat} {outcome : JobOutcome}
      (ended : shared.outcomeOf jobContext = some outcome) :
      Step shared (.waits (jobContext :: jobContexts)) (.afterWait jobContexts outcome)
  | closes : Step shared (.waits []) .closed

/-- What a receive from its channel yields: an error it sends, or nil once the channel is closed. -/
def Waiter.received : Waiter → Option (Option GoError)
  | .waits _ => none
  | .sends err _ => some (some err)
  | .closed => some none

/-! ### `RunIndexer` -/

/-- Where `RunIndexer` stands.  A waiter from which nobody receives any more changes nothing and is
left out. -/
inductive IndexerStage where
  /-- In `InitConfiguratorFromStorage` or `ReloadConfig`. -/
  | starts (program : ConfiguratorProgram Unit)
  /-- The start has failed, and its error is returned. -/
  | notStarted (err : GoError)
  /-- At the select. -/
  | selects (waiter : Waiter)
  /-- At `<-app.configurator.Wait()` of the first case, a second waiter. -/
  | drains (waiter : Waiter)
  /-- At `SelectAllJobs`. -/
  | reports (jobErr : Option GoError)
  | returned (outcome : Except GoError Unit)

/-- `RunIndexer` and what it shares with its jobs. -/
structure IndexerRun where
  shared : ConfiguratorState
  /-- The context of `RunIndexer` is done, and with it those of all jobs. -/
  shutdown : Bool
  stage : IndexerStage

/-- `RunIndexer` is called. -/
def IndexerRun.start (codec : JobCodec) (jobs : List JobDescriptor) (database : Database) :
    IndexerRun where
  shared := ⟨database, ∅, []⟩
  shutdown := false
  stage := .starts (startUp codec jobs)

/-- The jobs of the map `c.jobs`. -/
def ConfiguratorState.mappedJobs (s : ConfiguratorState) : List Nat :=
  s.jobs.entries.map fun entry => entry.2

/-- The context of a job is done. -/
def IndexerRun.contextDone (s : IndexerRun) (jobContext : Nat) : Bool :=
  s.shutdown || (s.shared.instances[jobContext]?.map JobInstance.cancelled).getD false

/-- `return jobErr`, unless the stored jobs could not be read. -/
def reportOutcome (jobErr : Option GoError) : Except GoError (List Job) → Except GoError Unit
  | .error err => .error (.wrapf "select all jobs" err)
  | .ok _ =>
      match jobErr with
      | none => .ok ()
      | some err => .error err

/-- One step of `RunIndexer`, of its waiter, of the jobs, or of the caller's context. -/
inductive IndexerRunStep (codec : JobCodec) : IndexerRun → IndexerRun → Prop where
  -- the start
  | serve {s : IndexerRun} {query : ConfiguratorQuery}
      {next : ConfiguratorAnswer query → ConfiguratorProgram Unit}
      (choice : ConfiguratorChoice query) (stands : s.stage = .starts (.ask query next)) :
      IndexerRunStep codec s
        { s with
          shared := configuratorEnvironment.after s.shared query choice
          stage := .starts (next (configuratorEnvironment.answer s.shared query choice)) }
  | notStarted {s : IndexerRun} {err : GoError} (stands : s.stage = .starts (.fail err)) :
      IndexerRunStep codec s { s with stage := .notStarted err }
  /-- `Wait` is called on entering the select; its goroutine ranges over the map in any order. -/
  | started {s : IndexerRun} (order : List Nat) (stands : s.stage = .starts (.done ()))
      (ranged : order.Perm s.shared.mappedJobs) :
      IndexerRunStep codec s { s with stage := .selects (.waits order) }
  -- the select
  | waiter {s : IndexerRun} {before after : Waiter} (stands : s.stage = .selects before)
      (moved : before.Step s.shared after) :
      IndexerRunStep codec s { s with stage := .selects after }
  | received {s : IndexerRun} {waiter : Waiter} {jobErr : Option GoError}
      (stands : s.stage = .selects waiter) (value : waiter.received = some jobErr) :
      IndexerRunStep codec s { s with stage := .reports jobErr }
  | shutsDown {s : IndexerRun} {waiter : Waiter} (order : List Nat)
      (stands : s.stage = .selects waiter) (done : s.shutdown = true)
      (ranged : order.Perm s.shared.mappedJobs) :
      IndexerRunStep codec s { s with stage := .drains (.waits order) }
  /-- The second waiter. -/
  | drainer {s : IndexerRun} {before after : Waiter} (stands : s.stage = .drains before)
      (moved : before.Step s.shared after) :
      IndexerRunStep codec s { s with stage := .drains after }
  /-- What it sends is dropped. -/
  | drained {s : IndexerRun} {waiter : Waiter} {jobErr : Option GoError}
      (stands : s.stage = .drains waiter) (value : waiter.received = some jobErr) :
      IndexerRunStep codec s { s with stage := .reports none }
  | reported {s : IndexerRun} {jobErr : Option GoError}
      (choices : Nat → (query : ConfiguratorQuery) → ConfiguratorChoice query)
      (stands : s.stage = .reports jobErr) :
      IndexerRunStep codec s
        { s with
          stage := .returned (reportOutcome jobErr
            ((selectAllJobs codec).serve configuratorEnvironment choices s.shared).1) }
  -- the jobs and the caller
  | job {s : IndexerRun} {shared : ConfiguratorState} (acts : JobActs s.shared shared) :
      IndexerRunStep codec s { s with shared := shared }
  | callerCancels {s : IndexerRun} :
      IndexerRunStep codec s { s with shutdown := true }

end MerkleProofService
