/-
Module: MerkleProofService.Indexer.HandlerCalls
Layer: Indexer
Purpose: A call of `IndexEVMLogs` with each call it makes of its `JobHandler`
  (`internal/indexer/indexer.go`), and what the job of a certificate registry does at each of them
  (`internal/indexer/ZkCertificateRegistry.go`, `internal/zkregistry/progress.go`).  The step
  relation adds to the machine of `Indexer.IndexLogs` the inside of `handleLogs`, the notices of
  mode changes and the cancellation of the context.
Imports: Indexer.IndexLogs, Library.TracedRuns
Trusted boundary: human-reviewed spec
Main exports: HandlerCall, HandlerProgram.handleLogs, IndexerCall.modeChange, IndexerState,
  IndexerEvent, IndexerStep, JobState, onIndexerModeChange, JobAccepts
-/
import MerkleProofService.Indexer.IndexLogs
import MerkleProofService.Library.TracedRuns

namespace MerkleProofService

open Library

/-! ### `handleLogs` -/

/-- The calls of the handler that `handleLogs` makes. -/
inductive HandlerCall where
  | prepareContext
  | handleEVMLog (log : EvmLog)
  | commit (progressBlock : UInt64)
deriving DecidableEq, Repr

/-- A computation that calls the handler; each call returns an error or none. -/
abbrev HandlerProgram := Program HandlerCall (fun _ => Option GoError) GoError

namespace HandlerProgram

/-- `if err := call; err != nil { return fmt.Errorf(text + ": %w", err) }`. -/
def call (text : String) (made : HandlerCall) : HandlerProgram Unit :=
  .ask made fun
    | none => .done ()
    | some err => .fail (.wrapf text err)

/-- The loop of `handleLogs`. -/
def handleEach : List EvmLog → HandlerProgram Unit
  | [] => .done ()
  | log :: logs => do
      call "handle event" (.handleEVMLog log)
      handleEach logs

/-- `handleLogs`, for any handler. -/
def handleLogs (logs : List EvmLog) (progressBlock : UInt64) : HandlerProgram Unit := do
  call "prepare context" .prepareContext
  handleEach logs
  call "job commit" (.commit progressBlock)

end HandlerProgram

/-! ### A call of `IndexEVMLogs` -/

/-- The mode a call tells its handler when it goes from one request to the next. -/
def IndexerCall.modeChange : IndexerCall → IndexerCall → Option Mode
  | .getHead _, .filter _ => some .history
  | .handle loop _, .pollHead _ => if !loop.isOnHead then some .poll else none
  | .handleSink _ _ _, .sink _ => none
  | _, .sink _ => some .ws
  | _, _ => none

/-- What a call is doing. -/
inductive Stage where
  /-- It waits for the answer to its request. -/
  | waits
  /-- It is inside `handleLogs`. -/
  | handles (rest : HandlerProgram Unit)
  /-- It is about to call `OnIndexerModeChange`, then makes its request. -/
  | notifies (mode : Mode)

structure IndexerState where
  call : IndexerCall
  stage : Stage

/-- What a call has been answered and which calls of the handler it has made. -/
inductive IndexerEvent where
  /-- `BlockNumber` has returned a head. -/
  | blockNumber (head : UInt64)
  /-- `FilterLogs` has returned the logs of a range. -/
  | filterLogs (fromBlock toBlock : UInt64) (logs : List EvmLog)
  /-- The handler was called and returned no error. -/
  | called (call : HandlerCall)
  /-- The handler was called and returned an error. -/
  | refused (call : HandlerCall) (err : GoError)
  | modeChange (mode : Mode)
deriving DecidableEq, Repr

/-- The call goes on with its next request: the handler runs, is told a mode, or neither. -/
def IndexerCall.goOn (config : Config) (call call' : IndexerCall) : IndexerState where
  call := call'
  stage :=
    match call'.handling config, call.modeChange call' with
    | some (logs, progressBlock), _ => .handles (HandlerProgram.handleLogs logs progressBlock)
    | none, some mode => .notifies mode
    | none, none => .waits

/-- One step of a call, with what it shows.  Any request and any call of the handler may fail, and
the context may be cancelled. -/
inductive IndexerStep (config : Config) :
    IndexerState → Option IndexerEvent → IndexerState → Prop where
  | head {call call' : IndexerCall} (block : UInt64)
      (answered : call.next config (.head block) = some call') :
      IndexerStep config ⟨call, .waits⟩ (some (.blockNumber block)) (call.goOn config call')
  | logs {loop : Loop} {call' : IndexerCall} (logs : List EvmLog)
      (answered : (IndexerCall.filter loop).next config (.logs logs) = some call') :
      IndexerStep config ⟨.filter loop, .waits⟩
        (some (.filterLogs loop.fromBlock (loop.toBlock config) logs))
        ((IndexerCall.filter loop).goOn config call')
  | subscribed {call call' : IndexerCall}
      (answered : call.next config .subscribed = some call') :
      IndexerStep config ⟨call, .waits⟩ none (call.goOn config call')
  | sinkLogs {call call' : IndexerCall} (first : EvmLog) (rest : List EvmLog)
      (answered : call.next config (.sinkLogs first rest) = some call') :
      IndexerStep config ⟨call, .waits⟩ none (call.goOn config call')
  | failure {call call' : IndexerCall} (err : GoError)
      (answered : call.next config (.failure err) = some call') :
      IndexerStep config ⟨call, .waits⟩ none ⟨call', .waits⟩
  | called {call : IndexerCall} {made : HandlerCall}
      {next : Option GoError → HandlerProgram Unit} :
      IndexerStep config ⟨call, .handles (.ask made next)⟩ (some (.called made))
        ⟨call, .handles (next none)⟩
  | refused {call : IndexerCall} {made : HandlerCall}
      {next : Option GoError → HandlerProgram Unit} (err : GoError) :
      IndexerStep config ⟨call, .handles (.ask made next)⟩ (some (.refused made err))
        ⟨call, .handles (next (some err))⟩
  | handled {call call' : IndexerCall} (answered : call.next config .handled = some call') :
      IndexerStep config ⟨call, .handles (.done ())⟩ none (call.goOn config call')
  | notHandled {call call' : IndexerCall} {err : GoError}
      (answered : call.next config (.failure err) = some call') :
      IndexerStep config ⟨call, .handles (.fail err)⟩ none ⟨call', .waits⟩
  | notified {call : IndexerCall} {mode : Mode} :
      IndexerStep config ⟨call, .notifies mode⟩ (some (.modeChange mode)) ⟨call, .waits⟩
  /-- `if sinkCtx.Err() != nil { return context.Cause(sinkCtx) }` after a range. -/
  | cancelledAfterRange {loop : Loop} {logs : List EvmLog} (cause : GoError) :
      IndexerStep config ⟨.handle loop logs, .handles (.done ())⟩ none
        ⟨.returned (.error cause), .waits⟩
  /-- `case <-ctx.Done(): return context.Cause(ctx)` between two polls. -/
  | cancelledPolling {loop : Loop} (cause : GoError) :
      IndexerStep config ⟨.pollHead loop, .waits⟩ none ⟨.returned (.error cause), .waits⟩

/-! ### The job of a certificate registry -/

/-- What the job works on: the database, the operations buffer of its context, and the flag of the
registry's progress tracker. -/
structure JobState where
  database : Database
  operations : OperationsBuffer
  onHead : Bool

/-- `OnIndexerModeChange` on the flag. -/
def onIndexerModeChange (mode : Mode) (onHead : Bool) : Bool :=
  match mode with
  | .ws | .poll => if !onHead then true else onHead
  | .history => if onHead then false else onHead
  | .other _ => onHead

/-- What the job does at an event of the call that runs it.  A call that returns an error leaves the
database as it is, since `Commit` writes its batch last and whole. -/
inductive JobAccepts (poseidon : PoseidonHash) (job : ZkCertificateRegistryJob) :
    JobState → IndexerEvent → JobState → Prop where
  | blockNumber {s : JobState} (head : UInt64) : JobAccepts poseidon job s (.blockNumber head) s
  | filterLogs {s : JobState} (fromBlock toBlock : UInt64) (logs : List EvmLog) :
      JobAccepts poseidon job s (.filterLogs fromBlock toBlock logs) s
  | prepareContext {s : JobState} :
      JobAccepts poseidon job s (.called .prepareContext) { s with operations := [] }
  | handleEVMLog {s : JobState} {log : EvmLog} {operations : OperationsBuffer}
      (handled : job.handleEVMLog s.operations log = .ok operations) :
      JobAccepts poseidon job s (.called (.handleEVMLog log)) { s with operations := operations }
  | commit {s : JobState} {block : UInt64} {batch : Batch}
      (filled : Read.evalOn s.database (job.commitBatch poseidon s.operations block) =
        .ok batch) :
      JobAccepts poseidon job s (.called (.commit block))
        { s with database := Store.write s.database batch }
  | refused {s : JobState} (call : HandlerCall) (err : GoError) :
      JobAccepts poseidon job s (.refused call err) s
  | modeChange {s : JobState} (mode : Mode) :
      JobAccepts poseidon job s (.modeChange mode)
        { s with onHead := onIndexerModeChange mode s.onHead }

end MerkleProofService
