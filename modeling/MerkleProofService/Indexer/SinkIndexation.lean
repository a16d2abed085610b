/-
Module: MerkleProofService.Indexer.SinkIndexation
Layer: Indexer
Purpose: The end of `IndexEVMLogs` with its two goroutines (`internal/indexer/indexer.go`): the call
  in `startSubscription`, `runSinkIndexation` and `readUntilEmpty`, and `subscribeToEvents` beside
  it.  They share the channel of logs, the channel that says the subscription has started, and the
  context, which either of them or the caller of the call may end.  A select takes any case that is
  ready, and its default only when none is.
Imports: Indexer.HandlerCalls
Trusted boundary: human-reviewed spec; SinkStep and SinkPanic, the documented behaviour of channels,
  select and contexts
Main exports: contextCanceled, Subscriber, SinkStage, SinkState, SinkState.cancel, logsToProcess,
  progressBlock, SinkStep, SinkPanic
-/
import MerkleProofService.Indexer.HandlerCalls

namespace MerkleProofService

open Library

/-- `context.Canceled`. -/
def contextCanceled : GoError := .message "context canceled"

/-! ### The two goroutines -/

/-- Where `subscribeToEvents` stands. -/
inductive Subscriber where
  /-- About to call `SubscribeFilterLogs`. -/
  | creates
  /-- It has a subscription and is about to close `started`. -/
  | created
  /-- It has none and is about to close `started` and to return. -/
  | refused
  /-- At the select of its loop. -/
  | follows
  | returned
deriving DecidableEq, Repr

/-- Where the call stands. -/
inductive SinkStage where
  /-- `<-started` of `startSubscription`. -/
  | awaitsStart
  /-- About to call `OnIndexerModeChange(ModeWS)`. -/
  | notifies
  /-- At the select of `runSinkIndexation`. -/
  | selects
  /-- A tick has come, and the call asks for the head. -/
  | asksHead
  /-- In `readUntilEmpty`: the log the call woke up for, and the logs read since. -/
  | drains (first : EvmLog) (logs : List EvmLog)
  /-- In `handleLogs`. -/
  | handles (first : EvmLog) (rest : List EvmLog) (program : HandlerProgram Unit)
  | returned (outcome : Except GoError Unit)

/-- What the goroutines share.  `delivered` is history: all logs the subscription has put into the
channel. -/
structure SinkState where
  stage : SinkStage
  subscriber : Subscriber
  /-- The channel `started` is closed. -/
  started : Bool
  /-- The logs in the channel `sink`. -/
  sink : List EvmLog
  /-- The channel `sink` is closed. -/
  closed : Bool
  /-- `context.Cause` of the context, once it is done. -/
  cause : Option GoError
  delivered : List EvmLog

/-- A `CancelCauseFunc`: the first cause stays, and nil stands for `context.Canceled`. -/
def SinkState.cancel (s : SinkState) (cause : Option GoError) : SinkState :=
  { s with cause := s.cause.or (some (cause.getD contextCanceled)) }

/-- `fmt.Errorf("subscribe to new logs: %w", err)`; the error channel may also yield nil. -/
def subscriptionLost : Option GoError → GoError
  | some err => .wrapf "subscribe to new logs" err
  | none => .message "subscribe to new logs: %!w(<nil>)"

/-- The loop that keeps the logs from the start block on. -/
def logsToProcess (fromBlock : UInt64) (logs : List EvmLog) : List EvmLog :=
  logs.filter fun eventLog => decide (fromBlock ≤ eventLog.blockNumber)

/-- `logs[len(logs)-1].BlockNumber`, before any log is dropped. -/
def progressBlock (first : EvmLog) (rest : List EvmLog) : UInt64 :=
  ((first :: rest).getLast (List.cons_ne_nil first rest)).blockNumber

/-- One step of the call, of `subscribeToEvents`, of the subscription that feeds the channel, or of
the caller's context, with what it shows. -/
inductive SinkStep (capacity : Nat) (fromBlock : UInt64) :
    SinkState → Option IndexerEvent → SinkState → Prop where
  -- `startSubscription` and the opening of `runSinkIndexation`
  | started {s : SinkState} (stands : s.stage = .awaitsStart) (ready : s.started = true) :
      SinkStep capacity fromBlock s none { s with stage := .notifies }
  | notified {s : SinkState} (stands : s.stage = .notifies) :
      SinkStep capacity fromBlock s (some (.modeChange .ws)) { s with stage := .selects }
  -- the select of `runSinkIndexation`
  | done {s : SinkState} {cause : GoError} (stands : s.stage = .selects)
      (isDone : s.cause = some cause) :
      SinkStep capacity fromBlock s none { s with stage := .returned (.error cause) }
  | tick {s : SinkState} (stands : s.stage = .selects) :
      SinkStep capacity fromBlock s none { s with stage := .asksHead }
  | receive {s : SinkState} {first : EvmLog} {rest : List EvmLog} (stands : s.stage = .selects)
      (ready : s.sink = first :: rest) :
      SinkStep capacity fromBlock s none { s with stage := .drains first [], sink := rest }
  | receiveClosed {s : SinkState} (stands : s.stage = .selects) (empty : s.sink = [])
      (isClosed : s.closed = true) :
      SinkStep capacity fromBlock s none { s with stage := .returned (.ok ()) }
  -- the case of a tick
  | headReported {s : SinkState} (stands : s.stage = .asksHead) :
      SinkStep capacity fromBlock s none { s with stage := .selects }
  | headFailed {s : SinkState} (err : GoError) (stands : s.stage = .asksHead) :
      SinkStep capacity fromBlock s none
        { s with stage := .returned (.error (.wrapf "get current block number" err)) }
  -- the select of `readUntilEmpty`
  | drainDone {s : SinkState} {first : EvmLog} {logs : List EvmLog} {cause : GoError}
      (stands : s.stage = .drains first logs) (isDone : s.cause = some cause) :
      SinkStep capacity fromBlock s none
        { s with stage := .returned (.error (.wrapf "read until empty" cause)) }
  | drainMore {s : SinkState} {first next : EvmLog} {logs rest : List EvmLog}
      (stands : s.stage = .drains first logs) (ready : s.sink = next :: rest) :
      SinkStep capacity fromBlock s none
        { s with stage := .drains first (logs ++ [next]), sink := rest }
  | drainClosed {s : SinkState} {first : EvmLog} {logs : List EvmLog}
      (stands : s.stage = .drains first logs) (empty : s.sink = []) (isClosed : s.closed = true) :
      SinkStep capacity fromBlock s none
        { s with stage := .handles first logs (HandlerProgram.handleLogs
            (logsToProcess fromBlock (first :: logs)) (progressBlock first logs)) }
  | drainEmpty {s : SinkState} {first : EvmLog} {logs : List EvmLog}
      (stands : s.stage = .drains first logs) (empty : s.sink = []) (isOpen : s.closed = false)
      (alive : s.cause = none) :
      SinkStep capacity fromBlock s none
        { s with stage := .handles first logs (HandlerProgram.handleLogs
            (logsToProcess fromBlock (first :: logs)) (progressBlock first logs)) }
  -- `handleLogs`
  | called {s : SinkState} {first : EvmLog} {rest : List EvmLog} {made : HandlerCall}
      {next : Option GoError → HandlerProgram Unit}
      (stands : s.stage = .handles first rest (.ask made next)) :
      SinkStep capacity fromBlock s (some (.called made))
        { s with stage := .handles first rest (next none) }
  | refused {s : SinkState} {first : EvmLog} {rest : List EvmLog} {made : HandlerCall}
      {next : Option GoError → HandlerProgram Unit} (err : GoError)
      (stands : s.stage = .handles first rest (.ask made next)) :
      SinkStep capacity fromBlock s (some (.refused made err))
        { s with stage := .handles first rest (next (some err)) }
  | handled {s : SinkState} {first : EvmLog} {rest : List EvmLog}
      (stands : s.stage = .handles first rest (.done ())) :
      SinkStep capacity fromBlock s none { s with stage := .selects }
  | notHandled {s : SinkState} {first : EvmLog} {rest : List EvmLog} {err : GoError}
      (stands : s.stage = .handles first rest (.fail err)) :
      SinkStep capacity fromBlock s none
        { s with stage := .returned (.error (.wrapf "handle logs" err)) }
  /-- `defer close(sink)` of `IndexEVMLogs`. -/
  | closes {s : SinkState} {outcome : Except GoError Unit}
      (stands : s.stage = .returned outcome) :
      SinkStep capacity fromBlock s none { s with closed := true }
  -- `subscribeToEvents`, whose deferred `cancel(nil)` comes with its return
  | subscribes {s : SinkState} (stands : s.subscriber = .creates) :
      SinkStep capacity fromBlock s none { s with subscriber := .created }
  | cannotSubscribe {s : SinkState} (err : GoError) (stands : s.subscriber = .creates) :
      SinkStep capacity fromBlock s none
        { s.cancel (some (.wrapf "create subscription" err)) with subscriber := .refused }
  | closesStarted {s : SinkState} (stands : s.subscriber = .created) :
      SinkStep capacity fromBlock s none { s with subscriber := .follows, started := true }
  | closesRefused {s : SinkState} (stands : s.subscriber = .refused) :
      SinkStep capacity fromBlock s none
        { s.cancel none with subscriber := .returned, started := true }
  | subscriberDone {s : SinkState} {cause : GoError} (stands : s.subscriber = .follows)
      (isDone : s.cause = some cause) :
      SinkStep capacity fromBlock s none { s.cancel none with subscriber := .returned }
  | subscriptionFails {s : SinkState} (err : Option GoError) (stands : s.subscriber = .follows) :
      SinkStep capacity fromBlock s none
        { s.cancel (some (subscriptionLost err)) with subscriber := .returned }
  -- the subscription and the caller
  | deliver {s : SinkState} (log : EvmLog)
      (subscribed : s.subscriber = .created ∨ s.subscriber = .follows)
      (room : s.sink.length < capacity) (isOpen : s.closed = false) :
      SinkStep capacity fromBlock s none
        { s with sink := s.sink ++ [log], delivered := s.delivered ++ [log] }
  | callerCancels {s : SinkState} (cause : GoError) :
      SinkStep capacity fromBlock s none (s.cancel (some cause))

/-- How the process can end from a state, with what it prints: the subscription sends the next log
and the channel is closed, whether there is room in it or not. -/
inductive SinkPanic : SinkState → GoError → Prop where
  | deliverClosed {s : SinkState} (log : EvmLog)
      (subscribed : s.subscriber = .created ∨ s.subscriber = .follows)
      (isClosed : s.closed = true) : SinkPanic s (.panic "send on closed channel")

end MerkleProofService
