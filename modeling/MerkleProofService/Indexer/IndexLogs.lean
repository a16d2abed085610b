/-
Module: MerkleProofService.Indexer.IndexLogs
Layer: Indexer
Purpose: `IndexEVMLogs` and `runSinkIndexation` (`internal/indexer/indexer.go`) as a state machine.
  A state says what the call asks for next: the head, the logs of a range, the handling of logs, the
  subscription, or logs from the sink.  Block numbers are 64 bits wide and wrap as in the source.
Imports: Indexer.RegistryJob
Trusted boundary: human-reviewed spec
Main exports: Mode, Config, newEVMIndexer, Loop, Loop.toBlock, IndexerCall, Response,
  IndexerCall.next, IndexerCall.handling
-/
import MerkleProofService.Indexer.RegistryJob

namespace MerkleProofService

inductive Mode where
  | poll
  | ws
  | history
  | other (name : String)
deriving DecidableEq, Repr

def Mode.string : Mode → String
  | .poll => "poll"
  | .ws => "ws"
  | .history => "history"
  | .other name => name

/-- `Config`, as far as the indexing of logs depends on it. -/
structure Config where
  maxBlocksDistance : UInt64
  indexerMode : Mode
deriving DecidableEq, Repr

/-- The defaults of `NewEVMIndexer`. -/
def newEVMIndexer (config : Config) : Config where
  maxBlocksDistance :=
    if config.maxBlocksDistance = 0 then 10000 else config.maxBlocksDistance
  indexerMode := if config.indexerMode = .other "" then .poll else config.indexerMode

/-- The variables of the loop of `IndexEVMLogs`. -/
structure Loop where
  fromBlock : UInt64
  currentBlock : UInt64
  subscriptionStarted : Bool
  isOnHead : Bool
deriving DecidableEq, Repr

/-- `min(fromBlock+MaxBlocksDistance-1, currentBlock)`. -/
def Loop.toBlock (config : Config) (loop : Loop) : UInt64 :=
  min (loop.fromBlock + config.maxBlocksDistance - 1) loop.currentBlock

/-- Where a call of `IndexEVMLogs` stands. -/
inductive IndexerCall where
  /-- About to ask for the head for the first time. -/
  | getHead (startBlock : UInt64)
  /-- About to filter the logs of a range. -/
  | filter (loop : Loop)
  /-- About to handle the logs of the range. -/
  | handle (loop : Loop) (logs : List EvmLog)
  /-- About to ask for the head in the polling loop. -/
  | pollHead (loop : Loop)
  /-- About to subscribe inside the loop. -/
  | subscribe (loop : Loop)
  /-- About to ask for the head after the subscription. -/
  | headAfterSubscription (loop : Loop)
  /-- About to subscribe after the loop. -/
  | subscribeLate (loop : Loop)
  /-- About to read from the sink; logs before `fromBlock` are dropped. -/
  | sink (fromBlock : UInt64)
  /-- About to handle logs read from the sink. -/
  | handleSink (fromBlock : UInt64) (first : EvmLog) (rest : List EvmLog)
  | returned (outcome : Except GoError Unit)

/-- What a call can be answered. -/
inductive Response where
  | head (block : UInt64)
  | logs (logs : List EvmLog)
  | handled
  | subscribed
  | sinkLogs (first : EvmLog) (rest : List EvmLog)
  | failure (err : GoError)

namespace IndexerCall

variable (config : Config)

/-- The head of the loop, and what follows it once `fromBlock > currentBlock`. -/
def enter (loop : Loop) : IndexerCall :=
  if loop.fromBlock ≤ loop.currentBlock then .filter loop
  else if config.indexerMode ≠ .ws then .returned (.ok ())
  else if !loop.subscriptionStarted then .subscribeLate loop
  else .sink loop.fromBlock

/-- The first head has arrived. -/
def begin (startBlock head : UInt64) : IndexerCall :=
  if startBlock > head then
    .returned (.error (.message
      s!"start block {startBlock} is greater than the current block {head}"))
  else enter config ⟨startBlock, head, false, false⟩

/-- The rest of a round of the loop, after `handleLogs`. -/
def advance (loop : Loop) : IndexerCall :=
  let loop := { loop with fromBlock := loop.toBlock config + 1 }
  match config.indexerMode with
  | .poll =>
      if loop.fromBlock ≤ loop.currentBlock then enter config loop
      else .pollHead { loop with isOnHead := true }
  | .ws =>
      if !loop.subscriptionStarted ∧
          loop.currentBlock - loop.fromBlock ≤ config.maxBlocksDistance then
        .subscribe loop
      else enter config loop
  | mode => .returned (.error (.message s!"unknown indexer mode: {mode.string}"))

/-- A head has arrived in the polling loop. -/
def polled (loop : Loop) (head : UInt64) : IndexerCall :=
  if head ≥ loop.fromBlock then enter config { loop with currentBlock := head }
  else .pollHead { loop with currentBlock := head }

/-- The error a call returns with when what it asked for fails.  A subscription that cannot be
created cancels the context and the call returns at its next request; here it returns at once. -/
def failed (err : GoError) : IndexerCall → GoError
  | .getHead _ | .pollHead _ | .headAfterSubscription _ =>
      .wrapf "get current block number" err
  | .filter _ => .wrapf "filter logs" err
  | .handle _ _ | .handleSink _ _ _ => .wrapf "handle logs" err
  | .subscribe _ | .subscribeLate _ => .wrapf "create subscription" err
  | .sink _ | .returned _ => err

/-- One step of a call that is answered. -/
def next : IndexerCall → Response → Option IndexerCall
  | .getHead startBlock, .head block => some (begin config startBlock block)
  | .filter loop, .logs logs => some (.handle loop logs)
  | .handle loop _, .handled => some (advance config loop)
  | .pollHead loop, .head block => some (polled config loop block)
  | .subscribe loop, .subscribed =>
      some (.headAfterSubscription { loop with subscriptionStarted := true })
  | .headAfterSubscription loop, .head block =>
      some (enter config { loop with currentBlock := block })
  | .subscribeLate loop, .subscribed => some (.sink loop.fromBlock)
  | .sink fromBlock, .sinkLogs first rest => some (.handleSink fromBlock first rest)
  | .handleSink fromBlock _ _, .handled => some (.sink fromBlock)
  | .returned _, _ => none
  | call, .failure err => some (.returned (.error (failed err call)))
  | _, _ => none

/-- The logs and the block a call is about to pass to `handleLogs`. -/
def handling : IndexerCall → Option (List EvmLog × UInt64)
  | .handle loop logs => some (logs, loop.toBlock config)
  | .handleSink fromBlock first rest =>
      some ((first :: rest).filter fun log => decide (fromBlock ≤ log.blockNumber),
        ((first :: rest).getLast (List.cons_ne_nil _ _)).blockNumber)
  | _ => none

/-- A call whose request fails returns. -/
theorem next_failure {config : Config} {call call' : IndexerCall} {err : GoError}
    (answered : call.next config (.failure err) = some call') :
    ∃ outcome, call' = .returned outcome := by
  cases call with
  | returned outcome => cases answered
  | _ => exact ⟨_, (Option.some.inj answered).symm⟩

end IndexerCall

end MerkleProofService
