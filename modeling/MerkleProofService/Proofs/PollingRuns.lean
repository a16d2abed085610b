/-
Module: MerkleProofService.Proofs.PollingRuns
Layer: Proofs
Purpose: The ranges and the calls of the handler of a polling `IndexEVMLogs` call.  In poll mode the
  call is a small machine (`Polling`), which the step relation of the indexer refines; along its
  runs the ranges follow each other without gap or overlap up to the reported heads, and each is
  handled whole and committed once before the next.
Imports: Indexer.HandlerCalls, Library.GuardedRuns, Proofs.ChainLogs
Trusted boundary: none
Main exports: rangeCalls, acceptsAll_rangeCalls_iff, Polling, PollStep, poll_step, demanded,
  callsMade, RightAt, poll_covers_every_block_once
-/
import MerkleProofService.Indexer.HandlerCalls
import MerkleProofService.Library.GuardedRuns
import MerkleProofService.Proofs.ChainLogs

namespace MerkleProofService

open Library

/-! ### The calls of `handleLogs` -/

/-- The calls `handleLogs` makes of the handler if none of them fails. -/
def rangeCalls (logs : List EvmLog) (progressBlock : UInt64) : List HandlerCall :=
  .prepareContext :: (logs.map .handleEVMLog ++ [.commit progressBlock])

/-- The text an error of the call is wrapped in. -/
def HandlerCall.text : HandlerCall → String
  | .prepareContext => "prepare context"
  | .handleEVMLog _ => "handle event"
  | .commit _ => "job commit"

namespace HandlerProgram

/-- Calls in a row, up to the first one that fails. -/
def callAll : List HandlerCall → HandlerProgram Unit
  | [] => .done ()
  | made :: rest => (call made.text made).bind fun _ => callAll rest

theorem callAll_append (first second : List HandlerCall) :
    callAll (first ++ second) = (callAll first).bind fun _ => callAll second := by
  induction first with
  | nil => rfl
  | cons made rest ih =>
      simp only [List.cons_append, callAll, ih, Program.bind_assoc]

theorem handleEach_eq (logs : List EvmLog) :
    handleEach logs = callAll (logs.map .handleEVMLog) := by
  induction logs with
  | nil => rfl
  | cons log logs ih =>
      rw [handleEach, ih]
      rfl

/-- `handleLogs` makes its calls in a row. -/
theorem handleLogs_eq (logs : List EvmLog) (progressBlock : UInt64) :
    handleLogs logs progressBlock = callAll (rangeCalls logs progressBlock) := by
  have last : callAll [.commit progressBlock] = call "job commit" (.commit progressBlock) := by
    simp only [callAll, call, Program.bind]
    congr 1
    funext answer
    cases answer <;> rfl
  rw [handleLogs, handleEach_eq, rangeCalls, callAll, callAll_append, last]
  rfl

end HandlerProgram

open HandlerProgram

/-! ### The calls of a range and `handleLogs` of the job -/

/-- The job accepts calls in a row. -/
inductive AcceptsAll (poseidon : PoseidonHash) (job : ZkCertificateRegistryJob) :
    JobState → List HandlerCall → JobState → Prop where
  | nil {s : JobState} : AcceptsAll poseidon job s [] s
  | cons {s middle t : JobState} {made : HandlerCall} {rest : List HandlerCall}
      (first : JobAccepts poseidon job s (.called made) middle)
      (others : AcceptsAll poseidon job middle rest t) :
      AcceptsAll poseidon job s (made :: rest) t

section Accepted

variable {poseidon : PoseidonHash} {job : ZkCertificateRegistryJob} {s t : JobState}
variable {logs : List EvmLog} {progressBlock : UInt64}

/-- The logs of a range are turned into operations, and the batch of these is written. -/
theorem acceptsAll_logs_commit :
    AcceptsAll poseidon job s (logs.map .handleEVMLog ++ [.commit progressBlock]) t ↔
      ∃ operations batch, job.handleAll logs s.operations = .ok operations ∧
        Read.evalOn s.database (job.commitBatch poseidon operations progressBlock) = .ok batch ∧
        t = ⟨Store.write s.database batch, operations, s.onHead⟩ := by
  induction logs generalizing s with
  | nil =>
      constructor
      · rintro (_ | ⟨first, rest⟩)
        cases rest
        cases first with
        | commit filled => exact ⟨s.operations, _, rfl, filled, rfl⟩
      · rintro ⟨operations, batch, handled, filled, rfl⟩
        obtain rfl : s.operations = operations := Except.ok.inj handled
        exact .cons (.commit filled) .nil
  | cons log logs ih =>
      constructor
      · rintro (_ | ⟨first, rest⟩)
        cases first with
        | handleEVMLog handled =>
            obtain ⟨operations, batch, all, filled, rfl⟩ := ih.mp rest
            refine ⟨operations, batch, ?_, filled, rfl⟩
            rw [ZkCertificateRegistryJob.handleAll, handled, except_mapError_ok, except_bind_ok]
            exact all
      · rintro ⟨operations, batch, handled, filled, rfl⟩
        rw [ZkCertificateRegistryJob.handleAll, except_bind_eq_ok] at handled
        obtain ⟨middle, first, all⟩ := handled
        exact .cons (.handleEVMLog (except_mapError_eq_ok.mp first))
          (ih.mpr ⟨operations, batch, all, filled, rfl⟩)

/-- The calls of a range do to the database what `handleLogs` of the job with its write does. -/
theorem acceptsAll_rangeCalls_iff {database : Database} :
    (∃ t, AcceptsAll poseidon job s (rangeCalls logs progressBlock) t ∧ t.database = database) ↔
      ∃ batch, Read.evalOn s.database (job.handleLogs poseidon logs progressBlock) = .ok batch ∧
        database = Store.write s.database batch := by
  simp only [ZkCertificateRegistryJob.handleLogs, Program.bind_eq, Read.evalOn_bind,
    Read.evalOn_ofExcept, Read.evalOn_wrapf, except_bind_eq_ok, except_mapError_eq_ok]
  constructor
  · rintro ⟨t, _ | ⟨first, rest⟩, rfl⟩
    cases first with
    | prepareContext =>
        obtain ⟨operations, batch, handled, filled, rfl⟩ := acceptsAll_logs_commit.mp rest
        exact ⟨batch, ⟨operations, handled, filled⟩, rfl⟩
  · rintro ⟨batch, ⟨operations, handled, filled⟩, rfl⟩
    exact ⟨_, .cons .prepareContext
      (acceptsAll_logs_commit.mpr ⟨operations, batch, handled, filled, rfl⟩), rfl⟩

end Accepted

/-! ### The polling machine -/

/-- Where a polling call stands.  A call that has a notice to give its handler gives it before its
request; it returns with errors only. -/
inductive Polling where
  | getHead (startBlock : UInt64)
  | filter (loop : Loop) (notice : Option Mode)
  /-- Inside `handleLogs`, with the calls that are left. -/
  | handle (loop : Loop) (logs : List EvmLog) (rest : List HandlerCall)
  | refused (loop : Loop) (logs : List EvmLog) (err : GoError)
  | pollHead (loop : Loop) (notice : Option Mode)
  | returned (err : GoError)

/-- The stage of a call with a notice. -/
def noticeStage : Option Mode → Stage
  | none => .waits
  | some mode => .notifies mode

def Polling.state : Polling → IndexerState
  | .getHead startBlock => ⟨.getHead startBlock, .waits⟩
  | .filter loop notice => ⟨.filter loop, noticeStage notice⟩
  | .handle loop logs rest => ⟨.handle loop logs, .handles (callAll rest)⟩
  | .refused loop logs err => ⟨.handle loop logs, .handles (.fail err)⟩
  | .pollHead loop notice => ⟨.pollHead loop, noticeStage notice⟩
  | .returned err => ⟨.returned (.error err), .waits⟩

/-- What a polling call can do. -/
inductive PollStep (config : Config) : Polling → Option IndexerEvent → Polling → Prop where
  | begins {startBlock head : UInt64} (within : startBlock ≤ head) :
      PollStep config (.getHead startBlock) (some (.blockNumber head))
        (.filter ⟨startBlock, head, false, false⟩ (some .history))
  | tooEarly {startBlock head : UInt64} (err : GoError) :
      PollStep config (.getHead startBlock) (some (.blockNumber head)) (.returned err)
  | filterTold {loop : Loop} {mode : Mode} :
      PollStep config (.filter loop (some mode)) (some (.modeChange mode)) (.filter loop none)
  | pollTold {loop : Loop} {mode : Mode} :
      PollStep config (.pollHead loop (some mode)) (some (.modeChange mode)) (.pollHead loop none)
  | filters {loop : Loop} (logs : List EvmLog) :
      PollStep config (.filter loop none)
        (some (.filterLogs loop.fromBlock (loop.toBlock config) logs))
        (.handle loop logs (rangeCalls logs (loop.toBlock config)))
  | calls {loop : Loop} {logs : List EvmLog} {made : HandlerCall} {rest : List HandlerCall} :
      PollStep config (.handle loop logs (made :: rest)) (some (.called made))
        (.handle loop logs rest)
  | refuses {loop : Loop} {logs : List EvmLog} {made : HandlerCall} {rest : List HandlerCall}
      (err err' : GoError) :
      PollStep config (.handle loop logs (made :: rest)) (some (.refused made err))
        (.refused loop logs err')
  /-- The range has not reached the head. -/
  | proceeds {loop : Loop} {logs : List EvmLog}
      (more : loop.toBlock config + 1 ≤ loop.currentBlock) :
      PollStep config (.handle loop logs []) none
        (.filter { loop with fromBlock := loop.toBlock config + 1 } none)
  /-- The range has reached the head. -/
  | reaches {loop : Loop} {logs : List EvmLog}
      (last : ¬ loop.toBlock config + 1 ≤ loop.currentBlock) :
      PollStep config (.handle loop logs []) none
        (.pollHead { loop with fromBlock := loop.toBlock config + 1, isOnHead := true }
          (if !loop.isOnHead then some .poll else none))
  | arrives {loop : Loop} {head : UInt64} (arrived : loop.fromBlock ≤ head) :
      PollStep config (.pollHead loop none) (some (.blockNumber head))
        (.filter { loop with currentBlock := head } none)
  | pollsAgain {loop : Loop} {head : UInt64} :
      PollStep config (.pollHead loop none) (some (.blockNumber head))
        (.pollHead { loop with currentBlock := head } none)
  | returns {polling : Polling} (err : GoError) : PollStep config polling none (.returned err)

section Refinement

variable {config : Config} {loop : Loop}

theorem enter_within (loop : Loop) (within : loop.fromBlock ≤ loop.currentBlock) :
    IndexerCall.enter config loop = .filter loop :=
  if_pos within

/-- A call that does not handle logs next gives its notice, if it has one. -/
theorem goOn_notice {call call' : IndexerCall} (idle : call'.handling config = none) :
    call.goOn config call' = ⟨call', noticeStage (call.modeChange call')⟩ := by
  unfold IndexerCall.goOn
  rw [idle]
  cases call.modeChange call' <;> rfl

theorem goOn_handle (call : IndexerCall) (logs : List EvmLog) :
    call.goOn config (.handle loop logs) =
      (Polling.handle loop logs (rangeCalls logs (loop.toBlock config))).state := by
  rw [Polling.state, ← handleLogs_eq]
  rfl

/-- The first head. -/
theorem poll_begin (startBlock block : UInt64) :
    ∃ after, (IndexerCall.getHead startBlock).goOn config
        (IndexerCall.begin config startBlock block) = after.state ∧
      PollStep config (.getHead startBlock) (some (.blockNumber block)) after := by
  by_cases above : startBlock > block
  · rw [IndexerCall.begin, if_pos above]
    exact ⟨.returned _, rfl, .tooEarly _⟩
  · have within : startBlock ≤ block := UInt64.not_lt.mp above
    rw [IndexerCall.begin, if_neg above, enter_within ⟨startBlock, block, false, false⟩ within]
    exact ⟨_, rfl, .begins within⟩

/-- A head in the polling loop. -/
theorem poll_polled (block : UInt64) :
    ∃ after, (IndexerCall.pollHead loop).goOn config (IndexerCall.polled config loop block) =
        after.state ∧
      PollStep config (.pollHead loop none) (some (.blockNumber block)) after := by
  by_cases arrived : block ≥ loop.fromBlock
  · rw [IndexerCall.polled, if_pos arrived,
      enter_within { loop with currentBlock := block } arrived]
    exact ⟨_, rfl, .arrives arrived⟩
  · rw [IndexerCall.polled, if_neg arrived]
    exact ⟨_, rfl, .pollsAgain⟩

/-- The rest of a round of the loop. -/
theorem poll_handled (poll : config.indexerMode = .poll) (logs : List EvmLog) :
    ∃ after, (IndexerCall.handle loop logs).goOn config (IndexerCall.advance config loop) =
        after.state ∧ PollStep config (.handle loop logs []) none after := by
  by_cases more : loop.toBlock config + 1 ≤ loop.currentBlock
  · refine ⟨_, ?_, .proceeds more⟩
    simp only [IndexerCall.advance, poll, if_pos more]
    rw [enter_within { loop with fromBlock := loop.toBlock config + 1 } more]
    rfl
  · refine ⟨_, ?_, .reaches more⟩
    simp only [IndexerCall.advance, poll, if_neg more]
    rw [goOn_notice rfl]
    rfl

/-- A request that fails ends the call. -/
theorem poll_failure {polling : Polling} {call call' : IndexerCall} {err : GoError}
    (answered : call.next config (.failure err) = some call') :
    ∃ after, (⟨call', .waits⟩ : IndexerState) = after.state ∧
      PollStep config polling none after := by
  cases call with
  | returned outcome => cases answered
  | _ =>
      obtain rfl := Option.some.inj answered
      exact ⟨.returned _, rfl, .returns _⟩

/-- The indexer in poll mode refines the polling machine: each of its steps from a state of the
machine is one of the machine. -/
theorem poll_step (poll : config.indexerMode = .poll) {polling : Polling}
    {shown : Option IndexerEvent} {after : IndexerState}
    (step : IndexerStep config polling.state shown after) :
    ∃ polling', after = polling'.state ∧ PollStep config polling shown polling' := by
  cases polling with
  | getHead startBlock =>
      cases step with
      | head block answered =>
          obtain rfl := Option.some.inj answered
          exact poll_begin startBlock block
      | failure err answered => exact poll_failure answered
      | subscribed answered => cases answered
      | sinkLogs first rest answered => cases answered
  | filter loop notice =>
      cases notice with
      | none =>
          cases step with
          | logs logs answered =>
              obtain rfl := Option.some.inj answered
              exact ⟨_, goOn_handle _ logs, .filters logs⟩
          | failure err answered => exact poll_failure answered
          | head block answered => cases answered
          | subscribed answered => cases answered
          | sinkLogs first rest answered => cases answered
      | some mode =>
          cases step with
          | notified => exact ⟨.filter loop none, rfl, .filterTold⟩
  | handle loop logs rest =>
      cases rest with
      | nil =>
          cases step with
          | handled answered =>
              obtain rfl := Option.some.inj answered
              exact poll_handled poll logs
          | cancelledAfterRange cause => exact ⟨.returned cause, rfl, .returns cause⟩
      | cons made rest =>
          cases step with
          | called => exact ⟨.handle loop logs rest, rfl, .calls⟩
          | refused err => exact ⟨.refused loop logs _, rfl, .refuses err _⟩
  | refused loop logs err =>
      cases step with
      | notHandled answered => exact poll_failure answered
  | pollHead loop notice =>
      cases notice with
      | none =>
          cases step with
          | head block answered =>
              obtain rfl := Option.some.inj answered
              exact poll_polled block
          | failure err answered => exact poll_failure answered
          | cancelledPolling cause => exact ⟨.returned cause, rfl, .returns cause⟩
          | subscribed answered => cases answered
          | sinkLogs first rest answered => cases answered
      | some mode =>
          cases step with
          | notified => exact ⟨.pollHead loop none, rfl, .pollTold⟩
  | returned err =>
      cases step with
      | head block answered => cases answered
      | failure err answered => cases answered
      | subscribed answered => cases answered
      | sinkLogs first rest answered => cases answered

end Refinement

/-! ### What a trace says -/

/-- The calls of the handler that were made. -/
def callsMade (trace : List IndexerEvent) : List HandlerCall :=
  trace.filterMap fun
    | .called call | .refused call _ => some call
    | .blockNumber _ | .filterLogs _ _ _ | .modeChange _ => none

/-- The calls the ranges that were filtered ask for: of each range the logs in order, and then one
commit of its last block. -/
def demanded (trace : List IndexerEvent) : List HandlerCall :=
  trace.flatMap fun
    | .filterLogs _ toBlock logs => rangeCalls logs toBlock
    | .blockNumber _ | .called _ | .refused _ _ | .modeChange _ => []

/-- The head most recently reported. -/
def lastHead (trace : List IndexerEvent) : Option UInt64 :=
  trace.foldl (fun known event =>
    match event with
    | .blockNumber head => some head
    | .filterLogs _ _ _ | .called _ | .refused _ _ | .modeChange _ => known) none

/-- The block after the last range, or the start block before the first. -/
def nextBlock (startBlock : UInt64) (trace : List IndexerEvent) : Nat :=
  trace.foldl (fun next event =>
    match event with
    | .filterLogs _ toBlock _ => toBlock.toNat + 1
    | .blockNumber _ | .called _ | .refused _ _ | .modeChange _ => next) startBlock.toNat

/-- The handler has returned no error. -/
def Unrefused (trace : List IndexerEvent) : Prop :=
  ∀ call err, .refused call err ∉ trace

section Snoc

variable (trace : List IndexerEvent) (startBlock : UInt64)

@[simp] theorem callsMade_snoc (event : IndexerEvent) :
    callsMade (trace ++ [event]) = callsMade trace ++ callsMade [event] :=
  List.filterMap_append

@[simp] theorem demanded_snoc (event : IndexerEvent) :
    demanded (trace ++ [event]) = demanded trace ++ demanded [event] :=
  List.flatMap_append

@[simp] theorem lastHead_snoc_head (head : UInt64) :
    lastHead (trace ++ [.blockNumber head]) = some head := by
  rw [lastHead, List.foldl_append]
  rfl

theorem lastHead_snoc {event : IndexerEvent} (other : ∀ head, event ≠ .blockNumber head) :
    lastHead (trace ++ [event]) = lastHead trace := by
  rw [lastHead, List.foldl_append, ← lastHead]
  cases event with
  | blockNumber head => exact absurd rfl (other head)
  | _ => rfl

@[simp] theorem nextBlock_snoc_range (fromBlock toBlock : UInt64) (logs : List EvmLog) :
    nextBlock startBlock (trace ++ [.filterLogs fromBlock toBlock logs]) = toBlock.toNat + 1 := by
  rw [nextBlock, List.foldl_append]
  rfl

theorem nextBlock_snoc {event : IndexerEvent}
    (other : ∀ fromBlock toBlock logs, event ≠ .filterLogs fromBlock toBlock logs) :
    nextBlock startBlock (trace ++ [event]) = nextBlock startBlock trace := by
  rw [nextBlock, List.foldl_append, ← nextBlock]
  cases event with
  | filterLogs fromBlock toBlock logs => exact absurd rfl (other fromBlock toBlock logs)
  | _ => rfl

variable {trace}

theorem Unrefused.snoc (unrefused : Unrefused trace) {event : IndexerEvent}
    (other : ∀ call err, event ≠ .refused call err) : Unrefused (trace ++ [event]) := by
  intro call err member
  rcases List.mem_append.mp member with old | new
  · exact unrefused call err old
  · exact other call err (List.mem_singleton.mp new).symm

end Snoc

/-! ### Right traces -/

/-- The range is the next one, within the distance and the head most recently reported, and
everything the ranges before it ask for has been called. -/
structure RangeRight (config : Config) (startBlock : UInt64) (before : List IndexerEvent)
    (fromBlock toBlock : UInt64) : Prop where
  next : fromBlock.toNat = nextBlock startBlock before
  forward : fromBlock ≤ toBlock
  short : toBlock.toNat - fromBlock.toNat < config.maxBlocksDistance.toNat
  known : ∃ head, lastHead before = some head ∧ toBlock ≤ head
  handled : callsMade before = demanded before

/-- What the events before it make right of an event: a range is the next one, a call of the handler
is the next one that is asked for, and neither comes after an error of the handler. -/
def RightAt (config : Config) (startBlock : UInt64) (before : List IndexerEvent) :
    IndexerEvent → Prop
  | .filterLogs fromBlock toBlock _ =>
      RangeRight config startBlock before fromBlock toBlock ∧ Unrefused before
  | .called call | .refused call _ =>
      callsMade before ++ [call] <+: demanded before ∧ Unrefused before
  | .blockNumber _ | .modeChange _ => True

/-- The sum `fromBlock+MaxBlocksDistance` of a range that is about to be filtered is below
`2^64`. -/
def SumFits (config : Config) (state : IndexerState) : Prop :=
  match state.call with
  | .filter loop => loop.fromBlock.toNat + config.maxBlocksDistance.toNat < 2 ^ 64
  | _ => True

instance (config : Config) : (state : IndexerState) → Decidable (SumFits config state)
  | ⟨.filter _, _⟩ => Nat.decLt _ _
  | ⟨.getHead _, _⟩ | ⟨.handle _ _, _⟩ | ⟨.pollHead _, _⟩ | ⟨.subscribe _, _⟩
  | ⟨.headAfterSubscription _, _⟩ | ⟨.subscribeLate _, _⟩ | ⟨.sink _, _⟩
  | ⟨.handleSink _ _ _, _⟩ | ⟨.returned _, _⟩ => .isTrue trivial

/-! ### The invariant -/

/-- Everything up to `fromBlock` is handled, and the head is the one most recently reported. -/
structure Settled (startBlock : UInt64) (loop : Loop) (trace : List IndexerEvent) : Prop where
  next : nextBlock startBlock trace = loop.fromBlock.toNat
  handled : callsMade trace = demanded trace
  unrefused : Unrefused trace
  known : lastHead trace = some loop.currentBlock

/-- How the trace of a polling call ends. -/
inductive Stands (config : Config) (startBlock : UInt64) :
    Polling → List IndexerEvent → Prop where
  | getHead : Stands config startBlock (.getHead startBlock) []
  | filter {loop : Loop} {notice : Option Mode} {trace : List IndexerEvent}
      (settled : Settled startBlock loop trace) (within : loop.fromBlock ≤ loop.currentBlock) :
      Stands config startBlock (.filter loop notice) trace
  | handle {loop : Loop} {logs : List EvmLog} {rest : List HandlerCall}
      {trace : List IndexerEvent} (left : callsMade trace ++ rest = demanded trace)
      (unrefused : Unrefused trace) (known : lastHead trace = some loop.currentBlock)
      (next : nextBlock startBlock trace = (loop.toBlock config + 1).toNat) :
      Stands config startBlock (.handle loop logs rest) trace
  | refused {loop : Loop} {logs : List EvmLog} {err : GoError} {trace : List IndexerEvent} :
      Stands config startBlock (.refused loop logs err) trace
  | pollHead {loop : Loop} {notice : Option Mode} {trace : List IndexerEvent}
      (settled : Settled startBlock loop trace) :
      Stands config startBlock (.pollHead loop notice) trace
  | returned {err : GoError} {trace : List IndexerEvent} :
      Stands config startBlock (.returned err) trace

section Invariant

variable {config : Config} {startBlock : UInt64} {loop : Loop} {trace : List IndexerEvent}

theorem Settled.told (settled : Settled startBlock loop trace) (mode : Mode) :
    Settled startBlock loop (trace ++ [.modeChange mode]) where
  next := (nextBlock_snoc trace startBlock (by simp)).trans settled.next
  handled := by
    rw [callsMade_snoc, demanded_snoc, settled.handled]
    rfl
  unrefused := settled.unrefused.snoc (by simp)
  known := (lastHead_snoc trace (by simp)).trans settled.known

theorem Settled.head (settled : Settled startBlock loop trace) (head : UInt64) :
    Settled startBlock { loop with currentBlock := head } (trace ++ [.blockNumber head]) where
  next := (nextBlock_snoc trace startBlock (by simp)).trans settled.next
  handled := by
    rw [callsMade_snoc, demanded_snoc, settled.handled]
    rfl
  unrefused := settled.unrefused.snoc (by simp)
  known := lastHead_snoc_head trace head

/-- The first head of a call. -/
theorem settled_first (startBlock head : UInt64) :
    Settled startBlock ⟨startBlock, head, false, false⟩ [.blockNumber head] where
  next := rfl
  handled := rfl
  unrefused := by simp [Unrefused]
  known := rfl

/-- A range whose sum fits is right, and the block after it is the next. -/
theorem Settled.range (settled : Settled startBlock loop trace)
    (positive : config.maxBlocksDistance ≠ 0) (within : loop.fromBlock ≤ loop.currentBlock)
    (sum : loop.fromBlock.toNat + config.maxBlocksDistance.toNat < 2 ^ 64) :
    RangeRight config startBlock trace loop.fromBlock (loop.toBlock config) ∧
      (loop.toBlock config + 1).toNat = (loop.toBlock config).toNat + 1 := by
  have nonzero := toNat_ne_zero positive
  have low := UInt64.le_iff_toNat_le.mp within
  have reached := toNat_toBlock (Nat.le_of_lt sum) positive
  refine ⟨⟨settled.next.symm, ?_, by omega, ⟨loop.currentBlock, settled.known, ?_⟩,
    settled.handled⟩, ?_⟩
  · exact UInt64.le_iff_toNat_le.mpr (by omega)
  · exact UInt64.le_iff_toNat_le.mpr (by omega)
  · rw [UInt64.toNat_add]
    change (_ + 1) % 2 ^ 64 = _
    omega

/-- What one step of the machine shows is right, and the trace ends as it should. -/
theorem Stands.step (positive : config.maxBlocksDistance ≠ 0) {polling polling' : Polling}
    {shown : Option IndexerEvent} (stands : Stands config startBlock polling trace)
    (sum : SumFits config polling.state) (step : PollStep config polling shown polling') :
    Stands config startBlock polling' (trace ++ shown.toList) ∧
      ∀ event, shown = some event → RightAt config startBlock trace event := by
  cases step with
  | begins within =>
      cases stands with
      | getHead => exact ⟨.filter (settled_first _ _) within, by simp [RightAt]⟩
  | tooEarly err => exact ⟨.returned, by simp [RightAt]⟩
  | filterTold =>
      cases stands with
      | filter settled within => exact ⟨.filter (settled.told _) within, by simp [RightAt]⟩
  | pollTold =>
      cases stands with
      | pollHead settled => exact ⟨.pollHead (settled.told _), by simp [RightAt]⟩
  | filters logs =>
      cases stands with
      | filter settled within =>
          obtain ⟨right, onward⟩ := settled.range positive within sum
          refine ⟨.handle ?_ (settled.unrefused.snoc (by simp)) ?_ ?_, ?_⟩
          · rw [Option.toList_some, callsMade_snoc, demanded_snoc, settled.handled]
            simp [callsMade, demanded]
          · exact (lastHead_snoc trace (by simp)).trans settled.known
          · exact (nextBlock_snoc_range trace startBlock _ _ logs).trans onward.symm
          · rintro event ⟨⟩
            exact ⟨right, settled.unrefused⟩
  | @calls loop logs made rest =>
      cases stands with
      | handle left unrefused known next =>
          refine ⟨.handle ?_ (unrefused.snoc (by simp)) ?_ ?_, ?_⟩
          · rw [Option.toList_some, callsMade_snoc, demanded_snoc, ← left]
            simp [callsMade, demanded]
          · exact (lastHead_snoc trace (by simp)).trans known
          · exact (nextBlock_snoc trace startBlock (by simp)).trans next
          · rintro event ⟨⟩
            exact ⟨⟨rest, by rw [← left]; simp⟩, unrefused⟩
  | @refuses loop logs made rest err err' =>
      cases stands with
      | handle left unrefused known next =>
          refine ⟨.refused, ?_⟩
          rintro event ⟨⟩
          exact ⟨⟨rest, by rw [← left]; simp⟩, unrefused⟩
  | proceeds more =>
      cases stands with
      | handle left unrefused known next =>
          rw [List.append_nil] at left
          rw [Option.toList_none, List.append_nil]
          exact ⟨.filter ⟨next, left, unrefused, known⟩ more, by simp⟩
  | reaches last =>
      cases stands with
      | handle left unrefused known next =>
          rw [List.append_nil] at left
          rw [Option.toList_none, List.append_nil]
          exact ⟨.pollHead ⟨next, left, unrefused, known⟩, by simp⟩
  | arrives arrived =>
      cases stands with
      | pollHead settled => exact ⟨.filter (settled.head _) arrived, by simp [RightAt]⟩
  | pollsAgain =>
      cases stands with
      | pollHead settled => exact ⟨.pollHead (settled.head _), by simp [RightAt]⟩
  | returns err => exact ⟨.returned, by simp⟩

/-- The call stands in the polling machine, and every event so far was right. -/
structure PollsRight (config : Config) (startBlock : UInt64)
    (s : Traced IndexerState IndexerEvent) : Prop where
  stands : ∃ polling, s.state = Polling.state polling ∧ Stands config startBlock polling s.trace
  each : EachEvent (RightAt config startBlock) s.trace

theorem PollsRight.step (poll : config.indexerMode = .poll)
    (positive : config.maxBlocksDistance ≠ 0) {s t : Traced IndexerState IndexerEvent}
    (right : PollsRight config startBlock s) (step : Traced.Step (IndexerStep config) s t)
    (sum : SumFits config s.state) : PollsRight config startBlock t := by
  rcases s with ⟨_, trace⟩
  rcases t with ⟨_, _⟩
  obtain ⟨⟨polling, rfl, stands⟩, each⟩ := right
  obtain ⟨shown, moved, rfl⟩ := step
  obtain ⟨polling', rfl, pollStep⟩ := poll_step poll moved
  obtain ⟨stands', rightAt⟩ := stands.step positive sum pollStep
  refine ⟨⟨polling', rfl, stands'⟩, ?_⟩
  cases shown with
  | none => exact (List.append_nil trace).symm ▸ each
  | some event => exact eachEvent_snoc.mpr ⟨each, rightAt event rfl⟩

end Invariant

/-! ### Runs of a polling call -/

/-- A call that has been asked to start at a block. -/
def startCall (startBlock : UInt64) : Traced IndexerState IndexerEvent :=
  ⟨⟨.getHead startBlock, .waits⟩, []⟩

/-- Poll mode covers every block once.  In every state of a call, whatever heads are reported and
whatever fails, as long as the sums fit: every range begins at the start block or after the range
before it, ends at most at the head most recently reported, and is filtered once everything before
it has been handled and committed; the handler is called for its logs in order and then once to
commit its last block; and the call does not return without an error. -/
theorem poll_covers_every_block_once {config : Config} (poll : config.indexerMode = .poll)
    (positive : 1 ≤ config.maxBlocksDistance) {startBlock : UInt64}
    {s : Traced IndexerState IndexerEvent}
    (run : Relation.ReflTransGen (fun before after =>
      Traced.Step (IndexerStep config) before after ∧ SumFits config before.state)
      (startCall startBlock) s) :
    EachEvent (RightAt config startBlock) s.trace ∧ s.state.call ≠ .returned (.ok ()) := by
  have nonzero : config.maxBlocksDistance ≠ 0 := by
    rintro zero
    rw [zero] at positive
    exact absurd positive (by decide)
  have holds : PollsRight config startBlock s :=
    GuardedRun.invariant (fun right step sum => right.step poll nonzero step sum) run
      ⟨⟨.getHead startBlock, rfl, .getHead⟩, eachEvent_nil _⟩
  obtain ⟨⟨polling, place, _⟩, each⟩ := holds
  refine ⟨each, ?_⟩
  rw [place]
  cases polling <;> simp [Polling.state]

/-! ### A run with a head that goes back -/

/-- The choices that decide a run without failures. -/
inductive IndexerMove where
  | head (block : UInt64)
  | logs (logs : List EvmLog)
  /-- The handler returns, or is told a mode, or `handleLogs` returns. -/
  | goOn
deriving DecidableEq

def IndexerState.move (config : Config) :
    IndexerState → IndexerMove → Option (Option IndexerEvent × IndexerState)
  | ⟨call, .waits⟩, .head block =>
      (call.next config (.head block)).map fun call' =>
        (some (.blockNumber block), call.goOn config call')
  | ⟨.filter loop, .waits⟩, .logs logs =>
      some (some (.filterLogs loop.fromBlock (loop.toBlock config) logs),
        (IndexerCall.filter loop).goOn config (.handle loop logs))
  | ⟨call, .handles (.ask made next)⟩, .goOn =>
      some (some (.called made), ⟨call, .handles (next none)⟩)
  | ⟨call, .handles (.done ())⟩, .goOn =>
      (call.next config .handled).map fun call' => (none, call.goOn config call')
  | ⟨call, .notifies mode⟩, .goOn => some (some (.modeChange mode), ⟨call, .waits⟩)
  | _, _ => none

theorem IndexerState.move_step {config : Config} (s : IndexerState) (made : IndexerMove)
    (shown : Option IndexerEvent) (t : IndexerState)
    (moved : s.move config made = some (shown, t)) : IndexerStep config s shown t := by
  unfold IndexerState.move at moved
  split at moved
  · obtain ⟨call', answered, same⟩ := Option.map_eq_some_iff.mp moved
    obtain ⟨rfl, rfl⟩ := Prod.mk.inj same
    exact .head _ answered
  · obtain ⟨rfl, rfl⟩ := Prod.mk.inj (Option.some.inj moved)
    exact .logs _ rfl
  · obtain ⟨rfl, rfl⟩ := Prod.mk.inj (Option.some.inj moved)
    exact .called
  · obtain ⟨call', answered, same⟩ := Option.map_eq_some_iff.mp moved
    obtain ⟨rfl, rfl⟩ := Prod.mk.inj same
    exact .handled answered
  · obtain ⟨rfl, rfl⟩ := Prod.mk.inj (Option.some.inj moved)
    exact .notified
  · cases moved

/-- Two blocks at a time from block 1 to head 3; then the reported head goes back to 2 before it
is 4. -/
def backwardMoves : List IndexerMove :=
  [.head 3, .goOn, .logs [⟨[1], [0, 1, 7], 1, false⟩], .goOn, .goOn, .goOn, .goOn,
    .logs [], .goOn, .goOn, .goOn, .goOn, .head 2, .head 4, .logs [], .goOn, .goOn, .goOn]

theorem poll_covers_every_block_once_backward :
    ∃ s, Relation.ReflTransGen (fun before after =>
        Traced.Step (IndexerStep ⟨2, .poll⟩) before after ∧ SumFits ⟨2, .poll⟩ before.state)
        (startCall 1) s ∧
      nextBlock 1 s.trace = 5 ∧ EachEvent (RightAt ⟨2, .poll⟩ 1) s.trace := by
  have made : (play (fun before _ => SumFits ⟨2, .poll⟩ before.state)
      (Traced.move (IndexerState.move ⟨2, .poll⟩)) backwardMoves (startCall 1)).isSome = true := by
    decide
  have run := run_of_played made fun _ _ _ => Traced.move_step IndexerState.move_step
  exact ⟨_, run, by decide, (poll_covers_every_block_once rfl (by decide) run).1⟩

end MerkleProofService
