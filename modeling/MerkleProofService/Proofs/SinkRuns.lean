/-
Module: MerkleProofService.Proofs.SinkRuns
Layer: Proofs
Purpose: Every interleaving of the call that reads the sink, the goroutine that keeps the
  subscription, and the caller's context.  The logs of the channel are handled in order and once
  each, a commit accounts for the logs up to one of its block, nothing new is begun once the context
  is done, and what the call does is what the machine of `Indexer.IndexLogs` can do.  After the call
  has returned the subscription may still be there, and a log it sends then ends the process.
Imports: Indexer.SinkIndexation, Proofs.HeadFlag
Trusted boundary: none
Main exports: SinkStart, SinkStage.abstract, sinkRun_refines, handledLogs, TakenLogs,
  sink_handles_each_log_once, modesTold, sink_begins_nothing_when_done, sink_can_return_when_done,
  SinkPanic.after_return, refused_call_leaves_subscription
-/
import MerkleProofService.Indexer.SinkIndexation
import MerkleProofService.Proofs.HeadFlag

namespace MerkleProofService

open Library
open HandlerProgram

/-! ### Runs -/

/-- The call is about to wait for its subscription, or has it from inside its loop.  Nothing has
been read yet. -/
structure SinkStart (s : SinkState) : Prop where
  stage : s.stage = .awaitsStart ∨ s.stage = .notifies
  unread : s.delivered = s.sink
  isOpen : s.closed = false
  /-- Whoever has not closed `started` yet is still going to. -/
  handshake : s.started = false →
    s.subscriber = .creates ∨ s.subscriber = .created ∨ s.subscriber = .refused

/-- The runs of the two goroutines. -/
abbrev SinkRun (capacity : Nat) (fromBlock : UInt64) :=
  Relation.ReflTransGen (Traced.Step (SinkStep capacity fromBlock))

/-- The channel is closed only by a call that has returned. -/
def ClosedAfterReturn (s : SinkState) : Prop :=
  s.closed = true → ∃ outcome, s.stage = .returned outcome

/-- A call that has returned has returned an error. -/
def ReturnsErrors (s : SinkState) : Prop :=
  ∀ outcome, s.stage = .returned outcome → ∃ err, outcome = .error err

section Steps

variable {capacity : Nat} {fromBlock : UInt64} {s t : SinkState} {shown : Option IndexerEvent}

/-- So it is open at every other stage. -/
theorem ClosedAfterReturn.not_running (closing : ClosedAfterReturn s) {stage : SinkStage}
    (stands : s.stage = stage) (running : ∀ outcome, stage ≠ .returned outcome) :
    s.closed ≠ true := by
  intro isClosed
  obtain ⟨outcome, returned⟩ := closing isClosed
  exact running outcome (stands.symm.trans returned)

theorem ClosedAfterReturn.step (closing : ClosedAfterReturn s)
    (step : SinkStep capacity fromBlock s shown t) : ClosedAfterReturn t := by
  intro isClosed
  cases step with
  | done stands isDone => exact ⟨_, rfl⟩
  | receiveClosed stands empty isClosed => exact ⟨_, rfl⟩
  | headFailed err stands => exact ⟨_, rfl⟩
  | drainDone stands isDone => exact ⟨_, rfl⟩
  | notHandled stands => exact ⟨_, rfl⟩
  | closes stands => exact ⟨_, stands⟩
  | subscribes | cannotSubscribe | closesStarted | closesRefused | subscriberDone
  | subscriptionFails | deliver | callerCancels => exact closing isClosed
  | started stands | notified stands | tick stands | receive stands | headReported stands
  | drainMore stands | drainClosed stands | drainEmpty stands | called stands | refused _ stands
  | handled stands =>
      exact (closing.not_running stands nofun isClosed).elim

/-- Only the call itself moves its stage. -/
theorem ReturnsErrors.step (errors : ReturnsErrors s) (closing : ClosedAfterReturn s)
    (step : SinkStep capacity fromBlock s shown t) : ReturnsErrors t := by
  intro outcome returned
  cases step with
  | done | headFailed | drainDone | notHandled =>
      obtain rfl := SinkStage.returned.inj returned
      exact ⟨_, rfl⟩
  | receiveClosed stands empty isClosed =>
      exact (closing.not_running stands nofun isClosed).elim
  | closes | subscribes | cannotSubscribe | closesStarted | closesRefused | subscriberDone
  | subscriptionFails | deliver | callerCancels => exact errors outcome returned
  | started | notified | tick | receive | headReported | drainMore | drainClosed | drainEmpty
  | called | refused | handled => cases returned

end Steps

/-! ### A run -/

/-- Two logs, one of a block before the start block. -/
def earlyLog : EvmLog := ⟨[], [], 4, false⟩

def sinkLog : EvmLog := ⟨[], [], 7, false⟩

/-- A call that has been subscribed in its loop. -/
def sinkStart : SinkState := ⟨.notifies, .follows, true, [], false, none, []⟩

/-- Both logs waited when the call woke up, and their batch is begun. -/
def sinkBusy : Traced SinkState IndexerEvent :=
  ⟨⟨.handles earlyLog [sinkLog] (callAll [.handleEVMLog sinkLog, .commit 7]), .follows, true, [],
    false, none, [earlyLog, sinkLog]⟩, [.modeChange .ws, .called .prepareContext]⟩

/-- The context is done before the batch is committed. -/
def sinkMiddle : Traced SinkState IndexerEvent :=
  ⟨sinkBusy.state.cancel (some contextCanceled), sinkBusy.trace⟩

def sinkEnd : Traced SinkState IndexerEvent :=
  ⟨⟨.selects, .follows, true, [], false, some contextCanceled, [earlyLog, sinkLog]⟩,
    [.modeChange .ws, .called .prepareContext, .called (.handleEVMLog sinkLog),
      .called (.commit 7)]⟩

theorem sinkStart_starts : SinkStart sinkStart :=
  ⟨Or.inr rfl, rfl, rfl, nofun⟩

theorem sinkBusy_reached : SinkRun 2 5 ⟨sinkStart, []⟩ sinkBusy := by
  refine Traced.run_cons (.deliver earlyLog (Or.inr rfl) (by decide) rfl) ?_
  refine Traced.run_cons (.deliver sinkLog (Or.inr rfl) (by decide) rfl) ?_
  refine Traced.run_cons (.notified rfl) ?_
  refine Traced.run_cons (.receive rfl rfl) ?_
  refine Traced.run_cons (.drainMore rfl rfl) ?_
  refine Traced.run_cons (.drainEmpty rfl rfl rfl rfl) ?_
  rw [handleLogs_eq]
  refine Traced.run_cons (.called rfl) ?_
  exact .refl

theorem sinkMiddle_reached : SinkRun 2 5 ⟨sinkStart, []⟩ sinkMiddle :=
  sinkBusy_reached.tail ⟨none, .callerCancels contextCanceled, rfl⟩

theorem sinkEnd_reached : SinkRun 2 5 sinkMiddle sinkEnd := by
  refine Traced.run_cons (.called rfl) ?_
  refine Traced.run_cons (.called rfl) ?_
  refine Traced.run_cons (.handled rfl) ?_
  exact .refl

/-! ### The machine of the call -/

/-- The stage as `Indexer.HandlerCalls` has it: the inside of a select is not seen there. -/
def SinkStage.abstract (loop : Loop) : SinkStage → IndexerState
  | .awaitsStart => ⟨.subscribeLate loop, .waits⟩
  | .notifies => ⟨.sink loop.fromBlock, .notifies .ws⟩
  | .selects | .asksHead | .drains _ _ => ⟨.sink loop.fromBlock, .waits⟩
  | .handles first rest program => ⟨.handleSink loop.fromBlock first rest, .handles program⟩
  | .returned outcome => ⟨.returned outcome, .waits⟩

section Refinement

variable {capacity : Nat} {loop : Loop} {s t : SinkState} {shown : Option IndexerEvent}

/-- A step stands still in the machine, or is one of its steps. -/
theorem SinkStep.refines (config : Config) (closing : ClosedAfterReturn s)
    (step : SinkStep capacity loop.fromBlock s shown t) :
    (shown = none ∧ t.stage.abstract loop = s.stage.abstract loop) ∨
      IndexerStep config (s.stage.abstract loop) shown (t.stage.abstract loop) := by
  cases step with
  | subscribes | cannotSubscribe | closesStarted | closesRefused | subscriberDone
  | subscriptionFails | deliver | callerCancels | closes => exact Or.inl ⟨rfl, rfl⟩
  | tick stands | receive stands | headReported stands | drainMore stands =>
      rw [stands]
      exact Or.inl ⟨rfl, rfl⟩
  | started stands ready =>
      rw [stands]
      exact Or.inr (.subscribed rfl)
  | notified stands =>
      rw [stands]
      exact Or.inr .notified
  | done stands isDone =>
      rw [stands]
      exact Or.inr (.failure _ rfl)
  | headFailed err stands =>
      rw [stands]
      exact Or.inr (.failure _ rfl)
  | drainDone stands isDone =>
      rw [stands]
      exact Or.inr (.failure _ rfl)
  | receiveClosed stands empty isClosed =>
      exact (closing.not_running stands nofun isClosed).elim
  | drainClosed stands empty isClosed =>
      exact (closing.not_running stands nofun isClosed).elim
  | drainEmpty stands empty isOpen alive =>
      rw [stands]
      exact Or.inr (.sinkLogs _ _ rfl)
  | called stands =>
      rw [stands]
      exact Or.inr .called
  | refused err stands =>
      rw [stands]
      exact Or.inr (.refused err)
  | handled stands =>
      rw [stands]
      exact Or.inr (.handled rfl)
  | notHandled stands =>
      rw [stands]
      exact Or.inr (.notHandled rfl)

/-- What the two goroutines show is a trace of the machine. -/
theorem sinkRun_refines (config : Config) (loop : Loop) {after : Traced SinkState IndexerEvent}
    (start : SinkStart s) (run : SinkRun capacity loop.fromBlock ⟨s, []⟩ after) :
    Relation.ReflTransGen (Traced.Step (IndexerStep config)) ⟨s.stage.abstract loop, []⟩
      ⟨after.state.stage.abstract loop, after.trace⟩ := by
  refine Traced.simulates (fun closing step => ClosedAfterReturn.step closing step)
    (fun closing step => SinkStep.refines config closing step) run ?_
  intro isClosed
  rw [start.isOpen] at isClosed
  cases isClosed

theorem sinkRun_refines_here :
    Relation.ReflTransGen (Traced.Step (IndexerStep ⟨10, .ws⟩))
      ⟨sinkStart.stage.abstract ⟨5, 9, true, true⟩, []⟩
      ⟨sinkEnd.state.stage.abstract ⟨5, 9, true, true⟩, sinkEnd.trace⟩ :=
  sinkRun_refines ⟨10, .ws⟩ ⟨5, 9, true, true⟩ sinkStart_starts
    (sinkMiddle_reached.trans sinkEnd_reached)

end Refinement

/-! ### The logs of the channel -/

/-- The logs the handler has taken. -/
def handledLogs (trace : List IndexerEvent) : List EvmLog :=
  trace.filterMap fun
    | .called (.handleEVMLog log) => some log
    | _ => none

/-- The logs of calls. -/
def callLogs (calls : List HandlerCall) : List EvmLog :=
  calls.filterMap fun
    | .handleEVMLog log => some log
    | .prepareContext | .commit _ => none

/-- Between two batches. -/
def SinkStage.Idle : SinkStage → Prop
  | .awaitsStart | .notifies | .selects | .asksHead => True
  | .drains _ _ | .handles _ _ _ | .returned _ => False

/-- What has become of the logs taken from the channel: those of earlier batches are handled, and
of the batch in hand those whose calls are made. -/
inductive TakenLogs (fromBlock : UInt64) (trace : List IndexerEvent) (taken : List EvmLog) :
    SinkStage → Prop where
  | idle {stage : SinkStage} (between : stage.Idle)
      (handled : handledLogs trace = logsToProcess fromBlock taken) :
      TakenLogs fromBlock trace taken stage
  | drains {first : EvmLog} {logs : List EvmLog} (before : List EvmLog)
      (batch : taken = before ++ first :: logs)
      (handled : handledLogs trace = logsToProcess fromBlock before) :
      TakenLogs fromBlock trace taken (.drains first logs)
  | handles {first : EvmLog} {rest : List EvmLog} {program : HandlerProgram Unit}
      (before : List EvmLog) (made calls : List HandlerCall)
      (batch : taken = before ++ first :: rest) (runs : program = callAll calls)
      (split : made ++ calls =
        rangeCalls (logsToProcess fromBlock (first :: rest)) (progressBlock first rest))
      (handled : handledLogs trace ++ callLogs calls = logsToProcess fromBlock taken) :
      TakenLogs fromBlock trace taken (.handles first rest program)
  | failed {first : EvmLog} {rest : List EvmLog} {err : GoError} (left : List EvmLog)
      (handled : handledLogs trace ++ left = logsToProcess fromBlock taken) :
      TakenLogs fromBlock trace taken (.handles first rest (.fail err))
  | returned {outcome : Except GoError Unit} (left : List EvmLog)
      (handled : handledLogs trace ++ left = logsToProcess fromBlock taken) :
      TakenLogs fromBlock trace taken (.returned outcome)

/-- The logs of the channel are those delivered after those taken. -/
def Accounted (fromBlock : UInt64) (s : SinkState) (trace : List IndexerEvent) : Prop :=
  ∃ taken, s.delivered = taken ++ s.sink ∧ TakenLogs fromBlock trace taken s.stage

/-- What the logs delivered make right of an event: a commit accounts for all logs up to one of its
block. -/
def CommitAccounts (fromBlock : UInt64) (delivered : List EvmLog) (before : List IndexerEvent) :
    IndexerEvent → Prop
  | .called (.commit block) => ∃ read last, read ++ [last] <+: delivered ∧
      last.blockNumber = block ∧ handledLogs before = logsToProcess fromBlock (read ++ [last])
  | _ => True

section Logs

variable {fromBlock : UInt64} {trace : List IndexerEvent}

theorem handledLogs_snoc (event : IndexerEvent) :
    handledLogs (trace ++ [event]) = handledLogs trace ++ handledLogs [event] :=
  List.filterMap_append

theorem logsToProcess_append (first second : List EvmLog) :
    logsToProcess fromBlock (first ++ second) =
      logsToProcess fromBlock first ++ logsToProcess fromBlock second :=
  List.filter_append ..

theorem callLogs_rangeCalls (logs : List EvmLog) (block : UInt64) :
    callLogs (rangeCalls logs block) = logs := by
  have mapped : callLogs (logs.map .handleEVMLog) = logs := by
    rw [callLogs, List.filterMap_map]
    exact List.filterMap_some
  have rest : callLogs (rangeCalls logs block) = callLogs (logs.map .handleEVMLog) ++ [] :=
    List.filterMap_append
  rw [rest, mapped, List.append_nil]

/-- Calls in a row: the first one, and the others once it has returned no error. -/
theorem callAll_cons (made : HandlerCall) (rest : List HandlerCall) :
    callAll (made :: rest) = .ask made fun
      | none => callAll rest
      | some err => .fail (.wrapf made.text err) := by
  simp only [callAll, call, Program.bind]
  congr 1
  funext answer
  cases answer <;> rfl

theorem callAll_eq_ask {calls : List HandlerCall} {made : HandlerCall}
    {next : Option GoError → HandlerProgram Unit} (asks : callAll calls = .ask made next) :
    ∃ rest, calls = made :: rest ∧ next none = callAll rest ∧
      ∀ err, ∃ failure, next (some err) = .fail failure := by
  cases calls with
  | nil => cases asks
  | cons first rest =>
      rw [callAll_cons] at asks
      cases asks
      exact ⟨rest, rfl, rfl, fun err => ⟨_, rfl⟩⟩

theorem callAll_eq_done {calls : List HandlerCall} (ended : callAll calls = .done ()) :
    calls = [] := by
  cases calls with
  | nil => rfl
  | cons first rest => cases ended

end Logs

section Taking

variable {fromBlock : UInt64} {trace : List IndexerEvent} {stage : SinkStage}
variable {first : EvmLog} {rest taken : List EvmLog}

/-- Whatever the stage, the logs handled begin those taken that count. -/
theorem TakenLogs.handled_le (place : TakenLogs fromBlock trace taken stage) :
    ∃ left, handledLogs trace ++ left = logsToProcess fromBlock taken := by
  cases place with
  | idle between handled => exact ⟨[], by rw [List.append_nil, handled]⟩
  | drains before batch handled =>
      exact ⟨_, by rw [handled, batch, logsToProcess_append]⟩
  | handles before made calls batch runs split handled => exact ⟨_, handled⟩
  | failed left handled => exact ⟨left, handled⟩
  | returned left handled => exact ⟨left, handled⟩

theorem TakenLogs.between (place : TakenLogs fromBlock trace taken stage) (between : stage.Idle) :
    handledLogs trace = logsToProcess fromBlock taken := by
  cases place with
  | idle _ handled => exact handled
  | drains | handles | failed | returned => exact absurd between id

/-- The call in hand is the next of its batch. -/
theorem TakenLogs.asks {made : HandlerCall} {next : Option GoError → HandlerProgram Unit}
    (place : TakenLogs fromBlock trace taken (.handles first rest (.ask made next))) :
    ∃ before done calls, taken = before ++ first :: rest ∧
      done ++ made :: calls =
        rangeCalls (logsToProcess fromBlock (first :: rest)) (progressBlock first rest) ∧
      handledLogs trace ++ callLogs (made :: calls) = logsToProcess fromBlock taken ∧
      next none = callAll calls ∧ ∀ err, ∃ failure, next (some err) = .fail failure := by
  cases place with
  | idle between handled => exact absurd between id
  | handles before done calls batch runs split handled =>
      obtain ⟨calls, rfl, goesOn, fails⟩ := callAll_eq_ask runs.symm
      exact ⟨before, done, calls, batch, split, handled, goesOn, fails⟩

/-- After the last call all logs taken are handled. -/
theorem TakenLogs.finished
    (place : TakenLogs fromBlock trace taken (.handles first rest (.done ()))) :
    handledLogs trace = logsToProcess fromBlock taken := by
  cases place with
  | idle between handled => exact handled
  | handles before made calls batch runs split handled =>
      obtain rfl := callAll_eq_done runs.symm
      exact (List.append_nil _).symm.trans handled

end Taking

section Accounting

variable {capacity : Nat} {fromBlock : UInt64} {s t : SinkState} {shown : Option IndexerEvent}
variable {trace : List IndexerEvent} {first : EvmLog} {logs : List EvmLog}

theorem handledLogs_called (made : HandlerCall) :
    handledLogs [.called made] = callLogs [made] := by
  cases made <;> rfl

theorem callLogs_cons (made : HandlerCall) (calls : List HandlerCall) :
    callLogs (made :: calls) = callLogs [made] ++ callLogs calls := by
  cases made <;> rfl

theorem Accounted.silent (accounted : Accounted fromBlock s trace) :
    Accounted fromBlock s (trace ++ (none : Option IndexerEvent).toList) := by
  rw [Option.toList_none, List.append_nil]
  exact accounted

/-- A call that returns leaves the logs it has not handled. -/
theorem Accounted.returns (accounted : Accounted fromBlock s trace)
    (outcome : Except GoError Unit) :
    Accounted fromBlock { s with stage := .returned outcome } trace := by
  obtain ⟨taken, split, place⟩ := accounted
  obtain ⟨left, handled⟩ := place.handled_le
  exact ⟨taken, split, .returned left handled⟩

/-- A step between two batches. -/
theorem Accounted.idles (accounted : Accounted fromBlock s trace) (before : s.stage.Idle)
    {stage : SinkStage} (after : stage.Idle) :
    Accounted fromBlock { s with stage := stage } trace := by
  obtain ⟨taken, split, place⟩ := accounted
  exact ⟨taken, split, .idle after (place.between before)⟩

/-- `readUntilEmpty` returns and the batch is handled from its first call on. -/
theorem Accounted.drained (accounted : Accounted fromBlock s trace)
    (stands : s.stage = .drains first logs) :
    Accounted fromBlock { s with stage := .handles first logs (HandlerProgram.handleLogs
      (logsToProcess fromBlock (first :: logs)) (progressBlock first logs)) } trace := by
  obtain ⟨taken, split, place⟩ := accounted
  rw [stands] at place
  cases place with
  | idle between handled => exact absurd between id
  | drains before batch handled =>
      refine ⟨taken, split, .handles before [] _ batch (handleLogs_eq _ _)
        (List.nil_append _) ?_⟩
      rw [callLogs_rangeCalls, handled, batch, logsToProcess_append]

/-- One step keeps account of every log. -/
theorem Accounted.step (accounted : Accounted fromBlock s trace)
    (step : SinkStep capacity fromBlock s shown t) :
    Accounted fromBlock t (trace ++ shown.toList) := by
  cases step with
  | subscribes | cannotSubscribe | closesStarted | closesRefused | subscriberDone
  | subscriptionFails | callerCancels | closes => exact accounted.silent
  | done | headFailed | drainDone | notHandled | receiveClosed =>
      exact (accounted.returns _).silent
  | started stands | tick stands | headReported stands =>
      exact (accounted.idles (by rw [stands]; trivial) (by trivial)).silent
  | drainClosed stands | drainEmpty stands => exact (accounted.drained stands).silent
  | deliver log subscribed room isOpen =>
      obtain ⟨taken, split, place⟩ := accounted
      refine Accounted.silent ⟨taken, ?_, place⟩
      change s.delivered ++ [log] = taken ++ (s.sink ++ [log])
      rw [split, List.append_assoc]
  | notified stands =>
      obtain ⟨taken, split, place⟩ := accounted
      refine ⟨taken, split, .idle trivial ?_⟩
      rw [Option.toList_some, handledLogs_snoc]
      exact (List.append_nil _).trans (place.between (by rw [stands]; trivial))
  | @receive first rest stands ready =>
      obtain ⟨taken, split, place⟩ := accounted
      have handled := place.between (by rw [stands]; trivial)
      refine Accounted.silent ⟨taken ++ [first], ?_, .drains taken rfl handled⟩
      change s.delivered = taken ++ [first] ++ rest
      rw [split, ready, List.append_assoc, List.singleton_append]
  | @drainMore first next logs rest stands ready =>
      obtain ⟨taken, split, place⟩ := accounted
      rw [stands] at place
      cases place with
      | idle between handled => exact absurd between id
      | drains before batch handled =>
          refine Accounted.silent ⟨taken ++ [next], ?_, .drains before ?_ handled⟩
          · change s.delivered = taken ++ [next] ++ rest
            rw [split, ready, List.append_assoc, List.singleton_append]
          · rw [batch, List.append_assoc, List.cons_append]
  | @called first rest made next stands =>
      obtain ⟨taken, split, place⟩ := accounted
      rw [stands] at place
      obtain ⟨before, done, calls, batch, calling, handled, goesOn, _⟩ := place.asks
      refine ⟨taken, split, .handles before (done ++ [made]) calls batch goesOn ?_ ?_⟩
      · rw [List.append_assoc, List.singleton_append]
        exact calling
      · rw [Option.toList_some, handledLogs_snoc, handledLogs_called, List.append_assoc,
          ← callLogs_cons, handled]
  | refused err stands =>
      obtain ⟨taken, split, place⟩ := accounted
      rw [stands] at place
      obtain ⟨left, handled⟩ := place.handled_le
      obtain ⟨_, _, _, _, _, _, _, fails⟩ := place.asks
      obtain ⟨failure, failed⟩ := fails err
      refine ⟨taken, split, ?_⟩
      rw [failed, Option.toList_some]
      refine .failed left ?_
      rw [handledLogs_snoc]
      exact (congrArg (· ++ left) (List.append_nil _)).trans handled
  | handled stands =>
      obtain ⟨taken, split, place⟩ := accounted
      rw [stands] at place
      exact Accounted.silent ⟨taken, split, .idle trivial place.finished⟩

end Accounting

/-! ### Every log once -/

section Commits

variable {capacity : Nat} {fromBlock : UInt64} {s t : SinkState} {shown : Option IndexerEvent}
variable {trace before : List IndexerEvent} {event : IndexerEvent}

/-- The subscription only adds to what it has delivered. -/
theorem SinkStep.delivered_le (step : SinkStep capacity fromBlock s shown t) :
    s.delivered <+: t.delivered := by
  cases step with
  | deliver log => exact List.prefix_append _ _
  | started | notified | done | tick | receive | receiveClosed | headReported | headFailed
  | drainDone | drainMore | drainClosed | drainEmpty | called | refused | handled | notHandled
  | closes | subscribes | cannotSubscribe | closesStarted | closesRefused | subscriberDone
  | subscriptionFails | callerCancels => exact List.prefix_rfl

theorem CommitAccounts.mono {delivered more : List EvmLog} (grown : delivered <+: more)
    (accounts : CommitAccounts fromBlock delivered before event) :
    CommitAccounts fromBlock more before event := by
  unfold CommitAccounts at accounts ⊢
  split
  · obtain ⟨read, last, reached, rest⟩ := accounts
    exact ⟨read, last, reached.trans grown, rest⟩
  · trivial

/-- A batch ends with the log whose block is committed. -/
theorem batch_eq_concat (first : EvmLog) (rest : List EvmLog) :
    ∃ read last, first :: rest = read ++ [last] ∧ last.blockNumber = progressBlock first rest :=
  ⟨_, _, (List.dropLast_append_getLast (List.cons_ne_nil first rest)).symm, rfl⟩

/-- The commit of a batch is its last call, so the logs taken are handled by then. -/
theorem Accounted.commits {first : EvmLog} {rest : List EvmLog} {block : UInt64}
    {next : Option GoError → HandlerProgram Unit} (accounted : Accounted fromBlock s trace)
    (stands : s.stage = .handles first rest (.ask (.commit block) next)) :
    CommitAccounts fromBlock s.delivered trace (.called (.commit block)) := by
  obtain ⟨taken, split, place⟩ := accounted
  rw [stands] at place
  obtain ⟨before, done, calls, batch, calling, handled, _, _⟩ := place.asks
  rcases rangeCalls_split calling with ⟨rfl, same⟩ | ⟨_, notCommit⟩
  · obtain ⟨read, last, ends, lastBlock⟩ := batch_eq_concat first rest
    have readAll : taken = before ++ read ++ [last] := by rw [batch, ends, List.append_assoc]
    refine ⟨before ++ read, last, ?_, ?_, ?_⟩
    · rw [split, readAll]
      exact List.prefix_append _ _
    · rw [lastBlock, HandlerCall.commit.inj same]
    · rw [← readAll, ← handled]
      exact (List.append_nil _).symm
  · exact absurd rfl (notCommit block)

/-- What the trace says of the logs delivered. -/
structure Accounts (fromBlock : UInt64) (s : SinkState) (trace : List IndexerEvent) : Prop where
  logs : Accounted fromBlock s trace
  commits : EachEvent (CommitAccounts fromBlock s.delivered) trace

theorem Accounts.step (accounts : Accounts fromBlock s trace)
    (step : SinkStep capacity fromBlock s shown t) :
    Accounts fromBlock t (trace ++ shown.toList) := by
  refine ⟨accounts.logs.step step, ?_⟩
  have kept : EachEvent (CommitAccounts fromBlock t.delivered) trace :=
    fun before event after split =>
      (accounts.commits before event after split).mono step.delivered_le
  cases shown with
  | none =>
      rw [Option.toList_none, List.append_nil]
      exact kept
  | some event =>
      rw [Option.toList_some]
      refine eachEvent_snoc.mpr ⟨kept, ?_⟩
      cases step with
      | notified | refused => trivial
      | @called first rest made next stands =>
          cases made with
          | prepareContext | handleEVMLog => trivial
          | commit block => exact accounts.logs.commits stands

theorem SinkStart.accounts (start : SinkStart s) : Accounts fromBlock s [] := by
  refine ⟨⟨[], start.unread, .idle ?_ rfl⟩, eachEvent_nil _⟩
  rcases start.stage with stands | stands <;>
  · rw [stands]
    trivial

end Commits

/-- In every interleaving the handler gets the logs of the subscription from the start block on in
their order and each once, none is left out while the call waits at an empty channel, and a commit
comes when exactly the logs up to one of its block are handled. -/
theorem sink_handles_each_log_once {capacity : Nat} {fromBlock : UInt64} {s : SinkState}
    {after : Traced SinkState IndexerEvent} (start : SinkStart s)
    (run : SinkRun capacity fromBlock ⟨s, []⟩ after) :
    handledLogs after.trace <+: logsToProcess fromBlock after.state.delivered ∧
      (after.state.stage = .selects → after.state.sink = [] →
        handledLogs after.trace = logsToProcess fromBlock after.state.delivered) ∧
      EachEvent (CommitAccounts fromBlock after.state.delivered) after.trace := by
  obtain ⟨⟨taken, split, place⟩, commits⟩ :=
    Traced.invariant (fun accounts step => Accounts.step accounts step) run start.accounts
  refine ⟨?_, ?_, commits⟩
  · obtain ⟨left, handled⟩ := place.handled_le
    rw [split, logsToProcess_append, ← handled, List.append_assoc]
    exact List.prefix_append _ _
  · intro stands empty
    rw [split, empty, List.append_nil]
    exact place.between (by rw [stands]; trivial)

theorem sink_handles_each_log_once_here :
    handledLogs sinkEnd.trace <+: logsToProcess 5 sinkEnd.state.delivered ∧
      (sinkEnd.state.stage = .selects → sinkEnd.state.sink = [] →
        handledLogs sinkEnd.trace = logsToProcess 5 sinkEnd.state.delivered) ∧
      EachEvent (CommitAccounts 5 sinkEnd.state.delivered) sinkEnd.trace :=
  sink_handles_each_log_once sinkStart_starts (sinkMiddle_reached.trans sinkEnd_reached)

/-! ### A context that is done -/

/-- The calls a program makes if none of them fails. -/
def HandlerProgram.callsLeft : HandlerProgram Unit → List HandlerCall
  | .done _ | .fail _ => []
  | .ask made next => made :: HandlerProgram.callsLeft (next none)

/-- The calls left of the batch in hand. -/
def SinkStage.callsLeft : SinkStage → List HandlerCall
  | .handles _ _ program => HandlerProgram.callsLeft program
  | .awaitsStart | .notifies | .selects | .asksHead | .drains _ _ | .returned _ => []

/-- The modes the handler has been told with `OnIndexerModeChange`. -/
def modesTold (trace : List IndexerEvent) : List Mode :=
  trace.filterMap fun
    | .modeChange mode => some mode
    | .blockNumber _ | .filterLogs _ _ _ | .called _ | .refused _ _ => none

/-- The mode the handler is still to be told. -/
def SinkStage.modesLeft : SinkStage → List Mode
  | .awaitsStart | .notifies => [.ws]
  | .selects | .asksHead | .drains _ _ | .handles _ _ _ | .returned _ => []

/-- The context is done, and the calls made and those left of the batch in hand begin `allowed`. -/
structure Winding (fromBlock : UInt64) (allowed : List HandlerCall) (s : SinkState)
    (trace : List IndexerEvent) : Prop where
  isDone : s.cause ≠ none
  logs : Accounted fromBlock s trace
  closing : ClosedAfterReturn s
  bounded : callsMade trace ++ s.stage.callsLeft <+: allowed

section Done

variable {capacity : Nat} {fromBlock : UInt64} {s t : SinkState} {shown : Option IndexerEvent}
variable {trace : List IndexerEvent} {allowed : List HandlerCall}

theorem SinkState.cancel_ne_none (cause : Option GoError) : (s.cancel cause).cause ≠ none := by
  simp [SinkState.cancel]

/-- The first cause stays. -/
theorem SinkStep.cause_ne_none (step : SinkStep capacity fromBlock s shown t)
    (isDone : s.cause ≠ none) : t.cause ≠ none := by
  cases step with
  | cannotSubscribe | closesRefused | subscriberDone | subscriptionFails | callerCancels =>
      exact SinkState.cancel_ne_none _
  | started | notified | done | tick | receive | receiveClosed | headReported | headFailed
  | drainDone | drainMore | drainClosed | drainEmpty | called | refused | handled | notHandled
  | closes | subscribes | closesStarted | deliver => exact isDone

theorem callsMade_silent {left calls : List HandlerCall} (fewer : left <+: calls) :
    callsMade (trace ++ (none : Option IndexerEvent).toList) ++ left <+:
      callsMade trace ++ calls := by
  rw [Option.toList_none, List.append_nil]
  exact (List.prefix_append_right_inj _).mpr fewer

/-- The calls made and left after a step begin those before it: with the context done
`readUntilEmpty` does not take its default, so no batch is begun. -/
theorem Winding.step (winding : Winding fromBlock allowed s trace)
    (step : SinkStep capacity fromBlock s shown t) :
    Winding fromBlock allowed t (trace ++ shown.toList) := by
  refine ⟨step.cause_ne_none winding.isDone, winding.logs.step step,
    winding.closing.step step, List.IsPrefix.trans ?_ winding.bounded⟩
  cases step with
  | subscribes | cannotSubscribe | closesStarted | closesRefused | subscriberDone
  | subscriptionFails | deliver | callerCancels | closes =>
      exact callsMade_silent List.prefix_rfl
  | started | done | tick | receive | receiveClosed | headReported | headFailed | drainDone
  | drainMore | handled | notHandled => exact callsMade_silent List.nil_prefix
  | notified stands =>
      rw [stands, Option.toList_some, callsMade_snoc, List.append_assoc]
      exact List.prefix_rfl
  | drainEmpty stands empty isOpen alive => exact absurd alive winding.isDone
  | drainClosed stands empty isClosed =>
      exact (winding.closing.not_running stands nofun isClosed).elim
  | called stands =>
      rw [stands, Option.toList_some, callsMade_snoc, List.append_assoc]
      exact List.prefix_rfl
  | @refused first rest made next err stands =>
      -- a refused call ends its batch
      obtain ⟨taken, _, place⟩ := winding.logs
      rw [stands] at place
      obtain ⟨_, _, _, _, _, _, _, fails⟩ := place.asks
      obtain ⟨failure, failed⟩ := fails err
      rw [stands, failed, Option.toList_some, callsMade_snoc, List.append_assoc]
      exact (List.prefix_append_right_inj _).mpr ⟨HandlerProgram.callsLeft (next none), rfl⟩

/-- A step tells the handler a mode only if it was still to be told, context or not. -/
theorem SinkStep.modes_le (step : SinkStep capacity fromBlock s shown t) :
    modesTold shown.toList ++ t.stage.modesLeft <+: s.stage.modesLeft := by
  cases step with
  | started stands | notified stands =>
      rw [stands]
      exact List.prefix_rfl
  | subscribes | cannotSubscribe | closesStarted | closesRefused | subscriberDone
  | subscriptionFails | deliver | callerCancels | closes => exact List.prefix_rfl
  | done | tick | receive | receiveClosed | headReported | headFailed | drainDone | drainMore
  | drainClosed | drainEmpty | called | refused | handled | notHandled => exact List.nil_prefix

/-- So do the steps of a run. -/
theorem SinkRun.modes_le {before after : Traced SinkState IndexerEvent}
    (run : SinkRun capacity fromBlock before after) :
    modesTold after.trace ++ after.state.stage.modesLeft <+:
      modesTold before.trace ++ before.state.stage.modesLeft := by
  let holds (s : SinkState) (trace : List IndexerEvent) : Prop :=
    modesTold trace ++ s.stage.modesLeft <+:
      modesTold before.trace ++ before.state.stage.modesLeft
  have keeps {s shown t trace} (bounded : holds s trace)
      (step : SinkStep capacity fromBlock s shown t) : holds t (trace ++ shown.toList) := by
    refine List.IsPrefix.trans ?_ bounded
    rw [modesTold, List.filterMap_append, List.append_assoc]
    exact (List.prefix_append_right_inj _).mpr step.modes_le
  exact @Traced.invariant _ _ _ _ _ holds keeps run List.prefix_rfl

/-- Between the goroutines `started` is closed sooner or later. -/
def Handshake (s : SinkState) : Prop :=
  s.started = false → s.subscriber = .creates ∨ s.subscriber = .created ∨ s.subscriber = .refused

theorem Handshake.step (handshake : Handshake s) (step : SinkStep capacity fromBlock s shown t) :
    Handshake t := by
  intro waits
  cases step with
  | subscribes => exact Or.inr (Or.inl rfl)
  | cannotSubscribe => exact Or.inr (Or.inr rfl)
  | closesStarted | closesRefused => cases waits
  | subscriberDone stands | subscriptionFails _ stands =>
      have waiting := handshake waits
      rw [stands] at waiting
      simp at waiting
  | started | notified | done | tick | receive | receiveClosed | headReported | headFailed
  | drainDone | drainMore | drainClosed | drainEmpty | called | refused | handled | notHandled
  | closes | deliver | callerCancels => exact handshake waits

end Done

/-- What is known of every state a run reaches. -/
structure SinkReached (fromBlock : UInt64) (s : SinkState) (trace : List IndexerEvent) : Prop where
  logs : Accounted fromBlock s trace
  closing : ClosedAfterReturn s
  errors : ReturnsErrors s
  handshake : Handshake s

section Reached

variable {capacity : Nat} {fromBlock : UInt64} {s : SinkState}
variable {after : Traced SinkState IndexerEvent}

theorem SinkStart.reached (start : SinkStart s) : SinkReached fromBlock s [] := by
  refine ⟨start.accounts.logs, ?_, ?_, start.handshake⟩
  · intro isClosed
    rw [start.isOpen] at isClosed
    cases isClosed
  · intro outcome returned
    rcases start.stage with stands | stands <;>
    · rw [stands] at returned
      cases returned

theorem SinkRun.reached (start : SinkStart s) (run : SinkRun capacity fromBlock ⟨s, []⟩ after) :
    SinkReached fromBlock after.state after.trace := by
  refine Traced.invariant (fun reached step => ?_) run start.reached
  exact ⟨reached.logs.step step, reached.closing.step step,
    reached.errors.step reached.closing step, reached.handshake.step step⟩

end Reached

/-- Once the context is done, whatever the interleaving, `PrepareContext`, `HandleEVMLog` and
`Commit` are called at most for the rest of the batch in hand, `OnIndexerModeChange` at most if the
call has not come to it yet, and the call can only return an error. -/
theorem sink_begins_nothing_when_done {capacity : Nat} {fromBlock : UInt64} {s : SinkState}
    {before after : Traced SinkState IndexerEvent} (start : SinkStart s)
    (run : SinkRun capacity fromBlock ⟨s, []⟩ before) (isDone : before.state.cause ≠ none)
    (onward : SinkRun capacity fromBlock before after) :
    callsMade after.trace <+: callsMade before.trace ++ before.state.stage.callsLeft ∧
      modesTold after.trace <+: modesTold before.trace ++ before.state.stage.modesLeft ∧
      ∀ outcome, after.state.stage = .returned outcome → ∃ err, outcome = .error err := by
  have reached := SinkRun.reached start run
  have winding : Winding fromBlock (callsMade before.trace ++ before.state.stage.callsLeft)
      before.state before.trace := ⟨isDone, reached.logs, reached.closing, List.prefix_rfl⟩
  have wound := Traced.invariant (fun winding step => Winding.step winding step) onward winding
  exact ⟨(List.prefix_append _ _).trans wound.bounded,
    (List.prefix_append _ _).trans (SinkRun.modes_le onward),
    (SinkRun.reached start (run.trans onward)).errors⟩

theorem sink_begins_nothing_when_done_here :
    callsMade sinkEnd.trace <+: callsMade sinkMiddle.trace ++ sinkMiddle.state.stage.callsLeft ∧
      modesTold sinkEnd.trace <+: modesTold sinkMiddle.trace ++ sinkMiddle.state.stage.modesLeft ∧
      ∀ outcome, sinkEnd.state.stage = .returned outcome → ∃ err, outcome = .error err :=
  sink_begins_nothing_when_done sinkStart_starts sinkMiddle_reached nofun sinkEnd_reached

/-! ### The way out -/

/-- From here the call can come to return an error. -/
def CanReturn (capacity : Nat) (fromBlock : UInt64) (before : Traced SinkState IndexerEvent) :
    Prop :=
  ∃ after err, SinkRun capacity fromBlock before after ∧
    after.state.stage = .returned (.error err)

section WayOut

variable {capacity : Nat} {fromBlock : UInt64} {s t : SinkState} {shown : Option IndexerEvent}
variable {trace : List IndexerEvent}

theorem CanReturn.head (step : SinkStep capacity fromBlock s shown t)
    (goesOn : CanReturn capacity fromBlock ⟨t, trace ++ shown.toList⟩) :
    CanReturn capacity fromBlock ⟨s, trace⟩ := by
  obtain ⟨after, err, run, returned⟩ := goesOn
  exact ⟨after, err, Traced.run_cons step run, returned⟩

/-- The step itself returns the error. -/
theorem CanReturn.last {err : GoError} (step : SinkStep capacity fromBlock s shown t)
    (returned : t.stage = .returned (.error err)) : CanReturn capacity fromBlock ⟨s, trace⟩ :=
  .head step ⟨_, err, .refl, returned⟩

theorem canReturn_selects (stands : s.stage = .selects) (isDone : s.cause ≠ none) :
    CanReturn capacity fromBlock ⟨s, trace⟩ := by
  obtain ⟨cause, known⟩ := Option.ne_none_iff_exists'.mp isDone
  exact .last (.done stands known) rfl

theorem canReturn_notifies (stands : s.stage = .notifies) (isDone : s.cause ≠ none) :
    CanReturn capacity fromBlock ⟨s, trace⟩ :=
  .head (.notified stands) (canReturn_selects rfl isDone)

/-- By induction on the calls left of the batch. -/
theorem canReturn_handles {first : EvmLog} {rest : List EvmLog} {program : HandlerProgram Unit}
    (stands : s.stage = .handles first rest program) (isDone : s.cause ≠ none) :
    CanReturn capacity fromBlock ⟨s, trace⟩ := by
  induction program generalizing s trace with
  | done value => exact .head (.handled stands) (canReturn_selects rfl isDone)
  | fail err => exact .last (.notHandled stands) rfl
  | ask made next ih => exact .head (.called stands) (ih none rfl isDone)

/-- Whoever still has to close `started` does. -/
theorem canReturn_awaitsStart (stands : s.stage = .awaitsStart) (isDone : s.cause ≠ none)
    (handshake : Handshake s) : CanReturn capacity fromBlock ⟨s, trace⟩ := by
  have entered {u : SinkState} {events : List IndexerEvent} (waits : u.stage = .awaitsStart)
      (ready : u.started = true) (ended : u.cause ≠ none) :
      CanReturn capacity fromBlock ⟨u, events⟩ :=
    .head (.started waits ready) (canReturn_notifies rfl ended)
  have closes {u : SinkState} {events : List IndexerEvent} (waits : u.stage = .awaitsStart)
      (created : u.subscriber = .created) (ended : u.cause ≠ none) :
      CanReturn capacity fromBlock ⟨u, events⟩ :=
    .head (.closesStarted created) (entered waits rfl ended)
  cases ready : s.started with
  | true => exact entered stands ready isDone
  | false =>
      rcases handshake ready with creates | created | refused
      · exact .head (.subscribes creates) (closes stands rfl isDone)
      · exact closes stands created isDone
      · exact .head (.closesRefused refused)
          (entered stands rfl (SinkState.cancel_ne_none none))

end WayOut

/-- No interleaving leads a call whose context is done into a wait without end: from every state of
every run it can still return, with an error. -/
theorem sink_can_return_when_done {capacity : Nat} {fromBlock : UInt64} {s : SinkState}
    {before : Traced SinkState IndexerEvent} (start : SinkStart s)
    (run : SinkRun capacity fromBlock ⟨s, []⟩ before) (isDone : before.state.cause ≠ none) :
    CanReturn capacity fromBlock before := by
  have reached := SinkRun.reached start run
  cases stands : before.state.stage with
  | awaitsStart => exact canReturn_awaitsStart stands isDone reached.handshake
  | notifies => exact canReturn_notifies stands isDone
  | selects => exact canReturn_selects stands isDone
  | asksHead => exact .head (.headReported stands) (canReturn_selects rfl isDone)
  | drains first logs =>
      obtain ⟨cause, known⟩ := Option.ne_none_iff_exists'.mp isDone
      exact .last (.drainDone stands known) rfl
  | handles first rest program => exact canReturn_handles stands isDone
  | returned outcome =>
      obtain ⟨err, rfl⟩ := reached.errors outcome stands
      exact ⟨before, err, .refl, stands⟩

theorem sink_can_return_when_done_here : CanReturn 2 5 sinkMiddle :=
  sink_can_return_when_done sinkStart_starts sinkMiddle_reached nofun

/-! ### The subscription after the call -/

/-- The process can panic only after the call has returned. -/
theorem SinkPanic.after_return {fromBlock : UInt64} {s : SinkState} {trace : List IndexerEvent}
    {reason : GoError} (panics : SinkPanic s reason) (reached : SinkReached fromBlock s trace) :
    ∃ err, s.stage = .returned (.error err) := by
  cases panics with
  | deliverClosed log subscribed isClosed =>
      obtain ⟨outcome, returned⟩ := reached.closing isClosed
      obtain ⟨err, rfl⟩ := reached.errors outcome returned
      exact ⟨err, returned⟩

/-- `IndexEVMLogs` does not end its context when it returns: if the handler refuses a call, the
channel can come to be closed with the subscription and the context left as they were, and if there
is a subscription, the next log it sends ends the process.  Before the call has returned no
interleaving does. -/
theorem refused_call_leaves_subscription {capacity : Nat} {fromBlock : UInt64} {s : SinkState}
    {before : Traced SinkState IndexerEvent} (start : SinkStart s)
    (run : SinkRun capacity fromBlock ⟨s, []⟩ before) {first : EvmLog} {rest : List EvmLog}
    {made : HandlerCall} {next : Option GoError → HandlerProgram Unit} (err : GoError)
    (stands : before.state.stage = .handles first rest (.ask made next)) :
    (∃ after failure, SinkRun capacity fromBlock before after ∧
      after.state = { before.state with
        stage := .returned (.error (.wrapf "handle logs" failure)), closed := true } ∧
      (before.state.subscriber = .created ∨ before.state.subscriber = .follows →
        SinkPanic after.state (.panic "send on closed channel"))) ∧
      ∀ later reason, SinkRun capacity fromBlock before later → SinkPanic later.state reason →
        ∃ failure, later.state.stage = .returned (.error failure) := by
  refine ⟨?_, fun later reason onward panics =>
    panics.after_return (SinkRun.reached start (run.trans onward))⟩
  obtain ⟨taken, _, place⟩ := (SinkRun.reached start run).logs
  rw [stands] at place
  obtain ⟨_, _, _, _, _, _, _, fails⟩ := place.asks
  obtain ⟨failure, failed⟩ := fails err
  refine ⟨⟨_, before.trace ++ [.refused made err] ++ [] ++ []⟩, failure, ?_, rfl,
    fun subscribed => .deliverClosed first subscribed rfl⟩
  refine Traced.run_cons (.refused err stands) ?_
  rw [failed]
  refine Traced.run_cons (.notHandled rfl) ?_
  refine Traced.run_cons (.closes rfl) ?_
  exact .refl

theorem refused_call_leaves_subscription_here :
    ∃ after failure, SinkRun 2 5 sinkBusy after ∧
      after.state = { sinkBusy.state with
        stage := .returned (.error (.wrapf "handle logs" failure)), closed := true } ∧
      SinkPanic after.state (.panic "send on closed channel") := by
  obtain ⟨after, failure, onward, returned, panics⟩ :=
    (refused_call_leaves_subscription sinkStart_starts sinkBusy_reached contextCanceled rfl).1
  exact ⟨after, failure, onward, returned, panics (.inr rfl)⟩

end MerkleProofService
