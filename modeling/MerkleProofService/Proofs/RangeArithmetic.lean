/-
Module: MerkleProofService.Proofs.RangeArithmetic
Layer: Proofs
Purpose: The unsigned arithmetic of the loop of `IndexEVMLogs`, in every mode and for every
  configuration.  Three operations can wrap: `fromBlock+MaxBlocksDistance-1`, `toBlock+1` and
  `currentBlock-fromBlock`.  The module says exactly when a round is computed as it should be, and
  that a call whose ranges do not wrap moves forward with each of them.
Imports: Proofs.PollingRuns
Trusted boundary: none
Main exports: RoundRight, RoundFits, roundRight_iff, followingBlock, RangeAt, InLoop,
  InLoop.step, ranges_progress, range_arithmetic_exact, range_arithmetic_wraps
-/
import MerkleProofService.Proofs.PollingRuns

namespace MerkleProofService

open Library

/-! ### One round of the loop -/

/-- A round computed as it should be: the range runs forward and not past the head, the next round
starts after it, and the distance that decides on the subscription is the true one, which is zero
once the next round starts after the head. -/
structure RoundRight (config : Config) (loop : Loop) : Prop where
  forward : loop.fromBlock ≤ loop.toBlock config
  within : loop.toBlock config ≤ loop.currentBlock
  progress : loop.fromBlock < loop.toBlock config + 1
  distance : config.indexerMode = .ws → loop.subscriptionStarted = false →
    (loop.currentBlock - (loop.toBlock config + 1)).toNat =
      loop.currentBlock.toNat - (loop.toBlock config + 1).toNat

/-- None of the three operations wraps.  The last one wraps whenever the range reaches the head,
which is when the head is less than the distance away. -/
structure RoundFits (config : Config) (loop : Loop) : Prop where
  additions : RangeFits config loop
  short : config.indexerMode = .ws → loop.subscriptionStarted = false →
    loop.fromBlock.toNat + config.maxBlocksDistance.toNat ≤ loop.currentBlock.toNat

theorem toNat_succ_of_lt {block : UInt64} (room : block.toNat + 1 < 2 ^ 64) :
    (block + 1).toNat = block.toNat + 1 := by
  rw [UInt64.toNat_add]
  exact Nat.mod_eq_of_lt room

/-- A difference of block numbers is the true one exactly if it is not negative. -/
theorem toNat_sub_eq_iff (block other : UInt64) :
    (block - other).toNat = block.toNat - other.toNat ↔ other ≤ block := by
  have low := block.toNat_lt
  have high := other.toNat_lt
  rw [UInt64.toNat_sub, UInt64.le_iff_toNat_le]
  omega

section Round

variable {config : Config} {loop : Loop}

/-- A sum that wraps ends before the first block of the range. -/
theorem toBlock_lt_fromBlock (positive : config.maxBlocksDistance ≠ 0)
    (wraps : 2 ^ 64 < loop.fromBlock.toNat + config.maxBlocksDistance.toNat) :
    (loop.toBlock config).toNat < loop.fromBlock.toNat := by
  have nonzero := toNat_ne_zero positive
  have small := config.maxBlocksDistance.toNat_lt
  have last : (loop.fromBlock + config.maxBlocksDistance - 1).toNat < loop.fromBlock.toNat := by
    have start := loop.fromBlock.toNat_lt
    rw [UInt64.toNat_sub, UInt64.toNat_add]
    change (2 ^ 64 - 1 + _) % 2 ^ 64 < _
    omega
  rw [Loop.toBlock, toNat_min]
  exact Nat.lt_of_le_of_lt (Nat.min_le_left _ _) last

/-- The range runs forward exactly if its sum does not wrap. -/
theorem fromBlock_le_toBlock_iff (positive : config.maxBlocksDistance ≠ 0)
    (within : loop.fromBlock ≤ loop.currentBlock) :
    loop.fromBlock ≤ loop.toBlock config ↔
      loop.fromBlock.toNat + config.maxBlocksDistance.toNat ≤ 2 ^ 64 := by
  rw [UInt64.le_iff_toNat_le]
  constructor
  · intro forward
    by_contra wraps
    exact absurd forward (Nat.not_le.mpr (toBlock_lt_fromBlock positive (Nat.not_le.mp wraps)))
  · intro sum
    have nonzero := toNat_ne_zero positive
    have low := UInt64.le_iff_toNat_le.mp within
    rw [toNat_toBlock sum positive]
    omega

/-- The next round starts after this one exactly if neither addition wraps. -/
theorem fromBlock_lt_next_iff (positive : config.maxBlocksDistance ≠ 0)
    (within : loop.fromBlock ≤ loop.currentBlock) :
    loop.fromBlock < loop.toBlock config + 1 ↔ RangeFits config loop := by
  have bound := (loop.toBlock config).toNat_lt
  rw [rangeFits_iff positive, ← fromBlock_le_toBlock_iff positive within,
    UInt64.lt_iff_toNat_lt, UInt64.le_iff_toNat_le]
  by_cases room : (loop.toBlock config).toNat + 1 < 2 ^ 64
  · rw [toNat_succ_of_lt room]
    omega
  · have zero : (loop.toBlock config + 1).toNat = 0 := by
      rw [UInt64.toNat_add]
      change (_ + 1) % 2 ^ 64 = 0
      omega
    rw [zero]
    omega

/-- The range ends before the head exactly if the head is at least the distance away. -/
theorem toBlock_lt_currentBlock_iff (positive : config.maxBlocksDistance ≠ 0)
    (fits : RangeFits config loop) :
    loop.toBlock config < loop.currentBlock ↔
      loop.fromBlock.toNat + config.maxBlocksDistance.toNat ≤ loop.currentBlock.toNat := by
  have nonzero := toNat_ne_zero positive
  rw [UInt64.lt_iff_toNat_lt, toNat_toBlock fits.1 positive]
  omega

/-- A round that starts at or before the head is computed as it should be exactly if nothing
wraps. -/
theorem roundRight_iff (positive : config.maxBlocksDistance ≠ 0)
    (within : loop.fromBlock ≤ loop.currentBlock) :
    RoundRight config loop ↔ RoundFits config loop := by
  -- once the successor does not wrap, the difference is the true one below the head only
  have distance (fits : RangeFits config loop) :
      (loop.currentBlock - (loop.toBlock config + 1)).toNat =
        loop.currentBlock.toNat - (loop.toBlock config + 1).toNat ↔
      loop.fromBlock.toNat + config.maxBlocksDistance.toNat ≤ loop.currentBlock.toNat := by
    rw [← toBlock_lt_currentBlock_iff positive fits, toNat_sub_eq_iff, UInt64.le_iff_toNat_le,
      UInt64.lt_iff_toNat_lt, toNat_succ_of_lt ((rangeFits_iff positive).mp fits).2]
    exact Iff.rfl
  constructor
  · intro right
    have fits := (fromBlock_lt_next_iff positive within).mp right.progress
    exact ⟨fits, fun ws notStarted => (distance fits).mp (right.distance ws notStarted)⟩
  · intro fits
    apply RoundRight.mk
    · exact (fromBlock_le_toBlock_iff positive within).mpr fits.additions.1
    · exact UInt64.le_iff_toNat_le.mpr (toBlock_le_currentBlock config loop)
    · exact (fromBlock_lt_next_iff positive within).mpr fits.additions
    · intro ws notStarted
      exact (distance fits.additions).mpr (fits.short ws notStarted)

end Round

/-! ### The rounds of a call -/

/-- The block after the last range, as the call computes it, or the start block before the
first. -/
def followingBlock (startBlock : UInt64) (trace : List IndexerEvent) : UInt64 :=
  trace.foldl (fun next event =>
    match event with
    | .filterLogs _ toBlock _ => toBlock + 1
    | .blockNumber _ | .called _ | .refused _ _ | .modeChange _ => next) startBlock

@[simp] theorem followingBlock_snoc_range (startBlock : UInt64) (trace : List IndexerEvent)
    (fromBlock toBlock : UInt64) (logs : List EvmLog) :
    followingBlock startBlock (trace ++ [.filterLogs fromBlock toBlock logs]) = toBlock + 1 := by
  rw [followingBlock, List.foldl_append]
  rfl

theorem followingBlock_snoc (startBlock : UInt64) (trace : List IndexerEvent)
    {event : IndexerEvent}
    (other : ∀ fromBlock toBlock logs, event ≠ .filterLogs fromBlock toBlock logs) :
    followingBlock startBlock (trace ++ [event]) = followingBlock startBlock trace := by
  rw [followingBlock, List.foldl_append, ← followingBlock]
  cases event with
  | filterLogs fromBlock toBlock logs => exact absurd rfl (other fromBlock toBlock logs)
  | _ => rfl

/-- A range is the one the loop computes from the end of the range before it and the head most
recently reported. -/
def RangeAt (config : Config) (startBlock : UInt64) (before : List IndexerEvent) :
    IndexerEvent → Prop
  | .filterLogs fromBlock toBlock _ =>
      fromBlock = followingBlock startBlock before ∧
        ∃ loop : Loop, loop.fromBlock = fromBlock ∧ lastHead before = some loop.currentBlock ∧
          loop.fromBlock ≤ loop.currentBlock ∧ toBlock = loop.toBlock config
  | .blockNumber _ | .called _ | .refused _ _ | .modeChange _ => True

/-- The loop goes on where the ranges so far end, with the head most recently reported. -/
structure Continues (startBlock : UInt64) (trace : List IndexerEvent) (loop : Loop) : Prop where
  next : followingBlock startBlock trace = loop.fromBlock
  known : lastHead trace = some loop.currentBlock

/-- What the trace says of the variables of the loop. -/
def InLoop (config : Config) (startBlock : UInt64) (trace : List IndexerEvent) :
    IndexerCall → Prop
  | .getHead start => followingBlock startBlock trace = start
  | .filter loop => Continues startBlock trace loop ∧ loop.fromBlock ≤ loop.currentBlock
  | .handle loop _ => Continues startBlock trace { loop with fromBlock := loop.toBlock config + 1 }
  | .pollHead loop | .subscribe loop | .headAfterSubscription loop =>
      followingBlock startBlock trace = loop.fromBlock
  | .subscribeLate _ | .sink _ | .handleSink _ _ _ | .returned _ => True

section Rounds

variable {config : Config} {startBlock : UInt64} {trace : List IndexerEvent}

/-- An event that is neither a head nor a range leaves the place of the call. -/
theorem InLoop.snoc {call : IndexerCall} {event : IndexerEvent}
    (place : InLoop config startBlock trace call)
    (noHead : ∀ head, event ≠ .blockNumber head)
    (noRange : ∀ fromBlock toBlock logs, event ≠ .filterLogs fromBlock toBlock logs) :
    InLoop config startBlock (trace ++ [event]) call := by
  have next := followingBlock_snoc startBlock trace noRange
  have known := lastHead_snoc trace noHead
  cases call with
  | filter loop => exact ⟨⟨next.trans place.1.next, known.trans place.1.known⟩, place.2⟩
  | handle loop logs => exact ⟨next.trans place.next, known.trans place.known⟩
  | getHead start => exact next.trans place
  | pollHead loop => exact next.trans place
  | subscribe loop => exact next.trans place
  | headAfterSubscription loop => exact next.trans place
  | _ => trivial

theorem Continues.enter {loop : Loop} (place : Continues startBlock trace loop) :
    InLoop config startBlock trace (IndexerCall.enter config loop) := by
  unfold IndexerCall.enter
  split_ifs with within noSubscription notStarted
  · exact ⟨place, within⟩
  all_goals trivial

/-- A head leads into the loop, back to the polls, or out of the call. -/
theorem InLoop.head {call call' : IndexerCall} {block : UInt64}
    (place : InLoop config startBlock trace call)
    (answered : call.next config (.head block) = some call') :
    InLoop config startBlock (trace ++ [.blockNumber block]) call' := by
  have next := @followingBlock_snoc startBlock trace (.blockNumber block) (by simp)
  have enters (loop : Loop) (from_eq : followingBlock startBlock trace = loop.fromBlock) :
      Continues startBlock (trace ++ [.blockNumber block])
        { loop with currentBlock := block } :=
    ⟨next.trans from_eq, lastHead_snoc_head trace block⟩
  cases call with
  | getHead start =>
      obtain rfl := Option.some.inj answered
      unfold IndexerCall.begin
      split_ifs with late
      · trivial
      · exact (enters ⟨start, block, false, false⟩ place).enter
  | pollHead loop =>
      obtain rfl := Option.some.inj answered
      unfold IndexerCall.polled
      split_ifs with arrived
      · exact (enters loop place).enter
      · exact next.trans place
  | headAfterSubscription loop =>
      obtain rfl := Option.some.inj answered
      exact (enters loop place).enter
  | _ => cases answered

/-- A range that is handled leads to the next one, to the polls or the subscription, or out of the
call. -/
theorem Continues.advance {loop : Loop}
    (place : Continues startBlock trace { loop with fromBlock := loop.toBlock config + 1 }) :
    InLoop config startBlock trace (IndexerCall.advance config loop) := by
  unfold IndexerCall.advance
  cases config.indexerMode with
  | poll =>
      simp only
      split_ifs with more
      · exact place.enter
      · exact place.next
  | ws =>
      simp only
      split_ifs with close
      · exact place.next
      · exact place.enter
  | history => trivial
  | other name => trivial

/-- One step: the call stays in its place, and a range it filters is the one the loop computes. -/
theorem InLoop.step {s t : IndexerState} {shown : Option IndexerEvent}
    (place : InLoop config startBlock trace s.call) (step : IndexerStep config s shown t) :
    InLoop config startBlock (trace ++ shown.toList) t.call ∧
      ∀ event, shown = some event → RangeAt config startBlock trace event := by
  cases step with
  | head block answered =>
      refine ⟨place.head answered, ?_⟩
      rintro event ⟨⟩
      trivial
  | @logs loop call' logs answered =>
      obtain rfl := Option.some.inj answered
      constructor
      · exact ⟨followingBlock_snoc_range startBlock trace _ _ logs,
          (lastHead_snoc trace (by simp)).trans place.1.known⟩
      · rintro event ⟨⟩
        exact ⟨place.1.next.symm, loop, rfl, place.1.known, place.2, rfl⟩
  | @subscribed call call' answered =>
      refine ⟨?_, by simp⟩
      rw [Option.toList_none, List.append_nil]
      cases call with
      | subscribe loop =>
          obtain rfl := Option.some.inj answered
          exact place
      | subscribeLate loop =>
          obtain rfl := Option.some.inj answered
          trivial
      | _ => cases answered
  | @sinkLogs call call' first rest answered =>
      refine ⟨?_, by simp⟩
      cases call with
      | sink fromBlock =>
          obtain rfl := Option.some.inj answered
          trivial
      | _ => cases answered
  | failure err answered =>
      obtain ⟨outcome, rfl⟩ := IndexerCall.next_failure answered
      exact ⟨trivial, by simp⟩
  | called | notified =>
      refine ⟨place.snoc (by simp) (by simp), ?_⟩
      rintro event ⟨⟩
      trivial
  | refused err =>
      refine ⟨place.snoc (by simp) (by simp), ?_⟩
      rintro event ⟨⟩
      trivial
  | @handled call call' answered =>
      refine ⟨?_, by simp⟩
      rw [Option.toList_none, List.append_nil]
      cases call with
      | handle loop logs =>
          obtain rfl := Option.some.inj answered
          exact Continues.advance place
      | handleSink fromBlock first rest =>
          obtain rfl := Option.some.inj answered
          trivial
      | _ => cases answered
  | notHandled answered =>
      obtain ⟨outcome, rfl⟩ := IndexerCall.next_failure answered
      exact ⟨trivial, by simp⟩
  | cancelledAfterRange cause => exact ⟨trivial, by simp⟩
  | cancelledPolling cause => exact ⟨trivial, by simp⟩

/-- Every run: the call is in its place, and every range so far is the one the loop computes. -/
theorem inLoop_run {t : Traced IndexerState IndexerEvent}
    (run : Relation.ReflTransGen (Traced.Step (IndexerStep config)) (startCall startBlock) t) :
    InLoop config startBlock t.trace t.state.call ∧
      EachEvent (RangeAt config startBlock) t.trace := by
  induction run with
  | refl => exact ⟨rfl, eachEvent_nil _⟩
  | tail _ step ih =>
      obtain ⟨place, each⟩ := ih
      obtain ⟨shown, moved, grown⟩ := step
      obtain ⟨place', right⟩ := place.step moved
      rw [grown]
      refine ⟨place', ?_⟩
      cases shown with
      | none => exact (List.append_nil _).symm ▸ each
      | some event => exact eachEvent_snoc.mpr ⟨each, right event rfl⟩

end Rounds

/-! ### Progress -/

/-- The number of ranges filtered. -/
def rangesMade (trace : List IndexerEvent) : Nat :=
  trace.countP fun
    | .filterLogs _ _ _ => true
    | .blockNumber _ | .called _ | .refused _ _ | .modeChange _ => false

/-- Neither addition wraps for a range, with the head most recently reported. -/
def AdditionsFit (config : Config) (before : List IndexerEvent) : IndexerEvent → Prop
  | .filterLogs fromBlock _ _ =>
      ∀ loop : Loop, loop.fromBlock = fromBlock → lastHead before = some loop.currentBlock →
        RangeFits config loop
  | .blockNumber _ | .called _ | .refused _ _ | .modeChange _ => True

/-- A range follows the one before it, has left at least one block behind for each range before it,
runs forward, and does not run past the head most recently reported. -/
def MovesForward (startBlock : UInt64) (before : List IndexerEvent) : IndexerEvent → Prop
  | .filterLogs fromBlock toBlock _ =>
      fromBlock.toNat = nextBlock startBlock before ∧
        startBlock.toNat + rangesMade before ≤ fromBlock.toNat ∧ fromBlock ≤ toBlock ∧
        ∃ head, lastHead before = some head ∧ toBlock ≤ head
  | .blockNumber _ | .called _ | .refused _ _ | .modeChange _ => True

section Progress

variable {config : Config} {startBlock : UInt64}

theorem rangesMade_snoc (trace : List IndexerEvent) (event : IndexerEvent) :
    rangesMade (trace ++ [event]) = rangesMade trace + rangesMade [event] :=
  List.countP_append

/-- Ranges that do not wrap move forward. -/
theorem ranges_progress (positive : config.maxBlocksDistance ≠ 0) {trace : List IndexerEvent}
    (computed : EachEvent (RangeAt config startBlock) trace)
    (fits : EachEvent (AdditionsFit config) trace) :
    (followingBlock startBlock trace).toNat = nextBlock startBlock trace ∧
      startBlock.toNat + rangesMade trace ≤ nextBlock startBlock trace ∧
      EachEvent (MovesForward startBlock) trace := by
  induction trace using List.reverseRecOn with
  | nil => exact ⟨rfl, Nat.le_refl _, eachEvent_nil _⟩
  | append_singleton trace event ih =>
      obtain ⟨computed, last⟩ := eachEvent_snoc.mp computed
      obtain ⟨fits, lastFits⟩ := eachEvent_snoc.mp fits
      obtain ⟨next, count, forward⟩ := ih computed fits
      rw [eachEvent_snoc, rangesMade_snoc]
      cases event with
      | filterLogs fromBlock toBlock logs =>
          obtain ⟨rfl, loop, same, known, within, rfl⟩ := last
          obtain ⟨sum, room⟩ := (rangeFits_iff positive).mp (lastFits loop same known)
          have runs := (fromBlock_le_toBlock_iff positive within).mpr sum
          have low := UInt64.le_iff_toNat_le.mp runs
          rw [same, next] at low
          rw [followingBlock_snoc_range, nextBlock_snoc_range, toNat_succ_of_lt room]
          refine ⟨rfl, ?_, forward, next, next.symm ▸ count, same ▸ runs,
            loop.currentBlock, known, ?_⟩
          · change _ + (_ + 1) ≤ _
            omega
          · exact UInt64.le_iff_toNat_le.mpr (toBlock_le_currentBlock config loop)
      | _ =>
          rw [followingBlock_snoc startBlock trace (by simp),
            nextBlock_snoc trace startBlock (by simp)]
          exact ⟨next, count, forward, trivial⟩

end Progress

/-- The arithmetic of the loop of a call, for every configuration, start block and sequence of
reported heads.  A round starts at or before the head most recently reported, and it is computed as
it should be exactly if none of its three operations wraps.  If neither addition wraps for the
ranges that are filtered, each of them follows the one before it and the call moves forward by at
least a block with each. -/
theorem range_arithmetic_exact (config : Config) (startBlock : UInt64)
    {t : Traced IndexerState IndexerEvent}
    (run : Relation.ReflTransGen (Traced.Step (IndexerStep (newEVMIndexer config)))
      (startCall startBlock) t) :
    (∀ loop, t.state.call = .filter loop →
      loop.fromBlock = followingBlock startBlock t.trace ∧
        lastHead t.trace = some loop.currentBlock ∧ loop.fromBlock ≤ loop.currentBlock ∧
        (RoundRight (newEVMIndexer config) loop ↔ RoundFits (newEVMIndexer config) loop)) ∧
    (EachEvent (AdditionsFit (newEVMIndexer config)) t.trace →
      EachEvent (MovesForward startBlock) t.trace) := by
  have positive := newEVMIndexer_positive config
  obtain ⟨place, computed⟩ := inLoop_run run
  constructor
  · intro loop filters
    rw [filters] at place
    exact ⟨place.1.next.symm, place.1.known, place.2, roundRight_iff positive place.2⟩
  · intro fits
    exact (ranges_progress positive computed fits).2.2

/-! ### Runs that wrap and runs that do not -/

/-- The call a list of moves leads to. -/
def reachedCall (config : Config) (startBlock : UInt64) (moves : List IndexerMove) :
    Traced IndexerState IndexerEvent :=
  played (fun _ _ => True) (Traced.move (IndexerState.move (newEVMIndexer config))) moves
    (startCall startBlock)

theorem reachedCall_run {config : Config} {startBlock : UInt64} {moves : List IndexerMove}
    (made : (play (fun _ _ => True) (Traced.move (IndexerState.move (newEVMIndexer config))) moves
      (startCall startBlock)).isSome = true) :
    Relation.ReflTransGen (Traced.Step (IndexerStep (newEVMIndexer config)))
      (startCall startBlock) (reachedCall config startBlock moves) :=
  GuardedRun.steps (run_of_played made fun _ _ _ => Traced.move_step IndexerState.move_step)

/-- A head, and one range without logs up to the next request. -/
def oneRange (head : UInt64) : List IndexerMove :=
  [.head head, .goOn, .logs [], .goOn, .goOn, .goOn]

/-- In subscription mode, one block at a time from block 1 towards head 5. -/
theorem range_arithmetic_exact_ws :
    ∃ t, Relation.ReflTransGen (Traced.Step (IndexerStep (newEVMIndexer ⟨1, .ws⟩)))
        (startCall 1) t ∧
      t.state.call = .filter ⟨2, 5, false, false⟩ ∧
      RoundRight (newEVMIndexer ⟨1, .ws⟩) ⟨2, 5, false, false⟩ ∧
      .filterLogs 1 1 [] ∈ t.trace ∧ EachEvent (MovesForward 1) t.trace := by
  have run := @reachedCall_run ⟨1, .ws⟩ 1 (oneRange 5) (by decide)
  obtain ⟨rounds, progress⟩ := range_arithmetic_exact ⟨1, .ws⟩ 1 run
  obtain ⟨_, _, _, exactly⟩ := rounds ⟨2, 5, false, false⟩ rfl
  refine ⟨_, run, rfl, exactly.mpr ⟨by decide, fun _ _ => by decide⟩, by decide, progress ?_⟩
  have only : (reachedCall ⟨1, .ws⟩ 1 (oneRange 5)).trace = [.blockNumber 5, .modeChange .history]
    ++ [.filterLogs 1 1 []] ++ [.called .prepareContext] ++ [.called (.commit 1)] := rfl
  rw [only, eachEvent_snoc, eachEvent_snoc, eachEvent_snoc]
  refine ⟨⟨⟨?_, fun loop first known => ?_⟩, trivial⟩, trivial⟩
  · exact eachEvent_snoc.mpr ⟨@eachEvent_snoc _ _ [] _ |>.mpr ⟨eachEvent_nil _, trivial⟩, trivial⟩
  · rw [RangeFits, first, ← Option.some.inj known]
    decide

/-- Each of the three operations wraps in some run.  With the largest distance, the range from
block 2 below head 3 ends at block 0 and the next one starts at block 1.  At the last block number
the next range starts at block 0.  With the default distance in subscription mode, the range that
reaches head 1 leaves the distance `2^64-1` in place of zero, so the call leaves the loop before it
subscribes. -/
theorem range_arithmetic_wraps :
    ((∃ t, Relation.ReflTransGen
          (Traced.Step (IndexerStep (newEVMIndexer ⟨18446744073709551615, .poll⟩)))
          (startCall 2) t ∧
        .filterLogs 2 0 [] ∈ t.trace ∧ t.state.call = .filter ⟨1, 3, false, false⟩) ∧
      ¬ RoundRight (newEVMIndexer ⟨18446744073709551615, .poll⟩) ⟨2, 3, false, false⟩) ∧
    ((∃ t, Relation.ReflTransGen (Traced.Step (IndexerStep (newEVMIndexer ⟨1, .poll⟩)))
          (startCall 18446744073709551615) t ∧
        .filterLogs 18446744073709551615 18446744073709551615 [] ∈ t.trace ∧
        t.state.call = .filter ⟨0, 18446744073709551615, false, false⟩) ∧
      ¬ RoundRight (newEVMIndexer ⟨1, .poll⟩)
        ⟨18446744073709551615, 18446744073709551615, false, false⟩) ∧
    (∃ t, Relation.ReflTransGen (Traced.Step (IndexerStep (newEVMIndexer ⟨0, .ws⟩)))
          (startCall 0) t ∧
        .filterLogs 0 1 [] ∈ t.trace ∧ t.state.call = .subscribeLate ⟨2, 1, false, false⟩) ∧
      ¬ RoundRight (newEVMIndexer ⟨0, .ws⟩) ⟨0, 1, false, false⟩ := by
  refine ⟨⟨⟨_, @reachedCall_run ⟨18446744073709551615, .poll⟩ 2 (oneRange 3) (by decide),
      by decide, rfl⟩, ?_⟩,
    ⟨⟨_, @reachedCall_run ⟨1, .poll⟩ 18446744073709551615 (oneRange 18446744073709551615)
      (by decide), by decide, rfl⟩, ?_⟩,
    ⟨_, @reachedCall_run ⟨0, .ws⟩ 0 (oneRange 1) (by decide), by decide, rfl⟩, ?_⟩
  · intro right
    exact absurd right.forward (by decide)
  · intro right
    exact absurd right.progress (by decide)
  · intro right
    exact absurd (right.distance rfl rfl) (by decide)

end MerkleProofService
