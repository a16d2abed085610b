/-
Module: MerkleProofService.Proofs.CursorRuns
Layer: Proofs
Purpose: The blocks at which a call of `IndexEVMLogs` commits.  The loop commits at the ends of its
  ranges; the sink commits at the block of the last log read, before the logs the loop has covered
  are dropped.  The blocks never decrease as long as the ranges fit and, between the subscription
  and the next question for the head, no block is mined over logs that wait.
Imports: Proofs.SubscriptionRuns, Proofs.JobCommits, Mathlib pairwise lists
Trusted boundary: none
Main exports: CommitsAt, HeadFirst, Ahead, Ahead.step, Ahead.commit, commits_never_decrease
-/
import MerkleProofService.Proofs.SubscriptionRuns
import MerkleProofService.Proofs.JobCommits
import Mathlib.Data.List.Pairwise

namespace MerkleProofService

open Library

/-! ### Commits of a call -/

/-- The call passes logs to `handleLogs`, which commits at `block`. -/
def CommitsAt (config : Config) (block : UInt64) (before after : Following) : Prop :=
  ∃ logs call', before.call.handling config = some (logs, block) ∧
    before.call.next config .handled = some call' ∧
    after = { before with call := call', handled := before.handled ++ logs }

/-- The call has subscribed inside the loop and has not asked for the head since. -/
def AwaitsHead : IndexerCall → Prop
  | .headAfterSubscription _ => True
  | _ => False

instance (call : IndexerCall) : Decidable (AwaitsHead call) := by
  unfold AwaitsHead
  split <;> infer_instance

/-- The range the call is about to filter fits. -/
def FilterFits (config : Config) : IndexerCall → Prop
  | .filter loop => RangeFits config loop
  | _ => True

instance (config : Config) : (call : IndexerCall) → Decidable (FilterFits config call)
  | .filter loop => inferInstanceAs (Decidable (RangeFits config loop))
  | .getHead _ | .handle _ _ | .pollHead _ | .subscribe _ | .headAfterSubscription _
  | .subscribeLate _ | .sink _ | .handleSink _ _ _ | .returned _ => .isTrue trivial

/-- The range about to be filtered fits, and after the subscription no block is mined over logs
that wait before the head is asked for. -/
def HeadFirst (config : Config) (before after : Following) : Prop :=
  FilterFits config before.call ∧
    (after.head ≠ before.head → AwaitsHead before.call → before.pending = [])

instance (config : Config) (before after : Following) :
    Decidable (HeadFirst config before after) :=
  inferInstanceAs (Decidable (_ ∧ _))

/-! ### What waits at the sink -/

/-- Logs in the order of their blocks, between a floor and the head. -/
structure Waiting (floor : Nat) (head : UInt64) (logs : List EvmLog) : Prop where
  ordered : logs.Pairwise fun first second =>
    first.blockNumber.toNat ≤ second.blockNumber.toNat
  above : ∀ log ∈ logs, floor ≤ log.blockNumber.toNat
  below : ∀ log ∈ logs, log.blockNumber.toNat ≤ head.toNat

namespace Waiting

variable {chain : Chain} {floor : Nat} {head head' : UInt64} {logs : List EvmLog}

theorem nil : Waiting floor head [] :=
  ⟨.nil, by simp, by simp⟩

theorem mono {lower : Nat} (waiting : Waiting floor head logs) (low : lower ≤ floor) :
    Waiting lower head logs :=
  ⟨waiting.ordered, fun log member => Nat.le_trans low (waiting.above log member),
    waiting.below⟩

/-- The logs of a new block are of that block, which is above all others. -/
theorem mine (numbered : Numbered chain) (grown : head'.toNat = head.toNat + 1)
    (low : floor ≤ head.toNat + 1) (waiting : Waiting floor head logs) :
    Waiting floor head' (logs ++ chain (head.toNat + 1)) := by
  have newBlock := numbered (head.toNat + 1)
  refine ⟨List.pairwise_append.mpr ⟨waiting.ordered, ?_, ?_⟩, ?_, ?_⟩
  · refine List.pairwise_of_forall_mem_list fun first isFirst second isSecond => ?_
    rw [newBlock first isFirst, newBlock second isSecond]
  · intro first old second new
    rw [newBlock second new]
    exact Nat.le_succ_of_le (waiting.below first old)
  · intro log member
    rcases List.mem_append.mp member with old | new
    · exact waiting.above log old
    · rw [newBlock log new]
      exact low
  · intro log member
    rw [grown]
    rcases List.mem_append.mp member with old | new
    · exact Nat.le_succ_of_le (waiting.below log old)
    · rw [newBlock log new]

/-- What remains after a read is of no block before the last log read. -/
theorem remaining {read rest : List EvmLog} (notEmpty : read ≠ [])
    (waiting : Waiting floor head (read ++ rest)) :
    floor ≤ (read.getLast notEmpty).blockNumber.toNat ∧
      (read.getLast notEmpty).blockNumber.toNat ≤ head.toNat ∧
      Waiting (read.getLast notEmpty).blockNumber.toNat head rest := by
  have last := List.getLast_mem notEmpty
  obtain ⟨_, ordered, across⟩ := List.pairwise_append.mp waiting.ordered
  refine ⟨waiting.above _ (List.mem_append_left _ last),
    waiting.below _ (List.mem_append_left _ last), ordered, fun log member => ?_,
    fun log member => waiting.below log (List.mem_append_right _ member)⟩
  exact across _ last log member

end Waiting

/-! ### The invariant -/

/-- What the subscription has delivered while the loop runs: nothing before it is there, then only
logs from the head on that was asked for after it. -/
inductive Arrivals (config : Config) (head : UInt64) (loop : Loop) :
    Bool → List EvmLog → Prop where
  | toCome (notStarted : loop.subscriptionStarted = false) : Arrivals config head loop false []
  | delivered {pending : List EvmLog} (ws : config.indexerMode = .ws)
      (isStarted : loop.subscriptionStarted = true)
      (waiting : Waiting loop.currentBlock.toNat head pending) :
      Arrivals config head loop true pending

/-- The loop is past the floor, at most one block past the head it knows. -/
structure LoopAhead (config : Config) (floor : Nat) (head : UInt64) (loop : Loop)
    (subscribed : Bool) (pending : List EvmLog) : Prop where
  low : floor ≤ loop.fromBlock.toNat - 1
  reached : loop.fromBlock.toNat ≤ loop.currentBlock.toNat + 1
  known : loop.currentBlock.toNat ≤ head.toNat
  arrivals : Arrivals config head loop subscribed pending

/-- The states from which no commit before block `floor` is made. -/
inductive Ahead (config : Config) (floor : Nat) : Following → Prop where
  | getHead {head startBlock : UInt64} {handled : List EvmLog} (zero : floor = 0) :
      Ahead config floor ⟨head, .getHead startBlock, false, [], handled⟩
  | filter {head : UInt64} {loop : Loop} {subscribed : Bool} {pending handled : List EvmLog}
      (place : LoopAhead config floor head loop subscribed pending)
      (within : loop.fromBlock ≤ loop.currentBlock) :
      Ahead config floor ⟨head, .filter loop, subscribed, pending, handled⟩
  | handle {head : UInt64} {loop : Loop} {subscribed : Bool}
      {logs pending handled : List EvmLog}
      (place : LoopAhead config floor head loop subscribed pending)
      (forward : loop.fromBlock.toNat ≤ (loop.toBlock config).toNat)
      (below : (loop.toBlock config).toNat ≤ loop.currentBlock.toNat)
      (onward : (loop.toBlock config + 1).toNat = (loop.toBlock config).toNat + 1) :
      Ahead config floor ⟨head, .handle loop logs, subscribed, pending, handled⟩
  | pollHead {head : UInt64} {loop : Loop} {handled : List EvmLog}
      (low : floor ≤ loop.fromBlock.toNat - 1) (reached : loop.fromBlock.toNat ≤ head.toNat + 1)
      (notStarted : loop.subscriptionStarted = false) :
      Ahead config floor ⟨head, .pollHead loop, false, [], handled⟩
  | subscribe {head : UInt64} {loop : Loop} {handled : List EvmLog}
      (ws : config.indexerMode = .ws) (low : floor ≤ loop.fromBlock.toNat - 1)
      (reached : loop.fromBlock.toNat ≤ head.toNat + 1) :
      Ahead config floor ⟨head, .subscribe loop, false, [], handled⟩
  | headAfterSubscription {head : UInt64} {loop : Loop} {pending handled : List EvmLog}
      (ws : config.indexerMode = .ws) (low : floor ≤ loop.fromBlock.toNat - 1)
      (reached : loop.fromBlock.toNat ≤ head.toNat + 1)
      (isStarted : loop.subscriptionStarted = true) (waiting : Waiting head.toNat head pending) :
      Ahead config floor ⟨head, .headAfterSubscription loop, true, pending, handled⟩
  | subscribeLate {head : UInt64} {loop : Loop} {handled : List EvmLog}
      (mined : floor ≤ head.toNat) :
      Ahead config floor ⟨head, .subscribeLate loop, false, [], handled⟩
  | sink {head fromBlock : UInt64} {pending handled : List EvmLog} (mined : floor ≤ head.toNat)
      (waiting : Waiting floor head pending) :
      Ahead config floor ⟨head, .sink fromBlock, true, pending, handled⟩
  | handleSink {head fromBlock : UInt64} {first : EvmLog} {rest pending handled : List EvmLog}
      (mined : floor ≤ head.toNat) (waiting : Waiting floor head (first :: rest ++ pending)) :
      Ahead config floor ⟨head, .handleSink fromBlock first rest, true, pending, handled⟩
  | returned {head : UInt64} {outcome : Except GoError Unit} {subscribed : Bool}
      {pending handled : List EvmLog} :
      Ahead config floor ⟨head, .returned outcome, subscribed, pending, handled⟩

section Steps

variable {config : Config} {chain : Chain} {floor : Nat} {head head' : UInt64} {loop : Loop}
variable {subscribed : Bool} {pending handled : List EvmLog}

theorem LoopAhead.mono {lower : Nat} (low : lower ≤ floor)
    (place : LoopAhead config floor head loop subscribed pending) :
    LoopAhead config lower head loop subscribed pending :=
  ⟨Nat.le_trans low place.low, place.reached, place.known, place.arrivals⟩

/-- A state that is ahead of a floor is ahead of every lower one. -/
theorem Ahead.mono {lower : Nat} (low : lower ≤ floor) {state : Following}
    (ahead : Ahead config floor state) : Ahead config lower state := by
  cases ahead with
  | getHead zero => exact .getHead (by omega)
  | filter place within => exact .filter (place.mono low) within
  | handle place forward below onward =>
      exact .handle (place.mono low) forward below onward
  | pollHead past reached notStarted => exact .pollHead (by omega) reached notStarted
  | subscribe ws past reached => exact .subscribe ws (by omega) reached
  | headAfterSubscription ws past reached isStarted waiting =>
      exact .headAfterSubscription ws (by omega) reached isStarted waiting
  | subscribeLate mined => exact .subscribeLate (by omega)
  | sink mined waiting => exact .sink (by omega) (waiting.mono low)
  | handleSink mined waiting => exact .handleSink (by omega) (waiting.mono low)
  | returned => exact .returned

/-! ### The chain grows -/

theorem Arrivals.grow (numbered : Numbered chain) (grown : head'.toNat = head.toNat + 1)
    (known : loop.currentBlock.toNat ≤ head.toNat)
    (arrivals : Arrivals config head loop subscribed pending) :
    Arrivals config head' loop subscribed
      (if subscribed then pending ++ chain (head.toNat + 1) else pending) := by
  cases arrivals with
  | toCome notStarted => exact .toCome notStarted
  | delivered ws isStarted waiting =>
      rw [if_pos rfl]
      exact .delivered ws isStarted (waiting.mine numbered grown (by omega))

theorem LoopAhead.grow (numbered : Numbered chain) (grown : head'.toNat = head.toNat + 1)
    (place : LoopAhead config floor head loop subscribed pending) :
    LoopAhead config floor head' loop subscribed
      (if subscribed then pending ++ chain (head.toNat + 1) else pending) :=
  ⟨place.low, place.reached, by rw [grown]; exact Nat.le_succ_of_le place.known,
    place.arrivals.grow numbered grown place.known⟩

/-- A block is mined. -/
theorem Ahead.mine (numbered : Numbered chain) {state : Following}
    (ahead : Ahead config floor state) (room : state.head.toNat + 1 < 2 ^ 64)
    (alone : AwaitsHead state.call → state.pending = []) :
    Ahead config floor
      { state with
        head := state.head + 1
        pending := if state.subscribed then state.pending ++ chain (state.head.toNat + 1)
          else state.pending } := by
  have grown := toNat_succ_head room
  have later : ∀ {number}, number ≤ state.head.toNat → number ≤ (state.head + 1).toNat := by
    intro number low
    rw [grown]
    exact Nat.le_succ_of_le low
  have reachable : ∀ {number}, number ≤ state.head.toNat + 1 →
      number ≤ (state.head + 1).toNat + 1 := by
    intro number low
    rw [grown]
    exact Nat.le_succ_of_le low
  cases ahead with
  | getHead zero => exact .getHead zero
  | filter place within => exact .filter (place.grow numbered grown) within
  | handle place forward below onward =>
      exact .handle (place.grow numbered grown) forward below onward
  | pollHead low reached notStarted => exact .pollHead low (reachable reached) notStarted
  | subscribe ws low reached => exact .subscribe ws low (reachable reached)
  | @headAfterSubscription head loop pending handled ws low reached isStarted waiting =>
      -- the logs of the new block are alone, so they are those of the head
      obtain rfl : pending = [] := alone trivial
      have none : Waiting (head + 1).toNat head [] := Waiting.nil
      rw [if_pos rfl]
      exact .headAfterSubscription ws low (reachable reached) isStarted
        (none.mine numbered grown (Nat.le_of_eq grown))
  | subscribeLate mined => exact .subscribeLate (later mined)
  | sink mined waiting =>
      rw [if_pos rfl]
      exact .sink (later mined) (waiting.mine numbered grown (Nat.le_succ_of_le mined))
  | handleSink mined waiting =>
      have more := waiting.mine numbered grown (Nat.le_succ_of_le mined)
      rw [List.append_assoc] at more
      rw [if_pos rfl]
      exact .handleSink (later mined) more
  | returned => exact .returned

/-! ### The call goes on -/

/-- The head of the loop. -/
theorem ahead_enter (place : LoopAhead config floor head loop subscribed pending) :
    Ahead config floor ⟨head, IndexerCall.enter config loop, subscribed, pending, handled⟩ := by
  obtain ⟨low, reached, known, arrivals⟩ := place
  unfold IndexerCall.enter
  by_cases within : loop.fromBlock ≤ loop.currentBlock
  · rw [if_pos within]
    exact .filter ⟨low, reached, known, arrivals⟩ within
  · rw [if_neg within]
    rw [UInt64.le_iff_toNat_le] at within
    by_cases ws : config.indexerMode ≠ .ws
    · rw [if_pos ws]
      exact .returned
    · rw [if_neg ws]
      cases arrivals with
      | toCome notStarted =>
          rw [notStarted]
          exact .subscribeLate (by omega)
      | delivered _ isStarted waiting =>
          rw [isStarted]
          exact .sink (by omega) (waiting.mono (by omega))

/-- The rest of a round: the end of the range is the new floor. -/
theorem ahead_advance (place : LoopAhead config floor head loop subscribed pending)
    (below : (loop.toBlock config).toNat ≤ loop.currentBlock.toNat)
    (onward : (loop.toBlock config + 1).toNat = (loop.toBlock config).toNat + 1) :
    Ahead config (loop.toBlock config).toNat
      ⟨head, IndexerCall.advance config loop, subscribed, pending, handled⟩ := by
  obtain ⟨_, _, known, arrivals⟩ := place
  have low : (loop.toBlock config).toNat ≤ (loop.toBlock config + 1).toNat - 1 := by omega
  have reached : (loop.toBlock config + 1).toNat ≤ head.toNat + 1 := by omega
  have moved : LoopAhead config (loop.toBlock config).toNat head
      { loop with fromBlock := loop.toBlock config + 1 } subscribed pending := by
    refine ⟨low, by rw [onward]; exact Nat.succ_le_succ below, known, ?_⟩
    cases arrivals with
    | toCome notStarted => exact .toCome notStarted
    | delivered ws isStarted waiting => exact .delivered ws isStarted waiting
  unfold IndexerCall.advance
  cases mode : config.indexerMode with
  | poll =>
      by_cases more : loop.toBlock config + 1 ≤ loop.currentBlock
      · simp only [if_pos more]
        exact ahead_enter moved
      · simp only [if_neg more]
        cases arrivals with
        | toCome notStarted => exact .pollHead low reached notStarted
        | delivered ws isStarted waiting =>
            rw [mode] at ws
            cases ws
  | ws =>
      by_cases close : !loop.subscriptionStarted ∧
          loop.currentBlock - (loop.toBlock config + 1) ≤ config.maxBlocksDistance
      · simp only [if_pos close]
        cases arrivals with
        | toCome notStarted => exact .subscribe mode low reached
        | delivered ws isStarted waiting =>
            rw [isStarted] at close
            cases close.1
      · simp only [if_neg close]
        exact ahead_enter moved
  | history => exact .returned
  | other name => exact .returned

/-- A head is reported. -/
theorem Ahead.reportHead {state : Following} {call' : IndexerCall}
    (ahead : Ahead config floor state)
    (answered : state.call.next config (.head state.head) = some call') :
    Ahead config floor { state with call := call' } := by
  cases ahead with
  | @getHead head startBlock handled zero =>
      obtain rfl := Option.some.inj answered
      unfold IndexerCall.begin
      by_cases early : startBlock > head
      · rw [if_pos early]
        exact .returned
      · rw [if_neg early]
        have low := UInt64.le_iff_toNat_le.mp (UInt64.not_lt.mp early)
        exact ahead_enter ⟨by omega, Nat.le_succ_of_le low, Nat.le_refl _, .toCome rfl⟩
  | @pollHead head loop handled low reached notStarted =>
      obtain rfl := Option.some.inj answered
      unfold IndexerCall.polled
      by_cases arrived : head ≥ loop.fromBlock
      · rw [if_pos arrived]
        exact ahead_enter ⟨low, reached, Nat.le_refl _, .toCome notStarted⟩
      · rw [if_neg arrived]
        exact .pollHead low reached notStarted
  | headAfterSubscription ws low reached isStarted waiting =>
      obtain rfl := Option.some.inj answered
      exact ahead_enter ⟨low, reached, Nat.le_refl _, .delivered ws isStarted waiting⟩
  | filter place within => cases answered
  | handle place forward below onward => cases answered
  | subscribe ws low reached => cases answered
  | subscribeLate mined => cases answered
  | sink mined waiting => cases answered
  | handleSink mined waiting => cases answered
  | returned => cases answered

/-- A commit is at no block before the floor, and its block is the new floor. -/
theorem Ahead.commit {before after : Following} {block : UInt64}
    (ahead : Ahead config floor before) (commit : CommitsAt config block before after) :
    floor ≤ block.toNat ∧ Ahead config block.toNat after := by
  obtain ⟨logs, call', handling, answered, rfl⟩ := commit
  cases ahead with
  | handle place forward below onward =>
      obtain ⟨_, rfl⟩ := Prod.mk.inj (Option.some.inj handling)
      obtain rfl := Option.some.inj answered
      have low := place.low
      exact ⟨by omega, ahead_advance place below onward⟩
  | handleSink mined waiting =>
      obtain ⟨_, rfl⟩ := Prod.mk.inj (Option.some.inj handling)
      obtain rfl := Option.some.inj answered
      obtain ⟨low, high, rest⟩ := waiting.remaining (List.cons_ne_nil _ _)
      exact ⟨low, .sink high rest⟩
  | _ => cases handling

/-- Every step that meets the condition keeps the call ahead. -/
theorem Ahead.step (positive : config.maxBlocksDistance ≠ 0) (numbered : Numbered chain)
    {before after : Following} (ahead : Ahead config floor before)
    (step : FollowingStep config chain before after) (first : HeadFirst config before after) :
    Ahead config floor after := by
  cases step with
  | mine room => exact ahead.mine numbered room (first.2 (succ_head_ne room))
  | head answered => exact ahead.reportHead answered
  | logs asked answered =>
      have fits := first.1
      rw [asked] at answered fits
      obtain rfl := Option.some.inj answered
      cases ahead with
      | filter place within =>
          cases asked
          obtain ⟨forward, below, onward⟩ := fits.forward positive within
          exact .handle place forward below onward
      | _ => cases asked
  | handled handling answered =>
      obtain ⟨low, after⟩ := ahead.commit ⟨_, _, handling, answered, rfl⟩
      exact after.mono low
  | subscribed answered =>
      cases ahead with
      | subscribe ws low reached =>
          obtain rfl := Option.some.inj answered
          exact .headAfterSubscription ws low reached rfl Waiting.nil
      | subscribeLate mined =>
          obtain rfl := Option.some.inj answered
          exact .sink mined Waiting.nil
      | _ => cases answered
  | read queued answered =>
      cases ahead with
      | sink mined waiting =>
          obtain rfl := Option.some.inj answered
          exact .handleSink mined (queued ▸ waiting)
      | _ => cases answered
  | failure err answered =>
      obtain ⟨outcome, rfl⟩ := IndexerCall.next_failure answered
      exact .returned

end Steps

/-! ### Runs -/

/-- In every run whose steps meet the condition, in any mode, no commit is at a block before that of
an earlier one; and what a commit stores of its job is its block. -/
theorem commits_never_decrease {config : Config} {chain : Chain} {startBlock head : UInt64}
    (positive : config.maxBlocksDistance ≠ 0) (numbered : Numbered chain)
    {first second third fourth : Following} {block later : UInt64}
    (run : Relation.ReflTransGen
      (fun before after => FollowingStep config chain before after ∧
        HeadFirst config before after)
      ⟨head, .getHead startBlock, false, [], []⟩ first)
    (commit : CommitsAt config block first second)
    (between : Relation.ReflTransGen
      (fun before after => FollowingStep config chain before after ∧
        HeadFirst config before after)
      second third)
    (commitLater : CommitsAt config later third fourth) :
    block ≤ later ∧
      ∀ (poseidon : PoseidonHash) (job : ZkCertificateRegistryJob) (database : Database)
        (operations : List LeafOperation) (batch : Batch), job.jobCodec.RoundTrips →
        Read.evalOn database (job.commitBatch poseidon operations later) = .ok batch →
        Read.evalOn (Store.write database batch) (selectJob job.jobCodec job.jobDescriptor) =
          .ok ⟨job.jobDescriptor, later⟩ := by
  have keeps : ∀ {floor : Nat} {before after : Following}, Ahead config floor before →
      FollowingStep config chain before after → HeadFirst config before after →
      Ahead config floor after :=
    fun ahead step first => ahead.step positive numbered step first
  have started : Ahead config 0 first := GuardedRun.invariant keeps run (.getHead rfl)
  have committed := (started.commit commit).2
  have waited : Ahead config block.toNat third := GuardedRun.invariant keeps between committed
  refine ⟨UInt64.le_iff_toNat_le.mpr (waited.commit commitLater).1, ?_⟩
  intro poseidon job database operations batch codec filled
  exact evalOn_selectJob_commitBatch codec filled

/-- The moves of `overlapMoves` up to the commit at block 2; the logs of block 2 wait. -/
def beforeHandover : Following :=
  played (HeadFirst ⟨1, .ws⟩) (Following.move ⟨1, .ws⟩ smallChain) (overlapMoves.take 9)
    ⟨1, .getHead 0, false, [], []⟩

def atHandover : Following :=
  played (HeadFirst ⟨1, .ws⟩) (Following.move ⟨1, .ws⟩ smallChain) [.handled] beforeHandover

def afterHandover : Following :=
  played (HeadFirst ⟨1, .ws⟩) (Following.move ⟨1, .ws⟩ smallChain) [.read 1] atHandover

theorem commits_never_decrease_overlapped :
    CommitsAt ⟨1, .ws⟩ 2 beforeHandover atHandover ∧
      ∃ later last, CommitsAt ⟨1, .ws⟩ later afterHandover last ∧ 2 ≤ later := by
  have made : (play (HeadFirst ⟨1, .ws⟩) (Following.move ⟨1, .ws⟩ smallChain)
      (overlapMoves.take 9) ⟨1, .getHead 0, false, [], []⟩).isSome = true := by decide +kernel
  have read : (play (HeadFirst ⟨1, .ws⟩) (Following.move ⟨1, .ws⟩ smallChain) [.read 1]
      atHandover).isSome = true := by decide +kernel
  have commit : CommitsAt ⟨1, .ws⟩ 2 beforeHandover atHandover := ⟨_, _, rfl, rfl, rfl⟩
  have commitLater : CommitsAt ⟨1, .ws⟩ 2 afterHandover
      (played (HeadFirst ⟨1, .ws⟩) (Following.move ⟨1, .ws⟩ smallChain) [.handled]
        afterHandover) := ⟨_, _, rfl, rfl, rfl⟩
  exact ⟨commit, 2, _, commitLater, (commits_never_decrease (by decide) smallChain_numbered
    (run_of_played made fun _ _ _ moved => Following.move_step moved) commit
    (run_of_played read fun _ _ _ moved => Following.move_step moved) commitLater).1⟩

/-- After the subscription block 2, with logs, and block 3 are mined before the head is asked for:
the loop goes on to block 3 while the logs of block 2 wait. -/
def undercutMoves : List FollowingMove :=
  [.head, .logs, .handled, .subscribed, .mine, .mine, .head, .logs, .handled, .logs, .handled,
    .logs]

def beforeUndercut : Following :=
  played (fun _ _ => True) (Following.move ⟨1, .ws⟩ smallChain) undercutMoves
    ⟨1, .getHead 0, false, [], []⟩

def atUndercut : Following :=
  played (fun _ _ => True) (Following.move ⟨1, .ws⟩ smallChain) [.handled] beforeUndercut

def afterUndercut : Following :=
  played (fun _ _ => True) (Following.move ⟨1, .ws⟩ smallChain) [.read 1] atUndercut

/-- The loop commits at block 3; then the sink reads the logs of block 2, drops them, and commits at
block 2. -/
theorem sink_commits_below_loop :
    Numbered smallChain ∧
      Relation.ReflTransGen (FollowingStep ⟨1, .ws⟩ smallChain)
        ⟨1, .getHead 0, false, [], []⟩ beforeUndercut ∧
      CommitsAt ⟨1, .ws⟩ 3 beforeUndercut atUndercut ∧
      Relation.ReflTransGen (FollowingStep ⟨1, .ws⟩ smallChain) atUndercut afterUndercut ∧
      ∃ last, CommitsAt ⟨1, .ws⟩ 2 afterUndercut last := by
  have made : (play (fun _ _ => True) (Following.move ⟨1, .ws⟩ smallChain) undercutMoves
      ⟨1, .getHead 0, false, [], []⟩).isSome = true := by decide +kernel
  have read : (play (fun _ _ => True) (Following.move ⟨1, .ws⟩ smallChain) [.read 1]
      atUndercut).isSome = true := by decide +kernel
  have run := run_of_played made fun _ _ _ moved => Following.move_step moved
  have between := run_of_played read fun _ _ _ moved => Following.move_step moved
  exact ⟨smallChain_numbered, GuardedRun.steps run, ⟨_, _, rfl, rfl, rfl⟩,
    GuardedRun.steps between, _, _, _, rfl, rfl, rfl⟩

end MerkleProofService
