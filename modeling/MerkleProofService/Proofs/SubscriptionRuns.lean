/-
Module: MerkleProofService.Proofs.SubscriptionRuns
Layer: Proofs
Purpose: The switch of a job to its subscription while the chain grows.  When the subscription
  starts inside the loop, no log is lost or handled twice.  When a single range reaches the head, it
  starts after the loop and the head is not asked for again: a block mined in between is lost,
  unless it has no logs.
Imports: Library.GuardedRuns, Proofs.ChainLogs
Trusted boundary: FollowingStep, the environment of the indexer
Main exports: Following, FollowingStep, Handover, handled_eq_logs, log_lost_before_subscription
-/
import MerkleProofService.Library.GuardedRuns
import MerkleProofService.Proofs.ChainLogs

namespace MerkleProofService

open Library

/-! ### A call and the growing chain -/

/-- A call of `IndexEVMLogs`, the head of the chain, what the subscription has for the sink and the
call has not read, and the logs passed to `HandleEVMLog` since the call began. -/
structure Following where
  head : UInt64
  call : IndexerCall
  subscribed : Bool
  pending : List EvmLog
  handled : List EvmLog

/-- One step of the call or of the chain.  A filter returns the logs of the blocks that exist, the
subscription delivers those of the blocks mined after it was established, and a read takes as many
logs as have arrived. -/
inductive FollowingStep (config : Config) (chain : Chain) : Following → Following → Prop where
  | mine {state : Following} (room : state.head.toNat + 1 < 2 ^ 64) :
      FollowingStep config chain state
        { state with
          head := state.head + 1
          pending := if state.subscribed then state.pending ++ chain (state.head.toNat + 1)
            else state.pending }
  | head {state : Following} {call' : IndexerCall}
      (answered : state.call.next config (.head state.head) = some call') :
      FollowingStep config chain state { state with call := call' }
  | logs {state : Following} {loop : Loop} {call' : IndexerCall}
      (asked : state.call = .filter loop)
      (answered : state.call.next config (.logs (chain.logs loop.fromBlock.toNat
        (min (loop.toBlock config).toNat state.head.toNat))) = some call') :
      FollowingStep config chain state { state with call := call' }
  | handled {state : Following} {call' : IndexerCall} {logs : List EvmLog} {block : UInt64}
      (handling : state.call.handling config = some (logs, block))
      (answered : state.call.next config .handled = some call') :
      FollowingStep config chain state
        { state with call := call', handled := state.handled ++ logs }
  | subscribed {state : Following} {call' : IndexerCall}
      (answered : state.call.next config .subscribed = some call') :
      FollowingStep config chain state { state with call := call', subscribed := true }
  | read {state : Following} {call' : IndexerCall} {first : EvmLog} {rest remaining : List EvmLog}
      (queued : state.pending = first :: rest ++ remaining)
      (answered : state.call.next config (.sinkLogs first rest) = some call') :
      FollowingStep config chain state { state with call := call', pending := remaining }
  | failure {state : Following} {call' : IndexerCall} (err : GoError)
      (answered : state.call.next config (.failure err) = some call') :
      FollowingStep config chain state { state with call := call' }

/-- The call knows a head, is not subscribed, and will not ask for the head again before it is: the
range in hand reaches the head it knows. -/
def Uncovered (config : Config) : IndexerCall → Prop
  | .filter loop | .handle loop _ =>
      loop.subscriptionStarted = false ∧
        loop.currentBlock.toNat < loop.fromBlock.toNat + config.maxBlocksDistance.toNat
  | .subscribeLate _ => True
  | _ => False

instance (config : Config) (call : IndexerCall) : Decidable (Uncovered config call) := by
  unfold Uncovered
  split <;> infer_instance

/-- The range about to be filtered fits, and no block with logs is mined while the call is
uncovered. -/
def Handover (config : Config) (chain : Chain) (before after : Following) : Prop :=
  (match before.call with
    | .filter loop => RangeFits config loop
    | _ => True) ∧
    (after.head ≠ before.head → Uncovered config before.call →
      chain (before.head.toNat + 1) = [])

instance (config : Config) (chain : Chain) (before after : Following) :
    Decidable (Handover config chain before after) := by
  unfold Handover
  split <;> infer_instance

/-- Every log names the block it is in. -/
def Numbered (chain : Chain) : Prop :=
  ∀ block, ∀ log ∈ chain block, log.blockNumber.toNat = block

/-- The choices of the environment; a read takes one log and at most `more` others. -/
inductive FollowingMove where
  | mine
  | head
  | logs
  | handled
  | subscribed
  | read (more : Nat)

/-- The state after a move, if it can be made. -/
def Following.move (config : Config) (chain : Chain) (state : Following) :
    FollowingMove → Option Following
  | .mine =>
      if state.head.toNat + 1 < 2 ^ 64 then
        some { state with
          head := state.head + 1
          pending := if state.subscribed then state.pending ++ chain (state.head.toNat + 1)
            else state.pending }
      else none
  | .head =>
      (state.call.next config (.head state.head)).map fun call' => { state with call := call' }
  | .logs =>
      match state.call with
      | .filter loop =>
          some { state with
            call := .handle loop (chain.logs loop.fromBlock.toNat
              (min (loop.toBlock config).toNat state.head.toNat)) }
      | _ => none
  | .handled =>
      (state.call.handling config).bind fun handling =>
        (state.call.next config .handled).map fun call' =>
          { state with call := call', handled := state.handled ++ handling.1 }
  | .subscribed =>
      (state.call.next config .subscribed).map fun call' =>
        { state with call := call', subscribed := true }
  | .read more =>
      match state.pending with
      | [] => none
      | first :: rest =>
          (state.call.next config (.sinkLogs first (rest.take more))).map fun call' =>
            { state with call := call', pending := rest.drop more }

theorem Following.move_step {config : Config} {chain : Chain} {before after : Following}
    {made : FollowingMove} (moved : before.move config chain made = some after) :
    FollowingStep config chain before after := by
  cases made with
  | mine =>
      by_cases room : before.head.toNat + 1 < 2 ^ 64
      · rw [Following.move, if_pos room] at moved
        obtain rfl := Option.some.inj moved
        exact .mine room
      · rw [Following.move, if_neg room] at moved
        cases moved
  | head =>
      rcases Option.map_eq_some_iff.mp moved with ⟨call', answered, rfl⟩
      exact .head answered
  | logs =>
      rcases before with ⟨head, call, subscribed, pending, handled⟩
      cases call with
      | filter loop =>
          obtain rfl := Option.some.inj moved
          exact .logs rfl rfl
      | _ => cases moved
  | handled =>
      rcases Option.bind_eq_some_iff.mp moved with ⟨⟨logs, block⟩, handling, rest⟩
      rcases Option.map_eq_some_iff.mp rest with ⟨call', answered, rfl⟩
      exact .handled handling answered
  | subscribed =>
      rcases Option.map_eq_some_iff.mp moved with ⟨call', answered, rfl⟩
      exact .subscribed answered
  | read more =>
      rcases before with ⟨head, call, subscribed, pending, handled⟩
      cases pending with
      | nil => cases moved
      | cons first rest =>
          rcases Option.map_eq_some_iff.mp moved with ⟨call', answered, rfl⟩
          refine .read ?_ answered
          rw [List.cons_append, List.take_append_drop]

/-! ### The invariant -/

/-- Where the loop stands: past the start block, at most one block past the head it knows, which is
a head the chain has had. -/
structure LoopPlace (startBlock head : UInt64) (loop : Loop) : Prop where
  started : startBlock.toNat ≤ loop.fromBlock.toNat
  reached : loop.fromBlock.toNat ≤ loop.currentBlock.toNat + 1
  known : loop.currentBlock.toNat ≤ head.toNat

/-- What becomes of the blocks after the head the loop knows: the subscription has them all, or it
is still to come and, if the range in hand is the last one, they have no logs. -/
inductive Coverage (config : Config) (chain : Chain) (head : UInt64) (loop : Loop) :
    Bool → List EvmLog → Prop where
  | delivered {first : Nat} (isStarted : loop.subscriptionStarted = true)
      (low : first ≤ loop.currentBlock.toNat + 1) :
      Coverage config chain head loop true (chain.span first (head.toNat + 1))
  | toCome (notStarted : loop.subscriptionStarted = false)
      (quiet : loop.currentBlock.toNat <
          loop.fromBlock.toNat + config.maxBlocksDistance.toNat →
        chain.span (loop.currentBlock.toNat + 1) (head.toNat + 1) = []) :
      Coverage config chain head loop false []

/-- The logs of the sink that are not dropped. -/
def keptFrom (fromBlock : UInt64) (logs : List EvmLog) : List EvmLog :=
  logs.filter fun log => decide (fromBlock ≤ log.blockNumber)

/-- The states of a run that loses and repeats nothing.  In the loop, the logs before `fromBlock`
are handled; at the sink, those that wait there complete them to all logs up to the head. -/
inductive Followed (config : Config) (chain : Chain) (startBlock : UInt64) : Following → Prop where
  | getHead (head : UInt64) :
      Followed config chain startBlock ⟨head, .getHead startBlock, false, [], []⟩
  | filter {head : UInt64} {loop : Loop} {subscribed : Bool} {pending : List EvmLog}
      (place : LoopPlace startBlock head loop) (within : loop.fromBlock ≤ loop.currentBlock)
      (coverage : Coverage config chain head loop subscribed pending) :
      Followed config chain startBlock ⟨head, .filter loop, subscribed, pending,
        chain.span startBlock.toNat loop.fromBlock.toNat⟩
  | handle {head : UInt64} {loop : Loop} {subscribed : Bool} {pending : List EvmLog}
      (place : LoopPlace startBlock head loop)
      (forward : loop.fromBlock.toNat ≤ (loop.toBlock config).toNat)
      (below : (loop.toBlock config).toNat ≤ loop.currentBlock.toNat)
      (onward : (loop.toBlock config + 1).toNat = (loop.toBlock config).toNat + 1)
      (last : (loop.toBlock config).toNat = loop.currentBlock.toNat →
        loop.currentBlock.toNat < loop.fromBlock.toNat + config.maxBlocksDistance.toNat)
      (coverage : Coverage config chain head loop subscribed pending) :
      Followed config chain startBlock ⟨head,
        .handle loop (chain.logs loop.fromBlock.toNat (loop.toBlock config).toNat), subscribed,
        pending, chain.span startBlock.toNat loop.fromBlock.toNat⟩
  | subscribe {head : UInt64} {loop : Loop} (place : LoopPlace startBlock head loop) :
      Followed config chain startBlock ⟨head, .subscribe loop, false, [],
        chain.span startBlock.toNat loop.fromBlock.toNat⟩
  | headAfterSubscription {head : UInt64} {loop : Loop} {first : Nat}
      (place : LoopPlace startBlock head loop) (isStarted : loop.subscriptionStarted = true)
      (low : first ≤ head.toNat + 1) :
      Followed config chain startBlock ⟨head, .headAfterSubscription loop, true,
        chain.span first (head.toNat + 1), chain.span startBlock.toNat loop.fromBlock.toNat⟩
  | subscribeLate {head : UInt64} {loop : Loop} (place : LoopPlace startBlock head loop)
      (quiet : chain.span loop.fromBlock.toNat (head.toNat + 1) = []) :
      Followed config chain startBlock ⟨head, .subscribeLate loop, false, [],
        chain.span startBlock.toNat loop.fromBlock.toNat⟩
  | sink {head fromBlock : UInt64} {pending handled : List EvmLog}
      (started : startBlock.toNat ≤ head.toNat + 1)
      (reached : fromBlock.toNat ≤ head.toNat + 1)
      (complete : handled ++ keptFrom fromBlock pending =
        chain.span startBlock.toNat (head.toNat + 1)) :
      Followed config chain startBlock ⟨head, .sink fromBlock, true, pending, handled⟩
  | handleSink {head fromBlock : UInt64} {first : EvmLog} {rest pending handled : List EvmLog}
      (started : startBlock.toNat ≤ head.toNat + 1)
      (reached : fromBlock.toNat ≤ head.toNat + 1)
      (complete : handled ++ keptFrom fromBlock (first :: rest ++ pending) =
        chain.span startBlock.toNat (head.toNat + 1)) :
      Followed config chain startBlock
        ⟨head, .handleSink fromBlock first rest, true, pending, handled⟩
  | returned {head : UInt64} {outcome : Except GoError Unit} {subscribed : Bool}
      {pending handled : List EvmLog} :
      Followed config chain startBlock ⟨head, .returned outcome, subscribed, pending, handled⟩

section Steps

variable {config : Config} {chain : Chain} {startBlock head head' fromBlock : UInt64}
variable {loop : Loop} {subscribed : Bool} {pending : List EvmLog}

theorem keptFrom_append (first second : List EvmLog) :
    keptFrom fromBlock (first ++ second) = keptFrom fromBlock first ++ keptFrom fromBlock second :=
  List.filter_append _ _

/-- All logs from `fromBlock` on are kept. -/
theorem keptFrom_of_le (numbered : Numbered chain) {first stop : Nat}
    (low : fromBlock.toNat ≤ first) :
    keptFrom fromBlock (chain.span first stop) = chain.span first stop := by
  apply List.filter_eq_self.mpr
  intro log member
  obtain ⟨block, above, _, here⟩ := Chain.mem_span member
  apply decide_eq_true
  rw [UInt64.le_iff_toNat_le, numbered block log here]
  exact Nat.le_trans low above

/-- All logs before `fromBlock` are dropped. -/
theorem keptFrom_of_ge (numbered : Numbered chain) {first stop : Nat}
    (high : stop ≤ fromBlock.toNat) : keptFrom fromBlock (chain.span first stop) = [] := by
  apply List.filter_eq_nil_iff.mpr
  intro log member kept
  obtain ⟨block, _, below, here⟩ := Chain.mem_span member
  have above := UInt64.le_iff_toNat_le.mp (of_decide_eq_true kept)
  rw [numbered block log here] at above
  omega

/-- Of what was mined since block `first`, exactly the logs from `fromBlock` on are kept. -/
theorem keptFrom_span (numbered : Numbered chain) {first stop : Nat}
    (low : first ≤ fromBlock.toNat) (high : fromBlock.toNat ≤ stop) :
    keptFrom fromBlock (chain.span first stop) = chain.span fromBlock.toNat stop := by
  rw [Chain.span_append low high, keptFrom_append, keptFrom_of_ge numbered (Nat.le_refl _),
    keptFrom_of_le numbered (Nat.le_refl _)]
  rfl

/-! ### The chain grows -/

theorem toNat_succ_head (room : head.toNat + 1 < 2 ^ 64) : (head + 1).toNat = head.toNat + 1 := by
  rw [UInt64.toNat_add]
  exact Nat.mod_eq_of_lt room

theorem succ_head_ne (room : head.toNat + 1 < 2 ^ 64) : head + 1 ≠ head := by
  intro same
  have number := toNat_succ_head room
  rw [same] at number
  omega

theorem LoopPlace.grow (grown : head'.toNat = head.toNat + 1)
    (place : LoopPlace startBlock head loop) : LoopPlace startBlock head' loop :=
  ⟨place.started, place.reached, by rw [grown]; exact Nat.le_succ_of_le place.known⟩

theorem Coverage.grow (grown : head'.toNat = head.toNat + 1)
    (known : loop.currentBlock.toNat ≤ head.toNat)
    (coverage : Coverage config chain head loop subscribed pending)
    (quietBlock : loop.subscriptionStarted = false ∧
      loop.currentBlock.toNat < loop.fromBlock.toNat + config.maxBlocksDistance.toNat →
      chain (head.toNat + 1) = []) :
    Coverage config chain head' loop subscribed
      (if subscribed then pending ++ chain (head.toNat + 1) else pending) := by
  cases coverage with
  | @delivered first isStarted low =>
      have mined : first ≤ head.toNat + 1 := Nat.le_trans low (Nat.succ_le_succ known)
      rw [if_pos rfl, ← Chain.span_succ mined, ← grown]
      exact .delivered isStarted low
  | toCome notStarted quiet =>
      refine .toCome notStarted fun last => ?_
      rw [grown, Chain.span_succ (Nat.succ_le_succ known), quiet last,
        quietBlock ⟨notStarted, last⟩]
      rfl

/-- What waits at the sink grows with the chain. -/
theorem complete_grow (numbered : Numbered chain) (grown : head'.toNat = head.toNat + 1)
    {handled waiting : List EvmLog} (started : startBlock.toNat ≤ head.toNat + 1)
    (reached : fromBlock.toNat ≤ head.toNat + 1)
    (complete : handled ++ keptFrom fromBlock waiting =
      chain.span startBlock.toNat (head.toNat + 1)) :
    handled ++ keptFrom fromBlock (waiting ++ chain (head.toNat + 1)) =
      chain.span startBlock.toNat (head'.toNat + 1) := by
  have mined : chain (head.toNat + 1) = chain.span (head.toNat + 1) (head.toNat + 1 + 1) := by
    rw [Chain.span_succ (Nat.le_refl _), Chain.span_self]
    rfl
  rw [keptFrom_append, ← List.append_assoc, complete, mined, keptFrom_of_le numbered reached,
    grown, ← Chain.span_append started (Nat.le_succ _)]

/-- A block is mined. -/
theorem Followed.mine (numbered : Numbered chain) {state : Following}
    (followed : Followed config chain startBlock state) (room : state.head.toNat + 1 < 2 ^ 64)
    (quietBlock : Uncovered config state.call → chain (state.head.toNat + 1) = []) :
    Followed config chain startBlock
      { state with
        head := state.head + 1
        pending := if state.subscribed then state.pending ++ chain (state.head.toNat + 1)
          else state.pending } := by
  have grown := toNat_succ_head room
  have later : ∀ {number}, number ≤ state.head.toNat + 1 →
      number ≤ (state.head + 1).toNat + 1 := by
    intro number low
    rw [grown]
    exact Nat.le_succ_of_le low
  cases followed with
  | getHead head => exact .getHead _
  | filter place within coverage =>
      exact .filter (place.grow grown) within (coverage.grow grown place.known quietBlock)
  | handle place forward below onward last coverage =>
      exact .handle (place.grow grown) forward below onward last
        (coverage.grow grown place.known quietBlock)
  | subscribe place => exact .subscribe (place.grow grown)
  | headAfterSubscription place isStarted low =>
      rw [if_pos rfl, ← Chain.span_succ low, ← grown]
      exact .headAfterSubscription (place.grow grown) isStarted (later low)
  | subscribeLate place quiet =>
      refine .subscribeLate (place.grow grown) ?_
      have low := Nat.le_trans place.reached (Nat.succ_le_succ place.known)
      rw [grown, Chain.span_succ low, quiet, quietBlock trivial]
      rfl
  | sink started reached complete =>
      exact .sink (later started) (later reached)
        (complete_grow numbered grown started reached complete)
  | handleSink started reached complete =>
      refine .handleSink (later started) (later reached) ?_
      rw [if_pos rfl, ← List.append_assoc]
      exact complete_grow numbered grown started reached complete
  | returned => exact .returned

/-! ### The call goes on -/

/-- The head of the loop, from a place where everything before `fromBlock` is handled. -/
theorem followed_enter (ws : config.indexerMode = .ws) (numbered : Numbered chain)
    (place : LoopPlace startBlock head loop)
    (coverage : Coverage config chain head loop subscribed pending) :
    Followed config chain startBlock ⟨head, IndexerCall.enter config loop, subscribed, pending,
      chain.span startBlock.toNat loop.fromBlock.toNat⟩ := by
  unfold IndexerCall.enter
  by_cases within : loop.fromBlock ≤ loop.currentBlock
  · rw [if_pos within]
    exact .filter place within coverage
  · have past : loop.fromBlock.toNat = loop.currentBlock.toNat + 1 := by
      rw [UInt64.le_iff_toNat_le] at within
      have reached := place.reached
      omega
    have high : loop.fromBlock.toNat ≤ head.toNat + 1 := by
      rw [past]
      exact Nat.succ_le_succ place.known
    rw [if_neg within, if_neg (not_not_intro ws)]
    cases coverage with
    | delivered isStarted low =>
        rw [isStarted]
        refine .sink (Nat.le_trans place.started high) high ?_
        rw [keptFrom_span numbered (past ▸ low) high, ← Chain.span_append place.started high]
    | toCome notStarted quiet =>
        rw [notStarted]
        refine .subscribeLate place ?_
        rw [past]
        exact quiet (by omega)

/-- The rest of a round, after its logs are handled. -/
theorem followed_advance (ws : config.indexerMode = .ws) (numbered : Numbered chain)
    (place : LoopPlace startBlock head loop)
    (forward : loop.fromBlock.toNat ≤ (loop.toBlock config).toNat)
    (below : (loop.toBlock config).toNat ≤ loop.currentBlock.toNat)
    (onward : (loop.toBlock config + 1).toNat = (loop.toBlock config).toNat + 1)
    (last : (loop.toBlock config).toNat = loop.currentBlock.toNat →
      loop.currentBlock.toNat < loop.fromBlock.toNat + config.maxBlocksDistance.toNat)
    (coverage : Coverage config chain head loop subscribed pending) :
    Followed config chain startBlock ⟨head, IndexerCall.advance config loop, subscribed, pending,
      chain.span startBlock.toNat (loop.toBlock config + 1).toNat⟩ := by
  have started := place.started
  have moved : LoopPlace startBlock head { loop with fromBlock := loop.toBlock config + 1 } :=
    ⟨by rw [onward]; omega, by rw [onward]; exact Nat.succ_le_succ below, place.known⟩
  simp only [IndexerCall.advance, ws]
  cases coverage with
  | @delivered first isStarted low =>
      have carried : Coverage config chain head { loop with fromBlock := loop.toBlock config + 1 }
          true (chain.span first (head.toNat + 1)) := .delivered isStarted low
      rw [if_neg (by simp [isStarted])]
      exact followed_enter ws numbered moved carried
  | toCome notStarted quiet =>
      by_cases close : loop.currentBlock - (loop.toBlock config + 1) ≤ config.maxBlocksDistance
      · rw [if_pos ⟨by rw [notStarted]; rfl, close⟩]
        exact .subscribe moved
      · have carried : Coverage config chain head
            { loop with fromBlock := loop.toBlock config + 1 } false [] := by
          refine .toCome notStarted fun again => quiet (last (Nat.le_antisymm below ?_))
          -- the next range would be the last only if this one has reached the head already
          replace again : loop.currentBlock.toNat <
            (loop.toBlock config + 1).toNat + config.maxBlocksDistance.toNat := again
          have currentBound := loop.currentBlock.toNat_lt
          have nextBound := (loop.toBlock config + 1).toNat_lt
          rw [UInt64.le_iff_toNat_le, UInt64.toNat_sub] at close
          omega
        rw [if_neg fun both => close both.2]
        exact followed_enter ws numbered moved carried

/-- A head is reported. -/
theorem Followed.reportHead (ws : config.indexerMode = .ws) (numbered : Numbered chain)
    {state : Following} {call' : IndexerCall}
    (followed : Followed config chain startBlock state)
    (answered : state.call.next config (.head state.head) = some call') :
    Followed config chain startBlock { state with call := call' } := by
  cases followed with
  | getHead head =>
      obtain rfl := Option.some.inj answered
      unfold IndexerCall.begin
      by_cases ahead : startBlock > head
      · rw [if_pos ahead]
        exact .returned
      · rw [if_neg ahead]
        have low := UInt64.le_iff_toNat_le.mp (UInt64.not_lt.mp ahead)
        have place : LoopPlace startBlock head ⟨startBlock, head, false, false⟩ :=
          ⟨Nat.le_refl _, Nat.le_succ_of_le low, Nat.le_refl _⟩
        have coverage : Coverage config chain head ⟨startBlock, head, false, false⟩ false [] :=
          .toCome rfl fun _ => Chain.span_self _
        have begun := followed_enter ws numbered place coverage
        rw [Chain.span_self] at begun
        exact begun
  | headAfterSubscription place isStarted low =>
      obtain rfl := Option.some.inj answered
      exact followed_enter ws numbered
        ⟨place.started, Nat.le_trans place.reached (Nat.succ_le_succ place.known), Nat.le_refl _⟩
        (.delivered isStarted low)
  | returned => cases answered
  | filter place within coverage => cases answered
  | handle place forward below onward last coverage => cases answered
  | subscribe place => cases answered
  | subscribeLate place quiet => cases answered
  | sink started reached complete => cases answered
  | handleSink started reached complete => cases answered

/-- The logs of a range arrive. -/
theorem Followed.filterLogs (positive : config.maxBlocksDistance ≠ 0) {state : Following}
    (followed : Followed config chain startBlock state) (asked : state.call = .filter loop)
    (fits : RangeFits config loop) :
    Followed config chain startBlock
      { state with
        call := .handle loop (chain.logs loop.fromBlock.toNat
          (min (loop.toBlock config).toNat state.head.toNat)) } := by
  cases followed with
  | filter place within coverage =>
      cases asked
      obtain ⟨forward, below, onward⟩ := fits.forward positive within
      rw [Nat.min_eq_left (Nat.le_trans below place.known)]
      exact .handle place forward below onward (fits.last positive) coverage
  | _ => cases asked

/-- Logs are handled. -/
theorem Followed.handled (ws : config.indexerMode = .ws) (numbered : Numbered chain)
    {state : Following} {call' : IndexerCall} {logs : List EvmLog} {block : UInt64}
    (followed : Followed config chain startBlock state)
    (handling : state.call.handling config = some (logs, block))
    (answered : state.call.next config .handled = some call') :
    Followed config chain startBlock
      { state with call := call', handled := state.handled ++ logs } := by
  cases followed with
  | handle place forward below onward last coverage =>
      obtain ⟨rfl, _⟩ := Prod.mk.inj (Option.some.inj handling)
      obtain rfl := Option.some.inj answered
      have advanced := followed_advance ws numbered place forward below onward last coverage
      rw [onward, Chain.span_append place.started (Nat.le_succ_of_le forward)] at advanced
      exact advanced
  | handleSink started reached complete =>
      obtain ⟨rfl, _⟩ := Prod.mk.inj (Option.some.inj handling)
      obtain rfl := Option.some.inj answered
      refine .sink started reached ?_
      rw [List.append_assoc]
      rw [keptFrom_append] at complete
      exact complete
  | _ => cases handling

/-- The subscription is established. -/
theorem Followed.subscribes {state : Following} {call' : IndexerCall}
    (followed : Followed config chain startBlock state)
    (answered : state.call.next config .subscribed = some call') :
    Followed config chain startBlock { state with call := call', subscribed := true } := by
  cases followed with
  | @subscribe head loop place =>
      obtain rfl := Option.some.inj answered
      have nothing : ([] : List EvmLog) = chain.span (head.toNat + 1) (head.toNat + 1) :=
        (Chain.span_self _).symm
      rw [nothing]
      exact .headAfterSubscription ⟨place.started, place.reached, place.known⟩ rfl
        (Nat.le_refl _)
  | @subscribeLate head loop place quiet =>
      obtain rfl := Option.some.inj answered
      have high := Nat.le_trans place.reached (Nat.succ_le_succ place.known)
      refine .sink (Nat.le_trans place.started high) high ?_
      rw [Chain.span_append place.started high, quiet]
      rfl
  | _ => cases answered

/-- Logs are read from the sink. -/
theorem Followed.reads {state : Following} {call' : IndexerCall} {first : EvmLog}
    {rest remaining : List EvmLog} (followed : Followed config chain startBlock state)
    (queued : state.pending = first :: rest ++ remaining)
    (answered : state.call.next config (.sinkLogs first rest) = some call') :
    Followed config chain startBlock { state with call := call', pending := remaining } := by
  cases followed with
  | sink started reached complete =>
      obtain rfl := Option.some.inj answered
      exact .handleSink started reached (queued ▸ complete)
  | _ => cases answered

/-- Every step that meets the condition keeps the invariant. -/
theorem Followed.step (ws : config.indexerMode = .ws)
    (positive : config.maxBlocksDistance ≠ 0) (numbered : Numbered chain)
    {before after : Following} (followed : Followed config chain startBlock before)
    (step : FollowingStep config chain before after)
    (handover : Handover config chain before after) :
    Followed config chain startBlock after := by
  cases step with
  | mine room => exact followed.mine numbered room (handover.2 (succ_head_ne room))
  | head answered => exact followed.reportHead ws numbered answered
  | logs asked answered =>
      have fits := handover.1
      rw [asked] at answered fits
      obtain rfl := Option.some.inj answered
      exact followed.filterLogs positive asked fits
  | handled handling answered => exact followed.handled ws numbered handling answered
  | subscribed answered => exact followed.subscribes answered
  | read queued answered => exact followed.reads queued answered
  | failure err answered =>
      obtain ⟨outcome, rfl⟩ := IndexerCall.next_failure answered
      exact .returned

end Steps

/-! ### Runs -/

theorem smallChain_numbered : Numbered smallChain := by
  intro block log member
  unfold smallChain at member
  split at member
  · rcases List.mem_pair.mp member with rfl | rfl <;> rfl
  · rcases List.mem_pair.mp member with rfl | rfl <;> rfl
  · cases member

/-- In every run whose steps meet the condition, the logs handled by a call that waits at a drained
sink are those of all blocks from its start block to the head, once each and in order. -/
theorem handled_eq_logs {config : Config} {chain : Chain} {startBlock head : UInt64}
    (ws : config.indexerMode = .ws) (positive : config.maxBlocksDistance ≠ 0)
    (numbered : Numbered chain) {reached : Following}
    (run : Relation.ReflTransGen
      (fun before after => FollowingStep config chain before after ∧
        Handover config chain before after)
      ⟨head, .getHead startBlock, false, [], []⟩ reached)
    {fromBlock : UInt64} (atSink : reached.call = .sink fromBlock)
    (drained : reached.pending = []) :
    reached.handled = chain.logs startBlock.toNat reached.head.toNat := by
  have followed : Followed config chain startBlock reached :=
    GuardedRun.invariant
      (fun followed step handover => followed.step ws positive numbered step handover)
      run (.getHead head)
  cases followed with
  | sink started high complete =>
      obtain rfl : _ = [] := drained
      exact (List.append_nil _).symm.trans complete
  | _ => cases atSink

/-- The subscription starts inside the loop; block 2 is mined after it and arrives both from the
filter and at the sink, where it is dropped. -/
def overlapMoves : List FollowingMove :=
  [.head, .logs, .handled, .subscribed, .mine, .head, .logs, .handled, .logs, .handled, .read 1,
    .handled]

def overlapped : Following :=
  played (Handover ⟨1, .ws⟩ smallChain) (Following.move ⟨1, .ws⟩ smallChain) overlapMoves
    ⟨1, .getHead 0, false, [], []⟩

theorem handled_eq_logs_overlapped :
    Relation.ReflTransGen
      (fun before after => FollowingStep ⟨1, .ws⟩ smallChain before after ∧
        Handover ⟨1, .ws⟩ smallChain before after)
      ⟨1, .getHead 0, false, [], []⟩ overlapped ∧
      overlapped.call = .sink 3 ∧ overlapped.pending = [] ∧
      overlapped.handled = smallChain.logs 0 2 := by
  have made : (play (Handover ⟨1, .ws⟩ smallChain) (Following.move ⟨1, .ws⟩ smallChain)
      overlapMoves ⟨1, .getHead 0, false, [], []⟩).isSome = true := by decide +kernel
  have run := run_of_played made fun _ _ _ moved => Following.move_step moved
  have atSink : overlapped.call = .sink 3 := rfl
  have drained : overlapped.pending = [] := rfl
  exact ⟨run, atSink, drained,
    handled_eq_logs rfl (by decide) smallChain_numbered run atSink drained⟩

/-- One range reaches the head; block 2 is mined before the subscription starts. -/
def gapMoves : List FollowingMove :=
  [.head, .mine, .logs, .handled, .subscribed]

def gapped : Following :=
  played (fun _ _ => True) (Following.move ⟨10, .ws⟩ smallChain) gapMoves
    ⟨1, .getHead 0, false, [], []⟩

/-- With a distance of 10 the head 1 is reached in one range.  The call then subscribes without
asking for the head again, and the logs of block 2 are never handled. -/
theorem log_lost_before_subscription :
    Numbered smallChain ∧
      Relation.ReflTransGen (FollowingStep ⟨10, .ws⟩ smallChain)
        ⟨1, .getHead 0, false, [], []⟩ gapped ∧
      gapped.call = .sink 2 ∧ gapped.pending = [] ∧ gapped.head = 2 ∧
      gapped.handled ≠ smallChain.logs 0 2 := by
  have made : (play (fun _ _ => True) (Following.move ⟨10, .ws⟩ smallChain) gapMoves
      ⟨1, .getHead 0, false, [], []⟩).isSome = true := by decide +kernel
  have run := run_of_played made fun _ _ _ moved => Following.move_step moved
  exact ⟨smallChain_numbered, GuardedRun.steps run, rfl, rfl, rfl, by decide⟩

end MerkleProofService
