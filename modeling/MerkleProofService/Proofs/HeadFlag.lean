/-
Module: MerkleProofService.Proofs.HeadFlag
Layer: Proofs
Purpose: When the flag that opens a registry for queries is set.  A polling call runs a job; the
  flag is set after the commit of the first range that reaches a reported head, when every block up
  to that head has been handled.  It stays set for the rest of the call, so it is only right as long
  as the ranges after that run forward: one that wraps takes the recorded block back.
Imports: Proofs.CrashRuns, Proofs.PollingRuns
Trusted boundary: FromChain, the documented behaviour of FilterLogs
Main exports: JobRunStep, committedRange, HeadCommitted, LoopFlag, FlagAt, FlagAt.step,
  onHead_only_when_committed
-/
import MerkleProofService.Proofs.CrashRuns
import MerkleProofService.Proofs.PollingRuns

namespace MerkleProofService

open Library

/-! ### A call that runs a job -/

/-- `FilterLogs` returns the logs of the chain. -/
def FromChain (chain : Chain) : IndexerEvent → Prop
  | .filterLogs fromBlock toBlock logs => logs = chain.logs fromBlock.toNat toBlock.toNat
  | .blockNumber _ | .called _ | .refused _ _ | .modeChange _ => True

/-- Others write to the database, but not the record of the job. -/
def OthersWrite (job : ZkCertificateRegistryJob) (before after : JobState) : Prop :=
  after.operations = before.operations ∧ after.onHead = before.onHead ∧
    after.database.lookup (makeJobKey job.jobDescriptor) =
      before.database.lookup (makeJobKey job.jobDescriptor)

/-- One step of a call and the job it runs. -/
def JobRunStep (config : Config) (poseidon : PoseidonHash) (job : ZkCertificateRegistryJob)
    (chain : Chain) :
    Traced (IndexerState × JobState) IndexerEvent → Traced (IndexerState × JobState) IndexerEvent →
      Prop :=
  Traced.Step (Follows (IndexerStep config)
    (fun before event after => JobAccepts poseidon job before event after ∧ FromChain chain event)
    (OthersWrite job))

/-- A call that is started for a job on a registry that has just been initialised. -/
def startJobRun (startBlock : UInt64) (database : Database) :
    Traced (IndexerState × JobState) IndexerEvent :=
  ⟨(⟨.getHead startBlock, .waits⟩, ⟨database, [], false⟩), []⟩

/-- Once the call has reached a head, the additions of a range it is about to filter do not
wrap. -/
def OnHeadForward (config : Config) (state : IndexerState) : Prop :=
  match state.call with
  | .filter loop => loop.isOnHead = true → RangeFits config loop
  | _ => True

instance (config : Config) : (state : IndexerState) → Decidable (OnHeadForward config state)
  | ⟨.filter loop, _⟩ =>
      inferInstanceAs (Decidable (loop.isOnHead = true → RangeFits config loop))
  | ⟨.getHead _, _⟩ | ⟨.handle _ _, _⟩ | ⟨.pollHead _, _⟩ | ⟨.subscribe _, _⟩
  | ⟨.headAfterSubscription _, _⟩ | ⟨.subscribeLate _, _⟩ | ⟨.sink _, _⟩
  | ⟨.handleSink _ _ _, _⟩ | ⟨.returned _, _⟩ => .isTrue trivial

/-! ### Committed blocks -/

/-- A range that is filtered, handled whole and committed. -/
def committedRange (chain : Chain) (fromBlock toBlock : UInt64) : List IndexerEvent :=
  let logs := chain.logs fromBlock.toNat toBlock.toNat
  .filterLogs fromBlock toBlock logs :: (rangeCalls logs toBlock).map .called

/-- The block is in a range that has been committed. -/
def CommittedBlock (chain : Chain) (trace : List IndexerEvent) (number : Nat) : Prop :=
  ∃ before fromBlock toBlock after,
    trace = before ++ committedRange chain fromBlock toBlock ++ after ∧
      fromBlock.toNat ≤ number ∧ number ≤ toBlock.toNat

/-- The head was reported and reached: the record is at it or after it, all blocks up to it have
been committed, the last of them with a range that ended at the head as it was reported. -/
structure HeadCommitted (job : ZkCertificateRegistryJob) (chain : Chain) (startBlock : UInt64)
    (database : Database) (trace : List IndexerEvent) (head : UInt64) : Prop where
  reported : .blockNumber head ∈ trace
  persisted : ∃ block, RecordedAt job database block ∧ head ≤ block
  handled : ∀ number, startBlock.toNat ≤ number → number ≤ head.toNat →
    CommittedBlock chain trace number
  reached : ∃ before fromBlock after,
    trace = before ++ committedRange chain fromBlock head ++ after ∧ lastHead before = some head

section Committed

variable {job : ZkCertificateRegistryJob} {chain : Chain} {startBlock head : UInt64}
variable {database database' : Database} {trace : List IndexerEvent}

theorem CommittedBlock.append {number : Nat} (committed : CommittedBlock chain trace number)
    (more : List IndexerEvent) : CommittedBlock chain (trace ++ more) number := by
  obtain ⟨before, fromBlock, toBlock, after, rfl, low, high⟩ := committed
  exact ⟨before, fromBlock, toBlock, after ++ more, by simp, low, high⟩

theorem RecordedAt.same {block : UInt64} (recorded : RecordedAt job database block)
    (same : database'.lookup (makeJobKey job.jobDescriptor) =
      database.lookup (makeJobKey job.jobDescriptor)) : RecordedAt job database' block := by
  obtain ⟨record, stored, decoded⟩ := recorded
  exact ⟨record, same.trans stored, decoded⟩

/-- A head that is committed stays so while the record does not go before it. -/
theorem HeadCommitted.later (committed : HeadCommitted job chain startBlock database trace head)
    (persisted : ∃ block, RecordedAt job database' block ∧ head ≤ block)
    (more : List IndexerEvent) :
    HeadCommitted job chain startBlock database' (trace ++ more) head where
  reported := List.mem_append_left more committed.reported
  persisted := persisted
  handled := fun number low high => (committed.handled number low high).append more
  reached := by
    obtain ⟨before, fromBlock, after, rfl, known⟩ := committed.reached
    exact ⟨before, fromBlock, after ++ more, by simp, known⟩

theorem HeadCommitted.append (committed : HeadCommitted job chain startBlock database trace head)
    (more : List IndexerEvent) :
    HeadCommitted job chain startBlock database (trace ++ more) head :=
  committed.later committed.persisted more

theorem HeadCommitted.same (committed : HeadCommitted job chain startBlock database trace head)
    (same : database'.lookup (makeJobKey job.jobDescriptor) =
      database.lookup (makeJobKey job.jobDescriptor)) :
    HeadCommitted job chain startBlock database' trace head := by
  obtain ⟨block, recorded, past⟩ := committed.persisted
  exact ⟨committed.reported, ⟨block, recorded.same same, past⟩, committed.handled,
    committed.reached⟩

/-- `Commit` records its block. -/
theorem recordedAt_commit {poseidon : PoseidonHash} (codec : job.jobCodec.RoundTrips)
    {operations : List LeafOperation} {block : UInt64} {batch : Batch}
    (filled : Read.evalOn database (job.commitBatch poseidon operations block) = .ok batch) :
    RecordedAt job (Store.write database batch) block := by
  obtain ⟨queued, record, _, encoded, rfl⟩ := commitBatch_spec filled
  exact recordedAt_write codec encoded

/-- The last call of a range is its commit, and the only one. -/
theorem rangeCalls_split {logs : List EvmLog} {progressBlock : UInt64} {made : HandlerCall}
    {before after : List HandlerCall}
    (split : before ++ made :: after = rangeCalls logs progressBlock) :
    (after = [] ∧ made = .commit progressBlock) ∨
      (after ≠ [] ∧ ∀ block, made ≠ .commit block) := by
  have calls : rangeCalls logs progressBlock =
      (.prepareContext :: logs.map .handleEVMLog) ++ [.commit progressBlock] := rfl
  rw [calls] at split
  rcases List.eq_nil_or_concat after with rfl | ⟨rest, last, rfl⟩
  · obtain ⟨_, same⟩ := List.append_inj' split rfl
    exact Or.inl ⟨rfl, (List.cons.inj same).1⟩
  · refine Or.inr ⟨by simp, fun block same => ?_⟩
    rw [List.concat_eq_append, ← List.cons_append, ← List.append_assoc] at split
    have member : made ∈ .prepareContext :: logs.map HandlerCall.handleEVMLog := by
      rw [← List.append_inj_left' split rfl]
      simp
    rw [same] at member
    simp at member

end Committed

/-! ### The invariant -/

/-- What holds between two ranges of a loop: the blocks before it are committed, the flag is set
only if the loop has reached a head, and then one before `fromBlock` is committed. -/
structure LoopFlag (job : ZkCertificateRegistryJob) (chain : Chain) (startBlock : UInt64)
    (loop : Loop) (trace : List IndexerEvent) (state : JobState) : Prop where
  known : lastHead trace = some loop.currentBlock
  covered : ∀ number, startBlock.toNat ≤ number → number < loop.fromBlock.toNat →
    CommittedBlock chain trace number
  committed : loop.isOnHead = true → ∃ head,
    HeadCommitted job chain startBlock state.database trace head ∧
      head.toNat < loop.fromBlock.toNat
  flag : state.onHead = true → loop.isOnHead = true

/-- The flag in each place of a polling call. -/
inductive FlagAt (config : Config) (job : ZkCertificateRegistryJob) (chain : Chain)
    (startBlock : UInt64) : Polling → List IndexerEvent → JobState → Prop where
  | getHead {state : JobState} (closed : state.onHead = false) :
      FlagAt config job chain startBlock (.getHead startBlock) [] state
  | filter {loop : Loop} {notice : Option Mode} {trace : List IndexerEvent} {state : JobState}
      (place : LoopFlag job chain startBlock loop trace state)
      (within : loop.fromBlock ≤ loop.currentBlock)
      (told : notice = none ∨ notice = some .history) :
      FlagAt config job chain startBlock (.filter loop notice) trace state
  | handle {loop : Loop} {before : List IndexerEvent} {done rest : List HandlerCall}
      {state : JobState} (known : lastHead before = some loop.currentBlock)
      (calls : done ++ rest = rangeCalls
        (chain.logs loop.fromBlock.toNat (loop.toBlock config).toNat) (loop.toBlock config))
      (place : LoopFlag job chain startBlock loop (before ++
        .filterLogs loop.fromBlock (loop.toBlock config)
          (chain.logs loop.fromBlock.toNat (loop.toBlock config).toNat) :: done.map .called) state)
      (forward : loop.isOnHead = true → loop.fromBlock.toNat ≤ (loop.toBlock config).toNat ∧
        (loop.toBlock config + 1).toNat = (loop.toBlock config).toNat + 1)
      (recorded : rest = [] → RecordedAt job state.database (loop.toBlock config)) :
      FlagAt config job chain startBlock
        (.handle loop (chain.logs loop.fromBlock.toNat (loop.toBlock config).toNat) rest)
        (before ++ .filterLogs loop.fromBlock (loop.toBlock config)
          (chain.logs loop.fromBlock.toNat (loop.toBlock config).toNat) :: done.map .called) state
  | pollHead {loop : Loop} {notice : Option Mode} {trace : List IndexerEvent} {state : JobState}
      (place : LoopFlag job chain startBlock loop trace state) (reached : loop.isOnHead = true) :
      FlagAt config job chain startBlock (.pollHead loop notice) trace state
  | ended {polling : Polling} {trace : List IndexerEvent} {state : JobState}
      (finished : (∃ loop logs err, polling = .refused loop logs err) ∨
        ∃ err, polling = .returned err)
      (committed : state.onHead = true → ∃ head,
        HeadCommitted job chain startBlock state.database trace head) :
      FlagAt config job chain startBlock polling trace state

section Steps

variable {config : Config} {poseidon : PoseidonHash} {job : ZkCertificateRegistryJob}
variable {chain : Chain} {startBlock : UInt64} {loop : Loop} {trace : List IndexerEvent}
variable {polling polling' : Polling} {state state' : JobState}

/-- The loop is where it was after an event that is no head, if the record stays past the heads that
were committed. -/
theorem LoopFlag.append (place : LoopFlag job chain startBlock loop trace state)
    (event : IndexerEvent) (other : ∀ head, event ≠ .blockNumber head)
    (persists : loop.isOnHead = true → ∀ head : UInt64, head.toNat < loop.fromBlock.toNat →
      (∃ block, RecordedAt job state.database block ∧ head ≤ block) →
      ∃ block, RecordedAt job state'.database block ∧ head ≤ block)
    (flag : state'.onHead = true → loop.isOnHead = true) :
    LoopFlag job chain startBlock loop (trace ++ [event]) state' where
  known := (lastHead_snoc trace other).trans place.known
  covered := fun number low high => (place.covered number low high).append _
  committed := fun reached => by
    obtain ⟨head, committed, past⟩ := place.committed reached
    exact ⟨head, committed.later (persists reached head past committed.persisted) _, past⟩
  flag := flag

theorem LoopFlag.head (place : LoopFlag job chain startBlock loop trace state) (head : UInt64) :
    LoopFlag job chain startBlock { loop with currentBlock := head }
      (trace ++ [.blockNumber head]) state where
  known := lastHead_snoc_head trace head
  covered := fun number low high => (place.covered number low high).append _
  committed := fun reached => by
    obtain ⟨head, committed, past⟩ := place.committed reached
    exact ⟨head, committed.append _, past⟩
  flag := place.flag

theorem LoopFlag.headCommitted (place : LoopFlag job chain startBlock loop trace state)
    (set : state.onHead = true) :
    ∃ head, HeadCommitted job chain startBlock state.database trace head := by
  obtain ⟨head, committed, _⟩ := place.committed (place.flag set)
  exact ⟨head, committed⟩

/-- In every place the flag is only set if a head is committed. -/
theorem FlagAt.headCommitted (flag : FlagAt config job chain startBlock polling trace state)
    (set : state.onHead = true) :
    ∃ head, HeadCommitted job chain startBlock state.database trace head := by
  cases flag with
  | getHead closed =>
      rw [closed] at set
      cases set
  | filter place within told => exact place.headCommitted set
  | handle known calls place forward recorded => exact place.headCommitted set
  | pollHead place reached => exact place.headCommitted set
  | ended _ committed => exact committed set

/-- Others do not touch the record. -/
theorem FlagAt.others (flag : FlagAt config job chain startBlock polling trace state)
    (wrote : OthersWrite job state state') :
    FlagAt config job chain startBlock polling trace state' := by
  obtain ⟨_, onHead, same⟩ := wrote
  have moved : ∀ {loop trace}, LoopFlag job chain startBlock loop trace state →
      LoopFlag job chain startBlock loop trace state' := by
    intro loop trace place
    refine ⟨place.known, place.covered, fun reached => ?_, fun set => place.flag (onHead ▸ set)⟩
    obtain ⟨head, committed, past⟩ := place.committed reached
    exact ⟨head, committed.same same, past⟩
  cases flag with
  | getHead closed => exact .getHead (onHead.trans closed)
  | filter place within told => exact .filter (moved place) within told
  | handle known calls place forward recorded =>
      exact .handle known calls (moved place) forward fun none => (recorded none).same same
  | pollHead place reached => exact .pollHead (moved place) reached
  | ended finished committed =>
      refine .ended finished fun set => ?_
      obtain ⟨head, reached⟩ := committed (onHead ▸ set)
      exact ⟨head, reached.same same⟩

theorem toNat_add_one_le (block : UInt64) : (block + 1).toNat ≤ block.toNat + 1 := by
  rw [UInt64.toNat_add]
  exact Nat.mod_le _ _

theorem mem_of_lastHead {head : UInt64} (known : lastHead trace = some head) :
    .blockNumber head ∈ trace := by
  induction trace using List.reverseRecOn with
  | nil => cases known
  | append_singleton trace event ih =>
      cases event with
      | blockNumber reported =>
          rw [lastHead_snoc_head] at known
          obtain rfl := Option.some.inj known
          simp
      | _ =>
          rw [lastHead_snoc trace (by simp)] at known
          exact List.mem_append_left _ (ih known)

/-- Once the last call of a range is made, the blocks before the next range are committed. -/
theorem covered_next {before : List IndexerEvent}
    (place : LoopFlag job chain startBlock loop
      (before ++ committedRange chain loop.fromBlock (loop.toBlock config)) state)
    {number : Nat} (low : startBlock.toNat ≤ number)
    (high : number < (loop.toBlock config + 1).toNat) :
    CommittedBlock chain (before ++ committedRange chain loop.fromBlock (loop.toBlock config))
      number := by
  by_cases old : number < loop.fromBlock.toNat
  · exact place.covered number low old
  · have small := toNat_add_one_le (loop.toBlock config)
    exact ⟨before, loop.fromBlock, loop.toBlock config, [], (List.append_nil _).symm, by omega,
      by omega⟩

/-- A range that does not reach the head is followed by the next one. -/
theorem LoopFlag.proceeds {before : List IndexerEvent}
    (place : LoopFlag job chain startBlock loop
      (before ++ committedRange chain loop.fromBlock (loop.toBlock config)) state)
    (forward : loop.isOnHead = true → loop.fromBlock.toNat ≤ (loop.toBlock config).toNat ∧
      (loop.toBlock config + 1).toNat = (loop.toBlock config).toNat + 1) :
    LoopFlag job chain startBlock { loop with fromBlock := loop.toBlock config + 1 }
      (before ++ committedRange chain loop.fromBlock (loop.toBlock config)) state where
  known := place.known
  covered := fun number low high => covered_next place low high
  committed := fun reached => by
    obtain ⟨head, committed, past⟩ := place.committed reached
    obtain ⟨runs, next⟩ := forward reached
    refine ⟨head, committed, ?_⟩
    change head.toNat < (loop.toBlock config + 1).toNat
    omega
  flag := place.flag

/-- A range that reaches the head has committed it. -/
theorem LoopFlag.reaches {before : List IndexerEvent}
    (place : LoopFlag job chain startBlock loop
      (before ++ committedRange chain loop.fromBlock (loop.toBlock config)) state)
    (known : lastHead before = some loop.currentBlock)
    (recorded : RecordedAt job state.database (loop.toBlock config))
    (last : ¬ loop.toBlock config + 1 ≤ loop.currentBlock) :
    LoopFlag job chain startBlock
      { loop with fromBlock := loop.toBlock config + 1, isOnHead := true }
      (before ++ committedRange chain loop.fromBlock (loop.toBlock config)) state := by
  rw [UInt64.le_iff_toNat_le] at last
  have low := toBlock_le_currentBlock config loop
  have small := toNat_add_one_le (loop.toBlock config)
  have ends : loop.toBlock config = loop.currentBlock := UInt64.toNat_inj.mp (by omega)
  refine ⟨place.known, fun number low high => covered_next place low high, fun _ => ?_,
    fun _ => rfl⟩
  refine ⟨loop.currentBlock,
    { reported := mem_of_lastHead place.known
      persisted := ⟨_, recorded, ends ▸ UInt64.le_refl _⟩
      handled := fun number low high => covered_next place low (by omega)
      reached := ⟨before, loop.fromBlock, [], ?_, known⟩ }, ?_⟩
  · rw [List.append_nil, ← ends]
  · change _ < (loop.toBlock config + 1).toNat
    omega

/-- A step that shows nothing. -/
theorem FlagAt.silent (flag : FlagAt config job chain startBlock polling trace state)
    (step : PollStep config polling none polling') :
    FlagAt config job chain startBlock polling' trace state := by
  cases step with
  | proceeds more =>
      cases flag with
      | handle known calls place forward recorded =>
          rw [List.append_nil] at calls
          subst calls
          exact .filter (place.proceeds forward) more (Or.inl rfl)
      | ended finished _ => simp at finished
  | reaches last =>
      cases flag with
      | handle known calls place forward recorded =>
          rw [List.append_nil] at calls
          subst calls
          exact .pollHead (place.reaches known (recorded rfl) last) rfl
      | ended finished _ => simp at finished
  | returns err => exact .ended (Or.inr ⟨err, rfl⟩) flag.headCommitted

/-- A call of the handler is made. -/
theorem FlagAt.calls (codec : job.jobCodec.RoundTrips) {logs : List EvmLog} {made : HandlerCall}
    {rest : List HandlerCall}
    (flag : FlagAt config job chain startBlock (.handle loop logs (made :: rest)) trace state)
    (accepted : JobAccepts poseidon job state (.called made) state') :
    FlagAt config job chain startBlock (.handle loop logs rest) (trace ++ [.called made])
      state' := by
  cases flag with
  | ended finished _ => simp at finished
  | @handle _ before done _ _ known calls place forward recorded =>
      have shape : ∀ event : IndexerEvent, before ++ event :: done.map .called ++ [.called made] =
          before ++ event :: (done ++ [made]).map .called := by simp
      have calls' : (done ++ [made]) ++ rest = rangeCalls
          (chain.logs loop.fromBlock.toNat (loop.toBlock config).toNat)
          (loop.toBlock config) := by
        rw [← calls]
        simp
      have closed : state'.onHead = true → loop.isOnHead = true := by
        cases accepted <;> exact place.flag
      rcases rangeCalls_split calls with ⟨rfl, rfl⟩ | ⟨more, notCommit⟩
      · cases accepted with
        | commit filled =>
            have now := recordedAt_commit codec filled
            -- a head that was committed before is before the range, so the record stays past it
            have place' := place.append (.called (.commit (loop.toBlock config))) (by simp)
              (fun reached head past _ => ⟨loop.toBlock config, now, by
                have runs := (forward reached).1
                exact UInt64.le_iff_toNat_le.mpr (by omega)⟩) closed
            rw [shape] at place' ⊢
            exact .handle known calls' place' forward fun _ => now
      · have same : state'.database = state.database := by
          cases accepted with
          | prepareContext => rfl
          | handleEVMLog handled => rfl
          | commit filled => exact absurd rfl (notCommit _)
        have place' := place.append (.called made) (by simp)
          (fun _ _ _ persisted => same ▸ persisted) closed
        rw [shape] at place' ⊢
        exact .handle known calls' place' forward fun none => absurd none more

/-- A step that shows an event, with what the job does at it. -/
theorem FlagAt.shown (positive : config.maxBlocksDistance ≠ 0)
    (codec : job.jobCodec.RoundTrips) {event : IndexerEvent}
    (flag : FlagAt config job chain startBlock polling trace state)
    (forward : OnHeadForward config polling.state)
    (step : PollStep config polling (some event) polling')
    (accepted : JobAccepts poseidon job state event state') (fromChain : FromChain chain event) :
    FlagAt config job chain startBlock polling' (trace ++ [event]) state' := by
  cases step with
  | begins within =>
      cases accepted with
      | blockNumber head =>
          cases flag with
          | getHead closed =>
              refine .filter ⟨rfl, ?_, ?_, ?_⟩ within (Or.inr rfl)
              · intro number low high
                exact absurd low (Nat.not_le.mpr high)
              · intro reached
                cases reached
              · intro set
                rw [closed] at set
                cases set
          | ended finished _ => simp at finished
  | tooEarly err =>
      cases accepted with
      | blockNumber head =>
          refine .ended (Or.inr ⟨err, rfl⟩) fun set => ?_
          obtain ⟨head, committed⟩ := flag.headCommitted set
          exact ⟨head, committed.append _⟩
  | @filterTold loop mode =>
      cases accepted with
      | modeChange _ =>
          cases flag with
          | filter place within told =>
              obtain rfl : mode = .history := by simpa using told
              refine .filter (place.append _ (by simp) (fun _ _ _ persisted => persisted) ?_)
                within (Or.inl rfl)
              intro set
              cases stateFlag : state.onHead with
              | true => exact place.flag stateFlag
              | false => simp [onIndexerModeChange, stateFlag] at set
          | ended finished _ => simp at finished
  | pollTold =>
      cases accepted with
      | modeChange mode =>
          cases flag with
          | pollHead place reached =>
              exact .pollHead (place.append _ (by simp) (fun _ _ _ persisted => persisted)
                fun _ => reached) reached
          | ended finished _ => simp at finished
  | filters logs =>
      cases accepted with
      | filterLogs fromBlock toBlock _ =>
          obtain rfl : logs = _ := fromChain
          cases flag with
          | filter place within told =>
              refine .handle place.known (List.nil_append _) (place.append _ (by simp)
                (fun _ _ _ persisted => persisted) place.flag) ?_ (by simp [rangeCalls])
              intro reached
              obtain ⟨runs, _, next⟩ := (forward reached).forward positive within
              exact ⟨runs, next⟩
          | ended finished _ => simp at finished
  | calls => exact flag.calls codec accepted
  | refuses err err' =>
      cases accepted with
      | refused call err =>
          refine .ended (Or.inl ⟨_, _, err', rfl⟩) fun set => ?_
          obtain ⟨head, committed⟩ := flag.headCommitted set
          exact ⟨head, committed.append _⟩
  | @arrives loop head arrived =>
      cases accepted with
      | blockNumber _ =>
          cases flag with
          | pollHead place reached => exact .filter (place.head head) arrived (Or.inl rfl)
          | ended finished _ => simp at finished
  | @pollsAgain loop head =>
      cases accepted with
      | blockNumber _ =>
          cases flag with
          | pollHead place reached => exact .pollHead (place.head head) reached
          | ended finished _ => simp at finished

end Steps

/-! ### Runs -/

/-- The call stands in the polling machine with the flag as it should be. -/
def FlagRight (config : Config) (job : ZkCertificateRegistryJob) (chain : Chain)
    (startBlock : UInt64) (s : Traced (IndexerState × JobState) IndexerEvent) : Prop :=
  ∃ polling, s.state.1 = Polling.state polling ∧
    FlagAt config job chain startBlock polling s.trace s.state.2

section Runs

variable {config : Config} {poseidon : PoseidonHash} {job : ZkCertificateRegistryJob}
variable {chain : Chain} {startBlock : UInt64}
variable {s t : Traced (IndexerState × JobState) IndexerEvent}

theorem FlagRight.step (poll : config.indexerMode = .poll)
    (positive : config.maxBlocksDistance ≠ 0) (codec : job.jobCodec.RoundTrips)
    (right : FlagRight config job chain startBlock s)
    (step : JobRunStep config poseidon job chain s t) (forward : OnHeadForward config s.state.1) :
    FlagRight config job chain startBlock t := by
  rcases s with ⟨⟨_, state⟩, trace⟩
  rcases t with ⟨⟨_, state'⟩, _⟩
  obtain ⟨polling, rfl, flag⟩ := right
  obtain ⟨shown, moved, rfl⟩ := step
  cases moved with
  | silent moved =>
      obtain ⟨polling', rfl, pollStep⟩ := poll_step poll moved
      exact ⟨polling', rfl, (List.append_nil trace).symm ▸ flag.silent pollStep⟩
  | shown moved accepted =>
      obtain ⟨polling', rfl, pollStep⟩ := poll_step poll moved
      exact ⟨polling', rfl, flag.shown positive codec forward pollStep accepted.1 accepted.2⟩
  | alone wrote => exact ⟨polling, rfl, (List.append_nil trace).symm ▸ flag.others wrote⟩

/-- The flag is set only if a head that was reported has been committed: the record is at it or
after it, the logs of all blocks from the start block up to it have been handled and committed, and
the last of these ranges ended at the head that was the latest then.  So the flag is not set while
the ranges before that one are handled.  It holds in every state of a call, whatever heads are
reported and whatever fails, as long as the additions of the ranges that are filtered once a head is
reached do not wrap. -/
theorem onHead_only_when_committed (poll : (newEVMIndexer config).indexerMode = .poll)
    (codec : job.jobCodec.RoundTrips) {database : Database}
    (run : Relation.ReflTransGen (fun before after =>
      JobRunStep (newEVMIndexer config) poseidon job chain before after ∧
        OnHeadForward (newEVMIndexer config) before.state.1)
      (startJobRun startBlock database) s) (set : s.state.2.onHead = true) :
    ∃ head, HeadCommitted job chain startBlock s.state.2.database s.trace head := by
  have right : FlagRight (newEVMIndexer config) job chain startBlock s :=
    GuardedRun.invariant (fun right step forward =>
      right.step poll (newEVMIndexer_positive config) codec step forward) run
      ⟨.getHead startBlock, rfl, .getHead rfl⟩
  obtain ⟨polling, _, flag⟩ := right
  exact flag.headCommitted set

end Runs

/-! ### Two runs of a small job -/

instance (chain : Chain) : (event : IndexerEvent) → Decidable (FromChain chain event)
  | .filterLogs fromBlock toBlock logs =>
      inferInstanceAs (Decidable (logs = chain.logs fromBlock.toNat toBlock.toNat))
  | .blockNumber _ | .called _ | .refused _ _ | .modeChange _ => .isTrue trivial

/-- The job at an event, if it accepts it. -/
def JobState.accept (poseidon : PoseidonHash) (job : ZkCertificateRegistryJob) (s : JobState) :
    IndexerEvent → Option JobState
  | .blockNumber _ | .filterLogs _ _ _ | .refused _ _ => some s
  | .called .prepareContext => some { s with operations := [] }
  | .called (.handleEVMLog log) =>
      (job.handleEVMLog s.operations log).toOption.map fun operations =>
        { s with operations := operations }
  | .called (.commit block) =>
      (Read.evalOn s.database (job.commitBatch poseidon s.operations block)).toOption.map
        fun batch => { s with database := Store.write s.database batch }
  | .modeChange mode => some { s with onHead := onIndexerModeChange mode s.onHead }

theorem JobState.accept_accepts {poseidon : PoseidonHash} {job : ZkCertificateRegistryJob}
    {s t : JobState} {event : IndexerEvent} (accepted : s.accept poseidon job event = some t) :
    JobAccepts poseidon job s event t := by
  cases event with
  | blockNumber head =>
      obtain rfl := Option.some.inj accepted
      exact .blockNumber head
  | filterLogs fromBlock toBlock logs =>
      obtain rfl := Option.some.inj accepted
      exact .filterLogs fromBlock toBlock logs
  | refused call err =>
      obtain rfl := Option.some.inj accepted
      exact .refused call err
  | modeChange mode =>
      obtain rfl := Option.some.inj accepted
      exact .modeChange mode
  | called call =>
      cases call with
      | prepareContext =>
          obtain rfl := Option.some.inj accepted
          exact .prepareContext
      | handleEVMLog log =>
          obtain ⟨operations, handled, rfl⟩ := Option.map_eq_some_iff.mp accepted
          exact .handleEVMLog (except_toOption_eq_some.mp handled)
      | commit block =>
          obtain ⟨batch, filled, rfl⟩ := Option.map_eq_some_iff.mp accepted
          exact .commit (except_toOption_eq_some.mp filled)

/-- A move of the call, followed by the job. -/
def jobMove (config : Config) (poseidon : PoseidonHash) (job : ZkCertificateRegistryJob)
    (chain : Chain) (s : IndexerState × JobState) (made : IndexerMove) :
    Option (Option IndexerEvent × (IndexerState × JobState)) :=
  (s.1.move config made).bind fun moved =>
    match moved.1 with
    | none => some (none, (moved.2, s.2))
    | some event =>
        if FromChain chain event then
          (s.2.accept poseidon job event).map fun state => (some event, (moved.2, state))
        else none

theorem jobMove_step {config : Config} {poseidon : PoseidonHash} {job : ZkCertificateRegistryJob}
    {chain : Chain} {before after : Traced (IndexerState × JobState) IndexerEvent}
    {made : IndexerMove}
    (moved : before.move (jobMove config poseidon job chain) made = some after) :
    JobRunStep config poseidon job chain before after := by
  refine Traced.move_step (fun s made shown t moved => ?_) moved
  rcases s with ⟨s, state⟩
  obtain ⟨⟨event, s'⟩, chosen, next⟩ := Option.bind_eq_some_iff.mp moved
  have step := IndexerState.move_step s made event s' chosen
  cases event with
  | none =>
      obtain ⟨rfl, rfl⟩ := Prod.mk.inj (Option.some.inj next)
      exact .silent step
  | some event =>
      by_cases fromChain : FromChain chain event
      · simp only [if_pos fromChain] at next
        obtain ⟨state', accepted, same⟩ := Option.map_eq_some_iff.mp next
        obtain ⟨rfl, rfl⟩ := Prod.mk.inj same
        exact .shown step ⟨JobState.accept_accepts accepted, fromChain⟩
      · simp only [if_neg fromChain] at next
        cases next

/-- A range of two blocks reaches head 2, and one more block follows. -/
def reachMoves : List IndexerMove :=
  List.flatten [[.head 2, .goOn, .logs (smallChain 1 ++ smallChain 2)], List.replicate 8 .goOn,
    [.head 3, .logs []], List.replicate 2 .goOn]

theorem onHead_only_when_committed_reached :
    ∃ s, Relation.ReflTransGen (fun before after =>
        JobRunStep (newEVMIndexer ⟨5, .poll⟩) fieldHash (smallJobAt 1) smallChain before after ∧
          OnHeadForward (newEVMIndexer ⟨5, .poll⟩) before.state.1) (startJobRun 1 ∅) s ∧
      s.state.2.onHead = true ∧
      ∃ head, HeadCommitted (smallJobAt 1) smallChain 1 s.state.2.database s.trace head := by
  let config : Config := newEVMIndexer ⟨5, .poll⟩
  have made : (play (fun before _ => OnHeadForward config before.state.1)
      (Traced.move (jobMove config fieldHash (smallJobAt 1) smallChain)) reachMoves
      (startJobRun 1 ∅)).isSome = true := by decide +kernel
  have run := run_of_played made fun _ _ _ => jobMove_step
  have set : (played (fun before _ => OnHeadForward config before.state.1)
      (Traced.move (jobMove config fieldHash (smallJobAt 1) smallChain)) reachMoves
      (startJobRun 1 ∅)).state.2.onHead = true := by decide +kernel
  exact ⟨_, run, set, onHead_only_when_committed rfl fixedCodec_roundTrips run set⟩

/-- A distance with which `4+MaxBlocksDistance-1` wraps to 2, after head 3 has been reached. -/
def turnedMoves : List IndexerMove :=
  List.flatten [[.head 3, .goOn, .logs []], List.replicate 4 .goOn, [.head 4, .logs []],
    List.replicate 2 .goOn]

def turned : Traced (IndexerState × JobState) IndexerEvent :=
  played (fun _ _ => True)
    (Traced.move (jobMove ⟨18446744073709551615, .poll⟩ fieldHash (smallJobAt 0) fun _ => []))
    turnedMoves (startJobRun 0 ∅)

/-- The range from block 4 on is turned around: it commits block 2 with the flag set, and no
reported head is committed. -/
theorem onHead_after_turned_range :
    Relation.ReflTransGen
        (JobRunStep ⟨18446744073709551615, .poll⟩ fieldHash (smallJobAt 0) fun _ => [])
        (startJobRun 0 ∅) turned ∧
      turned.state.2.onHead = true ∧
      ∀ head, ¬ HeadCommitted (smallJobAt 0) (fun _ => []) 0 turned.state.2.database turned.trace
        head := by
  have made : (play (fun _ _ => True)
      (Traced.move (jobMove ⟨18446744073709551615, .poll⟩ fieldHash (smallJobAt 0) fun _ => []))
      turnedMoves (startJobRun 0 ∅)).isSome = true := by decide +kernel
  refine ⟨GuardedRun.steps (run_of_played made fun _ _ _ => jobMove_step), by decide +kernel, ?_⟩
  intro head committed
  obtain ⟨block, recorded, past⟩ := committed.persisted
  have resumes : resumeBlock (smallJobAt 0).jobCodec (smallJobAt 0).jobDescriptor
      turned.state.2.database = .ok 2 := rfl
  have two : block = 2 := Except.ok.inj (recorded.resumeBlock.symm.trans resumes)
  have heads : (turned.trace.all fun
      | .blockNumber head => decide (3 ≤ head)
      | _ => true) = true := by decide +kernel
  have high : 3 ≤ head := of_decide_eq_true (List.all_eq_true.mp heads _ committed.reported)
  rw [two] at past
  exact absurd (UInt64.le_trans high past) (by decide)

end MerkleProofService
