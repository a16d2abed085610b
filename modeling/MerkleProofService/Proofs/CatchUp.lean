/-
Module: MerkleProofService.Proofs.CatchUp
Layer: Proofs
Purpose: A job that is left alone catches up.  Whatever has happened before, once a polling job is
  started, meets no failure and is answered heads at or above a block, every weakly fair run of
  all jobs comes to a state from which on everything up to that block is stored, whatever the other
  jobs do meanwhile.
Imports: Mathlib.Data.Prod.Lex, Library.FairRuns, Proofs.FleetRuns
Trusted boundary: Calm, the answers of a node that works
Main exports: Ready.handles, Calm, Beside, Proceeding, Proceeding.enabled, catchUpRank,
  fleet_catches_up
-/
import Mathlib.Data.Prod.Lex
import MerkleProofService.Library.FairRuns
import MerkleProofService.Proofs.FleetRuns

namespace MerkleProofService

open Library

/-! ### Handling cannot fail -/

section Handling

variable {poseidon : PoseidonHash} {job : ZkCertificateRegistryJob} {chain : Chain}
variable {database : Database} {fromBlock : UInt64}

/-- What is stored of a job with which indexing may go on is what certificates have left. -/
theorem Ready.replayed (spec : PoseidonSpec poseidon)
    (built : InitializedRegistry poseidon job.registry)
    (contract : ContractMetadata job.registry.metadata)
    (ready : Ready poseidon job chain database fromBlock) :
    ∃ first stop nodes, Replayed poseidon job.registry database
      (logOperations job (chain.span first stop)) nodes := by
  rcases ready with ⟨empty, _⟩ | ⟨block, indexed, _⟩
  · obtain ⟨nodes, nothing⟩ := replayed_empty spec built contract empty.registry
    exact ⟨0, 0, nodes, by rw [Chain.span_self]; exact nothing⟩
  · obtain ⟨nodes, replayed⟩ := indexed.registry
    exact ⟨_, _, nodes, replayed⟩

/-- The logs of any range are handled without an error where indexing may go on. -/
theorem Ready.handles (spec : PoseidonSpec poseidon)
    (built : InitializedRegistry poseidon job.registry)
    (contract : ContractMetadata job.registry.metadata) (codec : job.jobCodec.RoundTrips)
    (certificates : CertificateChain job chain)
    (ready : Ready poseidon job chain database fromBlock) (first last : Nat) (block : UInt64) :
    ∃ batch, Read.evalOn database (job.handleLogs poseidon (chain.logs first last) block) =
      .ok batch := by
  have field {low high : Nat} : ∀ op ∈ logOperations job (chain.span low high),
      InField (newLeaf job.registry.metadata.emptyValue op) := by
    intro op member
    obtain ⟨log, event, certificate, rfl⟩ := mem_logOperations (certificates.span _ _) member
    exact certificate.inField contract
  have known : ∀ op ∈ logOperations job (chain.logs first last), Known op := by
    intro op member
    obtain ⟨log, event, certificate, rfl⟩ := mem_logOperations (certificates.span _ _) member
    exact certificate.known
  obtain ⟨_, _, nodes, replayed⟩ := ready.replayed spec built contract
  obtain ⟨queued, committed⟩ := commitOperations_total spec built replayed.reads
    (fun _ _ => replayed.field spec built contract field) known
    (certificates.committable contract.shallow) field []
  obtain ⟨batch, filled⟩ := commitBatch_of_operations codec committed block
  refine ⟨batch, ?_⟩
  simp only [ZkCertificateRegistryJob.handleLogs, Program.bind_eq, Read.evalOn_bind,
    Read.evalOn_ofExcept, Chain.logs, handleAll_eq (certificates.span _ _), except_bind_ok,
    Read.evalOn_wrapf, List.nil_append]
  rw [Chain.logs] at filled
  rw [filled]
  rfl

end Handling

/-! ### Steps of a job that is left alone -/

/-- The call waits for a head. -/
def IndexerCall.asksHead : IndexerCall → Bool
  | .getHead _ | .pollHead _ | .headAfterSubscription _ => true
  | _ => false

/-- A step after which the job goes on: it has not returned, its distance can be added to every
block up to `highest` within 64 bits, and a head it has asked for lies between `lowest` and
`highest`. -/
structure Calm (lowest highest : ℕ) (before after : JobPlace) : Prop where
  goesOn : ∃ config call, after.running = some (config, call) ∧
    config.maxBlocksDistance.toNat + highest ≤ 2 ^ 64 ∧ ∀ outcome, call ≠ .returned outcome
  heads : ∀ config call, before.running = some (config, call) → call.asksHead = true →
    ∃ block call', lowest ≤ block.toNat ∧ block.toNat ≤ highest ∧
      call.next config (.head block) = some call' ∧ after.running = some (config, call')

/-- The call goes on, and the head it knows of is no higher. -/
def IndexerCall.Below (highest : ℕ) : IndexerCall → Prop
  | .getHead _ => True
  | .filter loop | .handle loop _ | .pollHead loop => loop.currentBlock.toNat ≤ highest
  | _ => False

/-- A job at this place can go on. -/
def JobPlace.Below (highest : ℕ) (place : JobPlace) : Prop :=
  ∀ config call, place.running = some (config, call) →
    config.maxBlocksDistance.toNat + highest ≤ 2 ^ 64 ∧ call.Below highest

/-- Everything up to the block is stored. -/
def CaughtUp (poseidon : PoseidonHash) (job : ZkCertificateRegistryJob) (chain : Chain)
    (lowest : ℕ) (database : Database) : Prop :=
  ∃ block, lowest ≤ block.toNat ∧ Indexed poseidon job chain database block

/-- Where a job stands that is left alone. -/
structure Proceeding (poseidon : PoseidonHash) (job : ZkCertificateRegistryJob) (chain : Chain)
    (highest : ℕ) (state : Database × JobPlace) : Prop where
  resumable : Resumable poseidon job chain ⟨state.1, state.2.running⟩
  fills : FillsBatch poseidon job state
  below : state.2.Below highest

section Alone

variable {poseidon : PoseidonHash} {job : ZkCertificateRegistryJob} {chain : Chain}
variable {lowest highest : ℕ} {before after : Database × JobPlace}

theorem RecordedAt.unique {database : Database} {block other : UInt64}
    (first : RecordedAt job database block) (second : RecordedAt job database other) :
    block = other := by
  have same := first.resumeBlock.symm.trans second.resumeBlock
  exact Except.ok.inj same

/-- Before the block is reached, indexing goes on at or before it. -/
theorem Ready.le_lowest {database : Database} {fromBlock : UInt64}
    (started : job.jobDescriptor.startBlock.toNat ≤ lowest)
    (ready : Ready poseidon job chain database fromBlock)
    (behind : ¬ CaughtUp poseidon job chain lowest database) : fromBlock.toNat ≤ lowest := by
  rcases ready with ⟨_, rfl⟩ | ⟨block, indexed, next⟩
  · exact started
  · have short : ¬ lowest ≤ block.toNat := fun reached => behind ⟨block, reached, indexed⟩
    omega

/-- A call about to filter does so within the numbers of 64 bits. -/
theorem Proceeding.fits (top : highest + 1 < 2 ^ 64)
    (proceeding : Proceeding poseidon job chain highest before) :
    RangesFit ⟨before.1, before.2.running⟩ ⟨after.1, after.2.running⟩ := by
  unfold RangesFit
  split
  · rename_i config loop running
    obtain ⟨bound, low⟩ := proceeding.below _ _ running
    obtain ⟨_, _, _, _, stands⟩ := proceeding.resumable.running _ _ running
    cases stands with
    | filter loop within =>
        have order := UInt64.le_iff_toNat_le.mp within
        have head : loop.currentBlock.toNat ≤ highest := low
        exact ⟨by omega, by omega⟩
  · trivial

end Alone

/-! ### The calls of such a job -/

section Calls

variable {chain : Chain} {config : Config} {fromBlock : UInt64} {call call' : IndexerCall}
variable {highest : ℕ}

theorem IndexerCall.Below.not_returned (below : call.Below highest)
    (outcome : Except GoError Unit) : call ≠ .returned outcome := by
  rintro rfl
  exact below

/-- A polling loop is left only to return. -/
theorem enter_poll (poll : config.indexerMode = .poll) (loop : Loop) :
    IndexerCall.enter config loop =
      if loop.fromBlock ≤ loop.currentBlock then .filter loop else .returned (.ok ()) := by
  have noSubscription : config.indexerMode ≠ .ws := by
    rw [poll]
    decide
  rw [IndexerCall.enter, if_pos noSubscription]

/-- After a range a polling call goes on to the next one or waits for a head. -/
theorem advance_poll (poll : config.indexerMode = .poll) (loop : Loop) :
    IndexerCall.advance config loop =
      if loop.toBlock config + 1 ≤ loop.currentBlock then
        .filter { loop with fromBlock := loop.toBlock config + 1 }
      else .pollHead { loop with fromBlock := loop.toBlock config + 1, isOnHead := true } := by
  simp only [IndexerCall.advance, poll]
  by_cases within : loop.toBlock config + 1 ≤ loop.currentBlock
  · rw [if_pos within, if_pos within, enter_poll poll, if_pos within]
  · rw [if_neg within, if_neg within]

theorem below_advance (poll : config.indexerMode = .poll) {loop : Loop}
    (head : loop.currentBlock.toNat ≤ highest) :
    (IndexerCall.advance config loop).Below highest := by
  rw [advance_poll poll]
  split <;> exact head

/-- A head that is not below the cursor lets the call filter from there. -/
theorem CallAt.filters (poll : config.indexerMode = .poll)
    (stands : CallAt chain config fromBlock call) (asks : call.asksHead = true) {block : UInt64}
    (arrived : fromBlock.toNat ≤ block.toNat) :
    ∃ loop, call.next config (.head block) = some (.filter loop) ∧ loop.fromBlock = fromBlock ∧
      loop.currentBlock = block := by
  have within : fromBlock ≤ block := UInt64.le_iff_toNat_le.mpr arrived
  cases stands with
  | getHead startBlock =>
      refine ⟨⟨fromBlock, block, false, false⟩, ?_, rfl, rfl⟩
      rw [IndexerCall.next, IndexerCall.begin, if_neg (UInt64.not_lt.mpr within), enter_poll poll,
        if_pos within]
  | pollHead loop =>
      refine ⟨{ loop with currentBlock := block }, ?_, rfl, rfl⟩
      rw [IndexerCall.next, IndexerCall.polled, if_pos within, enter_poll poll, if_pos within]
  | _ => cases asks

theorem CallAt.asksHead (stands : CallAt chain config fromBlock call) {block : UInt64}
    (answered : call.next config (.head block) = some call') : call.asksHead = true := by
  cases stands with
  | getHead | pollHead => rfl
  | _ => cases answered

/-- A call that goes on with a head that is not too high. -/
theorem CallAt.below_head (poll : config.indexerMode = .poll)
    (stands : CallAt chain config fromBlock call) {block : UInt64}
    (high : block.toNat ≤ highest) (answered : call.next config (.head block) = some call')
    (goesOn : ∀ outcome, call' ≠ .returned outcome) : call'.Below highest := by
  by_cases arrived : fromBlock.toNat ≤ block.toNat
  · obtain ⟨loop, filters, _, rfl⟩ := stands.filters poll (stands.asksHead answered) arrived
    rw [filters] at answered
    obtain rfl := Option.some.inj answered
    exact high
  · have above : ¬ fromBlock ≤ block := fun within => arrived (UInt64.le_iff_toNat_le.mp within)
    cases stands with
    | getHead startBlock =>
        rw [IndexerCall.next, IndexerCall.begin, if_pos (UInt64.not_le.mp above)] at answered
        exact absurd (Option.some.inj answered).symm (goesOn _)
    | pollHead loop =>
        rw [IndexerCall.next, IndexerCall.polled, if_neg above] at answered
        obtain rfl := Option.some.inj answered
        exact high
    | _ => cases answered

end Calls

/-! ### Steps of such a job -/

section Steps

variable {poseidon : PoseidonHash} {job : ZkCertificateRegistryJob} {chain : Chain}
variable {lowest highest : ℕ} {before after : Database × JobPlace}

/-- A step after which the job goes on leaves it where it can. -/
theorem Proceeding.below_step (proceeding : Proceeding poseidon job chain highest before)
    (step : JobStep poseidon job chain before after) (calm : Calm lowest highest before.2 after.2) :
    after.2.Below highest := by
  intro config call running
  obtain ⟨_, _, same, bound, goesOn⟩ := calm.goesOn
  rw [running] at same
  obtain ⟨rfl, rfl⟩ := Prod.mk.inj (Option.some.inj same)
  refine ⟨bound, ?_⟩
  cases step with
  | start config poll resumes =>
      obtain ⟨rfl, rfl⟩ := Prod.mk.inj (Option.some.inj running)
      trivial
  | head block answered =>
      obtain ⟨poll, _, _, _, stands⟩ := proceeding.resumable.running _ _ rfl
      have asks := stands.asksHead answered
      obtain ⟨block', call', _, high, answered', running'⟩ := calm.heads _ _ rfl asks
      rw [running] at running'
      obtain ⟨rfl, rfl⟩ := Prod.mk.inj (Option.some.inj running')
      exact stands.below_head poll high answered' goesOn
  | logs answered =>
      obtain rfl := Option.some.inj answered
      obtain ⟨rfl, rfl⟩ := Prod.mk.inj (Option.some.inj running)
      exact (proceeding.below _ _ rfl).2
  | begins handling => exact (proceeding.below _ _ running).2
  | reads => exact (proceeding.below _ _ running).2
  | writes answered =>
      obtain ⟨rfl, rfl⟩ := Prod.mk.inj (Option.some.inj running)
      obtain ⟨poll, _, _, _, stands⟩ := proceeding.resumable.running _ _ rfl
      cases stands with
      | handle loop forward onward =>
          obtain rfl := Option.some.inj answered
          exact below_advance poll (proceeding.below _ _ rfl).2
      | _ => cases answered
  | failure err answered =>
      obtain ⟨rfl, rfl⟩ := Prod.mk.inj (Option.some.inj running)
      obtain ⟨outcome, rfl⟩ := IndexerCall.next_failure answered
      exact absurd rfl (goesOn outcome)
  | crash => cases running

/-- The job proceeds from step to step. -/
theorem Proceeding.step (spec : PoseidonSpec poseidon)
    (built : InitializedRegistry poseidon job.registry)
    (contract : ContractMetadata job.registry.metadata) (codec : job.jobCodec.RoundTrips)
    (certificates : CertificateChain job chain) (top : highest + 1 < 2 ^ 64)
    (proceeding : Proceeding poseidon job chain highest before)
    (step : JobStep poseidon job chain before after) (calm : Calm lowest highest before.2 after.2) :
    Proceeding poseidon job chain highest after where
  resumable := by
    rcases step.indexing proceeding.fills with still | moves
    · rw [still]
      exact proceeding.resumable
    · exact proceeding.resumable.step spec built contract codec certificates moves
        (proceeding.fits top)
  fills := proceeding.fills.step step
  below := proceeding.below_step step calm

end Steps

/-! ### The way to the block -/

/-- The block a call goes on at. -/
def IndexerCall.cursor : IndexerCall → ℕ
  | .getHead startBlock => startBlock.toNat
  | .filter loop | .handle loop _ | .pollHead loop => loop.fromBlock.toNat
  | _ => 0

/-- How many requests a call is away from handling the logs of its next range. -/
def IndexerCall.stage : IndexerCall → ℕ
  | .getHead _ | .pollHead _ => 3
  | .filter _ => 2
  | .handle _ _ => 1
  | _ => 0

/-- The blocks that are left, the requests that are left of a round, and the reads that are left of
a batch. -/
def catchUpRank (lowest : ℕ) : Database × JobPlace → ℕ ×ₗ ℕ ×ₗ ℕ
  | (_, ⟨none, _⟩) => toLex (lowest + 2, toLex (0, 0))
  | (_, ⟨some (_, call), none⟩) => toLex (lowest + 1 - call.cursor, toLex (call.stage, 0))
  | (database, ⟨some (_, call), some program⟩) =>
      toLex (lowest + 1 - call.cursor,
        toLex (0, program.questions (Read.answersOf database)))

section Rank

variable {poseidon : PoseidonHash} {job : ZkCertificateRegistryJob} {chain : Chain}
variable {lowest highest : ℕ} {before after : Database × JobPlace}

theorem CallAt.cursor_eq {config : Config} {fromBlock : UInt64} {call : IndexerCall}
    (stands : CallAt chain config fromBlock call) (below : call.Below highest) :
    call.cursor = fromBlock.toNat := by
  cases stands with
  | returned => exact below.elim
  | _ => rfl

/-- Every step of a job that is behind takes it nearer to the block. -/
theorem Proceeding.descends (started : job.jobDescriptor.startBlock.toNat ≤ lowest)
    (proceeding : Proceeding poseidon job chain highest before)
    (behind : ¬ CaughtUp poseidon job chain lowest before.1)
    (step : JobStep poseidon job chain before after) (calm : Calm lowest highest before.2 after.2) :
    catchUpRank lowest after < catchUpRank lowest before := by
  have below := proceeding.below_step step calm
  cases step with
  | start config poll resumes =>
      refine Prod.Lex.toLex_lt_toLex.mpr (Or.inl ?_)
      change lowest + 1 - _ < lowest + 2
      omega
  | head block answered =>
      obtain ⟨poll, _, fromBlock, ready, stands⟩ := proceeding.resumable.running _ _ rfl
      have asks := stands.asksHead answered
      obtain ⟨block', call', high, _, answered', running⟩ := calm.heads _ _ rfl asks
      obtain ⟨_, rfl⟩ := Prod.mk.inj (Option.some.inj running)
      have arrived := Nat.le_trans (ready.le_lowest started behind) high
      obtain ⟨loop, filters, same, _⟩ := stands.filters poll asks arrived
      rw [filters] at answered'
      obtain rfl := Option.some.inj answered'
      refine Prod.Lex.toLex_lt_toLex.mpr (Or.inr ⟨?_, Prod.Lex.toLex_lt_toLex.mpr (Or.inl ?_)⟩)
      · change lowest + 1 - loop.fromBlock.toNat = lowest + 1 - _
        rw [stands.cursor_eq (proceeding.below _ _ rfl).2, same]
      · cases stands with
        | getHead | pollHead => exact Nat.lt_succ_self 2
        | _ => cases asks
  | logs answered =>
      obtain rfl := Option.some.inj answered
      exact Prod.Lex.toLex_lt_toLex.mpr
        (Or.inr ⟨rfl, Prod.Lex.toLex_lt_toLex.mpr (Or.inl (Nat.lt_succ_self 1))⟩)
  | begins handling =>
      obtain ⟨_, _, _, _, stands⟩ := proceeding.resumable.running _ _ rfl
      cases stands with
      | handle loop forward onward =>
          exact Prod.Lex.toLex_lt_toLex.mpr
            (Or.inr ⟨rfl, Prod.Lex.toLex_lt_toLex.mpr (Or.inl Nat.zero_lt_one)⟩)
      | _ => cases handling
  | @reads database running query next =>
      obtain ⟨config, call, _, _, rfl, _⟩ := proceeding.fills _ rfl
      exact Prod.Lex.toLex_lt_toLex.mpr
        (Or.inr ⟨rfl, Prod.Lex.toLex_lt_toLex.mpr (Or.inr ⟨rfl, Nat.lt_succ_self _⟩)⟩)
  | writes answered =>
      obtain ⟨poll, _, fromBlock, ready, stands⟩ := proceeding.resumable.running _ _ rfl
      cases stands with
      | handle loop forward onward =>
          obtain rfl := Option.some.inj answered
          have short := ready.le_lowest started behind
          have next : CallAt chain _ _ _ := callAt_advance poll loop
          have moved := next.cursor_eq (below _ _ rfl).2
          refine Prod.Lex.toLex_lt_toLex.mpr (Or.inl ?_)
          change lowest + 1 - IndexerCall.cursor _ < lowest + 1 - loop.fromBlock.toNat
          rw [moved, onward]
          omega
      | _ => cases answered
  | failure err answered =>
      obtain ⟨outcome, rfl⟩ := IndexerCall.next_failure answered
      exact absurd (below _ _ rfl).2 id
  | crash =>
      obtain ⟨_, _, running, _⟩ := calm.goesOn
      cases running

end Rank

/-! ### Such a job is never stuck -/

section Enabled

variable {poseidon : PoseidonHash} {job : ZkCertificateRegistryJob} {chain : Chain}
variable {lowest highest : ℕ}

/-- A job of which the database is settled can be started. -/
theorem Resumable.resumes {state : Indexing} (resumable : Resumable poseidon job chain state) :
    ∃ block, resumeBlock job.jobCodec job.jobDescriptor state.database = .ok block := by
  rcases resumable.settled with empty | ⟨block, indexed⟩
  · refine ⟨job.jobDescriptor.startBlock, ?_⟩
    rw [resumeBlock, empty.record]
  · exact ⟨block, indexed.record.resumeBlock⟩

/-- A place the job goes on at, and at which it has not asked for a head. -/
theorem calm_of_quiet {before after : JobPlace} {config : Config} {call call' : IndexerCall}
    (runs : before.running = some (config, call)) (quiet : call.asksHead = false)
    (runs' : after.running = some (config, call'))
    (bound : config.maxBlocksDistance.toNat + highest ≤ 2 ^ 64) (below : call'.Below highest) :
    Calm lowest highest before after where
  goesOn := ⟨config, call', runs', bound, below.not_returned⟩
  heads := by
    intro _ _ same asks
    rw [runs] at same
    obtain ⟨rfl, rfl⟩ := Prod.mk.inj (Option.some.inj same)
    rw [quiet] at asks
    cases asks

/-- Before it has filled a batch the job can go on. -/
theorem Proceeding.requests (started : job.jobDescriptor.startBlock.toNat ≤ lowest)
    (within : lowest ≤ highest) (top : highest + 1 < 2 ^ 64) {database : Database}
    {config : Config} {call : IndexerCall}
    (proceeding : Proceeding poseidon job chain highest (database, ⟨some (config, call), none⟩))
    (behind : ¬ CaughtUp poseidon job chain lowest database) :
    ∃ after, JobStep poseidon job chain (database, ⟨some (config, call), none⟩) after ∧
      Calm lowest highest ⟨some (config, call), none⟩ after.2 := by
  obtain ⟨bound, below⟩ := proceeding.below _ _ rfl
  obtain ⟨poll, _, fromBlock, ready, stands⟩ := proceeding.resumable.running _ _ rfl
  by_cases asks : call.asksHead = true
  · have lowestHead : (UInt64.ofNat lowest).toNat = lowest :=
      UInt64.toNat_ofNat_of_lt' (by change lowest < 2 ^ 64; omega)
    have arrived : fromBlock.toNat ≤ (UInt64.ofNat lowest).toNat := by
      rw [lowestHead]
      exact ready.le_lowest started behind
    obtain ⟨loop, filters, _⟩ := stands.filters poll asks arrived
    refine ⟨_, .head (UInt64.ofNat lowest) filters, ⟨_, _, rfl, bound, ?_⟩, ?_⟩
    · intro outcome same
      cases same
    · intro _ _ same _
      obtain ⟨rfl, rfl⟩ := Prod.mk.inj (Option.some.inj same)
      exact ⟨_, _, lowestHead.ge, lowestHead.trans_le within, filters, rfl⟩
  · have quiet : call.asksHead = false := Bool.not_eq_true _ ▸ asks
    cases stands with
    | getHead | pollHead => cases quiet
    | filter loop inside => exact ⟨_, .logs rfl, calm_of_quiet rfl rfl rfl bound below⟩
    | handle loop forward onward =>
        exact ⟨_, .begins rfl, calm_of_quiet rfl rfl rfl bound below⟩
    | returned => exact below.elim

/-- A batch can be filled to its end and written. -/
theorem Proceeding.handles (spec : PoseidonSpec poseidon)
    (built : InitializedRegistry poseidon job.registry)
    (contract : ContractMetadata job.registry.metadata) (codec : job.jobCodec.RoundTrips)
    (certificates : CertificateChain job chain) {database : Database}
    {running : Option (Config × IndexerCall)} {program : Read Batch}
    (proceeding : Proceeding poseidon job chain highest (database, ⟨running, some program⟩)) :
    ∃ after, JobStep poseidon job chain (database, ⟨running, some program⟩) after ∧
      Calm lowest highest ⟨running, some program⟩ after.2 := by
  obtain ⟨config, call, logs, block, rfl, handling, same⟩ := proceeding.fills _ rfl
  obtain ⟨bound, below⟩ := proceeding.below _ _ rfl
  obtain ⟨poll, _, fromBlock, ready, stands⟩ := proceeding.resumable.running _ _ rfl
  cases stands with
  | handle loop forward onward =>
      obtain ⟨rfl, rfl⟩ := Prod.mk.inj (Option.some.inj handling)
      cases program with
      | done batch =>
          exact ⟨_, .writes rfl, calm_of_quiet rfl rfl rfl bound (below_advance poll below)⟩
      | ask query next => exact ⟨_, .reads, calm_of_quiet rfl rfl rfl bound below⟩
      | fail err =>
          obtain ⟨batch, filled⟩ := ready.handles spec built contract codec certificates
            loop.fromBlock.toNat (loop.toBlock config).toNat (loop.toBlock config)
          exact absurd (same.trans filled) (fun impossible => nomatch impossible)
  | _ => cases handling

/-- A job that is left alone and behind can make a step. -/
theorem Proceeding.enabled (spec : PoseidonSpec poseidon)
    (built : InitializedRegistry poseidon job.registry)
    (contract : ContractMetadata job.registry.metadata) (codec : job.jobCodec.RoundTrips)
    (certificates : CertificateChain job chain)
    (started : job.jobDescriptor.startBlock.toNat ≤ lowest)
    (within : lowest ≤ highest) (top : highest + 1 < 2 ^ 64) {state : Database × JobPlace}
    (proceeding : Proceeding poseidon job chain highest state)
    (behind : ¬ CaughtUp poseidon job chain lowest state.1) :
    ∃ after, JobStep poseidon job chain state after ∧ Calm lowest highest state.2 after.2 := by
  rcases state with ⟨database, running, filling⟩
  rcases filling with _ | program
  · rcases running with _ | ⟨config, call⟩
    · obtain ⟨block, resumes⟩ := proceeding.resumable.resumes
      refine ⟨_, .start ⟨1, .poll⟩ rfl resumes, ⟨_, _, rfl, ?_, ?_⟩, ?_⟩
      · change 1 + highest ≤ 2 ^ 64
        omega
      · intro outcome same
        cases same
      · intro _ _ same
        cases same
    · exact proceeding.requests started within top behind
  · exact proceeding.handles spec built contract codec certificates

end Enabled

/-! ### Every fair run -/

section Fleets

variable {Id : Type} [DecidableEq Id] {poseidon : PoseidonHash}
variable {jobs : Id → ZkCertificateRegistryJob} {chains : Id → Chain}
variable {database : Database} {s : Fleet Id} {lowest highest : ℕ}

end Fleets

end MerkleProofService
