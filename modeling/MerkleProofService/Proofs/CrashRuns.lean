/-
Module: MerkleProofService.Proofs.CrashRuns
Layer: Proofs
Purpose: Runs of a polling job over an immutable chain with restarts, failures and crashes at any
  point.  As long as the arithmetic of the ranges stays within 64 bits, every persisted state holds
  exactly the operations of the blocks up to the recorded one; a range that wraps is filtered
  turned around and moves the cursor before the start block.
Imports: Library.GuardedRuns, Proofs.ChainLogs
Trusted boundary: IndexingStep, the environment of the indexer
Main exports: Indexing, IndexingStep, RangesFit, CrashConsistent, crash_consistent,
  crash_inconsistent_wrapped
-/
import MerkleProofService.Library.GuardedRuns
import MerkleProofService.Proofs.ChainLogs

namespace MerkleProofService

open Library

/-! ### Runs with crashes -/

/-- A database and the call of `IndexEVMLogs` that runs on it, if the job is started. -/
structure Indexing where
  database : Database
  call : Option (Config × IndexerCall)

/-- One step of a polling job.  The head is any block number; a failure or a crash may come at any
point and leaves the database as it is, since a batch is written whole or not at all. -/
inductive IndexingStep (poseidon : PoseidonHash) (job : ZkCertificateRegistryJob) (chain : Chain) :
    Indexing → Indexing → Prop where
  | start {database : Database} {block : UInt64} (config : Config)
      (poll : (newEVMIndexer config).indexerMode = .poll)
      (resumes : resumeBlock job.jobCodec job.jobDescriptor database = .ok block) :
      IndexingStep poseidon job chain ⟨database, none⟩
        ⟨database, some (newEVMIndexer config, .getHead block)⟩
  | head {database : Database} {config : Config} {call call' : IndexerCall} (block : UInt64)
      (answered : call.next config (.head block) = some call') :
      IndexingStep poseidon job chain ⟨database, some (config, call)⟩
        ⟨database, some (config, call')⟩
  | logs {database : Database} {config : Config} {loop : Loop} {call' : IndexerCall}
      (answered : (IndexerCall.filter loop).next config
        (.logs (chain.logs loop.fromBlock.toNat (loop.toBlock config).toNat)) = some call') :
      IndexingStep poseidon job chain ⟨database, some (config, .filter loop)⟩
        ⟨database, some (config, call')⟩
  | commit {database : Database} {config : Config} {call call' : IndexerCall}
      {logs : List EvmLog} {block : UInt64} {batch : Batch}
      (handling : call.handling config = some (logs, block))
      (run : Read.evalOn database (job.handleLogs poseidon logs block) = .ok batch)
      (answered : call.next config .handled = some call') :
      IndexingStep poseidon job chain ⟨database, some (config, call)⟩
        ⟨Store.write database batch, some (config, call')⟩
  | failure {database : Database} {config : Config} {call call' : IndexerCall} (err : GoError)
      (answered : call.next config (.failure err) = some call') :
      IndexingStep poseidon job chain ⟨database, some (config, call)⟩
        ⟨database, some (config, call')⟩
  | crash {database : Database} {running : Config × IndexerCall} :
      IndexingStep poseidon job chain ⟨database, some running⟩ ⟨database, none⟩

/-- A step from a state that, if it is about to filter a range, has one that fits. -/
def RangesFit (before _after : Indexing) : Prop :=
  match before.call with
  | some (config, .filter loop) => RangeFits config loop
  | _ => True

instance (before after : Indexing) : Decidable (RangesFit before after) := by
  unfold RangesFit
  split <;> infer_instance

/-- The choices of the environment. -/
inductive Move where
  | start (config : Config)
  | head (block : UInt64)
  | logs
  | commit
  | crash

/-- The state after a move, if it can be made. -/
def Indexing.move (poseidon : PoseidonHash) (job : ZkCertificateRegistryJob) (chain : Chain)
    (state : Indexing) : Move → Option Indexing
  | .start config =>
      match state.call, resumeBlock job.jobCodec job.jobDescriptor state.database with
      | none, .ok block =>
          if (newEVMIndexer config).indexerMode = .poll then
            some ⟨state.database, some (newEVMIndexer config, .getHead block)⟩
          else none
      | _, _ => none
  | .head block =>
      state.call.bind fun running =>
        (running.2.next running.1 (.head block)).map fun call' =>
          ⟨state.database, some (running.1, call')⟩
  | .logs =>
      match state.call with
      | some (config, .filter loop) =>
          some ⟨state.database, some (config, .handle loop
            (chain.logs loop.fromBlock.toNat (loop.toBlock config).toNat))⟩
      | _ => none
  | .commit =>
      state.call.bind fun running =>
        (running.2.handling running.1).bind fun handled =>
          (Read.evalOn state.database
            (job.handleLogs poseidon handled.1 handled.2)).toOption.bind fun batch =>
              (running.2.next running.1 .handled).map fun call' =>
                ⟨Store.write state.database batch, some (running.1, call')⟩
  | .crash => state.call.map fun _ => ⟨state.database, none⟩

theorem Indexing.move_step {poseidon : PoseidonHash} {job : ZkCertificateRegistryJob}
    {chain : Chain} {before after : Indexing} {made : Move}
    (moved : before.move poseidon job chain made = some after) :
    IndexingStep poseidon job chain before after := by
  rcases before with ⟨database, call⟩
  cases made with
  | start config =>
      cases call with
      | some running => cases moved
      | none =>
          cases resumes : resumeBlock job.jobCodec job.jobDescriptor database with
          | error err =>
              simp only [Indexing.move, resumes] at moved
              cases moved
          | ok block =>
              simp only [Indexing.move, resumes] at moved
              by_cases poll : (newEVMIndexer config).indexerMode = .poll
              · rw [if_pos poll] at moved
                obtain rfl := Option.some.inj moved
                exact .start config poll resumes
              · rw [if_neg poll] at moved
                cases moved
  | head block =>
      simp only [Indexing.move, Option.bind_eq_some_iff, Option.map_eq_some_iff] at moved
      rcases moved with ⟨⟨config, running⟩, rfl, call', answered, rfl⟩
      exact .head block answered
  | logs =>
      rcases call with _ | ⟨config, running⟩
      · cases moved
      · cases running with
        | filter loop =>
            obtain rfl := Option.some.inj moved
            exact .logs rfl
        | _ => cases moved
  | commit =>
      simp only [Indexing.move, Option.bind_eq_some_iff, Option.map_eq_some_iff] at moved
      obtain ⟨⟨config, running⟩, rfl, ⟨logs, block⟩, handling, batch, run, call', answered, rfl⟩ :=
        moved
      cases evaluated : Read.evalOn database (job.handleLogs poseidon logs block) with
      | ok filled =>
          rw [evaluated] at run
          obtain rfl := Option.some.inj run
          exact .commit handling evaluated answered
      | error err =>
          rw [evaluated] at run
          cases run
  | crash =>
      simp only [Indexing.move, Option.map_eq_some_iff] at moved
      rcases moved with ⟨running, rfl, rfl⟩
      exact .crash

/-! ### Persisted states -/

/-- Nothing of the job is stored. -/
structure EmptyForJob (job : ZkCertificateRegistryJob) (database : Database) : Prop where
  record : database.lookup (makeJobKey job.jobDescriptor) = none
  registry : SameRegistry job.registry.leafView.registryIndex database ∅

/-- The record of the job says that it has reached the block. -/
def RecordedAt (job : ZkCertificateRegistryJob) (database : Database) (block : UInt64) : Prop :=
  ∃ record, database.lookup (makeJobKey job.jobDescriptor) = some record ∧
    job.jobCodec.decode record = .ok ⟨job.jobDescriptor, block⟩

theorem RecordedAt.resumeBlock {job : ZkCertificateRegistryJob} {database : Database}
    {block : UInt64} (recorded : RecordedAt job database block) :
    resumeBlock job.jobCodec job.jobDescriptor database = .ok block := by
  rcases recorded with ⟨record, stored, decoded⟩
  simp only [MerkleProofService.resumeBlock, stored, decoded]
  rfl

/-- Nothing of the job is stored, or its record names a block and the registry is what the logs up
to that block, applied once each, leave. -/
def CrashConsistent (poseidon : PoseidonHash) (job : ZkCertificateRegistryJob) (chain : Chain)
    (database : Database) : Prop :=
  EmptyForJob job database ∨
    ∃ block operations, RecordedAt job database block ∧
      job.handleAll (chain.logs job.jobDescriptor.startBlock.toNat block.toNat) [] =
        .ok operations ∧
      AppliedOnce poseidon job.registry operations database

/-- The database holds what the logs up to a block leave. -/
structure Indexed (poseidon : PoseidonHash) (job : ZkCertificateRegistryJob) (chain : Chain)
    (database : Database) (block : UInt64) : Prop where
  started : job.jobDescriptor.startBlock.toNat ≤ block.toNat
  record : RecordedAt job database block
  registry : ∃ nodes, Replayed poseidon job.registry database
    (logOperations job (chain.logs job.jobDescriptor.startBlock.toNat block.toNat)) nodes

/-- Indexing may go on at `fromBlock`: at the start block of an empty job, at the recorded block
once more, or at the block after it. -/
def Ready (poseidon : PoseidonHash) (job : ZkCertificateRegistryJob) (chain : Chain)
    (database : Database) (fromBlock : UInt64) : Prop :=
  (EmptyForJob job database ∧ fromBlock = job.jobDescriptor.startBlock) ∨
    ∃ block, Indexed poseidon job chain database block ∧
      (fromBlock.toNat = block.toNat ∨ fromBlock.toNat = block.toNat + 1)

section Commits

variable {poseidon : PoseidonHash} {job : ZkCertificateRegistryJob} {chain : Chain}
variable {database : Database} {fromBlock toBlock block : UInt64} {batch : Batch}

/-- The operations of a range that begins at the recorded block or after it take the registry to
the end of the range. -/
theorem replay_span (certificates : CertificateChain job chain) {start reached first stop : Nat}
    {nodes : Nat → Nat → U256}
    (replayed : Replayed poseidon job.registry database
      (logOperations job (chain.span start reached) ++ logOperations job (chain.span first stop))
      nodes)
    (started : start ≤ first) (joint : first ≤ reached) (onward : reached ≤ stop)
    (shallow : job.registry.metadata.depth.toNat ≤ 32)
    (depth : job.registry.sparseTree.depth = job.registry.metadata.depth) :
    Replayed poseidon job.registry database (logOperations job (chain.span start stop)) nodes := by
  -- the blocks between `first` and `reached` are committed twice in a row
  have replay := SameEffect.replay job.registry.metadata.emptyValue
    (logOperations job (chain.span start first)) (logOperations job (chain.span first reached))
    (logOperations job (chain.span reached stop))
  simp only [← logOperations_append] at replay
  rw [← Chain.span_append started joint, ← Chain.span_append joint onward,
    ← Chain.span_append (Nat.le_trans started joint) onward, logOperations_append] at replay
  apply replayed.congr replay
  intro op member
  rw [depth]
  exact (certificates.committable shallow op member).1

/-- A batch that ends with the record of the job records its block. -/
theorem recordedAt_write (codec : job.jobCodec.RoundTrips) {queued : Batch} {record : Bytes}
    (encoded : job.jobCodec.encode ⟨job.jobDescriptor, block⟩ = .ok record) :
    RecordedAt job
      (Store.write database (queued ++ [.set (makeJobKey job.jobDescriptor) record])) block := by
  obtain ⟨other, again, _, decoded⟩ := codec ⟨job.jobDescriptor, block⟩
  rw [encoded] at again
  obtain rfl := Except.ok.inj again
  exact ⟨record, lookup_write_record database queued _ record, decoded⟩

/-- Committing a range at which indexing may go on takes the job to the end of the range. -/
theorem Ready.commit (spec : PoseidonSpec poseidon)
    (built : InitializedRegistry poseidon job.registry)
    (contract : ContractMetadata job.registry.metadata) (codec : job.jobCodec.RoundTrips)
    (certificates : CertificateChain job chain)
    (ready : Ready poseidon job chain database fromBlock)
    (forward : fromBlock.toNat ≤ toBlock.toNat)
    (run : Read.evalOn database (job.handleLogs poseidon
      (chain.logs fromBlock.toNat toBlock.toNat) toBlock) = .ok batch) :
    Indexed poseidon job chain (Store.write database batch) toBlock := by
  obtain ⟨queued, record, committed, encoded, rfl⟩ :=
    handleLogs_spec (certificates.span _ _) run
  have extend : ∀ {operations nodes},
      Replayed poseidon job.registry database operations nodes →
      ∃ nodes', Replayed poseidon job.registry
        (Store.write database (queued ++ [.set (makeJobKey job.jobDescriptor) record]))
        (operations ++ logOperations job (chain.logs fromBlock.toNat toBlock.toNat)) nodes' := by
    intro operations nodes replayed
    obtain ⟨nodes', after⟩ := replayed.commit spec built contract
      (certificates.committable contract.shallow) committed
    rw [Store.write_append]
    exact ⟨nodes', after.foreign built fun key inside => lastEffect_record _ _ record key inside⟩
  rcases ready with ⟨empty, rfl⟩ | ⟨block, indexed, next⟩
  · obtain ⟨_, nothing⟩ := replayed_empty spec built contract empty.registry
    exact ⟨forward, recordedAt_write codec encoded, extend nothing⟩
  · rcases indexed.registry with ⟨_, replayed⟩
    obtain ⟨nodes, twice⟩ := extend replayed
    have started := indexed.started
    refine ⟨by omega, recordedAt_write codec encoded, nodes, ?_⟩
    exact replay_span certificates twice (by omega) (by omega) (by omega) contract.shallow
      built.depth_eq

/-- A database at which the job can stand is a consistent one. -/
theorem Indexed.crashConsistent (spec : PoseidonSpec poseidon)
    (built : InitializedRegistry poseidon job.registry)
    (contract : ContractMetadata job.registry.metadata)
    (certificates : CertificateChain job chain)
    (indexed : Indexed poseidon job chain database block) :
    CrashConsistent poseidon job chain database := by
  rcases indexed.registry with ⟨nodes, replayed⟩
  refine Or.inr ⟨block, _, indexed.record, handleAll_eq (certificates.span _ _) [], ?_⟩
  apply replayed.appliedOnce spec built contract
  · intro op member
    obtain ⟨log, event, certificate, rfl⟩ := mem_logOperations (certificates.span _ _) member
    exact certificate.known
  · exact certificates.committable contract.shallow
  · intro op member
    obtain ⟨log, event, certificate, rfl⟩ := mem_logOperations (certificates.span _ _) member
    exact certificate.inField contract

end Commits

/-! ### The polling loop -/

/-- A polling call stands at `fromBlock`: everything before it is committed, the range in hand
begins with it. -/
inductive CallAt (chain : Chain) (config : Config) : UInt64 → IndexerCall → Prop where
  | getHead (startBlock : UInt64) : CallAt chain config startBlock (.getHead startBlock)
  | filter (loop : Loop) (within : loop.fromBlock ≤ loop.currentBlock) :
      CallAt chain config loop.fromBlock (.filter loop)
  | handle (loop : Loop) (forward : loop.fromBlock.toNat ≤ (loop.toBlock config).toNat)
      (onward : (loop.toBlock config + 1).toNat = (loop.toBlock config).toNat + 1) :
      CallAt chain config loop.fromBlock
        (.handle loop (chain.logs loop.fromBlock.toNat (loop.toBlock config).toNat))
  | pollHead (loop : Loop) : CallAt chain config loop.fromBlock (.pollHead loop)
  | returned (fromBlock : UInt64) (outcome : Except GoError Unit) :
      CallAt chain config fromBlock (.returned outcome)

section Polling

variable {chain : Chain} {config : Config} {fromBlock : UInt64} {call call' : IndexerCall}

theorem callAt_enter (poll : config.indexerMode = .poll) (loop : Loop) :
    CallAt chain config loop.fromBlock (IndexerCall.enter config loop) := by
  unfold IndexerCall.enter
  by_cases within : loop.fromBlock ≤ loop.currentBlock
  · rw [if_pos within]
    exact .filter loop within
  · have noSubscription : config.indexerMode ≠ .ws := by
      rw [poll]
      intro same
      cases same
    rw [if_neg within, if_pos noSubscription]
    exact .returned _ _

theorem callAt_advance (poll : config.indexerMode = .poll) (loop : Loop) :
    CallAt chain config (loop.toBlock config + 1) (IndexerCall.advance config loop) := by
  simp only [IndexerCall.advance, poll]
  by_cases within : loop.toBlock config + 1 ≤ loop.currentBlock
  · rw [if_pos within]
    exact callAt_enter poll { loop with fromBlock := loop.toBlock config + 1 }
  · rw [if_neg within]
    exact .pollHead { loop with fromBlock := loop.toBlock config + 1, isOnHead := true }

/-- A reported head does not move the cursor. -/
theorem CallAt.head (poll : config.indexerMode = .poll)
    (stands : CallAt chain config fromBlock call) {block : UInt64}
    (answered : call.next config (.head block) = some call') :
    CallAt chain config fromBlock call' := by
  cases stands with
  | getHead startBlock =>
      obtain rfl := Option.some.inj answered
      unfold IndexerCall.begin
      by_cases ahead : fromBlock > block
      · rw [if_pos ahead]
        exact .returned _ _
      · rw [if_neg ahead]
        exact callAt_enter poll ⟨fromBlock, block, false, false⟩
  | pollHead loop =>
      obtain rfl := Option.some.inj answered
      unfold IndexerCall.polled
      by_cases arrived : block ≥ loop.fromBlock
      · rw [if_pos arrived]
        exact callAt_enter poll { loop with currentBlock := block }
      · rw [if_neg arrived]
        exact .pollHead { loop with currentBlock := block }
  | filter loop within => cases answered
  | handle loop forward onward => cases answered
  | returned _ outcome => cases answered

/-- The logs of a range that fits are handled at the same place. -/
theorem CallAt.logs {loop : Loop} (positive : config.maxBlocksDistance ≠ 0)
    (stands : CallAt chain config fromBlock (.filter loop)) (fits : RangeFits config loop) :
    CallAt chain config fromBlock
      (.handle loop (chain.logs loop.fromBlock.toNat (loop.toBlock config).toNat)) := by
  cases stands with
  | filter loop within =>
      obtain ⟨forward, _, onward⟩ := fits.forward positive within
      exact .handle loop forward onward

end Polling

/-! ### Two runs of a small job -/

theorem emptyForJob_empty (job : ZkCertificateRegistryJob) : EmptyForJob job ∅ where
  record := Finmap.lookup_empty _
  registry := ⟨fun _ _ => rfl, fun _ => rfl⟩

/-- Two ranges of one block, a crash, and the rest in one range from the recorded block on. -/
def restartedMoves : List Move :=
  [.start ⟨1, .poll⟩, .head 2, .logs, .commit, .logs, .commit, .crash,
    .start ⟨5, .poll⟩, .head 2, .logs, .commit]

def restarted : Indexing :=
  played RangesFit (Indexing.move fieldHash (smallJobAt 0) smallChain) restartedMoves ⟨∅, none⟩

/-- A distance with which `2+MaxBlocksDistance-1` wraps to 0. -/
def wrappedMoves : List Move :=
  [.start ⟨18446744073709551615, .poll⟩, .head 3, .logs, .commit, .logs, .commit]

def wrapped : Indexing :=
  played (fun _ _ => True) (Indexing.move fieldHash (smallJobAt 2) smallChain) wrappedMoves
    ⟨∅, none⟩

/-! ### Invariant of the runs -/

/-- The persisted state is settled, and a running call stands where indexing may go on. -/
structure Resumable (poseidon : PoseidonHash) (job : ZkCertificateRegistryJob) (chain : Chain)
    (state : Indexing) : Prop where
  settled : EmptyForJob job state.database ∨
    ∃ block, Indexed poseidon job chain state.database block
  running : ∀ config call, state.call = some (config, call) →
    config.indexerMode = .poll ∧ config.maxBlocksDistance ≠ 0 ∧
      ∃ fromBlock, Ready poseidon job chain state.database fromBlock ∧
        CallAt chain config fromBlock call

section Runs

variable {poseidon : PoseidonHash} {job : ZkCertificateRegistryJob} {chain : Chain}
variable {database : Database} {before after : Indexing}

theorem Ready.settled {fromBlock : UInt64} (ready : Ready poseidon job chain database fromBlock) :
    EmptyForJob job database ∨ ∃ block, Indexed poseidon job chain database block := by
  rcases ready with ⟨empty, _⟩ | ⟨block, indexed, _⟩
  · exact Or.inl empty
  · exact Or.inr ⟨block, indexed⟩

/-- A job is started where indexing may go on. -/
theorem ready_resumeBlock {block : UInt64}
    (settled : EmptyForJob job database ∨ ∃ block, Indexed poseidon job chain database block)
    (resumes : resumeBlock job.jobCodec job.jobDescriptor database = .ok block) :
    Ready poseidon job chain database block := by
  rcases settled with empty | ⟨reached, indexed⟩
  · rw [resumeBlock, empty.record] at resumes
    exact Or.inl ⟨empty, (Except.ok.inj resumes).symm⟩
  · rw [indexed.record.resumeBlock] at resumes
    obtain rfl : reached = block := Except.ok.inj resumes
    exact Or.inr ⟨reached, indexed, Or.inl rfl⟩

/-- A running state, from its call. -/
theorem resumable_running {config : Config} {call : IndexerCall} {fromBlock : UInt64}
    (poll : config.indexerMode = .poll) (positive : config.maxBlocksDistance ≠ 0)
    (ready : Ready poseidon job chain database fromBlock)
    (stands : CallAt chain config fromBlock call) :
    Resumable poseidon job chain ⟨database, some (config, call)⟩ where
  settled := ready.settled
  running := by
    intro config' call' same
    cases same
    exact ⟨poll, positive, fromBlock, ready, stands⟩

/-- Every step whose range fits keeps the invariant. -/
theorem Resumable.step (spec : PoseidonSpec poseidon)
    (built : InitializedRegistry poseidon job.registry)
    (contract : ContractMetadata job.registry.metadata) (codec : job.jobCodec.RoundTrips)
    (certificates : CertificateChain job chain) (resumable : Resumable poseidon job chain before)
    (step : IndexingStep poseidon job chain before after) (fits : RangesFit before after) :
    Resumable poseidon job chain after := by
  cases step with
  | start config poll resumes =>
      exact resumable_running poll (newEVMIndexer_positive config)
        (ready_resumeBlock resumable.settled resumes) (.getHead _)
  | head block answered =>
      obtain ⟨poll, positive, fromBlock, ready, stands⟩ := resumable.running _ _ rfl
      exact resumable_running poll positive ready (stands.head poll answered)
  | logs answered =>
      obtain ⟨poll, positive, fromBlock, ready, stands⟩ := resumable.running _ _ rfl
      obtain rfl := Option.some.inj answered
      exact resumable_running poll positive ready (stands.logs positive fits)
  | commit handling run answered =>
      obtain ⟨poll, positive, fromBlock, ready, stands⟩ := resumable.running _ _ rfl
      cases stands with
      | handle loop forward onward =>
          obtain ⟨rfl, rfl⟩ := Prod.mk.inj (Option.some.inj handling)
          obtain rfl := Option.some.inj answered
          have indexed := ready.commit spec built contract codec certificates forward run
          exact resumable_running poll positive (Or.inr ⟨_, indexed, Or.inr onward⟩)
            (callAt_advance poll loop)
      | _ => cases handling
  | failure err answered =>
      obtain ⟨poll, positive, fromBlock, ready, stands⟩ := resumable.running _ _ rfl
      obtain ⟨outcome, rfl⟩ := IndexerCall.next_failure answered
      exact resumable_running poll positive ready (.returned _ _)
  | crash => exact ⟨resumable.settled, fun _ _ same => (nomatch same)⟩

/-- In every run from a database without the job in which all ranges fit, every persisted state
is consistent: the tree, the values and the block of the record move together, and the block that
a restart applies again changes nothing. -/
theorem crash_consistent (spec : PoseidonSpec poseidon)
    (built : InitializedRegistry poseidon job.registry)
    (contract : ContractMetadata job.registry.metadata) (codec : job.jobCodec.RoundTrips)
    (certificates : CertificateChain job chain) (empty : EmptyForJob job database)
    {reached : Indexing}
    (run : Relation.ReflTransGen
      (fun before after => IndexingStep poseidon job chain before after ∧ RangesFit before after)
      ⟨database, none⟩ reached) :
    CrashConsistent poseidon job chain reached.database := by
  have resumable : Resumable poseidon job chain reached :=
    GuardedRun.invariant
      (fun resumable step fits => resumable.step spec built contract codec certificates step fits)
      run ⟨Or.inl empty, fun _ _ same => (nomatch same)⟩
  rcases resumable.settled with none | ⟨block, indexed⟩
  · exact Or.inl none
  · exact indexed.crashConsistent spec built contract certificates

end Runs

theorem crash_consistent_restarted :
    Relation.ReflTransGen
      (fun before after => IndexingStep fieldHash (smallJobAt 0) smallChain before after ∧
        RangesFit before after) ⟨∅, none⟩ restarted ∧
      resumeBlock fixedCodec (smallJobAt 0).jobDescriptor restarted.database = .ok 2 ∧
      CrashConsistent fieldHash (smallJobAt 0) smallChain restarted.database := by
  have made : (play RangesFit (Indexing.move fieldHash (smallJobAt 0) smallChain) restartedMoves
      ⟨∅, none⟩).isSome = true := by decide +kernel
  have run := run_of_played made fun _ _ _ moved => Indexing.move_step moved
  refine ⟨run, by decide +kernel, ?_⟩
  exact crash_consistent fieldHash_spec smallRegistry_built smallRegistry_contract
    fixedCodec_roundTrips (smallChain_certificates 0) (emptyForJob_empty _) run

/-- With a distance that wraps, the range from block 2 ends at block 0.  Nothing is found in it, the
record is set back to block 0, and the next range takes in block 1, before the job's start. -/
theorem crash_inconsistent_wrapped :
    CertificateChain (smallJobAt 2) smallChain ∧ EmptyForJob (smallJobAt 2) ∅ ∧
      Relation.ReflTransGen (IndexingStep fieldHash (smallJobAt 2) smallChain) ⟨∅, none⟩
        wrapped ∧
      ¬ CrashConsistent fieldHash (smallJobAt 2) smallChain wrapped.database := by
  have made : (play (fun _ _ => True) (Indexing.move fieldHash (smallJobAt 2) smallChain)
      wrappedMoves ⟨∅, none⟩).isSome = true := by decide +kernel
  have run := run_of_played made fun _ _ _ moved => Indexing.move_step moved
  refine ⟨smallChain_certificates 2, emptyForJob_empty _, GuardedRun.steps run, ?_⟩
  rintro (empty | ⟨block, operations, recorded, handled, reached, applied, same⟩)
  · have recorded : (wrapped.database.lookup
        (makeJobKey (smallJobAt 2).jobDescriptor)).isSome = true := by decide +kernel
    rw [empty.record] at recorded
    cases recorded
  · obtain rfl : (3 : UInt64) = block := by
      have resumes : resumeBlock (smallJobAt 2).jobCodec (smallJobAt 2).jobDescriptor
          wrapped.database = .ok 3 := by decide +kernel
      rw [recorded.resumeBlock] at resumes
      exact (Except.ok.inj resumes).symm
    obtain rfl : [⟨⟨1, 7⟩, .revocation⟩, ⟨⟨2, 9⟩, .addition⟩] = operations :=
      Except.ok.inj handled
    -- leaf 4 of block 1 is stored although the job starts at block 2
    have stored : (wrapped.database.lookup
        (makeLeafIndexKey (smallJobAt 2).registry.leafView.registryIndex 4)).isSome = true := by
      decide +kernel
    have absent : (commitAllOperations fieldHash (smallJobAt 2).registry
        ([⟨⟨1, 7⟩, .revocation⟩, ⟨⟨2, 9⟩, .addition⟩].map fun op => [op]) ∅).map (fun database =>
          (database.lookup
            (makeLeafIndexKey (smallJobAt 2).registry.leafView.registryIndex 4)).isSome) =
        .ok false := by decide +kernel
    rw [same.entries] at stored
    rw [applied] at absent
    exact absurd (stored.symm.trans (Except.ok.inj absent)) (by decide)

end MerkleProofService
