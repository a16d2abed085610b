/-
Module: MerkleProofService.Proofs.FleetRuns
Layer: Proofs
Purpose: All jobs of the indexer at once, each in its goroutine on the one database.  A job fills its
  batch read by read while the others write theirs, fails and crashes at any point.  Each job does
  in every interleaving what it could have done alone, and alone its reads might as well be made at
  the moment of the write, so what holds of the runs of one job holds of each job of a fleet.
Imports: Library.DisjointParties, Proofs.CrashRuns, Proofs.JobFootprints
Trusted boundary: JobStep, the environment of a job
Main exports: JobPlace, JobStep, JobFits, Fleet, FleetRun, fleet_alone, fleet_settled,
  fleet_crash_consistent
-/
import MerkleProofService.Library.DisjointParties
import MerkleProofService.Proofs.CrashRuns
import MerkleProofService.Proofs.JobFootprints

namespace MerkleProofService

open Library

/-! ### One job, read by read -/

/-- Where a job stands: its call of `IndexEVMLogs`, and while the call handles logs what is left of
the computation of the batch. -/
structure JobPlace where
  running : Option (Config × IndexerCall)
  filling : Option (Read Batch)

/-- One step of a polling job and of the database it works on.  A failure may come at any point: of
the node, of a read, of the write, or because the context is done. -/
inductive JobStep (poseidon : PoseidonHash) (job : ZkCertificateRegistryJob) (chain : Chain) :
    Database × JobPlace → Database × JobPlace → Prop where
  | start {database : Database} {block : UInt64} (config : Config)
      (poll : (newEVMIndexer config).indexerMode = .poll)
      (resumes : resumeBlock job.jobCodec job.jobDescriptor database = .ok block) :
      JobStep poseidon job chain (database, ⟨none, none⟩)
        (database, ⟨some (newEVMIndexer config, .getHead block), none⟩)
  | head {database : Database} {config : Config} {call call' : IndexerCall} (block : UInt64)
      (answered : call.next config (.head block) = some call') :
      JobStep poseidon job chain (database, ⟨some (config, call), none⟩)
        (database, ⟨some (config, call'), none⟩)
  | logs {database : Database} {config : Config} {loop : Loop} {call' : IndexerCall}
      (answered : (IndexerCall.filter loop).next config
        (.logs (chain.logs loop.fromBlock.toNat (loop.toBlock config).toNat)) = some call') :
      JobStep poseidon job chain (database, ⟨some (config, .filter loop), none⟩)
        (database, ⟨some (config, call'), none⟩)
  | begins {database : Database} {config : Config} {call : IndexerCall} {logs : List EvmLog}
      {block : UInt64} (handling : call.handling config = some (logs, block)) :
      JobStep poseidon job chain (database, ⟨some (config, call), none⟩)
        (database, ⟨some (config, call), some (job.handleLogs poseidon logs block)⟩)
  | reads {database : Database} {running : Option (Config × IndexerCall)} {query : ReadQuery}
      {next : ReadAnswer query → Read Batch} :
      JobStep poseidon job chain (database, ⟨running, some (.ask query next)⟩)
        (database, ⟨running, some (next (Read.answersOf database query))⟩)
  | writes {database : Database} {config : Config} {call call' : IndexerCall} {batch : Batch}
      (answered : call.next config .handled = some call') :
      JobStep poseidon job chain (database, ⟨some (config, call), some (.done batch)⟩)
        (Store.write database batch, ⟨some (config, call'), none⟩)
  | failure {database : Database} {config : Config} {call call' : IndexerCall}
      {filling : Option (Read Batch)} (err : GoError)
      (answered : call.next config (.failure err) = some call') :
      JobStep poseidon job chain (database, ⟨some (config, call), filling⟩)
        (database, ⟨some (config, call'), none⟩)
  | crash {database : Database} {running : Config × IndexerCall}
      {filling : Option (Read Batch)} :
      JobStep poseidon job chain (database, ⟨some running, filling⟩) (database, ⟨none, none⟩)

/-- The step, of a job that has a range that fits if it is about to filter one. -/
def JobFits (poseidon : PoseidonHash) (job : ZkCertificateRegistryJob) (chain : Chain)
    (before after : Database × JobPlace) : Prop :=
  JobStep poseidon job chain before after ∧
    RangesFit ⟨before.1, before.2.running⟩ ⟨after.1, after.2.running⟩

/-! ### Reads at the moment of the write -/

/-- What is left of the computation of a batch ends as the whole computation would if it were begun
now. -/
def FillsBatch (poseidon : PoseidonHash) (job : ZkCertificateRegistryJob)
    (state : Database × JobPlace) : Prop :=
  ∀ program, state.2.filling = some program → ∃ config call logs block,
    state.2.running = some (config, call) ∧ call.handling config = some (logs, block) ∧
      Read.evalOn state.1 program =
        Read.evalOn state.1 (job.handleLogs poseidon logs block)

section OneJob

variable {poseidon : PoseidonHash} {job : ZkCertificateRegistryJob} {chain : Chain}
variable {before after : Database × JobPlace}

/-- A job that is not started fills no batch. -/
theorem fillsBatch_stopped (database : Database) :
    FillsBatch poseidon job (database, ⟨none, none⟩) :=
  fun _ left => nomatch left

theorem FillsBatch.step (fills : FillsBatch poseidon job before)
    (step : JobStep poseidon job chain before after) : FillsBatch poseidon job after := by
  intro program left
  cases step with
  | start | head | logs | writes | failure | crash => cases left
  | begins handling =>
      obtain rfl := Option.some.inj left
      exact ⟨_, _, _, _, rfl, handling, rfl⟩
  | reads =>
      obtain rfl := Option.some.inj left
      obtain ⟨config, call, logs, block, running, handling, same⟩ := fills _ rfl
      exact ⟨config, call, logs, block, running, handling, same⟩

/-- A step stands still for the job that reads at the moment of its write, or is one of its
steps. -/
theorem JobStep.indexing (fills : FillsBatch poseidon job before)
    (step : JobStep poseidon job chain before after) :
    (⟨after.1, after.2.running⟩ : Indexing) = ⟨before.1, before.2.running⟩ ∨
      IndexingStep poseidon job chain ⟨before.1, before.2.running⟩ ⟨after.1, after.2.running⟩ := by
  cases step with
  | start config poll resumes => exact Or.inr (.start config poll resumes)
  | head block answered => exact Or.inr (.head block answered)
  | logs answered => exact Or.inr (.logs answered)
  | begins handling => exact Or.inl rfl
  | reads => exact Or.inl rfl
  | writes answered =>
      obtain ⟨config, call, logs, block, running, handling, same⟩ := fills _ rfl
      cases running
      exact Or.inr (.commit handling same.symm answered)
  | failure err answered => exact Or.inr (.failure err answered)
  | crash => exact Or.inr .crash

/-- A run of a job that reads as it goes is one of a job that reads when it writes. -/
theorem jobRun_indexing (run : Relation.ReflTransGen (JobFits poseidon job chain) before after)
    (fills : FillsBatch poseidon job before) :
    Relation.ReflTransGen
      (fun s t => IndexingStep poseidon job chain s t ∧ RangesFit s t)
      ⟨before.1, before.2.running⟩ ⟨after.1, after.2.running⟩ := by
  have both : FillsBatch poseidon job after ∧ Relation.ReflTransGen
      (fun s t => IndexingStep poseidon job chain s t ∧ RangesFit s t)
      ⟨before.1, before.2.running⟩ ⟨after.1, after.2.running⟩ := by
    induction run with
    | refl => exact ⟨fills, .refl⟩
    | tail _ last ih =>
        refine ⟨ih.1.step last.1, ?_⟩
        rcases last.1.indexing ih.1 with still | moves
        · rw [still]
          exact ih.2
        · exact ih.2.tail ⟨moves, last.2⟩
  exact both.2

end OneJob

/-! ### The fleet -/

/-- The database and where every job stands. -/
abbrev Fleet (Id : Type) := Parties Id Database JobPlace

/-- Runs of all jobs in which every range that is filtered fits. -/
abbrev FleetRun {Id : Type} [DecidableEq Id] (poseidon : PoseidonHash)
    (jobs : Id → ZkCertificateRegistryJob) (chains : Id → Chain) :
    Fleet Id → Fleet Id → Prop :=
  Relation.ReflTransGen (Parties.Step fun id => JobFits poseidon (jobs id) (chains id))

/-- No job is started. -/
def Fleet.stopped {Id : Type} (database : Database) : Fleet Id :=
  ⟨database, fun _ => ⟨none, none⟩⟩

/-- The databases agree on the entries of the job. -/
def SameOwn (job : ZkCertificateRegistryJob) (first second : Database) : Prop :=
  ∀ key ∈ jobKeys job, first.lookup key.bytes = second.lookup key.bytes

/-- What is left to compute of a batch keeps to the entries of the job. -/
def OwnFilling (job : ZkCertificateRegistryJob) (place : JobPlace) : Prop :=
  ∀ program, place.filling = some program →
    program.Asks (OnKeys (jobKeys job)) (WritesOnly (jobKeys job))

section Own

variable {poseidon : PoseidonHash} {job : ZkCertificateRegistryJob} {chain : Chain}
variable {first second : Database} {before after : Database × JobPlace}

theorem SameOwn.answersOf (same : SameOwn job first second) {query : ReadQuery}
    (own : OnKeys (jobKeys job) query) :
    Read.answersOf first query = Read.answersOf second query := by
  rcases own with rfl | ⟨key, member, rfl⟩
  · rfl
  · change Except.ok _ = Except.ok _
    rw [same key member]

theorem SameOwn.resumeBlock (same : SameOwn job first second) :
    resumeBlock job.jobCodec job.jobDescriptor first =
      resumeBlock job.jobCodec job.jobDescriptor second := by
  have record : first.lookup (makeJobKey job.jobDescriptor) =
      second.lookup (makeJobKey job.jobDescriptor) := same (.job job.jobDescriptor) (Or.inr rfl)
  rw [MerkleProofService.resumeBlock, MerkleProofService.resumeBlock, record]

theorem SameOwn.write (same : SameOwn job first second) (batch : Batch) :
    SameOwn job (Store.write first batch) (Store.write second batch) := by
  intro key member
  rw [Store.lookup_write, Store.lookup_write, same key member]

theorem ownFilling_stopped (job : ZkCertificateRegistryJob) : OwnFilling job ⟨none, none⟩ :=
  fun _ left => nomatch left

theorem OwnFilling.step (built : InitializedRegistry poseidon job.registry)
    (own : OwnFilling job before.2) (step : JobStep poseidon job chain before after) :
    OwnFilling job after.2 := by
  intro program left
  cases step with
  | start | head | logs | writes | failure | crash => cases left
  | begins handling =>
      obtain rfl := Option.some.inj left
      exact handleLogs_asks built _ _
  | reads =>
      obtain rfl := Option.some.inj left
      exact (own _ rfl).2 _

/-- A step can be made on every database with the same entries of the job. -/
theorem JobStep.elsewhere (own : OwnFilling job before.2) {other : Database}
    (same : SameOwn job before.1 other) (step : JobStep poseidon job chain before after) :
    ∃ other', JobStep poseidon job chain (other, before.2) (other', after.2) ∧
      SameOwn job after.1 other' := by
  cases step with
  | start config poll resumes =>
      exact ⟨other, .start config poll (same.resumeBlock ▸ resumes), same⟩
  | head block answered => exact ⟨other, .head block answered, same⟩
  | logs answered => exact ⟨other, .logs answered, same⟩
  | begins handling => exact ⟨other, .begins handling, same⟩
  | reads =>
      refine ⟨other, ?_, same⟩
      rw [same.answersOf (own _ rfl).1]
      exact .reads
  | writes answered => exact ⟨_, .writes answered, same.write _⟩
  | failure err answered => exact ⟨other, .failure err answered, same⟩
  | crash => exact ⟨other, .crash, same⟩

/-- A step leaves the entries that are not the job's. -/
theorem JobStep.lookup_other (own : OwnFilling job before.2)
    (step : JobStep poseidon job chain before after) {key : StoreKey}
    (outside : key ∉ jobKeys job) :
    after.1.lookup key.bytes = before.1.lookup key.bytes := by
  cases step with
  | writes answered =>
      have writes : WritesOnly (jobKeys job) _ := own _ rfl
      exact Store.lookup_write_of_none (writes key outside)
  | start | head | logs | begins | reads | failure | crash => rfl

end Own

section Fleets

variable {Id : Type} [DecidableEq Id] {poseidon : PoseidonHash}
variable {jobs : Id → ZkCertificateRegistryJob} {chains : Id → Chain}
variable {database : Database} {s : Fleet Id}

omit [DecidableEq Id] in
/-- Jobs of different registries keep to different parts of the database. -/
theorem jobs_apart (built : ∀ id, InitializedRegistry poseidon (jobs id).registry)
    (separate : JobsApart jobs) :
    Apart (fun id => JobFits poseidon (jobs id) (chains id)) (fun id => SameOwn (jobs id))
      fun id => OwnFilling (jobs id) where
  refl _ _ _ _ := rfl
  trans one two key member := (one key member).trans (two key member)
  keeps own step := own.step (built _) step.1
  own own same step := by
    obtain ⟨other', moved, agree⟩ := step.1.elsewhere own same
    exact ⟨other', ⟨moved, step.2⟩, agree⟩
  others different own step key member :=
    step.1.lookup_other own (separate.keys different key member)

theorem fleet_ownFilling (built : ∀ id, InitializedRegistry poseidon (jobs id).registry)
    (separate : JobsApart jobs) (run : FleetRun poseidon jobs chains (Fleet.stopped database) s) :
    ∀ id, OwnFilling (jobs id) (s.places id) := by
  induction run with
  | refl => exact fun id => ownFilling_stopped (jobs id)
  | tail _ last ih => exact last.keeps_good (jobs_apart built separate) ih

/-- The jobs leave the entries that are no job's. -/
theorem fleet_lookup_other (built : ∀ id, InitializedRegistry poseidon (jobs id).registry)
    (separate : JobsApart jobs) (run : FleetRun poseidon jobs chains (Fleet.stopped database) s)
    {key : StoreKey} (outside : ∀ id, key ∉ jobKeys (jobs id)) :
    s.store.lookup key.bytes = database.lookup key.bytes := by
  induction run with
  | refl => rfl
  | tail before last ih =>
      have own := fleet_ownFilling built separate before
      cases last with
      | acts id moved => exact (moved.1.lookup_other (own id) (outside id)).trans ih

/-- In every interleaving with the others, failures and crashes included, each job has made a run
that it could have made alone with its reads at the moment of its writes. -/
theorem fleet_alone (built : ∀ id, InitializedRegistry poseidon (jobs id).registry)
    (separate : JobsApart jobs) (run : FleetRun poseidon jobs chains (Fleet.stopped database) s)
    (id : Id) :
    ∃ solo, Relation.ReflTransGen
      (fun s t => IndexingStep poseidon (jobs id) (chains id) s t ∧ RangesFit s t)
      ⟨database, none⟩ ⟨solo, (s.places id).running⟩ ∧ SameOwn (jobs id) s.store solo := by
  obtain ⟨solo, alone, same⟩ :=
    Parties.alone (jobs_apart built separate) (fun id => ownFilling_stopped (jobs id)) run id
  exact ⟨solo, jobRun_indexing alone (fillsBatch_stopped database), same⟩

end Fleets

/-! ### Consistency of every job -/

section Consistency

variable {poseidon : PoseidonHash} {job : ZkCertificateRegistryJob} {chain : Chain}
variable {database other : Database} {operations : List LeafOperation} {nodes : Nat → Nat → U256}

/-- The entries of the registry are all that counts. -/
theorem Replayed.same (built : InitializedRegistry poseidon job.registry)
    (replayed : Replayed poseidon job.registry database operations nodes)
    (same : SameRegistry job.registry.leafView.registryIndex other database) :
    Replayed poseidon job.registry other operations nodes where
  inRange := replayed.inRange
  reads := replayed.reads.congr built.tree.getter fun level index => by
    rw [storedLeaf, storedLeaf, same.nodes]
  consistent := replayed.consistent
  leaves := replayed.leaves
  entries value := (same.entries value).trans (replayed.entries value)
  stored level index within above :=
    (same.nodes level index).trans (replayed.stored level index within above)
  absent level index beside :=
    (same.nodes level index).trans (replayed.absent level index beside)

theorem SameOwn.sameRegistry (same : SameOwn job other database) :
    SameRegistry job.registry.leafView.registryIndex other database where
  nodes level index := same (.leaf _ level index) (Or.inl (Or.inl ⟨level, index, rfl⟩))
  entries value := same (.leafIndex _ value) (Or.inl (Or.inr ⟨value, rfl⟩))

theorem SameOwn.record (same : SameOwn job other database) :
    other.lookup (makeJobKey job.jobDescriptor) =
      database.lookup (makeJobKey job.jobDescriptor) :=
  same (.job job.jobDescriptor) (Or.inr rfl)

theorem Indexed.same (built : InitializedRegistry poseidon job.registry) {block : UInt64}
    (indexed : Indexed poseidon job chain database block) (same : SameOwn job other database) :
    Indexed poseidon job chain other block := by
  rcases indexed with ⟨started, ⟨record, stored, decoded⟩, nodes, replayed⟩
  exact ⟨started, ⟨record, same.record.trans stored, decoded⟩, nodes,
    replayed.same built same.sameRegistry⟩

/-- Nothing of the job is stored, or all of it up to a block. -/
def SettledJob (poseidon : PoseidonHash) (job : ZkCertificateRegistryJob) (chain : Chain)
    (database : Database) : Prop :=
  EmptyForJob job database ∨ ∃ block, Indexed poseidon job chain database block

theorem SettledJob.same (built : InitializedRegistry poseidon job.registry)
    (settled : SettledJob poseidon job chain database) (same : SameOwn job other database) :
    SettledJob poseidon job chain other := by
  rcases settled with empty | ⟨block, indexed⟩
  · refine Or.inl ⟨same.record.trans empty.record, ?_⟩
    exact ⟨fun level index => (same.sameRegistry.nodes level index).trans
      (empty.registry.nodes level index),
      fun value => (same.sameRegistry.entries value).trans (empty.registry.entries value)⟩
  · exact Or.inr ⟨block, indexed.same built same⟩

end Consistency

section Settled

variable {Id : Type} [DecidableEq Id] {poseidon : PoseidonHash}
variable {jobs : Id → ZkCertificateRegistryJob} {chains : Id → Chain}
variable {database : Database} {s : Fleet Id}

/-- In every state of every run a job is settled, whatever the others do. -/
theorem fleet_settled (spec : PoseidonSpec poseidon)
    (built : ∀ id, InitializedRegistry poseidon (jobs id).registry) (separate : JobsApart jobs)
    (run : FleetRun poseidon jobs chains (Fleet.stopped database) s) {id : Id}
    (contract : ContractMetadata (jobs id).registry.metadata)
    (codec : (jobs id).jobCodec.RoundTrips)
    (certificates : CertificateChain (jobs id) (chains id))
    (empty : EmptyForJob (jobs id) database) :
    SettledJob poseidon (jobs id) (chains id) s.store := by
  obtain ⟨solo, alone, same⟩ := fleet_alone built separate run id
  have resumable : Resumable poseidon (jobs id) (chains id) ⟨solo, (s.places id).running⟩ :=
    GuardedRun.invariant
      (fun resumable step fits => resumable.step spec (built id) contract codec certificates step
        fits)
      alone ⟨Or.inl empty, fun _ _ same => (nomatch same)⟩
  exact SettledJob.same (built id) resumable.settled same

end Settled

/-! ### Two jobs that interleave -/

/-- The choices of the environment of a job. -/
inductive JobMove where
  | start (config : Config)
  | head (block : UInt64)
  | logs
  | begins
  | reads
  | writes
  | crash

/-- Where a move leads a job, if it can be made. -/
def JobPlace.move (poseidon : PoseidonHash) (job : ZkCertificateRegistryJob) (chain : Chain) :
    Database × JobPlace → JobMove → Option (Database × JobPlace)
  | (database, ⟨none, none⟩), .start config =>
      match resumeBlock job.jobCodec job.jobDescriptor database with
      | .ok block =>
          if (newEVMIndexer config).indexerMode = .poll then
            some (database, ⟨some (newEVMIndexer config, .getHead block), none⟩)
          else none
      | .error _ => none
  | (database, ⟨some (config, call), none⟩), .head block =>
      (call.next config (.head block)).map fun call' => (database, ⟨some (config, call'), none⟩)
  | (database, ⟨some (config, .filter loop), none⟩), .logs =>
      some (database, ⟨some (config, .handle loop
        (chain.logs loop.fromBlock.toNat (loop.toBlock config).toNat)), none⟩)
  | (database, ⟨some (config, call), none⟩), .begins =>
      (call.handling config).map fun handled =>
        (database, ⟨some (config, call), some (job.handleLogs poseidon handled.1 handled.2)⟩)
  | (database, ⟨running, some (.ask query next)⟩), .reads =>
      some (database, ⟨running, some (next (Read.answersOf database query))⟩)
  | (database, ⟨some (config, call), some (.done batch)⟩), .writes =>
      (call.next config .handled).map fun call' =>
        (Store.write database batch, ⟨some (config, call'), none⟩)
  | (database, ⟨some _, _⟩), .crash => some (database, ⟨none, none⟩)
  | _, _ => none

theorem JobPlace.move_step {poseidon : PoseidonHash} {job : ZkCertificateRegistryJob}
    {chain : Chain} {before after : Database × JobPlace} {made : JobMove}
    (moved : JobPlace.move poseidon job chain before made = some after) :
    JobStep poseidon job chain before after := by
  unfold JobPlace.move at moved
  split at moved
  · split at moved
    · rename_i resumes
      split at moved
      · rename_i poll
        obtain rfl := Option.some.inj moved
        exact .start _ poll resumes
      · cases moved
    · cases moved
  · obtain ⟨call', answered, rfl⟩ := Option.map_eq_some_iff.mp moved
    exact .head _ answered
  · obtain rfl := Option.some.inj moved
    exact .logs rfl
  · obtain ⟨handled, handling, rfl⟩ := Option.map_eq_some_iff.mp moved
    exact .begins handling
  · obtain rfl := Option.some.inj moved
    exact .reads
  · obtain ⟨call', answered, rfl⟩ := Option.map_eq_some_iff.mp moved
    exact .writes answered
  · obtain rfl := Option.some.inj moved
    exact .crash
  · cases moved

/-- A move of one of the jobs, whose range fits. -/
def Fleet.move {Id : Type} [DecidableEq Id] (poseidon : PoseidonHash)
    (jobs : Id → ZkCertificateRegistryJob) (chains : Id → Chain) (s : Fleet Id)
    (made : Id × JobMove) : Option (Fleet Id) :=
  (JobPlace.move poseidon (jobs made.1) (chains made.1) (s.store, s.places made.1) made.2).bind
    fun after =>
      if RangesFit ⟨s.store, (s.places made.1).running⟩ ⟨after.1, after.2.running⟩ then
        some ⟨after.1, Function.update s.places made.1 after.2⟩
      else none

theorem Fleet.move_step {Id : Type} [DecidableEq Id] {poseidon : PoseidonHash}
    {jobs : Id → ZkCertificateRegistryJob} {chains : Id → Chain} {s t : Fleet Id}
    {made : Id × JobMove} (moved : s.move poseidon jobs chains made = some t) :
    Parties.Step (fun id => JobFits poseidon (jobs id) (chains id)) s t := by
  obtain ⟨⟨store, place⟩, chosen, rest⟩ := Option.bind_eq_some_iff.mp moved
  split at rest
  · rename_i fits
    obtain rfl := Option.some.inj rest
    exact .acts made.1 ⟨JobPlace.move_step chosen, fits⟩
  · cases rest

/-- Two registries with the same events. -/
def twoJobs : Bool → ZkCertificateRegistryJob
  | false => smallJobAt 0
  | true => secondJob

/-- One job writes its batch while the other is in the middle of filling one, which later crashes
in the middle of its next batch. -/
def twoJobsMoves : List (Bool × JobMove) :=
  [(false, .start ⟨5, .poll⟩), (true, .start ⟨5, .poll⟩), (false, .head 1), (true, .head 2),
    (false, .logs), (true, .logs), (false, .begins), (true, .begins), (false, .reads),
    (true, .reads), (true, .writes), (false, .reads), (false, .writes), (false, .head 2),
    (false, .logs), (false, .begins), (false, .crash)]

def twoJobsReached : Fleet Bool :=
  played (fun _ _ => True) (Fleet.move fieldHash twoJobs fun _ => smallChain) twoJobsMoves
    (Fleet.stopped ∅)

theorem twoJobs_built (id : Bool) : InitializedRegistry fieldHash (twoJobs id).registry := by
  cases id with
  | false => exact smallRegistry_built
  | true => exact newZKCertificateRegistry_initialized fieldHash rfl

theorem twoJobs_apart : JobsApart twoJobs where
  registries {first second} := by
    cases first <;> cases second <;> decide
  records {first second} := by
    cases first <;> cases second <;> decide

theorem twoJobs_contract (id : Bool) : ContractMetadata (twoJobs id).registry.metadata := by
  cases id with
  | false => exact smallRegistry_contract
  | true => exact ⟨⟨by decide, by decide⟩, by decide⟩

theorem twoJobs_codec (id : Bool) : (twoJobs id).jobCodec.RoundTrips := by
  cases id <;> exact fixedCodec_roundTrips

theorem twoJobs_certificates (id : Bool) : CertificateChain (twoJobs id) smallChain := by
  intro block log member
  obtain ⟨event, certificate⟩ := smallChain_certificates 0 block log member
  cases id with
  | false => exact ⟨event, certificate⟩
  | true => exact ⟨event, certificate.kept, certificate.topic, certificate.parsed,
      certificate.index, certificate.nonzero, certificate.field, certificate.operation⟩

theorem twoJobs_run :
    FleetRun fieldHash twoJobs (fun _ => smallChain) (Fleet.stopped ∅) twoJobsReached := by
  have made : (play (fun _ _ => True) (Fleet.move fieldHash twoJobs fun _ => smallChain)
      twoJobsMoves (Fleet.stopped ∅)).isSome = true := by decide +kernel
  exact GuardedRun.steps (run_of_played made fun _ _ _ moved => Fleet.move_step moved)

/-! ### Every interleaving -/

section Interleaved

variable {Id : Type} [DecidableEq Id] {poseidon : PoseidonHash}
variable {jobs : Id → ZkCertificateRegistryJob} {chains : Id → Chain}
variable {database : Database} {s : Fleet Id}

/-- In every interleaving of any number of jobs on one database, with failures and crashes at any
point, each job is where a run of its own could have led it, and what is stored of it is what the
logs up to its recorded block, applied once each, leave. -/
theorem fleet_crash_consistent (spec : PoseidonSpec poseidon)
    (built : ∀ id, InitializedRegistry poseidon (jobs id).registry) (separate : JobsApart jobs)
    (contract : ∀ id, ContractMetadata (jobs id).registry.metadata)
    (codec : ∀ id, (jobs id).jobCodec.RoundTrips)
    (certificates : ∀ id, CertificateChain (jobs id) (chains id))
    (empty : ∀ id, EmptyForJob (jobs id) database)
    (run : FleetRun poseidon jobs chains (Fleet.stopped database) s) (id : Id) :
    CrashConsistent poseidon (jobs id) (chains id) s.store ∧
      ∃ solo, Relation.ReflTransGen
        (fun s t => IndexingStep poseidon (jobs id) (chains id) s t ∧ RangesFit s t)
        ⟨database, none⟩ ⟨solo, (s.places id).running⟩ ∧ SameOwn (jobs id) s.store solo := by
  refine ⟨?_, fleet_alone built separate run id⟩
  rcases fleet_settled spec built separate run (contract id) (codec id) (certificates id)
      (empty id) with
    nothing | ⟨block, indexed⟩
  · exact Or.inl nothing
  · exact indexed.crashConsistent spec (built id) (contract id) (certificates id)

theorem fleet_crash_consistent_twoJobs :
    resumeBlock fixedCodec (twoJobs true).jobDescriptor twoJobsReached.store = .ok 2 ∧
      resumeBlock fixedCodec (twoJobs false).jobDescriptor twoJobsReached.store = .ok 1 ∧
      ∀ id, CrashConsistent fieldHash (twoJobs id) smallChain twoJobsReached.store ∧
        ∃ solo, Relation.ReflTransGen
          (fun s t => IndexingStep fieldHash (twoJobs id) smallChain s t ∧ RangesFit s t)
          ⟨∅, none⟩ ⟨solo, (twoJobsReached.places id).running⟩ ∧
          SameOwn (twoJobs id) twoJobsReached.store solo :=
  ⟨by decide +kernel, by decide +kernel,
    fleet_crash_consistent fieldHash_spec twoJobs_built twoJobs_apart twoJobs_contract
      twoJobs_codec twoJobs_certificates (fun _ => emptyForJob_empty _) twoJobs_run⟩

end Interleaved

end MerkleProofService
