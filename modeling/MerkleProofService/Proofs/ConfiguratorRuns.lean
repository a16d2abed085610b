/-
Module: MerkleProofService.Proofs.ConfiguratorRuns
Layer: Proofs
Purpose: What the running jobs can do between two steps of the configurator.  The map of jobs and
  the order of starts are the configurator's alone; a job changes its own record until it returns,
  and an error it returns cancels the jobs of the map.
Imports: Indexer.Configurator, Proofs.JobCommits, Proofs.KeySpace
Trusted boundary: none
Main exports: ConfiguratorState.heads, ConfiguratorState.record, Quiet, AllEnded, RecordsStay,
  Drifts, commitsRecord_commitBatch, JobActs.drifts
-/
import MerkleProofService.Indexer.Configurator
import MerkleProofService.Proofs.JobCommits
import MerkleProofService.Proofs.KeySpace

namespace MerkleProofService

open Library

/-! ### Views of the shared state -/

namespace ConfiguratorState

/-- The jobs in the order of their starts, each with the block it was started at. -/
def heads (s : ConfiguratorState) : List (JobDescriptor × UInt64) :=
  s.instances.map fun job => (job.jobDescriptor, job.startBlock)

/-- Whether the context of a job is cancelled. -/
def cancelledAt (s : ConfiguratorState) (jobContext : Nat) : Option Bool :=
  s.instances[jobContext]?.map JobInstance.cancelled

/-- The stored record of a job. -/
def record (s : ConfiguratorState) (jobDescriptor : JobDescriptor) : Option Bytes :=
  s.database.lookup (makeJobKey jobDescriptor)

variable (s : ConfiguratorState) (jobContext : Nat)

@[simp] theorem heads_cancel : (s.cancel jobContext).heads = s.heads := by
  refine List.ext_getElem? fun i => ?_
  simp only [heads, cancel, List.getElem?_map, List.getElem?_modify]
  cases s.instances[i]? with
  | none => rfl
  | some job => by_cases same : jobContext = i <;> simp [same]

@[simp] theorem outcomeOf_cancel (i : Nat) : (s.cancel jobContext).outcomeOf i = s.outcomeOf i := by
  simp only [outcomeOf, cancel, List.getElem?_modify]
  cases s.instances[i]? with
  | none => rfl
  | some job => by_cases same : jobContext = i <;> simp [same]

theorem cancelledAt_cancel_of_ne {i : Nat} (other : jobContext ≠ i) :
    (s.cancel jobContext).cancelledAt i = s.cancelledAt i := by
  simp only [cancelledAt, cancel, List.getElem?_modify]
  cases s.instances[i]? with
  | none => rfl
  | some job => simp [other]

/-- `CancelAll` touches nothing but the contexts. -/
theorem cancelAll_frame : s.cancelAll.database = s.database ∧ s.cancelAll.jobs = s.jobs ∧
    s.cancelAll.heads = s.heads ∧ ∀ i, s.cancelAll.outcomeOf i = s.outcomeOf i := by
  unfold cancelAll
  generalize s.jobs.entries = entries
  induction entries generalizing s with
  | nil => exact ⟨rfl, rfl, rfl, fun _ => rfl⟩
  | cons entry entries ih =>
      obtain ⟨database, jobs, sameHeads, outcomes⟩ := ih (s.cancel entry.2)
      exact ⟨database, jobs, sameHeads.trans (heads_cancel s _), fun i =>
        (outcomes i).trans (outcomeOf_cancel s _ i)⟩

end ConfiguratorState

open ConfiguratorState

/-- What a job that returns leaves before its outcome is stored. -/
def afterCancelling (s : ConfiguratorState) : JobOutcome → ConfiguratorState
  | .finished => s
  | .canceled _ | .failed _ => s.cancelAll

theorem endJob_eq (s : ConfiguratorState) (jobContext : Nat) (outcome : JobOutcome) :
    s.endJob jobContext outcome =
      { afterCancelling s outcome with
        instances := (afterCancelling s outcome).instances.modify jobContext fun job =>
          { job with cancelled := true, outcome := some outcome } } := by
  cases outcome <;> rfl

section EndJob

variable (s : ConfiguratorState) (jobContext : Nat) (outcome : JobOutcome)

theorem afterCancelling_frame : (afterCancelling s outcome).database = s.database ∧
    (afterCancelling s outcome).jobs = s.jobs ∧ (afterCancelling s outcome).heads = s.heads ∧
    ∀ i, (afterCancelling s outcome).outcomeOf i = s.outcomeOf i := by
  cases outcome with
  | finished => exact ⟨rfl, rfl, rfl, fun _ => rfl⟩
  | canceled err => exact cancelAll_frame s
  | failed err => exact cancelAll_frame s

@[simp] theorem database_endJob : (s.endJob jobContext outcome).database = s.database := by
  rw [endJob_eq]
  exact (afterCancelling_frame s outcome).1

@[simp] theorem jobs_endJob : (s.endJob jobContext outcome).jobs = s.jobs := by
  rw [endJob_eq]
  exact (afterCancelling_frame s outcome).2.1

@[simp] theorem heads_endJob : (s.endJob jobContext outcome).heads = s.heads := by
  refine Eq.trans ?_ (afterCancelling_frame s outcome).2.2.1
  rw [endJob_eq]
  refine List.ext_getElem? fun i => ?_
  simp only [heads, List.getElem?_map, List.getElem?_modify]
  cases (afterCancelling s outcome).instances[i]? with
  | none => rfl
  | some job => by_cases same : jobContext = i <;> simp [same]

/-- The outcome of the job that returns is stored; the others keep theirs. -/
theorem outcomeOf_endJob (i : Nat) :
    (s.endJob jobContext outcome).outcomeOf i =
      if jobContext = i ∧ i < s.heads.length then some outcome else s.outcomeOf i := by
  have frame := afterCancelling_frame s outcome
  have length : (afterCancelling s outcome).instances.length = s.heads.length := by
    rw [← frame.2.2.1, heads, List.length_map]
  rw [← frame.2.2.2 i, endJob_eq]
  simp only [outcomeOf, List.getElem?_modify]
  by_cases inside : i < s.heads.length
  · rw [List.getElem?_eq_getElem (length ▸ inside)]
    by_cases same : jobContext = i <;> simp [same, inside]
  · rw [List.getElem?_eq_none (by omega)]
    simp [inside]

theorem cancelledAt_endJob_finished {i : Nat} (other : jobContext ≠ i) :
    (s.endJob jobContext .finished).cancelledAt i = s.cancelledAt i := by
  simp only [endJob_eq, afterCancelling, cancelledAt, List.getElem?_modify]
  cases s.instances[i]? with
  | none => rfl
  | some job => simp [other]

end EndJob

section Launch

variable (s : ConfiguratorState) (jobDescriptor : JobDescriptor) (startBlock : UInt64)

@[simp] theorem heads_launch :
    (s.launch jobDescriptor startBlock).heads = s.heads ++ [(jobDescriptor, startBlock)] := by
  simp [heads, launch]

@[simp] theorem outcomeOf_launch (i : Nat) :
    (s.launch jobDescriptor startBlock).outcomeOf i = s.outcomeOf i := by
  simp only [outcomeOf, launch, List.getElem?_append]
  by_cases inside : i < s.instances.length
  · rw [if_pos inside]
  · rw [if_neg inside, List.getElem?_eq_none (Nat.not_lt.mp inside)]
    cases i - s.instances.length <;> rfl

theorem cancelledAt_launch_new :
    (s.launch jobDescriptor startBlock).cancelledAt s.heads.length = some false := by
  simp [cancelledAt, launch, heads]

theorem cancelledAt_launch_old {i : Nat} (inside : i < s.heads.length) :
    (s.launch jobDescriptor startBlock).cancelledAt i = s.cancelledAt i := by
  rw [heads, List.length_map] at inside
  simp [cancelledAt, launch, List.getElem?_append, inside]

theorem lookup_launch_own :
    (s.launch jobDescriptor startBlock).jobs.lookup jobDescriptor = some s.heads.length := by
  rw [heads, List.length_map]
  exact AList.lookup_insert s.jobs

theorem lookup_launch_other {other : JobDescriptor} (different : other ≠ jobDescriptor) :
    (s.launch jobDescriptor startBlock).jobs.lookup other = s.jobs.lookup other :=
  AList.lookup_insert_ne different

/-- A job after a launch is the new one or one from before. -/
theorem heads_launch_cases {i : Nat} {head : JobDescriptor × UInt64}
    (started : (s.launch jobDescriptor startBlock).heads[i]? = some head) :
    s.heads[i]? = some head ∨ i = s.heads.length ∧ head = (jobDescriptor, startBlock) := by
  rw [heads_launch] at started
  rcases Nat.lt_trichotomy i s.heads.length with inside | rfl | outside
  · rw [List.getElem?_append_left inside] at started
    exact .inl started
  · rw [List.getElem?_concat_length] at started
    exact .inr ⟨rfl, (Option.some.inj started).symm⟩
  · rw [List.getElem?_eq_none (by rw [List.length_append]; exact outside)] at started
    cases started

end Launch

/-! ### What the jobs do -/

/-- Since the state `base`, no job has returned an error. -/
def Quiet (base s : ConfiguratorState) : Prop :=
  ∀ i outcome, base.outcomeOf i = none → s.outcomeOf i = some outcome → outcome = .finished

/-- Every job that was started for the descriptor has returned. -/
def AllEnded (s : ConfiguratorState) (jobDescriptor : JobDescriptor) : Prop :=
  ∀ i startBlock, s.heads[i]? = some (jobDescriptor, startBlock) → s.outcomeOf i ≠ none

/-- No job runs. -/
def NoneRuns (s : ConfiguratorState) : Prop :=
  ∀ i, i < s.heads.length → s.outcomeOf i ≠ none

/-- No record of a job has been removed. -/
def RecordsStay (s t : ConfiguratorState) : Prop :=
  ∀ jobDescriptor, (s.record jobDescriptor).isSome → (t.record jobDescriptor).isSome

theorem RecordsStay.trans {s t u : ConfiguratorState} (first : RecordsStay s t)
    (second : RecordsStay t u) : RecordsStay s u :=
  fun jobDescriptor stored => second jobDescriptor (first jobDescriptor stored)

/-- What the running jobs can change while the configurator is between two steps: a job that has
returned changes nothing any more, and contexts are cancelled only where a job returns an error. -/
structure Drifts (s t : ConfiguratorState) : Prop where
  jobs : t.jobs = s.jobs
  heads : t.heads = s.heads
  ended : ∀ i outcome, s.outcomeOf i = some outcome → t.outcomeOf i = some outcome
  records : ∀ jobDescriptor, AllEnded s jobDescriptor →
    t.record jobDescriptor = s.record jobDescriptor
  stay : RecordsStay s t
  database : NoneRuns s → t.database = s.database
  contexts : Quiet s t → ∀ i, t.outcomeOf i = none → t.cancelledAt i = s.cancelledAt i

namespace Drifts

variable {base s t u : ConfiguratorState}

theorem refl (s : ConfiguratorState) : Drifts s s where
  jobs := rfl
  heads := rfl
  ended _ _ known := known
  records _ _ := rfl
  stay _ stored := stored
  database _ := rfl
  contexts _ _ _ := rfl

theorem runs (drifts : Drifts s t) {i : Nat} (running : t.outcomeOf i = none) :
    s.outcomeOf i = none := by
  cases returned : s.outcomeOf i with
  | none => rfl
  | some outcome => exact absurd (drifts.ended i outcome returned) (by rw [running]; simp)

theorem allEnded (drifts : Drifts s t) {jobDescriptor : JobDescriptor}
    (ended : AllEnded s jobDescriptor) : AllEnded t jobDescriptor := by
  intro i startBlock started running
  rw [drifts.heads] at started
  exact ended i startBlock started (drifts.runs running)

theorem quiet (drifts : Drifts s t) (quiet : Quiet base t) : Quiet base s :=
  fun i outcome ran returned => quiet i outcome ran (drifts.ended i outcome returned)

theorem trans (first : Drifts s t) (second : Drifts t u) : Drifts s u where
  jobs := second.jobs.trans first.jobs
  heads := second.heads.trans first.heads
  ended i outcome returned := second.ended i outcome (first.ended i outcome returned)
  records jobDescriptor ended :=
    (second.records jobDescriptor (first.allEnded ended)).trans (first.records jobDescriptor ended)
  stay := first.stay.trans second.stay
  database noneRuns := by
    have noneLater : NoneRuns t := fun i inside running =>
      noneRuns i (first.heads ▸ inside) (first.runs running)
    rw [second.database noneLater, first.database noneRuns]
  contexts still i running := by
    have stillLater : Quiet t u := fun j outcome ran returned =>
      still j outcome (first.runs ran) returned
    rw [second.contexts stillLater i running,
      first.contexts (second.quiet still) i (second.runs running)]

end Drifts

/-- A job that runs returns. -/
theorem endJob_drifts {s : ConfiguratorState} {jobContext : Nat}
    (started : jobContext < s.heads.length) (running : s.outcomeOf jobContext = none)
    (outcome : JobOutcome) : Drifts s (s.endJob jobContext outcome) where
  jobs := jobs_endJob s jobContext outcome
  heads := heads_endJob s jobContext outcome
  ended i known returned := by
    rw [outcomeOf_endJob, if_neg]
    · exact returned
    · rintro ⟨rfl, _⟩
      rw [running] at returned
      cases returned
  records jobDescriptor _ := by rw [record, database_endJob, record]
  stay jobDescriptor stored := by rwa [record, database_endJob]
  database _ := database_endJob s jobContext outcome
  contexts quiet i stillRuns := by
    have returned : (s.endJob jobContext outcome).outcomeOf jobContext = some outcome := by
      rw [outcomeOf_endJob, if_pos ⟨rfl, started⟩]
    obtain rfl := quiet jobContext outcome running returned
    apply cancelledAt_endJob_finished
    rintro rfl
    rw [returned] at stillRuns
    cases stillRuns

/-- The batch of a job's commit is a commit of that kind. -/
theorem commitsRecord_commitBatch {poseidon : PoseidonHash} {job : ZkCertificateRegistryJob}
    {database : Database} {operations : List LeafOperation} {block : UInt64} {batch : Batch}
    (built : InitializedRegistry poseidon job.registry)
    (run : Read.evalOn database (job.commitBatch poseidon operations block) = .ok batch) :
    CommitsRecord job.jobDescriptor database (Store.write database batch) := by
  obtain ⟨queued, record, committed, _, rfl⟩ := commitBatch_spec run
  exact ⟨queued, record, fun other =>
    commitOperations_frame built committed (makeJobKey_noRegistryKey _ other), rfl⟩

section Committed

variable {committing : JobDescriptor} {before after : Database}

/-- A commit of one job changes no record of another. -/
theorem CommitsRecord.lookup_other (committed : CommitsRecord committing before after)
    {jobDescriptor : JobDescriptor} (other : committing ≠ jobDescriptor) :
    after.lookup (makeJobKey jobDescriptor) = before.lookup (makeJobKey jobDescriptor) := by
  obtain ⟨queued, record, foreign, rfl⟩ := committed
  apply Store.lookup_write_of_none
  rw [lastEffect_append, foreign, lastEffect_singleton, WriteOp.key,
    if_neg (mt makeJobKey_inj.mp other)]
  rfl

theorem CommitsRecord.lookup_own (committed : CommitsRecord committing before after) :
    (after.lookup (makeJobKey committing)).isSome := by
  obtain ⟨queued, record, _, rfl⟩ := committed
  rw [lookup_write_record]
  rfl

end Committed

/-- What the running jobs do is of this kind. -/
theorem JobActs.drifts {s t : ConfiguratorState} (acts : JobActs s t) : Drifts s t := by
  cases acts with
  | @commits jobContext job database started runs committed =>
      have head : s.heads[jobContext]? = some (job.jobDescriptor, job.startBlock) := by
        rw [heads, List.getElem?_map, started]
        rfl
      have inside : jobContext < s.heads.length := (List.getElem?_eq_some_iff.mp head).1
      have running : s.outcomeOf jobContext = none := by
        rw [outcomeOf, started]
        exact runs
      have others : ∀ jobDescriptor, job.jobDescriptor ≠ jobDescriptor →
          database.lookup (makeJobKey jobDescriptor) = s.record jobDescriptor :=
        fun _ other => committed.lookup_other other
      refine ⟨rfl, rfl, fun _ _ known => known, ?_, ?_, ?_, fun _ _ _ => rfl⟩
      · intro jobDescriptor ended
        apply others
        rintro rfl
        exact ended jobContext job.startBlock head running
      · intro jobDescriptor stored
        by_cases own : job.jobDescriptor = jobDescriptor
        · exact own ▸ committed.lookup_own
        · rw [record, others jobDescriptor own]
          exact stored
      · exact fun noneRuns => absurd running (noneRuns jobContext inside)
  | @returns jobContext job started runs outcome =>
      have running : s.outcomeOf jobContext = none := by
        rw [outcomeOf, started]
        exact runs
      have inside : jobContext < s.heads.length := by
        rw [heads, List.length_map]
        exact (List.getElem?_eq_some_iff.mp started).1
      exact endJob_drifts inside running outcome

end MerkleProofService
