/-
Module: MerkleProofService.Proofs.IndexerRuns
Layer: Proofs
Purpose: What `RunIndexer` returns, and when.  It leaves a job running only if another one has
  failed, and returns nil only on shutdown or after jobs none of which has failed; once a job fails
  at the select, it returns without any help; but a failure during the start can go unnoticed.
Imports: Application.RunIndexer, Proofs.StartUp
Trusted boundary: none
Main exports: Launched, WaiterSound, StageSound, StageSound.run, runIndexer_returns, OwnStep,
  failure_ends_indexer, early_failure_unnoticed
-/
import MerkleProofService.Application.RunIndexer
import MerkleProofService.Proofs.StartUp

namespace MerkleProofService

open Library
open ConfiguratorState

/-! ### The jobs of the map -/

namespace ConfiguratorState

theorem mem_mappedJobs {s : ConfiguratorState} {jobContext : Nat} :
    jobContext ∈ s.mappedJobs ↔
      ∃ jobDescriptor, s.jobs.lookup jobDescriptor = some jobContext := by
  rw [mappedJobs, List.mem_map]
  constructor
  · rintro ⟨⟨jobDescriptor, number⟩, member, rfl⟩
    exact ⟨jobDescriptor, AList.mem_lookup_iff.mpr member⟩
  · rintro ⟨jobDescriptor, found⟩
    exact ⟨⟨jobDescriptor, jobContext⟩, AList.mem_lookup_iff.mp found, rfl⟩

/-- How the job of a descriptor has ended, if it has. -/
def outcomeOfJob (s : ConfiguratorState) (jobDescriptor : JobDescriptor) : Option JobOutcome :=
  (s.jobs.lookup jobDescriptor).bind s.outcomeOf

theorem mappedJobs_drift {s t : ConfiguratorState} (drifts : Drifts s t) :
    t.mappedJobs = s.mappedJobs := by
  rw [mappedJobs, drifts.jobs, mappedJobs]

end ConfiguratorState

/-- The map holds the jobs of the config, and every job that was started is in it. -/
structure Launched (jobs : List JobDescriptor) (s : ConfiguratorState) : Prop where
  keys : ∀ jobDescriptor, jobDescriptor ∈ s.jobs ↔ jobDescriptor ∈ jobs
  known : ∀ i ∈ s.mappedJobs, i < s.heads.length
  all : ∀ i, i < s.heads.length → i ∈ s.mappedJobs

section Launched

variable {codec : JobCodec} {database : Database} {jobs : List JobDescriptor}
variable {s t : ConfiguratorState}

theorem Launched.drift (launched : Launched jobs s) (drifts : Drifts s t) : Launched jobs t where
  keys := by
    rw [drifts.jobs]
    exact launched.keys
  known := by
    rw [mappedJobs_drift drifts, drifts.heads]
    exact launched.known
  all := by
    rw [mappedJobs_drift drifts, drifts.heads]
    exact launched.all

/-- The start has launched all jobs. -/
theorem StartedUp.launched (started : StartedUp codec database jobs s) : Launched jobs s where
  keys := started.keys
  known i mapped := by
    obtain ⟨jobDescriptor, found⟩ := mem_mappedJobs.mp mapped
    obtain ⟨startBlock, head⟩ := started.mapped jobDescriptor i found
    exact (List.getElem?_eq_some_iff.mp head).1
  all i inside := by
    -- the map holds a job of the same descriptor, and a descriptor is started once
    have active : s.heads[i].1 ∈ jobs :=
      (started.active _).mp (List.mem_map_of_mem (List.getElem_mem inside))
    obtain ⟨j, found⟩ := Option.isSome_iff_exists.mp
      (AList.lookup_isSome.mpr ((started.keys _).mpr active))
    obtain ⟨startBlock, head⟩ := started.mapped _ j found
    have sameJob : i = j := by
      refine (List.getElem?_inj (by rwa [List.length_map]) started.once).mp ?_
      rw [List.getElem?_map, List.getElem?_map, head, List.getElem?_eq_getElem inside]
      rfl
    exact mem_mappedJobs.mpr ⟨_, found.trans (congrArg some sameJob.symm)⟩

end Launched

/-! ### The waiter -/

/-- The job has returned nil or `context.Canceled`. -/
def EndedWell (s : ConfiguratorState) (jobContext : Nat) : Prop :=
  ∃ outcome, s.outcomeOf jobContext = some outcome ∧ ∀ err, outcome ≠ .failed err

/-- All jobs of the map have. -/
def AllEndedWell (s : ConfiguratorState) : Prop :=
  ∀ i ∈ s.mappedJobs, EndedWell s i

/-- A job of the map has failed, and this is the error of its group. -/
def FailsWith (s : ConfiguratorState) (err : GoError) : Prop :=
  ∃ cause, err = indexError cause ∧ ∃ i ∈ s.mappedJobs, s.outcomeOf i = some (.failed cause)

/-- What the place of the waiter says about the jobs. -/
def WaiterSound (s : ConfiguratorState) : Waiter → Prop
  | .waits left => (∀ i ∈ left, i ∈ s.mappedJobs) ∧ ∀ i ∈ s.mappedJobs, i ∉ left → EndedWell s i
  | .sends err _ => FailsWith s err
  | .closed => AllEndedWell s

section Waiting

variable {s t : ConfiguratorState} {before after : Waiter}

theorem EndedWell.drift {i : Nat} (ended : EndedWell s i) (drifts : Drifts s t) :
    EndedWell t i := by
  obtain ⟨outcome, known, well⟩ := ended
  exact ⟨outcome, drifts.ended i outcome known, well⟩

theorem AllEndedWell.drift (ended : AllEndedWell s) (drifts : Drifts s t) : AllEndedWell t := by
  intro i mapped
  rw [mappedJobs_drift drifts] at mapped
  exact (ended i mapped).drift drifts

theorem FailsWith.drift {err : GoError} (fails : FailsWith s err) (drifts : Drifts s t) :
    FailsWith t err := by
  obtain ⟨cause, wrapped, i, mapped, failed⟩ := fails
  exact ⟨cause, wrapped, i, mappedJobs_drift drifts ▸ mapped, drifts.ended i _ failed⟩

/-- A job that has failed has not ended well. -/
theorem FailsWith.not_allEndedWell {err : GoError} (fails : FailsWith s err) :
    ¬ AllEndedWell s := by
  obtain ⟨cause, _, i, mapped, failed⟩ := fails
  intro ended
  obtain ⟨outcome, known, well⟩ := ended i mapped
  exact well cause (Option.some.inj (known.symm.trans failed))

theorem WaiterSound.drift (sound : WaiterSound s before) (drifts : Drifts s t) :
    WaiterSound t before := by
  cases before with
  | waits left =>
      refine ⟨?_, fun i mapped passed => ?_⟩
      · rw [mappedJobs_drift drifts]
        exact sound.1
      · rw [mappedJobs_drift drifts] at mapped
        exact (sound.2 i mapped passed).drift drifts
  | sends err left => exact FailsWith.drift sound drifts
  | closed => exact AllEndedWell.drift sound drifts

theorem waiterSound_waits {order : List Nat} (ranged : order.Perm s.mappedJobs) :
    WaiterSound s (.waits order) :=
  ⟨fun _ member => ranged.mem_iff.mp member,
    fun _ mapped passed => absurd (ranged.mem_iff.mpr mapped) passed⟩

theorem WaiterSound.step (sound : WaiterSound s before) (moved : before.Step s after) :
    WaiterSound s after := by
  cases moved with
  | @waited i left outcome ended =>
      obtain ⟨inMap, passed⟩ := sound
      have goesOn : (∀ err, outcome ≠ .failed err) → WaiterSound s (.waits left) := by
        intro well
        refine ⟨fun j member => inMap j (List.mem_cons_of_mem i member), fun j mapped out => ?_⟩
        by_cases here : j = i
        · subst here
          exact ⟨outcome, ended, well⟩
        · exact passed j mapped (List.not_mem_cons_of_ne_of_not_mem here out)
      cases outcome with
      | finished => exact goesOn fun _ => nofun
      | canceled err => exact goesOn fun _ => nofun
      | failed err => exact ⟨err, rfl, i, inMap i List.mem_cons_self, ended⟩
  | closes => exact fun i mapped => sound.2 i mapped List.not_mem_nil

end Waiting

/-! ### Every stage -/

/-- What `RunIndexer` knows when it goes on to its report. -/
def Concluded (s : IndexerRun) : Option GoError → Prop
  | none => AllEndedWell s.shared ∨ s.shutdown = true ∧ ∃ err, FailsWith s.shared err
  | some err => FailsWith s.shared err

/-- The invariant, by the stage of `RunIndexer`. -/
def StageSound (codec : JobCodec) (jobs : List JobDescriptor) (database : Database)
    (s : IndexerRun) : IndexerStage → Prop
  | .starts program =>
      Steady (fun _ _ => True) (fun now _ => StartedUp codec database jobs now) (fun _ => True)
        program s.shared
  | .notStarted _ => True
  | .selects waiter => Launched jobs s.shared ∧ WaiterSound s.shared waiter
  | .drains waiter => Launched jobs s.shared ∧ s.shutdown = true ∧ WaiterSound s.shared waiter
  | .reports jobErr => Launched jobs s.shared ∧ Concluded s jobErr
  | .returned outcome => Launched jobs s.shared ∧
      ∃ jobErr read, Concluded s jobErr ∧ outcome = reportOutcome jobErr read

section Stages

variable {codec : JobCodec} {jobs : List JobDescriptor} {database : Database}
variable {s t : IndexerRun} {stage : IndexerStage}

theorem Concluded.later {jobErr : Option GoError} (concluded : Concluded s jobErr)
    (drifts : Drifts s.shared t.shared) (stays : s.shutdown = true → t.shutdown = true) :
    Concluded t jobErr := by
  cases jobErr with
  | none =>
      rcases concluded with ended | ⟨done, err, fails⟩
      · exact Or.inl (ended.drift drifts)
      · exact Or.inr ⟨stays done, err, fails.drift drifts⟩
  | some err => exact FailsWith.drift concluded drifts

/-- What the jobs and the caller do leaves the invariant. -/
theorem StageSound.later (sound : StageSound codec jobs database s stage)
    (drifts : Drifts s.shared t.shared) (stays : s.shutdown = true → t.shutdown = true) :
    StageSound codec jobs database t stage := by
  cases stage with
  | starts program => exact Steady.drift sound drifts
  | notStarted err => exact trivial
  | selects waiter => exact ⟨sound.1.drift drifts, sound.2.drift drifts⟩
  | drains waiter => exact ⟨sound.1.drift drifts, stays sound.2.1, sound.2.2.drift drifts⟩
  | reports jobErr => exact ⟨sound.1.drift drifts, sound.2.later drifts stays⟩
  | returned outcome =>
      obtain ⟨launched, jobErr, read, concluded, same⟩ := sound
      exact ⟨launched.drift drifts, jobErr, read, concluded.later drifts stays, same⟩

theorem StageSound.step (sound : StageSound codec jobs database s s.stage)
    (step : IndexerRunStep codec s t) : StageSound codec jobs database t t.stage := by
  cases step with
  | serve choice stands =>
      rw [stands] at sound
      exact (sound s.shared (Drifts.refl _) ⟨choice, trivial⟩).2
  | notStarted stands => exact trivial
  | started order stands ranged =>
      rw [stands] at sound
      exact ⟨sound.of_done.launched, waiterSound_waits ranged⟩
  | waiter stands moved =>
      rw [stands] at sound
      exact ⟨sound.1, sound.2.step moved⟩
  | @received waiter jobErr stands value =>
      rw [stands] at sound
      refine ⟨sound.1, ?_⟩
      cases waiter with
      | waits left => cases value
      | sends err left =>
          obtain rfl := Option.some.inj value
          exact sound.2
      | closed =>
          obtain rfl := Option.some.inj value
          exact Or.inl sound.2
  | shutsDown order stands done ranged =>
      rw [stands] at sound
      exact ⟨sound.1, done, waiterSound_waits ranged⟩
  | drainer stands moved =>
      rw [stands] at sound
      exact ⟨sound.1, sound.2.1, sound.2.2.step moved⟩
  | @drained waiter jobErr stands value =>
      rw [stands] at sound
      obtain ⟨launched, done, waiting⟩ := sound
      refine ⟨launched, ?_⟩
      cases waiter with
      | waits left => cases value
      | sends err left => exact Or.inr ⟨done, err, waiting⟩
      | closed => exact Or.inl waiting
  | reported choices stands =>
      rw [stands] at sound
      exact ⟨sound.1, _, _, sound.2, rfl⟩
  | job acts => exact sound.later acts.drifts id
  | callerCancels => exact sound.later (Drifts.refl _) fun _ => rfl

/-- The invariant holds in every run. -/
theorem StageSound.run (roundTrips : codec.RoundTrips) (stored : StoredJobs codec database)
    (run : Relation.ReflTransGen (IndexerRunStep codec) (.start codec jobs database) s) :
    StageSound codec jobs database s s.stage := by
  induction run with
  | refl =>
      obtain ⟨found, all, _⟩ := stored.allStored_inOrder roundTrips
      exact (steady_startUp all).weaken (fun _ _ holds => holds) fun _ _ => trivial
  | tail _ last ih => exact ih.step last

end Stages

/-! ### A small start -/

/-- The start, served query by query. -/
theorem starts_run (codec : JobCodec) {shared shared' : ConfiguratorState}
    {program left : ConfiguratorProgram Unit}
    (run : Relation.ReflTransGen (Program.ServedStep configuratorEnvironment JobActs)
      (shared, program) (shared', left)) :
    Relation.ReflTransGen (IndexerRunStep codec) ⟨shared, false, .starts program⟩
      ⟨shared', false, .starts left⟩ := by
  refine Relation.ReflTransGen.lift (fun place : ConfiguratorState × ConfiguratorProgram Unit =>
    (⟨place.1, false, .starts place.2⟩ : IndexerRun)) ?_ _ _ run
  rintro _ _ (choice | moved)
  · exact .serve choice rfl
  · exact .job moved

/-- The state after the start of two jobs, one of which is resumed. -/
def startedJobs : ConfiguratorState :=
  (Program.serve configuratorEnvironment (fun _ query => smoothChoice query)
    (initialState storedDatabase) (startUp fixedCodec [jobNumbered 1, jobNumbered 2])).2

/-- `RunIndexer` at its select. -/
def startedIndexer : IndexerRun := ⟨startedJobs, false, .selects (.waits [0, 1])⟩

theorem startedIndexer_reached : Relation.ReflTransGen (IndexerRunStep fixedCodec)
    (.start fixedCodec [jobNumbered 1, jobNumbered 2] storedDatabase) startedIndexer := by
  have run := Program.serve_run configuratorEnvironment (fun _ query => smoothChoice query)
    JobActs (initialState storedDatabase) (startUp fixedCodec [jobNumbered 1, jobNumbered 2])
  have ends : (Program.serve configuratorEnvironment (fun _ query => smoothChoice query)
      (initialState storedDatabase) (startUp fixedCodec [jobNumbered 1, jobNumbered 2])).1 =
      .ok () := by decide +kernel
  rw [ends] at run
  exact (starts_run fixedCodec run).tail (.started [0, 1] rfl (by decide +kernel))

theorem startedIndexer_first :
    startedIndexer.shared.instances[0]? = some ⟨jobNumbered 1, 7, false, none⟩ := by
  decide +kernel

/-! ### What is returned -/

/-- The job of a descriptor has returned nil or `context.Canceled`. -/
def JobEndedWell (s : ConfiguratorState) (jobDescriptor : JobDescriptor) : Prop :=
  ∃ outcome, s.outcomeOfJob jobDescriptor = some outcome ∧ ∀ err, outcome ≠ .failed err

section Returned

variable {codec : JobCodec} {jobs : List JobDescriptor} {s : ConfiguratorState}

theorem Launched.lookup (launched : Launched jobs s) {jobDescriptor : JobDescriptor}
    (active : jobDescriptor ∈ jobs) :
    ∃ i ∈ s.mappedJobs, s.jobs.lookup jobDescriptor = some i := by
  obtain ⟨i, found⟩ := Option.isSome_iff_exists.mp
    (AList.lookup_isSome.mpr ((launched.keys jobDescriptor).mpr active))
  exact ⟨i, mem_mappedJobs.mpr ⟨jobDescriptor, found⟩, found⟩

theorem Launched.endedWell (launched : Launched jobs s) (ended : AllEndedWell s) :
    ∀ jobDescriptor ∈ jobs, JobEndedWell s jobDescriptor := by
  intro jobDescriptor active
  obtain ⟨i, mapped, found⟩ := launched.lookup active
  obtain ⟨outcome, known, well⟩ := ended i mapped
  refine ⟨outcome, ?_, well⟩
  rw [outcomeOfJob, found]
  exact known

theorem Launched.failsWith (launched : Launched jobs s) {err : GoError}
    (fails : FailsWith s err) :
    ∃ cause, err = indexError cause ∧
      ∃ jobDescriptor ∈ jobs, s.outcomeOfJob jobDescriptor = some (.failed cause) := by
  obtain ⟨cause, wrapped, i, mapped, failed⟩ := fails
  obtain ⟨jobDescriptor, found⟩ := mem_mappedJobs.mp mapped
  have inMap : jobDescriptor ∈ s.jobs :=
    AList.lookup_isSome.mp (Option.isSome_iff_exists.mpr ⟨i, found⟩)
  refine ⟨cause, wrapped, jobDescriptor, (launched.keys jobDescriptor).mp inMap, ?_⟩
  rw [outcomeOfJob, found]
  exact failed

end Returned

/-- When `RunIndexer` returns after its start: a job still runs only if another one has failed; nil
is returned only on shutdown, or after jobs that all ended, none of them with a failure; and an
error is that of the group of a job that failed, or the stored jobs could not be read for the
report. -/
theorem runIndexer_returns {codec : JobCodec} (roundTrips : codec.RoundTrips)
    {database : Database} (stored : StoredJobs codec database) {jobs : List JobDescriptor}
    {s : IndexerRun} {outcome : Except GoError Unit}
    (run : Relation.ReflTransGen (IndexerRunStep codec) (.start codec jobs database) s)
    (returned : s.stage = .returned outcome) :
    ((∀ jobDescriptor ∈ jobs, JobEndedWell s.shared jobDescriptor) ∨
      ∃ err, ∃ jobDescriptor ∈ jobs, s.shared.outcomeOfJob jobDescriptor = some (.failed err)) ∧
    (outcome = .ok () → (∀ jobDescriptor ∈ jobs, JobEndedWell s.shared jobDescriptor) ∨
      s.shutdown = true) ∧
    ∀ err, outcome = .error err →
      (∃ cause, err = indexError cause ∧ ∃ jobDescriptor ∈ jobs,
        s.shared.outcomeOfJob jobDescriptor = some (.failed cause)) ∨
        ∃ cause, err = .wrapf "select all jobs" cause := by
  have sound := StageSound.run roundTrips stored run
  rw [returned] at sound
  obtain ⟨launched, jobErr, read, concluded, rfl⟩ := sound
  cases jobErr with
  | none =>
      have noJobErr : ∀ err, reportOutcome none read = .error err →
          ∃ cause, err = .wrapf "select all jobs" cause := by
        intro err same
        cases read with
        | ok found => cases same
        | error cause => exact ⟨cause, (Except.error.inj same).symm⟩
      refine ⟨?_, fun _ => ?_, fun err same => Or.inr (noJobErr err same)⟩
      · rcases concluded with ended | ⟨_, err, fails⟩
        · exact Or.inl (launched.endedWell ended)
        · obtain ⟨cause, _, failed⟩ := launched.failsWith fails
          exact Or.inr ⟨cause, failed⟩
      · rcases concluded with ended | ⟨done, _⟩
        · exact Or.inl (launched.endedWell ended)
        · exact Or.inr done
  | some err =>
      obtain ⟨cause, _, failed⟩ := launched.failsWith concluded
      refine ⟨Or.inr ⟨cause, failed⟩, fun same => ?_, fun returned same => ?_⟩
      · cases read <;> cases same
      · cases read with
        | ok found =>
            obtain rfl := Except.error.inj same
            exact Or.inl (launched.failsWith concluded)
        | error cause => exact Or.inr ⟨cause, (Except.error.inj same).symm⟩

/-- The first of two jobs fails, and the error of its group is returned while the second job still
runs. -/
theorem runIndexer_returns_started :
    ∃ s, Relation.ReflTransGen (IndexerRunStep fixedCodec)
        (.start fixedCodec [jobNumbered 1, jobNumbered 2] storedDatabase) s ∧
      s.stage = .returned (.error (.wrapf "index EVM logs" (.message "no answer"))) ∧
      s.shared.outcomeOfJob (jobNumbered 2) = none ∧
      ((∃ cause, GoError.wrapf "index EVM logs" (.message "no answer") = indexError cause ∧
          ∃ jobDescriptor ∈ [jobNumbered 1, jobNumbered 2],
            s.shared.outcomeOfJob jobDescriptor = some (.failed cause)) ∨
        ∃ cause, GoError.wrapf "index EVM logs" (.message "no answer") =
          .wrapf "select all jobs" cause) := by
  let err : GoError := .message "no answer"
  let failed : ConfiguratorState := startedJobs.endJob 0 (.failed err)
  have run : Relation.ReflTransGen (IndexerRunStep fixedCodec)
      (.start fixedCodec [jobNumbered 1, jobNumbered 2] storedDatabase)
      ⟨failed, false, .returned (.error (indexError err))⟩ := by
    have ended : failed.outcomeOf 0 = some (.failed err) := by decide +kernel
    have waited : Waiter.Step failed (.waits [0, 1]) (.sends (indexError err) [1]) :=
      .waited ended
    refine startedIndexer_reached.trans (.head (.job (.returns startedIndexer_first rfl
      (.failed err))) (.head (.waiter rfl waited) (.head (.received rfl rfl) ?_)))
    have reads : reportOutcome (some (indexError err)) (Program.serve configuratorEnvironment
        (fun _ query => smoothChoice query) failed (selectAllJobs fixedCodec)).1 =
        .error (indexError err) := by decide +kernel
    exact reads ▸ .single (.reported (fun _ query => smoothChoice query) rfl)
  exact ⟨_, run, rfl, by decide +kernel, (runIndexer_returns fixedCodec_roundTrips
    storedJobs_storedDatabase run rfl).2.2 (indexError err) rfl⟩

/-! ### Contexts that are done -/

section Contexts

variable {s : ConfiguratorState} {i j : Nat}

theorem cancelledAt_cancel_self (inside : i < s.heads.length) :
    (s.cancel i).cancelledAt i = some true := by
  rw [heads, List.length_map] at inside
  simp [cancelledAt, cancel, List.getElem?_eq_getElem inside]

/-- A context that is cancelled stays so. -/
theorem cancelledAt_cancel_of_cancelled (cancelled : s.cancelledAt i = some true) :
    (s.cancel j).cancelledAt i = some true := by
  by_cases same : j = i
  · subst same
    refine cancelledAt_cancel_self ?_
    obtain ⟨job, found, _⟩ := Option.map_eq_some_iff.mp cancelled
    rw [heads, List.length_map]
    exact (List.getElem?_eq_some_iff.mp found).1
  · rwa [cancelledAt_cancel_of_ne s j same]

theorem cancelledAt_cancels {entries : List (Sigma fun _ : JobDescriptor => Nat)}
    (cancelled : s.cancelledAt i = some true) :
    (entries.foldl (fun s entry => s.cancel entry.2) s).cancelledAt i = some true := by
  induction entries generalizing s with
  | nil => exact cancelled
  | cons entry entries ih => exact ih (cancelledAt_cancel_of_cancelled cancelled)

/-- `CancelAll` cancels the jobs of the map. -/
theorem cancelledAt_cancelAll (mapped : i ∈ s.mappedJobs) (inside : i < s.heads.length) :
    s.cancelAll.cancelledAt i = some true := by
  unfold cancelAll
  rw [mappedJobs] at mapped
  generalize s.jobs.entries = entries at mapped
  induction entries generalizing s with
  | nil => cases mapped
  | cons entry entries ih =>
      rw [List.map_cons, List.mem_cons] at mapped
      rw [List.foldl_cons]
      rcases mapped with rfl | later
      · exact cancelledAt_cancels (cancelledAt_cancel_self inside)
      · exact ih (by rwa [heads_cancel]) later

theorem cancelledAt_endJob_of_cancelled {outcome : JobOutcome}
    (cancelled : (afterCancelling s outcome).cancelledAt i = some true) :
    (s.endJob j outcome).cancelledAt i = some true := by
  obtain ⟨job, found, isDone⟩ := Option.map_eq_some_iff.mp cancelled
  rw [endJob_eq]
  simp only [cancelledAt, List.getElem?_modify, found]
  by_cases same : j = i <;> simp [same, isDone]

/-- A job that returns an error leaves every job of the map with a context that is done. -/
theorem cancelledAt_endJob {outcome : JobOutcome} (erred : outcome ≠ .finished)
    (mapped : i ∈ s.mappedJobs) (inside : i < s.heads.length) :
    (s.endJob j outcome).cancelledAt i = some true := by
  apply cancelledAt_endJob_of_cancelled
  cases outcome with
  | finished => exact absurd rfl erred
  | canceled err => exact cancelledAt_cancelAll mapped inside
  | failed err => exact cancelledAt_cancelAll mapped inside

end Contexts

/-! ### A failure at the select -/

/-- A step that needs nothing from outside: the caller does not act, no job commits, and a job
returns only once its context is done. -/
structure OwnStep (codec : JobCodec) (s t : IndexerRun) : Prop where
  step : IndexerRunStep codec s t
  calm : t.shutdown = s.shutdown
  jobs : t.shared = s.shared ∨ ∃ i outcome, s.contextDone i = true ∧
    t.shared = s.shared.endJob i outcome

section Own

variable {codec : JobCodec} {jobs : List JobDescriptor} {s t : IndexerRun}

/-- A step of `RunIndexer` or of its waiter. -/
theorem OwnStep.ofStage {stage : IndexerStage}
    (step : IndexerRunStep codec s { s with stage := stage }) :
    OwnStep codec s { s with stage := stage } :=
  ⟨step, rfl, Or.inl rfl⟩

theorem contextDone_of_cancelled {i : Nat} (cancelled : s.shared.cancelledAt i = some true) :
    s.contextDone i = true := by
  rw [cancelledAt] at cancelled
  rw [IndexerRun.contextDone, cancelled]
  exact Bool.or_true _

/-- A job whose context is done returns, unless it has. -/
theorem own_job_ends {i : Nat} (inside : i < s.shared.heads.length)
    (cancelled : s.shared.cancelledAt i = some true) :
    ∃ shared outcome, Relation.ReflTransGen (OwnStep codec) s { s with shared := shared } ∧
      Drifts s.shared shared ∧ shared.outcomeOf i = some outcome ∧
      ∀ j, s.shared.cancelledAt j = some true → shared.cancelledAt j = some true := by
  cases known : s.shared.outcomeOf i with
  | some outcome => exact ⟨s.shared, outcome, .refl, Drifts.refl _, known, fun _ stays => stays⟩
  | none =>
      obtain ⟨job, started, _⟩ := Option.map_eq_some_iff.mp cancelled
      have runs : job.outcome = none := by
        rwa [outcomeOf, started] at known
      let outcome : JobOutcome := .canceled (.message "context canceled")
      refine ⟨s.shared.endJob i outcome, outcome, .single ⟨.job (.returns started runs _), rfl,
        Or.inr ⟨i, outcome, contextDone_of_cancelled cancelled, rfl⟩⟩,
        endJob_drifts inside known _, ?_, fun j stays => ?_⟩
      · rw [outcomeOf_endJob, if_pos ⟨rfl, inside⟩]
      · exact cancelledAt_endJob_of_cancelled (cancelledAt_cancels stays)

/-- A waiter whose jobs are all cancelled comes to a value to receive. -/
theorem own_wait_ends {left : List Nat} (stands : s.stage = .selects (.waits left))
    (inside : ∀ i ∈ left, i < s.shared.heads.length)
    (cancelled : ∀ i ∈ left, s.shared.cancelledAt i = some true) :
    ∃ t waiter jobErr, Relation.ReflTransGen (OwnStep codec) s t ∧ Drifts s.shared t.shared ∧
      t.stage = .selects waiter ∧ waiter.received = some jobErr := by
  induction left generalizing s with
  | nil =>
      exact ⟨_, .closed, none, .single (.ofStage (.waiter stands .closes)), Drifts.refl _, rfl, rfl⟩
  | cons i left ih =>
      obtain ⟨shared, outcome, ends, drifts, ended, stays⟩ := own_job_ends
        (inside i List.mem_cons_self) (cancelled i List.mem_cons_self)
      have waited : OwnStep codec { s with shared := shared }
          { s with shared := shared, stage := .selects (.afterWait left outcome) } :=
        .ofStage (.waiter stands (.waited ended))
      have goesOn : Waiter.afterWait left outcome = .waits left →
          ∃ t waiter jobErr, Relation.ReflTransGen (OwnStep codec) s t ∧
            Drifts s.shared t.shared ∧ t.stage = .selects waiter ∧
            waiter.received = some jobErr := by
        intro same
        obtain ⟨t, waiter, jobErr, rest, later, reached, value⟩ := ih
          (s := { s with shared := shared, stage := .selects (.afterWait left outcome) })
          (congrArg IndexerStage.selects same)
          (fun j member => drifts.heads ▸ inside j (List.mem_cons_of_mem i member))
          fun j member => stays j (cancelled j (List.mem_cons_of_mem i member))
        exact ⟨t, waiter, jobErr, (ends.tail waited).trans rest, drifts.trans later, reached, value⟩
      cases outcome with
      | finished => exact goesOn rfl
      | canceled err => exact goesOn rfl
      | failed err =>
          exact ⟨_, .sends (indexError err) left, some (indexError err), ends.tail waited, drifts,
            rfl, rfl⟩

/-- With all jobs of the map cancelled, the waiter comes to a value to receive, wherever it is. -/
theorem own_select_ends (codec : JobCodec) {waiter : Waiter} (launched : Launched jobs s.shared)
    (stands : s.stage = .selects waiter) (sound : WaiterSound s.shared waiter)
    (cancelled : ∀ i ∈ s.shared.mappedJobs, s.shared.cancelledAt i = some true) :
    ∃ t waiter jobErr, Relation.ReflTransGen (OwnStep codec) s t ∧ Drifts s.shared t.shared ∧
      t.stage = .selects waiter ∧ waiter.received = some jobErr := by
  cases waiter with
  | waits left =>
      exact own_wait_ends stands (fun i member => launched.known i (sound.1 i member))
        fun i member => cancelled i (sound.1 i member)
  | sends err left => exact ⟨s, _, some err, .refl, Drifts.refl _, stands, rfl⟩
  | closed => exact ⟨s, _, none, .refl, Drifts.refl _, stands, rfl⟩

/-- No query of the report is refused. -/
theorem own_report (codec : JobCodec) (s : IndexerRun) {jobErr : Option GoError}
    (stands : s.stage = .reports jobErr) :
    ∃ read, OwnStep codec s { s with stage := .returned (reportOutcome jobErr read) } :=
  ⟨_, .ofStage (.reported (fun _ query => smoothChoice query) stands)⟩

theorem ownStep_run (own : Relation.ReflTransGen (OwnStep codec) s t) :
    Relation.ReflTransGen (IndexerRunStep codec) s t :=
  Relation.ReflTransGen.mono (fun _ _ => OwnStep.step) _ _ own

/-- With a failure and all jobs of the map cancelled, `RunIndexer` returns an error by itself. -/
theorem own_returns {database : Database} {waiter : Waiter} {err : GoError}
    (roundTrips : codec.RoundTrips) (stored : StoredJobs codec database)
    (run : Relation.ReflTransGen (IndexerRunStep codec) (.start codec jobs database) s)
    (stands : s.stage = .selects waiter) (fails : FailsWith s.shared err)
    (cancelled : ∀ i ∈ s.shared.mappedJobs, s.shared.cancelledAt i = some true) :
    ∃ t cause, Relation.ReflTransGen (OwnStep codec) s t ∧
      t.stage = .returned (.error cause) := by
  have sound := StageSound.run roundTrips stored run
  rw [stands] at sound
  obtain ⟨t, last, jobErr, own, drifts, reached, value⟩ :=
    own_select_ends codec sound.1 stands sound.2 cancelled
  have receives : OwnStep codec t { t with stage := .reports jobErr } :=
    .ofStage (.received reached value)
  obtain ⟨read, returns⟩ := own_report codec { t with stage := .reports jobErr } rfl
  have there := StageSound.run roundTrips stored (run.trans (ownStep_run own))
  rw [reached] at there
  cases last with
  | waits left => cases value
  | closed => exact absurd there.2 (fails.drift drifts).not_allEndedWell
  | sends cause left =>
      obtain rfl := Option.some.inj value
      cases read with
      | ok found => exact ⟨_, cause, (own.tail receives).tail returns, rfl⟩
      | error other => exact ⟨_, _, (own.tail receives).tail returns, rfl⟩

end Own

/-- Once a job fails while `RunIndexer` is at its select, the jobs of the config are all in the map
with contexts that are cancelled, and `RunIndexer` can return by itself, with an error. -/
theorem failure_ends_indexer {codec : JobCodec} (roundTrips : codec.RoundTrips)
    {database : Database} (stored : StoredJobs codec database) {jobs : List JobDescriptor}
    {s : IndexerRun} {waiter : Waiter} {i : Nat} {job : JobInstance}
    (run : Relation.ReflTransGen (IndexerRunStep codec) (.start codec jobs database) s)
    (stands : s.stage = .selects waiter) (started : s.shared.instances[i]? = some job)
    (runs : job.outcome = none) (err : GoError) :
    (∀ jobDescriptor ∈ jobs, ∃ j,
      (s.shared.endJob i (.failed err)).jobs.lookup jobDescriptor = some j ∧
      (s.shared.endJob i (.failed err)).cancelledAt j = some true) ∧
    ∃ t cause, Relation.ReflTransGen (OwnStep codec)
        { s with shared := s.shared.endJob i (.failed err) } t ∧
      t.stage = .returned (.error cause) := by
  have reached := run.tail (.job (.returns started runs (.failed err)))
  have inside : i < s.shared.heads.length := by
    rw [heads, List.length_map]
    exact (List.getElem?_eq_some_iff.mp started).1
  have launched : Launched jobs (s.shared.endJob i (.failed err)) := by
    have before := StageSound.run roundTrips stored run
    rw [stands] at before
    exact before.1.drift (endJob_drifts inside (by rwa [outcomeOf, started]) _)
  have fails : FailsWith (s.shared.endJob i (.failed err)) (indexError err) := by
    refine ⟨err, rfl, i, launched.all i (by rwa [heads_endJob]), ?_⟩
    rw [outcomeOf_endJob, if_pos ⟨rfl, inside⟩]
  have cancelled : ∀ j ∈ (s.shared.endJob i (.failed err)).mappedJobs,
      (s.shared.endJob i (.failed err)).cancelledAt j = some true := by
    intro j mapped
    have known := launched.known j mapped
    rw [heads_endJob] at known
    rw [mappedJobs, jobs_endJob] at mapped
    exact cancelledAt_endJob (by simp) mapped known
  refine ⟨fun jobDescriptor active => ?_,
    own_returns roundTrips stored reached stands fails cancelled⟩
  obtain ⟨j, mapped, found⟩ := launched.lookup active
  exact ⟨j, found, cancelled j mapped⟩

theorem failure_ends_indexer_started :
    (∀ jobDescriptor ∈ [jobNumbered 1, jobNumbered 2], ∃ j,
      (startedJobs.endJob 0 (.failed (.message "no answer"))).jobs.lookup jobDescriptor = some j ∧
      (startedJobs.endJob 0 (.failed (.message "no answer"))).cancelledAt j = some true) ∧
    ∃ t cause, Relation.ReflTransGen (OwnStep fixedCodec)
        { startedIndexer with shared := startedJobs.endJob 0 (.failed (.message "no answer")) } t ∧
      t.stage = .returned (.error cause) :=
  failure_ends_indexer fixedCodec_roundTrips storedJobs_storedDatabase startedIndexer_reached rfl
    startedIndexer_first rfl (.message "no answer")

/-! ### A failure during the start -/

section Unnoticed

variable {codec : JobCodec} {s t : IndexerRun} {i : Nat} {left : List Nat}

/-- `RunIndexer` is past its start. -/
def PastStart (s : IndexerRun) : Prop :=
  ∀ program, s.stage ≠ .starts program

/-- Where a waiter stands before a job, or the job has returned or the caller has cancelled. -/
def HeldBy (i : Nat) (left : List Nat) (s : IndexerRun) : Prop :=
  PastStart s ∧ (s.stage = .selects (.waits (i :: left)) ∨ s.shared.outcomeOf i ≠ none ∨
    s.shutdown = true)

theorem HeldBy.step (held : HeldBy i left s) (step : IndexerRunStep codec s t) :
    HeldBy i left t := by
  obtain ⟨past, place⟩ := held
  have returned : ∀ {shared}, Drifts s.shared shared → s.shared.outcomeOf i ≠ none →
      shared.outcomeOf i ≠ none := fun drifts ended runs => ended (drifts.runs runs)
  cases step with
  | serve choice stands => exact absurd stands (past _)
  | notStarted stands => exact absurd stands (past _)
  | started order stands ranged => exact absurd stands (past _)
  | @waiter before after stands moved =>
      refine ⟨fun _ => nofun, Or.inr ?_⟩
      rcases place with waits | later
      · rw [waits] at stands
        obtain rfl := IndexerStage.selects.inj stands
        cases moved with
        | waited ended => exact Or.inl fun runs => by rw [runs] at ended; cases ended
      · exact later
  | @received waiter jobErr stands value =>
      refine ⟨fun _ => nofun, Or.inr ?_⟩
      rcases place with waits | later
      · rw [waits] at stands
        obtain rfl := IndexerStage.selects.inj stands
        cases value
      · exact later
  | shutsDown order stands done ranged => exact ⟨fun _ => nofun, Or.inr (Or.inr done)⟩
  | drainer stands moved =>
      refine ⟨fun _ => nofun, Or.inr (place.resolve_left fun waits => ?_)⟩
      rw [waits] at stands
      cases stands
  | drained stands value =>
      refine ⟨fun _ => nofun, Or.inr (place.resolve_left fun waits => ?_)⟩
      rw [waits] at stands
      cases stands
  | reported choices stands =>
      refine ⟨fun _ => nofun, Or.inr (place.resolve_left fun waits => ?_)⟩
      rw [waits] at stands
      cases stands
  | job acts =>
      refine ⟨past, place.imp id (Or.imp (returned acts.drifts) id)⟩
  | callerCancels => exact ⟨past, Or.inr (Or.inr rfl)⟩

/-- While a waiter waits for a job that runs, whatever the others do, `RunIndexer` stays at its
select. -/
theorem selects_while_running (stands : s.stage = .selects (.waits (i :: left)))
    (run : Relation.ReflTransGen (IndexerRunStep codec) s t) (alive : t.shutdown = false)
    (runs : t.shared.outcomeOf i = none) : t.stage = .selects (.waits (i :: left)) := by
  have start : HeldBy i left s := by
    refine ⟨fun _ same => ?_, Or.inl stands⟩
    rw [stands] at same
    cases same
  have held : HeldBy i left t := by
    clear alive runs
    induction run with
    | refl => exact start
    | tail _ last ih => exact ih.step last
  rcases held.2 with waits | ended | done
  · exact waits
  · exact absurd runs ended
  · rw [alive] at done
    cases done

/-- A job that is missing is launched. -/
theorem startMissing_run (shared : ConfiguratorState) {job : JobDescriptor}
    (missing : shared.jobs.lookup job = none) (config : List JobDescriptor) :
    Relation.ReflTransGen (Program.ServedStep configuratorEnvironment JobActs)
      (shared, startMissing (job :: config))
      (shared.launch job job.startBlock, startMissing config) := by
  have answer : configuratorEnvironment.answer shared (.hasJob job) (smoothChoice (.hasJob job)) =
      false := by
    change (shared.jobs.lookup job).isSome = false
    rw [missing]
    rfl
  refine .head (.serve (smoothChoice _)) ?_
  rw [answer]
  refine .head (.serve (smoothChoice _)) (.head (.serve (smoothChoice _)) ?_)
  exact .single (.serve (smoothChoice _))

/-- The rest of `ReloadConfig`, when all jobs of the map are in the config. -/
theorem stopNone_run (shared : ConfiguratorState) {config : List JobDescriptor}
    (configured : ∀ job ∈ shared.jobs.keys, job ∈ config) :
    Relation.ReflTransGen (Program.ServedStep configuratorEnvironment JobActs)
      (shared, ConfiguratorProgram.rangeJobs.bind fun jobs =>
        (stopOthers config jobs []).bind fun batch =>
          ConfiguratorProgram.wrapf "write batch to storage" (.writeSync batch))
      (shared, .done ()) := by
  refine .head (.serve (smoothChoice _)) ?_
  change Relation.ReflTransGen _ (shared, (stopOthers config
    (inChosenOrder shared.jobs.keys []) []).bind fun batch =>
      ConfiguratorProgram.wrapf "write batch to storage" (.writeSync batch)) _
  have still : ∀ job ∈ inChosenOrder shared.jobs.keys [], job ∈ config := fun job member =>
    configured job ((inChosenOrder_perm _ _).mem_iff.mp member)
  rw [stopOthers_of_configured still]
  exact .single (.serve (smoothChoice _))

end Unnoticed

/-- Two jobs are started on an empty database, and the first fails before the second is launched. -/
def earlyFailure (first second : JobDescriptor) (err : GoError) : ConfiguratorState :=
  (((initialState ∅).launch first first.startBlock).endJob 0 (.failed err)).launch second
    second.startBlock

theorem earlyFailure_run (codec : JobCodec) {first second : JobDescriptor}
    (different : first ≠ second) (err : GoError) :
    Relation.ReflTransGen (Program.ServedStep configuratorEnvironment JobActs)
      (initialState ∅, startUp codec [first, second])
      (earlyFailure first second err, .done ()) := by
  have missing : (((initialState ∅).launch first first.startBlock).endJob 0
      (.failed err)).jobs.lookup second = none := by
    rw [jobs_endJob, lookup_launch_other _ _ _ different.symm]
    rfl
  have starts : Relation.ReflTransGen (Program.ServedStep configuratorEnvironment JobActs)
      (initialState ∅, startMissing [first, second]) (earlyFailure first second err, .done ()) :=
    ((startMissing_run (initialState ∅) rfl [second]).tail
      (.others (.returns rfl rfl (.failed err)))).trans (startMissing_run _ missing [])
  have configured : ∀ job ∈ (earlyFailure first second err).jobs.keys,
      job ∈ [first, second] := by
    intro job member
    have inMap := AList.mem_keys.mpr member
    simp only [earlyFailure, launch, jobs_endJob, AList.mem_insert] at inMap
    rcases inMap with rfl | rfl | none
    · exact List.mem_cons_of_mem _ List.mem_cons_self
    · exact List.mem_cons_self
    · exact absurd none (AList.notMem_empty job)
  have reloads : Relation.ReflTransGen (Program.ServedStep configuratorEnvironment JobActs)
      (initialState ∅, reloadConfig [first, second])
      (earlyFailure first second err, .done ()) := by
    refine .trans (Program.served_bind _ starts) ?_
    exact stopNone_run _ configured
  -- no job is stored
  exact .head (.serve (smoothChoice _)) (Program.served_mapFail _ reloads)

/-- A job that fails while the start goes on cancels only what is launched by then: `RunIndexer` may
then wait for another job, whose context is live, and as long as that job runs and nobody shuts the
indexer down, the failure is not noticed. -/
theorem early_failure_unnoticed (codec : JobCodec) {first second : JobDescriptor}
    (different : first ≠ second) (err : GoError) :
    ∃ s i left, Relation.ReflTransGen (IndexerRunStep codec) (.start codec [first, second] ∅) s ∧
      s.stage = .selects (.waits (i :: left)) ∧ s.shared.outcomeOfJob first = some (.failed err) ∧
      s.shared.jobs.lookup second = some i ∧ s.contextDone i = false ∧
      ∀ t, Relation.ReflTransGen (IndexerRunStep codec) s t → t.shutdown = false →
        t.shared.outcomeOf i = none → t.stage = s.stage := by
  have ranged : [1, 0].Perm (earlyFailure first second err).mappedJobs := by
    have fresh : second ∉ (∅ : AList fun _ : JobDescriptor => Nat).insert first 0 := by
      rw [AList.mem_insert, not_or]
      exact ⟨different.symm, AList.notMem_empty second⟩
    have entries : (earlyFailure first second err).jobs.entries = [⟨second, 1⟩, ⟨first, 0⟩] := by
      change ((((initialState ∅).launch first first.startBlock).endJob 0 (.failed err)).jobs.insert
        second _).entries = _
      rw [jobs_endJob]
      exact AList.entries_insert_of_notMem fresh
    rw [mappedJobs, entries]
    exact .refl _
  refine ⟨⟨earlyFailure first second err, false, .selects (.waits [1, 0])⟩, 1, [0],
    (starts_run codec (earlyFailure_run codec different err)).tail (.started [1, 0] rfl ranged),
    rfl, ?_, ?_, ?_, fun t run alive runs => selects_while_running rfl run alive runs⟩
  · rw [outcomeOfJob, earlyFailure, lookup_launch_other _ _ _ different, jobs_endJob,
      lookup_launch_own]
    change ((((initialState ∅).launch first first.startBlock).endJob 0 (.failed err)).launch second
      second.startBlock).outcomeOf 0 = _
    rw [outcomeOf_launch, outcomeOf_endJob]
    rfl
  · exact lookup_launch_own _ second second.startBlock
  · have live : (earlyFailure first second err).cancelledAt 1 = some false :=
      cancelledAt_launch_new _ second second.startBlock
    change (false || ((earlyFailure first second err).cancelledAt 1).getD false) = false
    rw [live]
    rfl

theorem early_failure_unnoticed_small :
    ∃ s i left, Relation.ReflTransGen (IndexerRunStep fixedCodec)
        (.start fixedCodec [jobNumbered 1, jobNumbered 2] ∅) s ∧
      s.stage = .selects (.waits (i :: left)) ∧
      s.shared.outcomeOfJob (jobNumbered 1) = some (.failed (.message "no answer")) ∧
      s.shared.jobs.lookup (jobNumbered 2) = some i ∧ s.contextDone i = false ∧
      ∀ t, Relation.ReflTransGen (IndexerRunStep fixedCodec) s t → t.shutdown = false →
        t.shared.outcomeOf i = none → t.stage = s.stage :=
  early_failure_unnoticed fixedCodec (by decide) (.message "no answer")

end MerkleProofService
