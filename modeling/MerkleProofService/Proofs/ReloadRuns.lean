/-
Module: MerkleProofService.Proofs.ReloadRuns
Layer: Proofs
Purpose: `ReloadConfig` while jobs run.  A job to be stopped may commit until it returns, and its
  record is deleted only after that; every stop ends a job, and a job that ends with an error, also
  the error of its own cancellation, cancels the jobs that were to go on.
Imports: Proofs.StartUp
Trusted boundary: none
Main exports: Stops, steady_stopJob, steady_stopOthers, Reloaded, reloadConfig_replaces_jobs
-/
import MerkleProofService.Proofs.StartUp

namespace MerkleProofService

open Library
open ConfiguratorState

/-! ### Stopping one job -/

/-- The jobs `gone` are stopped: they are out of the map and have returned. -/
structure Stops (s t : ConfiguratorState) (gone : List JobDescriptor) : Prop where
  heads : t.heads = s.heads
  persist : ∀ i outcome, s.outcomeOf i = some outcome → t.outcomeOf i = some outcome
  out : ∀ jobDescriptor ∈ gone, t.jobs.lookup jobDescriptor = none
  kept : ∀ jobDescriptor, jobDescriptor ∉ gone →
    t.jobs.lookup jobDescriptor = s.jobs.lookup jobDescriptor
  ended : ∀ jobDescriptor ∈ gone, AllEnded t jobDescriptor
  stay : RecordsStay s t

namespace Stops

variable {s t u : ConfiguratorState} {gone more : List JobDescriptor}

theorem of_drifts (drifts : Drifts s t) : Stops s t [] where
  heads := drifts.heads
  persist := drifts.ended
  out _ inside := by cases inside
  kept jobDescriptor _ := by rw [drifts.jobs]
  ended _ inside := by cases inside
  stay := drifts.stay

theorem trans (first : Stops s t gone) (second : Stops t u more) : Stops s u (gone ++ more) where
  heads := second.heads.trans first.heads
  persist i outcome returned := second.persist i outcome (first.persist i outcome returned)
  out jobDescriptor inside := by
    by_cases inSecond : jobDescriptor ∈ more
    · exact second.out jobDescriptor inSecond
    · rw [second.kept jobDescriptor inSecond]
      exact first.out jobDescriptor ((List.mem_append.mp inside).resolve_right inSecond)
  kept jobDescriptor outside := by
    rw [List.mem_append, not_or] at outside
    rw [second.kept jobDescriptor outside.2, first.kept jobDescriptor outside.1]
  ended jobDescriptor inside := by
    rcases List.mem_append.mp inside with inFirst | inSecond
    · intro i startBlock started running
      rw [second.heads] at started
      obtain ⟨outcome, returned⟩ :=
        Option.ne_none_iff_exists'.mp (first.ended jobDescriptor inFirst i startBlock started)
      rw [second.persist i outcome returned] at running
      cases running
    · exact second.ended jobDescriptor inSecond
  stay := first.stay.trans second.stay

end Stops

theorem lookup_erase_eq_some {jobs : AList fun _ : JobDescriptor => Nat}
    {jobDescriptor other : JobDescriptor} {i : Nat}
    (there : (jobs.erase jobDescriptor).lookup other = some i) : jobs.lookup other = some i := by
  have different : other ≠ jobDescriptor := by
    rintro rfl
    rw [AList.lookup_erase] at there
    cases there
  rwa [AList.lookup_erase_ne different] at there

namespace Sound

variable {base s : ConfiguratorState} {jobDescriptor : JobDescriptor} {i : Nat}

/-- A job is taken from the map. -/
theorem take (sound : Sound base s none) (mapped : s.jobs.lookup jobDescriptor = some i) :
    Sound base { s with jobs := s.jobs.erase jobDescriptor } (some i) where
  since := sound.since
  known other j there := sound.known other j (lookup_erase_eq_some there)
  tracked other startBlock j started running := by
    have there := (sound.tracked other startBlock j started running).resolve_right (by simp)
    by_cases own : other = jobDescriptor
    · rw [own, mapped] at there
      exact .inr there
    · exact .inl ((AList.lookup_erase_ne own).trans there)
  live quiet other j there running :=
    sound.live quiet other j (lookup_erase_eq_some there) running

/-- The job that was taken is not in the map under any descriptor, so its context can be
cancelled. -/
theorem cancel (sound : Sound base s (some i)) {startBlock : UInt64}
    (started : s.heads[i]? = some (jobDescriptor, startBlock))
    (out : s.jobs.lookup jobDescriptor = none) : Sound base (s.cancel i) (some i) where
  since j outcome returned := by
    rw [outcomeOf_cancel]
    exact sound.since j outcome returned
  known := by
    rw [heads_cancel]
    exact sound.known
  tracked := by
    simp only [heads_cancel, outcomeOf_cancel]
    exact sound.tracked
  live quiet other j there running := by
    have different : i ≠ j := by
      rintro rfl
      obtain ⟨block, same⟩ := sound.known other i there
      rw [started] at same
      cases same
      rw [show (s.cancel i).jobs = s.jobs from rfl, out] at there
      cases there
    rw [cancelledAt_cancel_of_ne s i different]
    simp only [Quiet, outcomeOf_cancel] at quiet running
    exact sound.live quiet other j there running

/-- The database is none of the map's business. -/
theorem write {taken : Option Nat} (sound : Sound base s taken) (database : Database) :
    Sound base { s with database := database } taken :=
  ⟨sound.since, sound.known, sound.tracked, sound.live⟩

/-- Once the job that was taken has returned, whatever runs is in the map. -/
theorem returned (sound : Sound base s (some i)) {outcome : JobOutcome}
    (ended : s.outcomeOf i = some outcome) : Sound base s none where
  since := sound.since
  known := sound.known
  tracked other startBlock j started running := by
    rcases sound.tracked other startBlock j started running with there | taken
    · exact .inl there
    · rw [← Option.some.inj taken, ended] at running
      cases running
  live := sound.live

end Sound

section StopJob

variable {allowed : (query : ConfiguratorQuery) → ConfiguratorChoice query → Prop}
variable {base s : ConfiguratorState} {failed : ConfiguratorState → Prop}
variable {jobDescriptor : JobDescriptor} {i : Nat}

/-- A wait ends with the outcome of the job, which stays. -/
theorem steady_wait (started : i < s.heads.length) :
    Steady allowed (fun now outcome => Drifts s now ∧ now.outcomeOf i = some outcome) failed
      (ConfiguratorProgram.wait i) s := by
  apply steady_ask
  intro asked drifts (choice : JobOutcome) _
  change Steady allowed _ _ (.done ((asked.outcomeOf i).getD choice))
    (if (asked.outcomeOf i).isSome then asked else asked.endJob i choice)
  have inside : i < asked.heads.length := drifts.heads ▸ started
  cases before : asked.outcomeOf i with
  | none =>
      have returned : (asked.endJob i choice).outcomeOf i = some choice := by
        rw [outcomeOf_endJob, if_pos ⟨rfl, inside⟩]
      have ends := drifts.trans (endJob_drifts inside before choice)
      exact steady_done fun now drifts' => ⟨ends.trans drifts', drifts'.ended i choice returned⟩
  | some outcome =>
      exact steady_done fun now drifts' => ⟨drifts.trans drifts', drifts'.ended i outcome before⟩

/-- The job `i` is out of the map, and nothing else has changed but by the jobs. -/
structure Taken (base s : ConfiguratorState) (jobDescriptor : JobDescriptor) (i : Nat)
    (now : ConfiguratorState) : Prop where
  heads : now.heads = s.heads
  persist : ∀ j outcome, s.outcomeOf j = some outcome → now.outcomeOf j = some outcome
  out : now.jobs.lookup jobDescriptor = none
  kept : ∀ other, other ≠ jobDescriptor → now.jobs.lookup other = s.jobs.lookup other
  stay : RecordsStay s now
  sound : Sound base now (some i)

theorem Taken.drift {now later : ConfiguratorState} (taken : Taken base s jobDescriptor i now)
    (drifts : Drifts now later) : Taken base s jobDescriptor i later where
  heads := drifts.heads.trans taken.heads
  persist j outcome returned := drifts.ended j outcome (taken.persist j outcome returned)
  out := by rw [drifts.jobs, taken.out]
  kept other different := by rw [drifts.jobs, taken.kept other different]
  stay := taken.stay.trans drifts.stay
  sound := taken.sound.drift drifts

theorem Taken.cancel {now : ConfiguratorState} (taken : Taken base s jobDescriptor i now)
    {startBlock : UInt64} (started : s.heads[i]? = some (jobDescriptor, startBlock)) :
    Taken base s jobDescriptor i (now.cancel i) where
  heads := (heads_cancel now i).trans taken.heads
  persist j outcome returned := by
    rw [outcomeOf_cancel]
    exact taken.persist j outcome returned
  out := taken.out
  kept := taken.kept
  stay := taken.stay
  sound := taken.sound.cancel (taken.heads ▸ started) taken.out

/-- Once the job has returned, it is stopped. -/
theorem Taken.stops {now : ConfiguratorState} (taken : Taken base s jobDescriptor i now)
    {outcome : JobOutcome} (returned : now.outcomeOf i = some outcome) :
    Stops s now [jobDescriptor] where
  heads := taken.heads
  persist := taken.persist
  out other inside := by rw [List.mem_singleton.mp inside, taken.out]
  kept other outside := taken.kept other (mt List.mem_singleton.mpr outside)
  ended other inside j startBlock started running := by
    rw [List.mem_singleton.mp inside] at started
    rcases (taken.sound.returned returned).tracked jobDescriptor startBlock j started running with
      there | none
    · rw [taken.out] at there
      cases there
    · cases none
  stay := taken.stay

theorem steady_takeJob (sound : Sound base s none)
    (mapped : s.jobs.lookup jobDescriptor = some i) :
    Steady allowed (fun now answer => answer = some i ∧ Taken base s jobDescriptor i now) failed
      (ConfiguratorProgram.takeJob jobDescriptor) s := by
  apply steady_ask
  intro asked drifts choice _
  have there : asked.jobs.lookup jobDescriptor = some i := by rw [drifts.jobs, mapped]
  have taken : Taken base s jobDescriptor i
      { asked with jobs := asked.jobs.erase jobDescriptor } :=
    { heads := drifts.heads
      persist := drifts.ended
      out := AList.lookup_erase jobDescriptor asked.jobs
      kept := fun other different => by
        rw [← drifts.jobs]
        exact AList.lookup_erase_ne different
      stay := drifts.stay
      sound := (sound.drift drifts).take there }
  exact steady_done fun now drifts' => ⟨there, taken.drift drifts'⟩

theorem steady_cancel {now : ConfiguratorState} (taken : Taken base s jobDescriptor i now)
    {startBlock : UInt64} (started : s.heads[i]? = some (jobDescriptor, startBlock)) :
    Steady allowed (fun later _ => Taken base s jobDescriptor i later) failed
      (ConfiguratorProgram.cancel i) now := by
  apply steady_ask
  intro asked drifts choice _
  have cancelled := (taken.drift drifts).cancel started
  exact steady_done fun later drifts' => cancelled.drift drifts'

/-- `StopJob` queues the deletion of the record, cancels the context and waits: when it returns, no
job of the descriptor runs. -/
theorem steady_stopJob (sound : Sound base s none)
    (mapped : s.jobs.lookup jobDescriptor = some i) (batch : Batch) :
    Steady allowed
      (fun now result => result = batch ++ [.delete (makeJobKey jobDescriptor)] ∧
        Stops s now [jobDescriptor] ∧ Sound base now none)
      (fun now => RecordsStay s now ∧ Sound base now none) (stopJob batch jobDescriptor) s := by
  obtain ⟨startBlock, head⟩ := sound.known jobDescriptor i mapped
  apply Steady.bind
  apply (steady_takeJob sound mapped).weaken _ fun _ failed => failed
  rintro first _ ⟨rfl, taken⟩
  rw [deleteJob_eq]
  apply Steady.bind
  apply steady_done
  intro queued drifts
  apply Steady.bind
  apply (steady_cancel (taken.drift drifts) head).weaken _ fun _ failed => failed
  intro second _ cancelled
  have started : i < second.heads.length := by
    rw [cancelled.heads]
    exact sound.lt_length mapped
  apply Steady.bind
  apply (steady_wait started).weaken _ fun _ failed => failed
  rintro last outcome ⟨drifts', returned⟩
  have takenLast := cancelled.drift drifts'
  have soundLast := takenLast.sound.returned returned
  cases outcome with
  | finished | canceled _ =>
      apply steady_done
      intro now drifts''
      have stops := (takenLast.stops returned).trans (Stops.of_drifts drifts'')
      exact ⟨rfl, stops, soundLast.drift drifts''⟩
  | failed err =>
      apply steady_fail
      intro now drifts''
      exact ⟨takenLast.stay.trans drifts''.stay, soundLast.drift drifts''⟩

end StopJob

/-! ### Stopping the others -/

/-- The jobs of a list that are not in the config. -/
def others (config jobs : List JobDescriptor) : List JobDescriptor :=
  jobs.filter fun job => !config.contains job

theorem mem_others {config jobs : List JobDescriptor} {jobDescriptor : JobDescriptor} :
    jobDescriptor ∈ others config jobs ↔ jobDescriptor ∈ jobs ∧ jobDescriptor ∉ config := by
  simp [others]

/-- The second loop of `ReloadConfig`. -/
theorem steady_stopOthers
    {allowed : (query : ConfiguratorQuery) → ConfiguratorChoice query → Prop}
    {base s : ConfiguratorState} (sound : Sound base s none) (config : List JobDescriptor)
    {jobs : List JobDescriptor} (nodup : jobs.Nodup)
    (mapped : ∀ job ∈ jobs, (s.jobs.lookup job).isSome) (batch : Batch) :
    Steady allowed
      (fun now result =>
        result = batch ++ ((others config jobs).map makeJobKey).map WriteOp.delete ∧
        Stops s now (others config jobs) ∧ Sound base now none)
      (fun now => RecordsStay s now ∧ Sound base now none) (stopOthers config jobs batch) s := by
  induction jobs generalizing s batch with
  | nil =>
      apply steady_done
      intro now drifts
      exact ⟨(List.append_nil batch).symm, Stops.of_drifts drifts, sound.drift drifts⟩
  | cons job jobs ih =>
      obtain ⟨fresh, nodupRest⟩ := List.nodup_cons.mp nodup
      have mappedRest : ∀ other ∈ jobs, (s.jobs.lookup other).isSome := fun other member =>
        mapped other (List.mem_cons_of_mem job member)
      rw [stopOthers, others, List.filter_cons]
      by_cases configured : config.contains job
      · rw [if_pos configured, if_neg (by simpa using configured)]
        exact ih sound nodupRest mappedRest batch
      · rw [if_neg configured, if_pos (by simpa using configured)]
        obtain ⟨i, there⟩ := Option.isSome_iff_exists.mp (mapped job List.mem_cons_self)
        apply Steady.bind
        apply (steady_stopJob sound there batch).wrapf.weaken _ fun _ failed => failed
        rintro middle _ ⟨rfl, stops, soundMiddle⟩
        -- The jobs still to be looked at are others, so they are still in the map.
        have mappedMiddle : ∀ other ∈ jobs, (middle.jobs.lookup other).isSome := by
          intro other member
          rw [stops.kept other]
          · exact mappedRest other member
          · intro same
            exact fresh (List.mem_singleton.mp same ▸ member)
        apply (ih soundMiddle nodupRest mappedMiddle _).weaken
        · rintro now _ ⟨rfl, more, soundNow⟩
          exact ⟨by rw [List.append_assoc]; rfl, stops.trans more, soundNow⟩
        · rintro now ⟨stay, soundNow⟩
          exact ⟨stops.stay.trans stay, soundNow⟩

/-! ### The whole reload -/

/-- The config has replaced the jobs of `s`: the map holds its jobs, those that were there kept
their instance, the new ones are started once and the others have ended and have no record.
Whatever runs is in the map, and while no job has returned an error since `s`, what is in the map
runs until it returns by itself. -/
structure Reloaded (s t : ConfiguratorState) (config : List JobDescriptor) : Prop where
  keys : ∀ jobDescriptor, jobDescriptor ∈ t.jobs ↔ jobDescriptor ∈ config
  kept : ∀ jobDescriptor ∈ config, ∀ i, s.jobs.lookup jobDescriptor = some i →
    t.jobs.lookup jobDescriptor = some i
  started : ∃ fresh, t.heads = s.heads ++ fresh ∧ (fresh.map Prod.fst).Nodup ∧
    (∀ head ∈ fresh, head.2 = head.1.startBlock) ∧
    ∀ jobDescriptor, jobDescriptor ∈ fresh.map Prod.fst ↔
      jobDescriptor ∈ config ∧ jobDescriptor ∉ s.jobs
  stopped : ∀ jobDescriptor ∈ s.jobs, jobDescriptor ∉ config →
    AllEnded t jobDescriptor ∧ t.record jobDescriptor = none
  mapped : ∀ jobDescriptor i, t.jobs.lookup jobDescriptor = some i →
    ∃ startBlock, t.heads[i]? = some (jobDescriptor, startBlock)
  tracked : ∀ jobDescriptor startBlock i, t.heads[i]? = some (jobDescriptor, startBlock) →
    t.outcomeOf i = none → t.jobs.lookup jobDescriptor = some i
  live : Quiet s t → ∀ jobDescriptor i, t.jobs.lookup jobDescriptor = some i →
    t.outcomeOf i = none → t.cancelledAt i = some false

section Reload

variable {s ranged last later : ConfiguratorState} {config order : List JobDescriptor}

/-- What the first loop has started, seen from the config. -/
theorem StartedMissing.fresh (started : StartedMissing s s ranged config) :
    ∃ fresh, ranged.heads = s.heads ++ fresh ∧ (fresh.map Prod.fst).Nodup ∧
      (∀ head ∈ fresh, head.2 = head.1.startBlock) ∧
      ∀ jobDescriptor, jobDescriptor ∈ fresh.map Prod.fst ↔
        jobDescriptor ∈ config ∧ jobDescriptor ∉ s.jobs := by
  obtain ⟨fresh, starts, fromConfig⟩ := started.starts
  refine ⟨fresh, starts.heads, starts.nodup, fun head inside => (fromConfig head inside).2, ?_⟩
  intro jobDescriptor
  rw [← AList.lookup_isSome, Bool.not_eq_true, Option.isSome_eq_false_iff,
    Option.isNone_iff_eq_none]
  constructor
  · intro inside
    obtain ⟨head, member, rfl⟩ := List.mem_map.mp inside
    exact ⟨(fromConfig head member).1, starts.missing head.1 inside⟩
  · rintro ⟨configured, missing⟩
    by_contra outside
    have there := started.all jobDescriptor configured
    rw [starts.kept jobDescriptor outside, missing] at there
    cases there

/-- The batch of the reload removes the records of the jobs that were stopped. -/
theorem record_deleted {jobDescriptor : JobDescriptor} {gone : List JobDescriptor}
    (inside : jobDescriptor ∈ gone) (database : Database) :
    (Store.write database ((gone.map makeJobKey).map WriteOp.delete)).lookup
      (makeJobKey jobDescriptor) = none := by
  rw [Store.lookup_write, lastEffect_map_delete, if_pos (List.mem_map_of_mem inside)]
  rfl

theorem Reloaded.of_passes (started : StartedMissing s s ranged config)
    (perm : order.Perm ranged.jobs.keys) (stops : Stops ranged last (others config order))
    (sound : Sound s last none)
    (drifts : Drifts
      { last with
        database := Store.write last.database
          (((others config order).map makeJobKey).map WriteOp.delete) } later) :
    Reloaded s later config := by
  have heads : later.heads = ranged.heads := drifts.heads.trans stops.heads
  have jobs : later.jobs = last.jobs := drifts.jobs
  have soundLater : Sound s later none := (sound.write _).drift drifts
  have inOrder : ∀ jobDescriptor, jobDescriptor ∈ order ↔
      (ranged.jobs.lookup jobDescriptor).isSome := fun jobDescriptor =>
    perm.mem_iff.trans AList.lookup_isSome.symm
  have keptOf : ∀ jobDescriptor ∈ config,
      later.jobs.lookup jobDescriptor = ranged.jobs.lookup jobDescriptor := by
    intro jobDescriptor configured
    rw [jobs, stops.kept jobDescriptor fun gone => (mem_others.mp gone).2 configured]
  obtain ⟨first, starts, _⟩ := started.starts
  refine ⟨?_, ?_, heads ▸ started.fresh, ?_, soundLater.known, ?_, soundLater.live⟩
  · intro jobDescriptor
    rw [← AList.lookup_isSome]
    constructor
    · intro there
      by_contra unconfigured
      rw [jobs] at there
      by_cases gone : jobDescriptor ∈ others config order
      · rw [stops.out jobDescriptor gone] at there
        cases there
      · rw [stops.kept jobDescriptor gone, ← inOrder] at there
        exact gone (mem_others.mpr ⟨there, unconfigured⟩)
    · intro configured
      rw [keptOf jobDescriptor configured]
      exact started.all jobDescriptor configured
  · intro jobDescriptor configured i there
    rw [keptOf jobDescriptor configured, starts.kept jobDescriptor, there]
    intro inFresh
    rw [starts.missing jobDescriptor inFresh] at there
    cases there
  · intro jobDescriptor inMap unconfigured
    have gone : jobDescriptor ∈ others config order :=
      mem_others.mpr ⟨(inOrder jobDescriptor).mpr (starts.isSome (AList.lookup_isSome.mpr inMap)),
        unconfigured⟩
    have ended := stops.ended jobDescriptor gone
    refine ⟨drifts.allEnded ended, ?_⟩
    rw [drifts.records jobDescriptor ended]
    exact record_deleted gone last.database
  · intro jobDescriptor startBlock i head running
    rcases soundLater.tracked jobDescriptor startBlock i head running with there | none
    · exact there
    · cases none

theorem steady_reloadConfig
    {allowed : (query : ConfiguratorQuery) → ConfiguratorChoice query → Prop}
    (sound : Sound s s none) (config : List JobDescriptor) :
    Steady allowed (fun now _ => Reloaded s now config) (RecordsStay s)
      (reloadConfig config) s := by
  apply Steady.bind
  apply (steady_startMissing sound config).weaken _ fun _ failed => failed.stay
  intro first _ started
  apply Steady.bind
  apply steady_rangeJobs.weaken _ fun _ failed => failed
  rintro ranged order ⟨drifts, perm⟩
  have startedThere := started.drift drifts
  obtain ⟨_, starts, _⟩ := startedThere.starts
  have nodup : order.Nodup := perm.nodup_iff.mpr (AList.keys_nodup ranged.jobs)
  have mapped : ∀ job ∈ order, (ranged.jobs.lookup job).isSome := fun job member =>
    AList.lookup_isSome.mpr (perm.mem_iff.mp member)
  apply Steady.bind
  apply (steady_stopOthers startedThere.sound config nodup mapped []).weaken
  · rintro stopped _ ⟨rfl, stops, soundStopped⟩
    apply (steady_writeSync _).wrapf.weaken
    · rintro later _ ⟨last, before, after⟩
      have stopsLast : Stops ranged last (others config order) :=
        List.append_nil (others config order) ▸ stops.trans (Stops.of_drifts before)
      exact .of_passes startedThere perm stopsLast (soundStopped.drift before) after
    · rintro now ⟨_, before⟩
      exact starts.stay.trans (stops.stay.trans before.stay)
  · rintro now ⟨stay, _⟩
    exact starts.stay.trans stay

end Reload

/-- `ReloadConfig` beside running jobs, in every interleaving with what they commit and with their
returns: if it returns nil the config has replaced the jobs, if it returns an error no record has
been removed. -/
theorem reloadConfig_replaces_jobs {s : ConfiguratorState} (sound : Sound s s none)
    (config : List JobDescriptor)
    (allowed : (query : ConfiguratorQuery) → ConfiguratorChoice query → Prop)
    {t : ConfiguratorState} {rest : ConfiguratorProgram Unit}
    (run : Relation.ReflTransGen
      (Program.ServedStep (configuratorEnvironment.restrict allowed) JobActs)
      (s, reloadConfig config) (t, rest)) :
    (rest = .done () → Reloaded s t config) ∧ (∀ err, rest = .fail err → RecordsStay s t) := by
  have steady := (steady_reloadConfig sound config).run run
  constructor
  · rintro rfl
    exact steady.of_done
  · rintro err rfl
    exact steady.of_fail

/-! ### A small reload -/

/-- What holds since an earlier state holds since `s`, if no running job of the map is cancelled
there. -/
theorem Sound.rebase {base s : ConfiguratorState} (sound : Sound base s none)
    (live : ∀ entry ∈ s.jobs.entries, s.outcomeOf entry.2 = none →
      s.cancelledAt entry.2 = some false) : Sound s s none where
  since _ _ returned := returned
  known := sound.known
  tracked := sound.tracked
  live _ jobDescriptor i mapped := live ⟨jobDescriptor, i⟩ (AList.mem_lookup_iff.mp mapped)

/-- Every job that has returned by `t` had returned before. -/
theorem quiet_of_all {base t : ConfiguratorState}
    (all : ∀ i < t.instances.length, t.outcomeOf i ≠ none → base.outcomeOf i ≠ none) :
    Quiet base t := by
  intro i outcome ran returned
  obtain ⟨_, there, _⟩ := Option.bind_eq_some_iff.mp returned
  have inside : i < t.instances.length := (List.getElem?_eq_some_iff.mp there).1
  have ended : t.outcomeOf i ≠ none := by
    rw [returned]
    exact Option.some_ne_none outcome
  exact absurd ran (all i inside ended)

/-- Two jobs started one after the other. -/
theorem sound_twoLaunches (database : Database) {first second : JobDescriptor}
    (different : second ≠ first) (block otherBlock : UInt64) :
    Sound (initialState database)
      (((initialState database).launch first block).launch second otherBlock) none := by
  have one := (sound_initialState database).launch
    (rfl : (initialState database).jobs.lookup first = none) block
  exact one.launch (lookup_launch_other _ first block different) otherBlock

/-- Two jobs that have records run. -/
def runningJobs : ConfiguratorState :=
  ((initialState storedDatabase).launch (jobNumbered 1) 7).launch (jobNumbered 3) 9

theorem sound_runningJobs : Sound runningJobs runningJobs none :=
  (sound_twoLaunches storedDatabase (by decide) 7 9).rebase (by decide +kernel)

/-- The jobs 4 and 3 run, job 4 fails, and its `CancelAll` cancels job 3. -/
def failedJob : ConfiguratorState :=
  (((initialState storedDatabase).launch (jobNumbered 4) 5).launch (jobNumbered 3) 9).endJob 0
    (.failed (.message "no answer"))

/-- Job 3 returns the error of its cancelled context. -/
def endedJobs : ConfiguratorState :=
  failedJob.endJob 1 (.canceled (.message "context canceled"))

/-- Job 1 is started after that. -/
def resumedJob : ConfiguratorState :=
  endedJobs.launch (jobNumbered 1) 7

theorem sound_resumedJob : Sound resumedJob resumedJob none := by
  have failed : Sound (initialState storedDatabase) failedJob none :=
    (sound_twoLaunches storedDatabase (by decide) 5 9).drift
      (endJob_drifts (by decide +kernel) (by decide +kernel) _)
  have ended : Sound (initialState storedDatabase) endedJobs none :=
    failed.drift (endJob_drifts (by decide +kernel) (by decide +kernel) _)
  have absent : endedJobs.jobs.lookup (jobNumbered 1) = none := by decide +kernel
  exact (ended.launch absent 7).rebase (by decide +kernel)

/-- A reload with the jobs 1, 2 and 4 after that: job 1 goes on with a live context, job 2 is
started, job 4 stays in the map as it has ended, and job 3, whose context has been cancelled
before, has no record any more. -/
theorem reloadConfig_replaces_jobs_small :
    ∃ t, Reloaded resumedJob t [jobNumbered 1, jobNumbered 2, jobNumbered 4] ∧
      Quiet resumedJob t ∧
      t.heads = [(jobNumbered 4, 5), (jobNumbered 3, 9), (jobNumbered 1, 7), (jobNumbered 2, 5)] ∧
      t.outcomeOf 2 = none ∧ t.cancelledAt 2 = some false ∧
      t.jobs.lookup (jobNumbered 3) = none ∧ (resumedJob.record (jobNumbered 3)).isSome ∧
      t.record (jobNumbered 3) = none := by
  have ends : (servedAlone smoothly resumedJob
      (reloadConfig [jobNumbered 1, jobNumbered 2, jobNumbered 4])).1.isOk = true := by
    decide +kernel
  have reloaded := (reloadConfig_replaces_jobs sound_resumedJob _ _
    (servedAlone_run smoothly ends)).1 rfl
  exact ⟨_, reloaded, quiet_of_all (by decide +kernel), by decide +kernel, by decide +kernel,
    by decide +kernel, by decide +kernel, by decide +kernel, by decide +kernel⟩

/-- The job that is stopped returns the error of its cancelled context. -/
def cancelling : (query : ConfiguratorQuery) → { _choice : ConfiguratorChoice query // True }
  | .wait _ => ⟨JobOutcome.canceled (.message "context canceled"), trivial⟩
  | query => ⟨smoothChoice query, trivial⟩

/-- Two jobs run, and the config keeps the first: stopping the second cancels the first as well,
though `ReloadConfig` returns nil and the first is still in the map. -/
theorem reload_cancels_kept_job :
    ∃ t, Relation.ReflTransGen
        (Program.ServedStep (configuratorEnvironment.restrict fun _ _ => True) JobActs)
        (runningJobs, reloadConfig [jobNumbered 1]) (t, .done ()) ∧
      Sound runningJobs runningJobs none ∧ t.jobs.lookup (jobNumbered 1) = some 0 ∧
      t.outcomeOf 0 = none ∧ t.cancelledAt 0 = some true := by
  have ends : (servedAlone cancelling runningJobs
      (reloadConfig [jobNumbered 1])).1.isOk = true := by decide +kernel
  exact ⟨_, servedAlone_run cancelling ends, sound_runningJobs, by decide +kernel,
    by decide +kernel, by decide +kernel⟩

end MerkleProofService
