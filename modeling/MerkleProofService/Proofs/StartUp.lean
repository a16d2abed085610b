/-
Module: MerkleProofService.Proofs.StartUp
Layer: Proofs
Purpose: The start of the indexer.  `InitConfiguratorFromStorage` resumes the stored jobs that are
  active, `ReloadConfig` with the same list starts the others: every active job is started once, at
  the block its record says or else at its start block, while the jobs already started run.
Imports: Proofs.JobStarts
Trusted boundary: none
Main exports: StoredJobs, Recorded, AllStored, initialState, StartedUp,
  startUp_starts_each_job_once
-/
import MerkleProofService.Proofs.JobStarts

namespace MerkleProofService

open Library
open ConfiguratorState

/-! ### The stored jobs -/

/-- The entries below the prefix of jobs are records of jobs, each under its own key. -/
def StoredJobs (codec : JobCodec) (database : Database) : Prop :=
  ∀ key value, database.lookup key = some value → [jobKeyPrefix].isPrefixOf key →
    ∃ job, key = makeJobKey job.descriptor ∧ codec.encode job = .ok value

/-- The job is what its record says. -/
def Recorded (codec : JobCodec) (database : Database) (job : Job) : Prop :=
  ∃ record, database.lookup (makeJobKey job.descriptor) = some record ∧
    codec.decode record = .ok job

theorem Recorded.resumeBlock_eq {codec : JobCodec} {database : Database} {job : Job}
    (recorded : Recorded codec database job) :
    resumeBlock codec job.descriptor database = .ok job.currentBlock := by
  obtain ⟨record, found, decoded⟩ := recorded
  rw [resumeBlock, found]
  simp only [decoded]
  rfl

theorem resumeBlock_of_unstored {codec : JobCodec} {database : Database}
    {jobDescriptor : JobDescriptor} (unstored : database.lookup (makeJobKey jobDescriptor) = none) :
    resumeBlock codec jobDescriptor database = .ok jobDescriptor.startBlock := by
  rw [resumeBlock, unstored]

/-- The stored jobs in the order of their keys: all of them, and each once. -/
structure AllStored (codec : JobCodec) (database : Database) (found : List Job) : Prop where
  decodes : List.Forall₂ (fun entry job => codec.decode entry.2 = .ok job)
    (iteratePrefix database [jobKeyPrefix]) found
  recorded : ∀ job ∈ found, Recorded codec database job
  nodup : (found.map Job.descriptor).Nodup
  complete : ∀ jobDescriptor, (database.lookup (makeJobKey jobDescriptor)).isSome →
    jobDescriptor ∈ found.map Job.descriptor

section Stored

variable {codec : JobCodec} {database : Database}

/-- The entries of some keys are the records of jobs with these keys. -/
theorem StoredJobs.decode_keys (roundTrips : codec.RoundTrips) (stored : StoredJobs codec database)
    {keys : List Bytes} (inside : ∀ key ∈ keys, (database.lookup key).isSome ∧
      [jobKeyPrefix].isPrefixOf key) :
    ∃ found : List Job, found.map (fun job => makeJobKey job.descriptor) = keys ∧
      (∀ job ∈ found, Recorded codec database job) ∧
      List.Forall₂ (fun entry job => codec.decode entry.2 = .ok job)
        (keys.map fun key => (key, (database.lookup key).getD [])) found := by
  induction keys with
  | nil =>
      refine ⟨[], rfl, ?_, .nil⟩
      intro job member
      cases member
  | cons key keys ih =>
      obtain ⟨found, sameKeys, recorded, decodes⟩ :=
        ih fun other member => inside other (List.mem_cons_of_mem key member)
      obtain ⟨present, below⟩ := inside key List.mem_cons_self
      obtain ⟨value, held⟩ := Option.isSome_iff_exists.mp present
      obtain ⟨job, rfl, encoded⟩ := stored key value held below
      obtain ⟨record, again, _, decoded⟩ := roundTrips job
      obtain rfl := Except.ok.inj (again.symm.trans encoded)
      refine ⟨job :: found, by rw [List.map_cons, sameKeys], ?_, .cons ?_ decodes⟩
      · intro other member
        rcases List.mem_cons.mp member with rfl | inRest
        · exact ⟨record, held, decoded⟩
        · exact recorded other inRest
      · change codec.decode ((database.lookup (makeJobKey job.descriptor)).getD []) = .ok job
        rw [held]
        exact decoded

/-- A record of a job is added. -/
theorem StoredJobs.set (stored : StoredJobs codec database) {job : Job} {record : Bytes}
    (encoded : codec.encode job = .ok record) :
    StoredJobs codec (Store.write database [.set (makeJobKey job.descriptor) record]) := by
  intro key value held below
  rw [Store.lookup_write, lastEffect_singleton, WriteOp.key] at held
  by_cases own : makeJobKey job.descriptor = key
  · rw [if_pos own] at held
    exact ⟨job, own.symm, encoded.trans (congrArg Except.ok (Option.some.inj held))⟩
  · rw [if_neg own] at held
    exact stored key value held below

theorem makeJobKey_below (jobDescriptor : JobDescriptor) :
    [jobKeyPrefix].isPrefixOf (makeJobKey jobDescriptor) := by
  simp [makeJobKey, List.isPrefixOf]

/-- The stored jobs, listed in the order of their keys. -/
theorem StoredJobs.allStored_inOrder (roundTrips : codec.RoundTrips)
    (stored : StoredJobs codec database) :
    ∃ found, AllStored codec database found ∧
      found.map (fun job => makeJobKey job.descriptor) =
        (Store.keysInOrder (· ≤ ·) database).filter fun key => [jobKeyPrefix].isPrefixOf key := by
  have inside : ∀ key ∈ (Store.keysInOrder (· ≤ ·) database).filter
      (fun key => [jobKeyPrefix].isPrefixOf key),
      (database.lookup key).isSome ∧ [jobKeyPrefix].isPrefixOf key := by
    intro key member
    obtain ⟨held, below⟩ := List.mem_filter.mp member
    exact ⟨(Store.mem_keysInOrder _ database).mp held, below⟩
  obtain ⟨found, sameKeys, recorded, decodes⟩ := stored.decode_keys roundTrips inside
  refine ⟨found, ⟨decodes, recorded, ?_, ?_⟩, sameKeys⟩
  · have keys : ((found.map Job.descriptor).map makeJobKey).Nodup := by
      rw [List.map_map]
      exact sameKeys ▸ (Store.nodup_keysInOrder _ database).filter _
    exact keys.of_map makeJobKey
  · intro jobDescriptor held
    have member : makeJobKey jobDescriptor ∈ found.map fun job => makeJobKey job.descriptor := by
      rw [sameKeys, List.mem_filter]
      exact ⟨(Store.mem_keysInOrder _ database).mpr held, makeJobKey_below jobDescriptor⟩
    obtain ⟨job, inFound, same⟩ := List.mem_map.mp member
    exact List.mem_map.mpr ⟨job, inFound, makeJobKey_inj.mp same⟩

end Stored

/-! ### Resuming -/

section Resuming

variable {allowed : (query : ConfiguratorQuery) → ConfiguratorChoice query → Prop}
variable {base s : ConfiguratorState} {codec : JobCodec}

/-- The loop of `SelectAllJobs` returns the jobs its entries decode to. -/
theorem steady_selectJobs {entries : List (Bytes × Bytes)} {found : List Job}
    (decodes : List.Forall₂ (fun entry job => codec.decode entry.2 = .ok job) entries found)
    (jobs : List Job) :
    Steady allowed (fun now result => Drifts s now ∧ result = jobs ++ found)
      (fun now => CanRefuse allowed ∧ Drifts s now) (selectJobs codec entries jobs) s := by
  induction decodes generalizing s jobs with
  | nil => exact steady_done fun now drifts => ⟨drifts, (List.append_nil jobs).symm⟩
  | @cons entry job entries found decoded _ ih =>
      apply Steady.bind
      apply steady_ctxDone.weaken _ fun _ failed => failed
      intro now _ drifts
      rw [decoded]
      apply (ih (jobs ++ [job])).weaken
      · rintro later result ⟨drifts', rfl⟩
        exact ⟨drifts.trans drifts', by rw [List.append_assoc]; rfl⟩
      · rintro later ⟨can, drifts'⟩
        exact ⟨can, drifts.trans drifts'⟩

/-- What the loop of `InitConfiguratorFromStorage` starts. -/
def resumed (activeSet : List JobDescriptor) (jobs : List Job) : List (JobDescriptor × UInt64) :=
  (jobs.filter fun job => activeSet.contains job.descriptor).map fun job =>
    (job.descriptor, job.currentBlock)

theorem mem_resumed {activeSet : List JobDescriptor} {jobs : List Job}
    {head : JobDescriptor × UInt64} :
    head ∈ resumed activeSet jobs ↔ ∃ job ∈ jobs, job.descriptor ∈ activeSet ∧
      head = (job.descriptor, job.currentBlock) := by
  rw [resumed, List.mem_map]
  constructor
  · rintro ⟨job, inside, rfl⟩
    obtain ⟨member, active⟩ := List.mem_filter.mp inside
    exact ⟨job, member, List.contains_iff_mem.mp active, rfl⟩
  · rintro ⟨job, member, active, rfl⟩
    exact ⟨job, List.mem_filter.mpr ⟨member, List.contains_iff_mem.mpr active⟩, rfl⟩

/-- The loop starts the active jobs among those given, if none of them is in the map. -/
theorem steady_resumeJobs (activeSet : List JobDescriptor) {jobs : List Job}
    (nodup : (jobs.map Job.descriptor).Nodup)
    (missing : ∀ job ∈ jobs, s.jobs.lookup job.descriptor = none) (sound : Sound base s none) :
    Steady allowed
      (fun now _ => Starts s now (resumed activeSet jobs) ∧ Sound base now none)
      (StartFailed allowed base s) (resumeJobs activeSet jobs) s := by
  induction jobs generalizing s with
  | nil => exact steady_done fun now drifts => ⟨Starts.of_drifts drifts, sound.drift drifts⟩
  | cons job jobs ih =>
      obtain ⟨fresh, nodupRest⟩ := List.nodup_cons.mp nodup
      have missingRest : ∀ other ∈ jobs, s.jobs.lookup other.descriptor = none :=
        fun other member => missing other (List.mem_cons_of_mem job member)
      rw [resumeJobs, resumed, List.filter_cons]
      by_cases active : activeSet.contains job.descriptor
      · rw [if_pos active, if_pos active]
        apply Steady.bind
        apply (steady_startJob_missing sound (missing job List.mem_cons_self)
          job.currentBlock).wrapf.weaken _ fun _ failed => failed
        rintro now _ ⟨starts, soundNow⟩
        -- The descriptors that follow are others, so the launch left them missing.
        have missingNow : ∀ other ∈ jobs, now.jobs.lookup other.descriptor = none := by
          intro other member
          rw [starts.kept other.descriptor]
          · exact missingRest other member
          · intro same
            have own : other.descriptor = job.descriptor := List.mem_singleton.mp same
            exact fresh (own ▸ List.mem_map_of_mem member)
        apply (ih nodupRest missingNow soundNow).weaken
        · rintro later _ ⟨rest, soundLater⟩
          exact ⟨starts.trans rest, soundLater⟩
        · intro later failed
          exact failed.after starts.stay
      · rw [if_neg active, if_neg active]
        exact ih nodupRest missingRest sound

/-- The configurator before it has started a job. -/
def initialState (database : Database) : ConfiguratorState where
  database := database
  jobs := ∅
  instances := []

theorem noneRuns_initialState (database : Database) : NoneRuns (initialState database) :=
  fun _ inside => absurd inside (Nat.not_lt_zero _)

theorem sound_initialState (database : Database) :
    Sound (initialState database) (initialState database) none where
  since _ _ returned := returned
  known _ _ mapped := by cases mapped
  tracked _ _ _ started _ := by cases started
  live _ _ _ mapped _ := by cases mapped

/-- `SelectAllJobs` before any job runs returns the stored jobs. -/
theorem steady_selectAllJobs {database : Database} {found : List Job}
    (all : AllStored codec database found) :
    Steady allowed (fun now result => Drifts (initialState database) now ∧ result = found)
      (fun now => CanRefuse allowed ∧ Drifts (initialState database) now) (selectAllJobs codec)
      (initialState database) := by
  apply steady_ask
  intro now drifts choice permitted
  have same : now.database = database := drifts.database (noneRuns_initialState database)
  cases refused : (choice : Option GoError) with
  | none =>
      subst refused
      change Steady allowed _ _
        (selectJobs codec (iteratePrefix now.database [jobKeyPrefix]) []) now
      rw [same]
      apply (steady_selectJobs all.decodes []).weaken
      · rintro later result ⟨drifts', selected⟩
        exact ⟨drifts.trans drifts', selected⟩
      · rintro later ⟨can, drifts'⟩
        exact ⟨can, drifts.trans drifts'⟩
  | some err =>
      have can : CanRefuse allowed := ⟨.iteratePrefix [jobKeyPrefix], choice, permitted, by
        rw [refused]
        exact Option.some_ne_none err⟩
      subst refused
      exact steady_fail fun later drifts' => ⟨can, drifts.trans drifts'⟩

/-- `InitConfiguratorFromStorage` starts the stored jobs that are active. -/
theorem steady_initConfiguratorFromStorage {database : Database} {found : List Job}
    (all : AllStored codec database found) (activeSet : List JobDescriptor) :
    Steady allowed
      (fun now _ => Starts (initialState database) now (resumed activeSet found) ∧
        Sound (initialState database) now none)
      (StartFailed allowed (initialState database) (initialState database))
      (initConfiguratorFromStorage codec activeSet) (initialState database) := by
  have sound := sound_initialState database
  apply Steady.bind
  apply (steady_selectAllJobs all).wrapf.weaken
  · rintro now selected ⟨drifts, same⟩
    rw [same]
    have missing : ∀ job ∈ found, now.jobs.lookup job.descriptor = none := by
      intro job _
      rw [drifts.jobs]
      rfl
    apply (steady_resumeJobs activeSet all.nodup missing (sound.drift drifts)).weaken
    · rintro later _ ⟨starts, soundLater⟩
      exact ⟨(Starts.of_drifts drifts).trans starts, soundLater⟩
    · intro later failed
      exact failed.after drifts.stay
  · rintro now ⟨can, drifts⟩
    exact ⟨can, drifts.stay, sound.drift drifts⟩

end Resuming

/-! ### The whole start -/

/-- The indexer has started: every active job once and no other, each at the block its record says
or else at its start block.  None is stopped, and no record is removed. -/
structure StartedUp (codec : JobCodec) (database : Database) (activeSet : List JobDescriptor)
    (t : ConfiguratorState) : Prop where
  once : (t.heads.map Prod.fst).Nodup
  active : ∀ jobDescriptor, jobDescriptor ∈ t.heads.map Prod.fst ↔ jobDescriptor ∈ activeSet
  block : ∀ jobDescriptor startBlock, (jobDescriptor, startBlock) ∈ t.heads →
    resumeBlock codec jobDescriptor database = .ok startBlock
  keys : ∀ jobDescriptor, jobDescriptor ∈ t.jobs ↔ jobDescriptor ∈ activeSet
  mapped : ∀ jobDescriptor i, t.jobs.lookup jobDescriptor = some i →
    ∃ startBlock, t.heads[i]? = some (jobDescriptor, startBlock)
  live : Quiet (initialState database) t → ∀ i, i < t.heads.length → t.outcomeOf i = none →
    t.cancelledAt i = some false
  records : RecordsStay (initialState database) t

theorem stopOthers_of_configured {config jobs : List JobDescriptor}
    (configured : ∀ job ∈ jobs, job ∈ config) (batch : Batch) :
    stopOthers config jobs batch = .done batch := by
  induction jobs with
  | nil => rfl
  | cons job jobs ih =>
      rw [stopOthers, if_pos (List.contains_iff_mem.mpr (configured job List.mem_cons_self))]
      exact ih fun other member => configured other (List.mem_cons_of_mem job member)

section Reloading

variable {allowed : (query : ConfiguratorQuery) → ConfiguratorChoice query → Prop}
variable {codec : JobCodec} {database : Database} {activeSet : List JobDescriptor}
variable {found : List Job} {middle t : ConfiguratorState}

/-- An active job that the first pass has not started has no record. -/
theorem unstored_of_missing (all : AllStored codec database found)
    (first : Starts (initialState database) middle (resumed activeSet found))
    {jobDescriptor : JobDescriptor} (active : jobDescriptor ∈ activeSet)
    (missing : middle.jobs.lookup jobDescriptor = none) :
    database.lookup (makeJobKey jobDescriptor) = none := by
  by_contra stored
  obtain ⟨job, member, rfl⟩ := List.mem_map.mp
    (all.complete jobDescriptor (Option.isSome_iff_ne_none.mpr stored))
  have started : (job.descriptor, job.currentBlock) ∈ resumed activeSet found :=
    mem_resumed.mpr ⟨job, member, active, rfl⟩
  have mapped := first.mapped job.descriptor (List.mem_map_of_mem started)
  rw [missing] at mapped
  cases mapped

/-- What both passes have started, one after the other. -/
theorem StartedUp.of_passes (all : AllStored codec database found)
    (first : Starts (initialState database) middle (resumed activeSet found))
    (second : StartedMissing (initialState database) middle t activeSet) :
    StartedUp codec database activeSet t := by
  obtain ⟨fresh, starts, fromConfig⟩ := second.starts
  have total := first.trans starts
  have sound := second.sound
  have heads : t.heads = resumed activeSet found ++ fresh := total.heads
  -- The map was empty, so whatever is in it has been started.
  have started : ∀ jobDescriptor, jobDescriptor ∈ t.jobs →
      jobDescriptor ∈ t.heads.map Prod.fst := by
    intro jobDescriptor inMap
    have mapped := AList.lookup_isSome.mpr inMap
    rw [heads]
    by_contra outside
    rw [total.kept jobDescriptor outside] at mapped
    cases mapped
  have activeOf : ∀ jobDescriptor ∈ t.heads.map Prod.fst, jobDescriptor ∈ activeSet := by
    intro jobDescriptor inside
    obtain ⟨head, member, rfl⟩ := List.mem_map.mp inside
    rw [heads, List.mem_append] at member
    rcases member with inFirst | inSecond
    · obtain ⟨job, _, active, rfl⟩ := mem_resumed.mp inFirst
      exact active
    · exact (fromConfig head inSecond).1
  have inMap : ∀ jobDescriptor ∈ activeSet, jobDescriptor ∈ t.jobs :=
    fun jobDescriptor active => AList.lookup_isSome.mp (second.all jobDescriptor active)
  refine ⟨heads ▸ total.nodup, ?_, ?_, ?_, sound.known, ?_, total.stay⟩
  · exact fun jobDescriptor => ⟨activeOf jobDescriptor, fun active =>
      started jobDescriptor (inMap jobDescriptor active)⟩
  · intro jobDescriptor startBlock member
    rw [heads, List.mem_append] at member
    rcases member with inFirst | inSecond
    · obtain ⟨job, stored, _, same⟩ := mem_resumed.mp inFirst
      cases same
      exact (all.recorded job stored).resumeBlock_eq
    · obtain ⟨active, sameBlock⟩ := fromConfig _ inSecond
      have missing := starts.missing jobDescriptor (List.mem_map_of_mem inSecond)
      rw [resumeBlock_of_unstored (unstored_of_missing all first active missing)]
      exact congrArg Except.ok sameBlock.symm
  · exact fun jobDescriptor => ⟨fun member => activeOf jobDescriptor
      (started jobDescriptor member), inMap jobDescriptor⟩
  · intro quiet i inside running
    have head : t.heads[i]? = some (t.heads[i].1, t.heads[i].2) := List.getElem?_eq_getElem inside
    rcases sound.tracked _ _ i head running with mapped | taken
    · exact sound.live quiet _ i mapped running
    · cases taken

/-- `ReloadConfig` after the first pass, with the same list: it stops nothing. -/
theorem steady_reloadConfig_active (all : AllStored codec database found)
    (first : Starts (initialState database) middle (resumed activeSet found))
    (sound : Sound (initialState database) middle none) :
    Steady allowed (fun now _ => StartedUp codec database activeSet now)
      (StartFailed allowed (initialState database) (initialState database))
      (reloadConfig activeSet) middle := by
  apply Steady.bind
  apply (steady_startMissing sound activeSet).weaken
  · intro started _ second
    apply Steady.bind
    apply steady_rangeJobs.weaken _ fun _ failed => failed
    rintro ranged order ⟨drifts, perm⟩
    have secondThere := second.drift drifts
    have configured : ∀ job ∈ order, job ∈ activeSet := fun job member =>
      ((StartedUp.of_passes all first secondThere).keys job).mp (perm.mem_iff.mp member)
    rw [stopOthers_of_configured configured]
    apply (steady_writeSync []).wrapf.weaken
    · rintro later _ ⟨now, before, (after : Drifts now later)⟩
      exact StartedUp.of_passes all first (secondThere.drift (before.trans after))
    · rintro now ⟨can, drifts'⟩
      have there := secondThere.drift drifts'
      exact ⟨can, (StartedUp.of_passes all first there).records, there.sound⟩
  · intro now failed
    exact failed.after first.stay

theorem steady_startUp (all : AllStored codec database found) :
    Steady allowed (fun now _ => StartedUp codec database activeSet now)
      (StartFailed allowed (initialState database) (initialState database))
      (startUp codec activeSet) (initialState database) := by
  apply Steady.bind
  apply (steady_initConfiguratorFromStorage all activeSet).wrapf.weaken _ fun _ failed => failed
  rintro middle _ ⟨first, sound⟩
  exact (steady_reloadConfig_active all first sound).wrapf

end Reloading

/-- The start of the indexer: whatever the jobs already started do meanwhile, it fails only where a
query is refused, and then no record is removed; otherwise every active job has been started once,
from the right block.  It can always be carried to its end. -/
theorem startUp_starts_each_job_once {codec : JobCodec} (roundTrips : codec.RoundTrips)
    {database : Database} (stored : StoredJobs codec database) (activeSet : List JobDescriptor)
    (allowed : (query : ConfiguratorQuery) → ConfiguratorChoice query → Prop)
    {t : ConfiguratorState} {rest : ConfiguratorProgram Unit}
    (run : Relation.ReflTransGen
      (Program.ServedStep (configuratorEnvironment.restrict allowed) JobActs)
      (initialState database, startUp codec activeSet) (t, rest)) :
    (rest = .done () → StartedUp codec database activeSet t) ∧
    (∀ err, rest = .fail err →
      CanRefuse allowed ∧ RecordsStay (initialState database) t) ∧
    ((∀ query, ∃ choice, allowed query choice) → ∃ last ended,
      Relation.ReflTransGen
        (Program.ServedStep (configuratorEnvironment.restrict allowed) JobActs)
        (t, rest) (last, ended) ∧ ended.Ended) := by
  obtain ⟨found, all, _⟩ := stored.allStored_inOrder roundTrips
  have steady := (steady_startUp all).run run
  refine ⟨?_, ?_, ?_⟩
  · rintro rfl
    exact steady.of_done
  · rintro err rfl
    exact ⟨steady.of_fail.can, steady.of_fail.stay⟩
  · intro answers
    exact Program.exists_ended
      (fun query => ⟨(answers query).choose, (answers query).choose_spec⟩) JobActs t rest

/-! ### A small start -/

/-- No query is refused, and a job that is waited for has finished. -/
def smoothChoice : (query : ConfiguratorQuery) → ConfiguratorChoice query
  | .iteratePrefix _ | .ctxDone | .produce _ | .filterQuery _ | .writeSync _ =>
      (none : Option GoError)
  | .launch _ _ | .cancel _ | .hasJob _ | .takeJob _ => ()
  | .rangeJobs => ([] : List JobDescriptor)
  | .wait _ => JobOutcome.finished

theorem not_refuses_smoothChoice (query : ConfiguratorQuery) :
    ¬ Refuses query (smoothChoice query) := by
  intro refuses
  cases query with
  | iteratePrefix _ | ctxDone | produce _ | filterQuery _ | writeSync _ => exact refuses rfl
  | launch _ _ | cancel _ | hasJob _ | takeJob _ | rangeJobs | wait _ => exact refuses

section Served

variable {allowed : (query : ConfiguratorQuery) → ConfiguratorChoice query → Prop}
variable (choose : (query : ConfiguratorQuery) → { choice // allowed query choice })

/-- A program served by itself, with the same choice at every query of a kind. -/
def servedAlone (s : ConfiguratorState) (program : ConfiguratorProgram Unit) :
    Except GoError Unit × ConfiguratorState :=
  program.serve (configuratorEnvironment.restrict allowed) (fun _ query => choose query) s

theorem servedAlone_run {s : ConfiguratorState} {program : ConfiguratorProgram Unit}
    (ends : (servedAlone choose s program).1.isOk = true) :
    Relation.ReflTransGen
      (Program.ServedStep (configuratorEnvironment.restrict allowed) JobActs)
      (s, program) ((servedAlone choose s program).2, .done ()) := by
  have run := Program.serve_run (configuratorEnvironment.restrict allowed)
    (fun _ query => choose query) JobActs s program
  cases outcome : (servedAlone choose s program).1 with
  | ok value =>
      rw [← servedAlone, outcome] at run
      exact run
  | error err =>
      rw [outcome] at ends
      cases ends

end Served

def smoothly (query : ConfiguratorQuery) : { choice // ¬ Refuses query choice } :=
  ⟨smoothChoice query, not_refuses_smoothChoice query⟩

/-- Three jobs: the first and the third have records. -/
def jobNumbered (number : Nat) : JobDescriptor :=
  ⟨BitVec.ofNat 160 number, contractZkCertificateRegistry, 5⟩

def recordOf (job : Job) : Bytes :=
  (fixedCodec.encode job).toOption.getD []

theorem encode_eq_recordOf (job : Job) : fixedCodec.encode job = .ok (recordOf job) := rfl

def storedDatabase : Database :=
  Store.write (Store.write ∅ [.set (makeJobKey (jobNumbered 1)) (recordOf ⟨jobNumbered 1, 7⟩)])
    [.set (makeJobKey (jobNumbered 3)) (recordOf ⟨jobNumbered 3, 9⟩)]

theorem storedJobs_empty (codec : JobCodec) : StoredJobs codec ∅ := by
  intro key value held
  rw [Finmap.lookup_empty] at held
  cases held

theorem storedJobs_storedDatabase : StoredJobs fixedCodec storedDatabase := by
  have first := (storedJobs_empty fixedCodec).set (encode_eq_recordOf ⟨jobNumbered 1, 7⟩)
  have both := first.set (encode_eq_recordOf ⟨jobNumbered 3, 9⟩)
  exact both

/-- Of the jobs 1, 2 and 1 again, the first is resumed and the second is started; the third is not
active. -/
theorem startUp_starts_each_job_once_small :
    ∃ t, StartedUp fixedCodec storedDatabase [jobNumbered 1, jobNumbered 2, jobNumbered 1] t ∧
      t.heads = [(jobNumbered 1, 7), (jobNumbered 2, 5)] := by
  have ends : (servedAlone smoothly (initialState storedDatabase)
      (startUp fixedCodec [jobNumbered 1, jobNumbered 2, jobNumbered 1])).1.isOk = true := by
    decide +kernel
  have run := servedAlone_run smoothly ends
  exact ⟨_, (startUp_starts_each_job_once fixedCodec_roundTrips storedJobs_storedDatabase _ _
    run).1 rfl, by decide +kernel⟩

end MerkleProofService
