/-
Module: MerkleProofService.Proofs.JobStarts
Layer: Proofs
Purpose: What the steps of the configurator do while jobs run beside it: rules for its programs, the
  invariant of the map of jobs, and the loop that starts the jobs of a config that are missing.
Imports: Proofs.ConfiguratorRuns
Trusted boundary: none
Main exports: Refuses, CanRefuse, Steady, Steady.bind, Steady.run, Sound, Starts, StartFailed,
  StartedMissing, steady_startJob, steady_startMissing
-/
import MerkleProofService.Proofs.ConfiguratorRuns

namespace MerkleProofService

open Library
open ConfiguratorState

/-! ### Rules for the configurator's programs -/

/-- A choice that makes the query fail. -/
def Refuses : (query : ConfiguratorQuery) → ConfiguratorChoice query → Prop
  | .iteratePrefix _, choice | .ctxDone, choice | .produce _, choice | .filterQuery _, choice
  | .writeSync _, choice => (choice : Option GoError) ≠ none
  | .launch _ _, _ | .cancel _, _ | .hasJob _, _ | .takeJob _, _ | .rangeJobs, _ | .wait _, _ =>
      False

/-- The environment may make a query fail. -/
def CanRefuse (allowed : (query : ConfiguratorQuery) → ConfiguratorChoice query → Prop) : Prop :=
  ∃ query choice, allowed query choice ∧ Refuses query choice

/-- What holds at the end: `ok` of the value, or `failed` where an error is returned. -/
def Ends {α : Type} (ok : ConfiguratorState → α → Prop) (failed : ConfiguratorState → Prop)
    (now : ConfiguratorState) : Except GoError α → Prop
  | .ok value => ok now value
  | .error _ => failed now

/-- Whatever the environment chooses among what is allowed and the jobs do, the program ends with a
value that satisfies `ok`, or with an error where `failed` holds. -/
def Steady {α : Type} (allowed : (query : ConfiguratorQuery) → ConfiguratorChoice query → Prop)
    (ok : ConfiguratorState → α → Prop) (failed : ConfiguratorState → Prop)
    (program : ConfiguratorProgram α) (s : ConfiguratorState) : Prop :=
  program.Settles (configuratorEnvironment.restrict allowed) Drifts (Ends ok failed) s

section Rules

variable {α β : Type} {allowed : (query : ConfiguratorQuery) → ConfiguratorChoice query → Prop}
variable {ok : ConfiguratorState → α → Prop} {failed : ConfiguratorState → Prop}
variable {program : ConfiguratorProgram α} {s : ConfiguratorState}

theorem steady_done {value : α} (holds : ∀ now, Drifts s now → ok now value) :
    Steady allowed ok failed (.done value) s :=
  Program.settles_done holds

theorem steady_fail {err : GoError} (holds : ∀ now, Drifts s now → failed now) :
    Steady allowed ok failed (.fail err) s :=
  Program.settles_fail holds

theorem steady_ask {query : ConfiguratorQuery}
    {next : ConfiguratorAnswer query → ConfiguratorProgram α}
    (served : ∀ now, Drifts s now → ∀ choice, allowed query choice →
      Steady allowed ok failed (next (configuratorEnvironment.answer now query choice))
        (configuratorEnvironment.after now query choice)) :
    Steady allowed ok failed (.ask query next) s :=
  Program.settles_ask fun now drifts choice => served now drifts choice.1 choice.2

theorem Steady.weaken {ok' : ConfiguratorState → α → Prop} {failed' : ConfiguratorState → Prop}
    (steady : Steady allowed ok failed program s) (value : ∀ now a, ok now a → ok' now a)
    (error : ∀ now, failed now → failed' now) : Steady allowed ok' failed' program s :=
  Program.Settles.weaken (fun now outcome holds =>
    match outcome, holds with
    | .ok a, holds => value now a holds
    | .error _, holds => error now holds) steady

theorem Steady.bind {ok' : ConfiguratorState → β → Prop} {rest : α → ConfiguratorProgram β}
    (first : Steady allowed (fun now value => Steady allowed ok' failed (rest value) now) failed
      program s) : Steady allowed ok' failed (program >>= rest) s :=
  Program.Settles.bind Drifts.refl (Program.Settles.weaken (fun _ outcome holds =>
    match outcome, holds with
    | .ok _, holds => holds
    | .error _, holds => holds) first)

theorem Steady.wrapf {text : String} (steady : Steady allowed ok failed program s) :
    Steady allowed ok failed (ConfiguratorProgram.wrapf text program) s :=
  Program.Settles.mapFail (Program.Settles.weaken (fun _ outcome holds =>
    match outcome, holds with
    | .ok _, holds => holds
    | .error _, holds => holds) steady)

/-- What holds before the jobs act can be used after. -/
theorem Steady.drift {now : ConfiguratorState} (steady : Steady allowed ok failed program s)
    (drifts : Drifts s now) : Steady allowed ok failed program now :=
  Program.Settles.drift Drifts.trans steady drifts

theorem Steady.of_done {value : α} (steady : Steady allowed ok failed (.done value) s) :
    ok s value :=
  steady s (Drifts.refl s)

theorem Steady.of_fail {err : GoError} (steady : Steady allowed ok failed (.fail err) s) :
    failed s :=
  steady s (Drifts.refl s)

/-- What a program is steady about holds all along its runs beside the jobs. -/
theorem Steady.run {t : ConfiguratorState} {rest : ConfiguratorProgram α}
    (steady : Steady allowed ok failed program s)
    (run : Relation.ReflTransGen
      (Program.ServedStep (configuratorEnvironment.restrict allowed) JobActs)
      (s, program) (t, rest)) : Steady allowed ok failed rest t := by
  unfold Steady at steady ⊢
  refine Program.Settles.run ?_ Drifts.refl ?_ steady run
  · exact JobActs.drifts
  · exact Drifts.trans

/-- A query that only succeeds or is refused. -/
theorem steady_check {query : ConfiguratorQuery}
    {next : ConfiguratorAnswer query → ConfiguratorProgram Unit}
    (refusal : ConfiguratorChoice query → Option GoError)
    (answered : ∀ now choice, next (configuratorEnvironment.answer now query choice) =
      ConfiguratorProgram.check (refusal choice))
    (unchanged : ∀ now choice, configuratorEnvironment.after now query choice = now)
    (refuses : ∀ choice, refusal choice ≠ none → Refuses query choice) :
    Steady allowed (fun now _ => Drifts s now) (fun now => CanRefuse allowed ∧ Drifts s now)
      (.ask query next) s := by
  apply steady_ask
  intro now drifts choice permitted
  rw [answered, unchanged]
  cases refused : refusal choice with
  | none => exact steady_done fun later drifts' => drifts.trans drifts'
  | some err =>
      have can : CanRefuse allowed := ⟨query, choice, permitted, refuses choice (by simp [refused])⟩
      exact steady_fail fun later drifts' => ⟨can, drifts.trans drifts'⟩

theorem steady_ctxDone :
    Steady allowed (fun now _ => Drifts s now) (fun now => CanRefuse allowed ∧ Drifts s now)
      ConfiguratorProgram.ctxDone s :=
  steady_check id (fun _ _ => rfl) (fun _ _ => rfl) fun _ refused => refused

theorem steady_produce (jobDescriptor : JobDescriptor) :
    Steady allowed (fun now _ => Drifts s now) (fun now => CanRefuse allowed ∧ Drifts s now)
      (ConfiguratorProgram.produce jobDescriptor) s :=
  steady_check id (fun _ _ => rfl) (fun _ _ => rfl) fun _ refused => refused

theorem steady_filterQuery (jobDescriptor : JobDescriptor) :
    Steady allowed (fun now _ => Drifts s now) (fun now => CanRefuse allowed ∧ Drifts s now)
      (ConfiguratorProgram.filterQuery jobDescriptor) s :=
  steady_check id (fun _ _ => rfl) (fun _ _ => rfl) fun _ refused => refused

/-- What the map answers stays true until the configurator changes it. -/
theorem steady_hasJob (jobDescriptor : JobDescriptor) :
    Steady allowed
      (fun now found => Drifts s now ∧ (now.jobs.lookup jobDescriptor).isSome = found) failed
      (ConfiguratorProgram.hasJob jobDescriptor) s := by
  apply steady_ask
  intro asked drifts choice _
  apply steady_done
  intro now (drifts' : Drifts asked now)
  refine ⟨drifts.trans drifts', ?_⟩
  rw [drifts'.jobs]
  rfl

theorem inChosenOrder_perm (keys order : List JobDescriptor) :
    (inChosenOrder keys order).Perm keys := by
  unfold inChosenOrder
  split
  · assumption
  · exact .refl keys

/-- The keys of the map, in some order. -/
theorem steady_rangeJobs :
    Steady allowed (fun now order => Drifts s now ∧ order.Perm now.jobs.keys) failed
      ConfiguratorProgram.rangeJobs s := by
  apply steady_ask
  intro asked drifts choice _
  apply steady_done
  intro now (drifts' : Drifts asked now)
  refine ⟨drifts.trans drifts', ?_⟩
  rw [drifts'.jobs]
  exact inChosenOrder_perm asked.jobs.keys choice

/-- The batch is written as a whole or not at all. -/
theorem steady_writeSync (batch : Batch) :
    Steady allowed
      (fun later _ => ∃ now, Drifts s now ∧
        Drifts { now with database := Store.write now.database batch } later)
      (fun now => CanRefuse allowed ∧ Drifts s now) (ConfiguratorProgram.writeSync batch) s := by
  apply steady_ask
  intro now drifts choice permitted
  cases refused : (choice : Option GoError) with
  | none =>
      subst refused
      exact steady_done fun later drifts' => ⟨now, drifts, drifts'⟩
  | some err =>
      have can : CanRefuse allowed :=
        ⟨.writeSync batch, choice, permitted, by rw [refused]; exact Option.some_ne_none err⟩
      subst refused
      exact steady_fail fun later drifts' => ⟨can, drifts.trans drifts'⟩

/-- `StartJob` launches the job, or fails with nothing changed. -/
theorem steady_startJob (jobDescriptor : JobDescriptor) (startBlock : UInt64) :
    Steady allowed
      (fun later _ => ∃ now, Drifts s now ∧ Drifts (now.launch jobDescriptor startBlock) later)
      (fun now => CanRefuse allowed ∧ Drifts s now) (startJob jobDescriptor startBlock) s := by
  apply Steady.bind
  apply (steady_produce jobDescriptor).wrapf.weaken _ fun _ failed => failed
  intro produced _ drifts
  apply Steady.bind
  apply (steady_filterQuery jobDescriptor).wrapf.weaken _ fun _ ⟨can, more⟩ =>
    ⟨can, drifts.trans more⟩
  intro queried _ more
  apply steady_ask
  intro now last _ _
  exact steady_done fun later drifts' => ⟨now, (drifts.trans more).trans last, drifts'⟩

end Rules

/-! ### The map of jobs -/

/-- The map and the jobs started: the map holds jobs of its descriptors, every job that still runs
is in it or is the one `taken` from it, and while no job has returned an error since `base` the
jobs of the map have live contexts until they return. -/
structure Sound (base s : ConfiguratorState) (taken : Option Nat) : Prop where
  since : ∀ i outcome, base.outcomeOf i = some outcome → s.outcomeOf i = some outcome
  known : ∀ jobDescriptor i, s.jobs.lookup jobDescriptor = some i →
    ∃ startBlock, s.heads[i]? = some (jobDescriptor, startBlock)
  tracked : ∀ jobDescriptor startBlock i, s.heads[i]? = some (jobDescriptor, startBlock) →
    s.outcomeOf i = none → s.jobs.lookup jobDescriptor = some i ∨ taken = some i
  live : Quiet base s → ∀ jobDescriptor i, s.jobs.lookup jobDescriptor = some i →
    s.outcomeOf i = none → s.cancelledAt i = some false

namespace Sound

variable {base s t : ConfiguratorState} {taken : Option Nat}

theorem drift (sound : Sound base s taken) (drifts : Drifts s t) : Sound base t taken where
  since i outcome returned := drifts.ended i outcome (sound.since i outcome returned)
  known := by
    rw [drifts.jobs, drifts.heads]
    exact sound.known
  tracked jobDescriptor startBlock i started running := by
    rw [drifts.heads] at started
    rw [drifts.jobs]
    exact sound.tracked jobDescriptor startBlock i started (drifts.runs running)
  live quiet jobDescriptor i mapped running := by
    rw [drifts.jobs] at mapped
    -- A job that ran in `s` ran in `base`, so the errors since `s` are errors since `base`.
    have quietLater : Quiet s t := fun j outcome ran returned => by
      refine quiet j outcome ?_ returned
      cases before : base.outcomeOf j with
      | none => rfl
      | some known => exact absurd (sound.since j known before) (by rw [ran]; simp)
    rw [drifts.contexts quietLater i running]
    exact sound.live (drifts.quiet quiet) jobDescriptor i mapped (drifts.runs running)

/-- The number of a job that is launched is new. -/
theorem lt_length (sound : Sound base s taken) {jobDescriptor : JobDescriptor} {i : Nat}
    (mapped : s.jobs.lookup jobDescriptor = some i) : i < s.heads.length := by
  obtain ⟨startBlock, started⟩ := sound.known jobDescriptor i mapped
  exact (List.getElem?_eq_some_iff.mp started).1

theorem launch (sound : Sound base s taken) {jobDescriptor : JobDescriptor}
    (missing : s.jobs.lookup jobDescriptor = none) (startBlock : UInt64) :
    Sound base (s.launch jobDescriptor startBlock) taken where
  since i outcome returned := by
    rw [outcomeOf_launch]
    exact sound.since i outcome returned
  known other i mapped := by
    rw [heads_launch]
    by_cases own : other = jobDescriptor
    · subst own
      obtain rfl := Option.some.inj ((lookup_launch_own s other startBlock).symm.trans mapped)
      exact ⟨startBlock, List.getElem?_concat_length⟩
    · rw [lookup_launch_other s jobDescriptor startBlock own] at mapped
      obtain ⟨block, started⟩ := sound.known other i mapped
      rw [List.getElem?_append_left (sound.lt_length mapped)]
      exact ⟨block, started⟩
  tracked other block i started running := by
    rw [outcomeOf_launch] at running
    rcases heads_launch_cases s jobDescriptor startBlock started with old | ⟨rfl, new⟩
    · rcases sound.tracked other block i old running with mapped | taken
      · have different : other ≠ jobDescriptor := by
          rintro rfl
          rw [missing] at mapped
          cases mapped
        rw [lookup_launch_other s jobDescriptor startBlock different]
        exact .inl mapped
      · exact .inr taken
    · cases new
      exact .inl (lookup_launch_own s jobDescriptor startBlock)
  live quiet other i mapped running := by
    by_cases own : other = jobDescriptor
    · subst own
      obtain rfl := Option.some.inj ((lookup_launch_own s other startBlock).symm.trans mapped)
      exact cancelledAt_launch_new s other startBlock
    · rw [lookup_launch_other s jobDescriptor startBlock own] at mapped
      rw [cancelledAt_launch_old s jobDescriptor startBlock (sound.lt_length mapped)]
      rw [outcomeOf_launch] at running
      have quietBefore : Quiet base s := fun j outcome ran returned =>
        quiet j outcome ran ((outcomeOf_launch s jobDescriptor startBlock j).trans returned)
      exact sound.live quietBefore other i mapped running

end Sound

/-- The jobs `fresh` are started: each was missing, is started once and is in the map; the rest of
the map is as before. -/
structure Starts (s t : ConfiguratorState) (fresh : List (JobDescriptor × UInt64)) : Prop where
  heads : t.heads = s.heads ++ fresh
  nodup : (fresh.map Prod.fst).Nodup
  missing : ∀ jobDescriptor ∈ fresh.map Prod.fst, s.jobs.lookup jobDescriptor = none
  mapped : ∀ jobDescriptor ∈ fresh.map Prod.fst, (t.jobs.lookup jobDescriptor).isSome
  kept : ∀ jobDescriptor, jobDescriptor ∉ fresh.map Prod.fst →
    t.jobs.lookup jobDescriptor = s.jobs.lookup jobDescriptor
  stay : RecordsStay s t

namespace Starts

variable {s t u : ConfiguratorState} {fresh more : List (JobDescriptor × UInt64)}

theorem of_drifts (drifts : Drifts s t) : Starts s t [] where
  heads := by rw [drifts.heads, List.append_nil]
  nodup := List.nodup_nil
  missing _ inside := by cases inside
  mapped _ inside := by cases inside
  kept jobDescriptor _ := by rw [drifts.jobs]
  stay := drifts.stay

/-- A descriptor of the map stays in it. -/
theorem isSome (starts : Starts s t fresh) {jobDescriptor : JobDescriptor}
    (mapped : (s.jobs.lookup jobDescriptor).isSome) : (t.jobs.lookup jobDescriptor).isSome := by
  by_cases new : jobDescriptor ∈ fresh.map Prod.fst
  · exact starts.mapped jobDescriptor new
  · rw [starts.kept jobDescriptor new]
    exact mapped

theorem trans (first : Starts s t fresh) (second : Starts t u more) :
    Starts s u (fresh ++ more) where
  heads := by rw [second.heads, first.heads, List.append_assoc]
  nodup := by
    rw [List.map_append]
    refine List.Nodup.append first.nodup second.nodup ?_
    intro jobDescriptor inFirst inSecond
    have mapped := first.mapped jobDescriptor inFirst
    rw [second.missing jobDescriptor inSecond] at mapped
    cases mapped
  missing jobDescriptor inside := by
    rw [List.map_append, List.mem_append] at inside
    by_cases inFirst : jobDescriptor ∈ fresh.map Prod.fst
    · exact first.missing jobDescriptor inFirst
    · rw [← first.kept jobDescriptor inFirst]
      exact second.missing jobDescriptor (inside.resolve_left inFirst)
  mapped jobDescriptor inside := by
    rw [List.map_append, List.mem_append] at inside
    rcases inside with inFirst | inSecond
    · exact second.isSome (first.mapped jobDescriptor inFirst)
    · exact second.mapped jobDescriptor inSecond
  kept jobDescriptor outside := by
    rw [List.map_append, List.mem_append, not_or] at outside
    rw [second.kept jobDescriptor outside.2, first.kept jobDescriptor outside.1]
  stay := first.stay.trans second.stay

theorem launch {jobDescriptor : JobDescriptor} (missing : s.jobs.lookup jobDescriptor = none)
    (startBlock : UInt64) :
    Starts s (s.launch jobDescriptor startBlock) [(jobDescriptor, startBlock)] where
  heads := heads_launch s jobDescriptor startBlock
  nodup := List.nodup_singleton jobDescriptor
  missing other inside := by
    rw [List.mem_singleton.mp inside]
    exact missing
  mapped other inside := by
    rw [List.mem_singleton.mp inside]
    exact Option.isSome_iff_exists.mpr ⟨_, lookup_launch_own s jobDescriptor startBlock⟩
  kept other outside :=
    lookup_launch_other s jobDescriptor startBlock (mt List.mem_singleton.mpr outside)
  stay _ stored := stored

end Starts

/-! ### The loop that starts what is missing -/

section StartMissing

variable {allowed : (query : ConfiguratorQuery) → ConfiguratorChoice query → Prop}
variable {base s : ConfiguratorState}

/-- Starting jobs failed: a query was refused, and no record was removed. -/
structure StartFailed (allowed : (query : ConfiguratorQuery) → ConfiguratorChoice query → Prop)
    (base s now : ConfiguratorState) : Prop where
  can : CanRefuse allowed
  stay : RecordsStay s now
  sound : Sound base now none

theorem StartFailed.after {middle now : ConfiguratorState}
    (failed : StartFailed allowed base middle now) (stay : RecordsStay s middle) :
    StartFailed allowed base s now :=
  ⟨failed.can, stay.trans failed.stay, failed.sound⟩

/-- `StartJob` for a descriptor that is not in the map. -/
theorem steady_startJob_missing (sound : Sound base s none) {jobDescriptor : JobDescriptor}
    (missing : s.jobs.lookup jobDescriptor = none) (startBlock : UInt64) :
    Steady allowed
      (fun later _ => Starts s later [(jobDescriptor, startBlock)] ∧ Sound base later none)
      (StartFailed allowed base s) (startJob jobDescriptor startBlock) s := by
  apply (steady_startJob jobDescriptor startBlock).weaken
  · rintro later _ ⟨now, before, after⟩
    have stillMissing : now.jobs.lookup jobDescriptor = none := by rw [before.jobs, missing]
    have starts := ((Starts.of_drifts before).trans (Starts.launch stillMissing startBlock)).trans
      (Starts.of_drifts after)
    exact ⟨starts, ((sound.drift before).launch stillMissing startBlock).drift after⟩
  · rintro now ⟨can, drifts⟩
    exact ⟨can, drifts.stay, sound.drift drifts⟩

/-- What was missing of a config has been started, at its start block. -/
structure StartedMissing (base s now : ConfiguratorState) (config : List JobDescriptor) : Prop where
  starts : ∃ fresh, Starts s now fresh ∧
    ∀ head ∈ fresh, head.1 ∈ config ∧ head.2 = head.1.startBlock
  all : ∀ jobDescriptor ∈ config, (now.jobs.lookup jobDescriptor).isSome
  sound : Sound base now none

theorem StartedMissing.drift {now later : ConfiguratorState} {config : List JobDescriptor}
    (started : StartedMissing base s now config) (drifts : Drifts now later) :
    StartedMissing base s later config := by
  obtain ⟨fresh, starts, fromConfig⟩ := started.starts
  refine ⟨⟨fresh, ?_, fromConfig⟩, ?_, started.sound.drift drifts⟩
  · exact List.append_nil fresh ▸ starts.trans (Starts.of_drifts drifts)
  · rw [drifts.jobs]
    exact started.all

/-- The head of a config is in the map, and the rest has been started. -/
theorem StartedMissing.cons {middle now : ConfiguratorState} {job : JobDescriptor}
    {config : List JobDescriptor} {first : List (JobDescriptor × UInt64)}
    (starts : Starts s middle first) (isHead : ∀ head ∈ first, head = (job, job.startBlock))
    (mapped : (middle.jobs.lookup job).isSome) (rest : StartedMissing base middle now config) :
    StartedMissing base s now (job :: config) := by
  obtain ⟨fresh, more, fromConfig⟩ := rest.starts
  refine ⟨⟨first ++ fresh, starts.trans more, ?_⟩, ?_, rest.sound⟩
  · intro head inside
    rcases List.mem_append.mp inside with inFirst | inRest
    · rw [isHead head inFirst]
      exact ⟨List.mem_cons_self, rfl⟩
    · obtain ⟨member, block⟩ := fromConfig head inRest
      exact ⟨List.mem_cons_of_mem job member, block⟩
  · intro jobDescriptor inside
    rcases List.mem_cons.mp inside with rfl | inRest
    · exact more.isSome mapped
    · exact rest.all jobDescriptor inRest

/-- The first loop of `ReloadConfig`. -/
theorem steady_startMissing (sound : Sound base s none) (config : List JobDescriptor) :
    Steady allowed (fun now _ => StartedMissing base s now config) (StartFailed allowed base s)
      (startMissing config) s := by
  induction config generalizing s with
  | nil =>
      apply steady_done
      intro now drifts
      refine ⟨⟨[], Starts.of_drifts drifts, ?_⟩, ?_, sound.drift drifts⟩
      · intro head inside
        cases inside
      · intro jobDescriptor inside
        cases inside
  | cons job config ih =>
      apply Steady.bind
      apply (steady_hasJob job).weaken _ fun _ failed => failed
      rintro now found ⟨before, answer⟩
      cases found with
      | false =>
          have missing : now.jobs.lookup job = none := by simpa using answer
          apply Steady.bind
          apply (steady_startJob_missing (sound.drift before) missing job.startBlock).wrapf.weaken
          · rintro later _ ⟨starts, soundLater⟩
            apply (ih soundLater).weaken
            · intro last _ rest
              have sinceStart := (Starts.of_drifts before).trans starts
              have mapped := starts.mapped job List.mem_cons_self
              exact rest.cons sinceStart (fun head inside => List.mem_singleton.mp inside) mapped
            · intro last failed
              exact failed.after (before.stay.trans starts.stay)
          · intro later failed
            exact failed.after before.stay
      | true =>
          apply (ih (sound.drift before)).weaken
          · intro last _ rest
            apply rest.cons (Starts.of_drifts before) _ answer
            intro head inside
            cases inside
          · intro last failed
            exact failed.after before.stay

end StartMissing

end MerkleProofService
