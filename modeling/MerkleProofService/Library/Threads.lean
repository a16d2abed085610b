/-
Module: MerkleProofService.Library.Threads
Layer: Library
Purpose: Any number of threads that run programs on one shared memory.  A query of a thread waits or
  is served at once, and between two queries of a thread the others act.  A contract says what holds
  of the memory at all times, what a thread can rely on while others act, and what a query demands
  of the state it is made in.  Programs are proved by pre- and postconditions that what others do
  leaves true (`Triple`); threads proved one by one keep the contract together, in every
  interleaving.
Imports: Library.Program, Mathlib.Logic.Relation
Trusted boundary: none
Main exports: SharedMemory, ThreadStep, ThreadContract, Stable, Serves, Triple, triple_done,
  triple_ask, triple_query, Triple.bind, Triple.weaken, AllSecured, AllSecured.run,
  AllSecured.demands, threadMove
-/
import MerkleProofService.Library.Program
import Mathlib.Logic.Function.Basic
import Mathlib.Logic.Relation

namespace MerkleProofService.Library

variable {Thread State Query : Type} {Answer : Query → Type} {Failure α β : Type}

/-- A memory threads work on: the answer to a query of a thread and the state after it, or `none`
while the thread has to wait. -/
abbrev SharedMemory (Thread State Query : Type) (Answer : Query → Type) :=
  Thread → State → (query : Query) → Option (Answer query × State)

/-- One query of one thread is served. -/
def ThreadStep [DecidableEq Thread] (memory : SharedMemory Thread State Query Answer)
    (before after : State × (Thread → Program Query Answer Failure α)) : Prop :=
  ∃ thread query next answer, before.2 thread = .ask query next ∧
    memory thread before.1 query = some (answer, after.1) ∧
    after.2 = Function.update before.2 thread (next answer)

/-- What threads promise each other. -/
structure ThreadContract (Thread State Query : Type) where
  /-- What holds of the memory at all times. -/
  inv : State → Prop
  /-- What becomes of the memory while the other threads act. -/
  rely : Thread → State → State → Prop
  /-- What holds when a thread makes a query. -/
  demands : Thread → State → Query → Prop
  refl : ∀ thread s, rely thread s s
  trans : ∀ {thread s t u}, rely thread s t → rely thread t u → rely thread s u

variable (memory : SharedMemory Thread State Query Answer)
variable (contract : ThreadContract Thread State Query) (thread : Thread)

/-- The program of the thread keeps the contract from the state on, does not fail, and what it ends
with satisfies `post`. -/
def Program.Secured (post : α → State → Prop) : Program Query Answer Failure α → State → Prop
  | .done value, s => ∀ now, contract.inv now → contract.rely thread s now → post value now
  | .fail _, _ => False
  | .ask query next, s => ∀ now, contract.inv now → contract.rely thread s now →
      contract.demands thread now query ∧
        ∀ answer after, memory thread now query = some (answer, after) →
          (contract.inv after ∧ ∀ other, other ≠ thread → contract.rely other now after) ∧
            Secured post (next answer) after

/-- What the other threads leave true. -/
def Stable (pre : State → Prop) : Prop :=
  ∀ s t, contract.inv t → contract.rely thread s t → pre s → pre t

/-- A query made where `pre` holds keeps the contract and leaves `post`. -/
def Serves (pre : State → Prop) (query : Query) (post : Answer query → State → Prop) : Prop :=
  ∀ now, contract.inv now → pre now → contract.demands thread now query ∧
    ∀ answer after, memory thread now query = some (answer, after) →
      (contract.inv after ∧ ∀ other, other ≠ thread → contract.rely other now after) ∧
        post answer after

/-- Where `pre` holds, the program keeps the contract, does not fail, and ends with `post`. -/
def Triple (pre : State → Prop) (program : Program Query Answer Failure α)
    (post : α → State → Prop) : Prop :=
  ∀ s, contract.inv s → pre s → program.Secured memory contract thread post s

section Rules

variable {memory contract thread}
variable {program : Program Query Answer Failure α} {pre : State → Prop} {post : α → State → Prop}

theorem Program.Secured.drift {s t : State}
    (secured : program.Secured memory contract thread post s)
    (drifts : contract.rely thread s t) : program.Secured memory contract thread post t := by
  cases program with
  | done value => exact fun now holds later => secured now holds (contract.trans drifts later)
  | fail failure => exact secured
  | ask query next => exact fun now holds later => secured now holds (contract.trans drifts later)

theorem Program.Secured.weaken {weaker : α → State → Prop} {s : State}
    (implies : ∀ value now, contract.inv now → post value now → weaker value now)
    (secured : program.Secured memory contract thread post s) :
    program.Secured memory contract thread weaker s := by
  induction program generalizing s with
  | done value =>
      exact fun now holds drifts => implies value now holds (secured now holds drifts)
  | fail failure => exact secured
  | ask query next ih =>
      intro now holds drifts
      obtain ⟨demanded, served⟩ := secured now holds drifts
      refine ⟨demanded, fun answer after answered => ?_⟩
      obtain ⟨kept, rest⟩ := served answer after answered
      exact ⟨kept, ih answer rest⟩

theorem Program.Secured.bind {rest : α → Program Query Answer Failure β}
    {post' : β → State → Prop} {s : State} (holds : contract.inv s)
    (first : program.Secured memory contract thread
      (fun value now => (rest value).Secured memory contract thread post' now) s) :
    (program.bind rest).Secured memory contract thread post' s := by
  induction program generalizing s with
  | done value => exact first s holds (contract.refl thread s)
  | fail failure => exact first
  | ask query next ih =>
      intro now holdsNow drifts
      obtain ⟨demanded, served⟩ := first now holdsNow drifts
      refine ⟨demanded, fun answer after answered => ?_⟩
      obtain ⟨kept, restSecured⟩ := served answer after answered
      exact ⟨kept, ih answer kept.1 restSecured⟩

theorem triple_done {value : α} (stable : Stable contract thread pre)
    (holds : ∀ s, contract.inv s → pre s → post value s) :
    Triple memory contract thread pre (.done value : Program Query Answer Failure α) post :=
  fun s _ before now inv drifts => holds now inv (stable s now inv drifts before)

/-- A query and what follows its answer. -/
theorem triple_ask {query : Query} {next : Answer query → Program Query Answer Failure α}
    {middle : Answer query → State → Prop} (stable : Stable contract thread pre)
    (serves : Serves memory contract thread pre query middle)
    (rest : ∀ answer, Triple memory contract thread (middle answer) (next answer) post) :
    Triple memory contract thread pre (.ask query next) post := by
  intro s _ before now holds drifts
  obtain ⟨demanded, served⟩ := serves now holds (stable s now holds drifts before)
  refine ⟨demanded, fun answer after answered => ?_⟩
  obtain ⟨kept, reached⟩ := served answer after answered
  exact ⟨kept, rest answer after kept.1 reached⟩

/-- A query whose answer is what the program ends with. -/
theorem triple_query {query : Query} {result : Answer query → α}
    (stable : Stable contract thread pre)
    (serves : Serves memory contract thread pre query fun answer => post (result answer))
    (stableAfter : ∀ value, Stable contract thread (post value)) :
    Triple memory contract thread pre
      (.ask query fun answer => .done (result answer) : Program Query Answer Failure α) post :=
  triple_ask stable serves fun answer => triple_done (stableAfter (result answer)) fun _ _ => id

/-- A sequence. -/
theorem Triple.bind {rest : α → Program Query Answer Failure β} {middle : α → State → Prop}
    {post' : β → State → Prop} (first : Triple memory contract thread pre program middle)
    (second : ∀ value, Triple memory contract thread (middle value) (rest value) post') :
    Triple memory contract thread pre (program.bind rest) post' := by
  intro s holds before
  apply Program.Secured.bind holds
  exact (first s holds before).weaken fun value now holdsNow reached =>
    second value now holdsNow reached

theorem Triple.weaken {stronger : State → Prop} {weaker : α → State → Prop}
    (triple : Triple memory contract thread pre program post)
    (before : ∀ s, contract.inv s → stronger s → pre s)
    (after : ∀ value s, contract.inv s → post value s → weaker value s) :
    Triple memory contract thread stronger program weaker :=
  fun s holds starts => (triple s holds (before s holds starts)).weaken after

end Rules

/-! ### Threads together -/

section Run

variable {memory contract}
variable {post : Thread → α → State → Prop}
variable {before after : State × (Thread → Program Query Answer Failure α)}

/-- The memory keeps its invariant, and each thread keeps the contract from here on. -/
def AllSecured (memory : SharedMemory Thread State Query Answer)
    (contract : ThreadContract Thread State Query) (post : Thread → α → State → Prop)
    (place : State × (Thread → Program Query Answer Failure α)) : Prop :=
  contract.inv place.1 ∧
    ∀ thread, (place.2 thread).Secured memory contract thread (post thread) place.1

/-- No thread has failed. -/
theorem AllSecured.not_fail (secured : AllSecured memory contract post after) (thread : Thread)
    (failure : Failure) : after.2 thread ≠ .fail failure := by
  intro failed
  have own := secured.2 thread
  rw [failed] at own
  exact own

/-- What a query demands holds whenever it is made. -/
theorem AllSecured.demands (secured : AllSecured memory contract post after) {thread : Thread}
    {query : Query} {next : Answer query → Program Query Answer Failure α}
    (asks : after.2 thread = .ask query next) : contract.demands thread after.1 query := by
  have own := secured.2 thread
  rw [asks] at own
  exact (own after.1 secured.1 (contract.refl thread after.1)).1

variable [DecidableEq Thread]

/-- One step of a thread: its program goes on as it promised, and the others relied on no more. -/
theorem AllSecured.step (secured : AllSecured memory contract post before)
    (step : ThreadStep memory before after) : AllSecured memory contract post after := by
  obtain ⟨holds, each⟩ := secured
  obtain ⟨thread, query, next, answer, asks, served, others⟩ := step
  have own := each thread
  rw [asks] at own
  obtain ⟨_, goesOn⟩ := own before.1 holds (contract.refl thread before.1)
  obtain ⟨⟨kept, relied⟩, rest⟩ := goesOn answer after.1 served
  refine ⟨kept, fun other => ?_⟩
  rw [others]
  by_cases same : other = thread
  · subst same
    rw [Function.update_self]
    exact rest
  · rw [Function.update_of_ne same]
    exact (each other).drift (relied other same)

/-- Threads proved one by one keep the contract together. -/
theorem AllSecured.run (secured : AllSecured memory contract post before)
    (run : Relation.ReflTransGen (ThreadStep memory) before after) :
    AllSecured memory contract post after := by
  induction run with
  | refl => exact secured
  | tail _ step ih => exact ih.step step

/-- The next query of a thread is served, if there is one and it need not wait. -/
def threadMove (memory : SharedMemory Thread State Query Answer)
    (before : State × (Thread → Program Query Answer Failure α)) (thread : Thread) :
    Option (State × (Thread → Program Query Answer Failure α)) :=
  match before.2 thread with
  | .ask query next =>
      (memory thread before.1 query).map fun served =>
        (served.2, Function.update before.2 thread (next served.1))
  | .done _ | .fail _ => none

theorem threadMove_step {thread : Thread} (moved : threadMove memory before thread = some after) :
    ThreadStep memory before after := by
  unfold threadMove at moved
  cases asks : before.2 thread with
  | done value =>
      rw [asks] at moved
      cases moved
  | fail failure =>
      rw [asks] at moved
      cases moved
  | ask query next =>
      rw [asks] at moved
      obtain ⟨⟨answer, state⟩, served, rfl⟩ := Option.map_eq_some_iff.mp moved
      exact ⟨thread, query, next, answer, asks, served, rfl⟩

end Run

end MerkleProofService.Library
