/-
Module: MerkleProofService.Library.ServedPrograms
Layer: Library
Purpose: Programs whose queries change the environment that serves them.  At each query the
  environment makes a choice, which decides its answer and the state it goes to.  A program is
  served to its end along a sequence of choices (`serve`), or one query at a time while others
  change the state in between (`ServedStep`); `Keeps` says what holds in every such run that ends
  with a value, `Settles` what holds whatever it ends with.  Both are proved along the program.
Imports: Library.Program, Mathlib.Logic.Relation
Trusted boundary: none
Main exports: Environment, Environment.restrict, Program.serve, Program.serve_bind_ok,
  Program.Keeps, Program.Keeps.bind, Program.Keeps.frame, Program.ServedStep, Program.exists_ended,
  Program.serve_run, Program.served_bind, Program.Settles, Program.Settles.bind,
  Program.Settles.run, Program.Settles.serve
-/
import MerkleProofService.Library.Program
import Mathlib.Logic.Relation

namespace MerkleProofService.Library

/-- How a query is served: its answer and the state after it, as the environment chooses. -/
structure Environment (State Query : Type) (Answer Choice : Query → Type) where
  answer : State → (query : Query) → Choice query → Answer query
  after : State → (query : Query) → Choice query → State

/-- The environment that makes only choices of one kind. -/
def Environment.restrict {State Query : Type} {Answer Choice : Query → Type}
    (env : Environment State Query Answer Choice)
    (allowed : (query : Query) → Choice query → Prop) :
    Environment State Query Answer
      fun query => { choice : Choice query // allowed query choice } where
  answer state query choice := env.answer state query choice.1
  after state query choice := env.after state query choice.1

namespace Program

variable {State Query : Type} {Answer Choice : Query → Type} {Failure α β : Type}
variable (env : Environment State Query Answer Choice)

/-- The program served to its end; `choices` are those made at its first query, its second and so
on. -/
def serve : (Nat → (query : Query) → Choice query) → State → Program Query Answer Failure α →
    Except Failure α × State
  | _, state, .done value => (.ok value, state)
  | _, state, .fail failure => (.error failure, state)
  | choices, state, .ask query next =>
      serve (fun number => choices (number + 1)) (env.after state query (choices 0 query))
        (next (env.answer state query (choices 0 query)))

section Serve

variable {env}
variable {program : Program Query Answer Failure α} {state after : State}
variable {choices : Nat → (query : Query) → Choice query}

/-- A sequence that ends with a value: its first part does, and the rest goes on with the choices
left over. -/
theorem serve_bind_ok {rest : α → Program Query Answer Failure β} {value : β}
    (served : serve env choices state (program.bind rest) = (.ok value, after)) :
    ∃ count first middle, serve env choices state program = (.ok first, middle) ∧
      serve env (fun number => choices (number + count)) middle (rest first) =
        (.ok value, after) := by
  induction program generalizing state choices with
  | done first => exact ⟨0, first, state, rfl, served⟩
  | fail failure => cases served
  | ask query next ih =>
      obtain ⟨count, first, middle, reached, rest⟩ := ih _ served
      exact ⟨count + 1, first, middle, reached, rest⟩

theorem serve_mapFail_ok {rewrite : Failure → Failure} {value : α}
    (served : serve env choices state (program.mapFail rewrite) = (.ok value, after)) :
    serve env choices state program = (.ok value, after) := by
  induction program generalizing state choices with
  | done first => exact served
  | fail failure => cases served
  | ask query next ih => exact ih _ served

end Serve

section Keeps

variable (rely guar : State → State → Prop)

/-- Whatever the environment chooses, and while others change the state as `rely` allows between
two queries, each query changes the state as `guar` says, and a value the program ends with
satisfies `post`. -/
def Keeps (post : State → α → Prop) : Program Query Answer Failure α → State → Prop
  | .done value, state => ∀ now, rely state now → post now value
  | .fail _, _ => True
  | .ask query next, state => ∀ now, rely state now → ∀ choice : Choice query,
      guar now (env.after now query choice) ∧
        Keeps post (next (env.answer now query choice)) (env.after now query choice)

variable {env rely guar}
variable {post : State → α → Prop} {post' : State → β → Prop}
variable {program : Program Query Answer Failure α} {state now : State}

/-- What others do before the first query changes nothing. -/
theorem Keeps.drift (trans : ∀ {s t u}, rely s t → rely t u → rely s u)
    (keeps : program.Keeps env rely guar post state) (drifts : rely state now) :
    program.Keeps env rely guar post now := by
  cases program with
  | done value => exact fun later drifts' => keeps later (trans drifts drifts')
  | fail failure => exact trivial
  | ask query next => exact fun later drifts' => keeps later (trans drifts drifts')

theorem Keeps.weaken {weaker : State → α → Prop}
    (implies : ∀ now value, post now value → weaker now value)
    (keeps : program.Keeps env rely guar post state) :
    program.Keeps env rely guar weaker state := by
  induction program generalizing state with
  | done value => exact fun now drifts => implies now value (keeps now drifts)
  | fail failure => exact trivial
  | ask query next ih =>
      intro now drifts choice
      exact ⟨(keeps now drifts choice).1, ih _ (keeps now drifts choice).2⟩

theorem Keeps.bind {rest : α → Program Query Answer Failure β} (refl : ∀ s, rely s s)
    (first : program.Keeps env rely guar
      (fun now value => (rest value).Keeps env rely guar post' now) state) :
    (program.bind rest).Keeps env rely guar post' state := by
  induction program generalizing state with
  | done value => exact first state (refl state)
  | fail failure => exact trivial
  | ask query next ih =>
      intro now drifts choice
      exact ⟨(first now drifts choice).1, ih _ (first now drifts choice).2⟩

theorem Keeps.mapFail {rewrite : Failure → Failure}
    (keeps : program.Keeps env rely guar post state) :
    (program.mapFail rewrite).Keeps env rely guar post state := by
  induction program generalizing state with
  | done value => exact keeps
  | fail failure => exact trivial
  | ask query next ih =>
      intro now drifts choice
      exact ⟨(keeps now drifts choice).1, ih _ (keeps now drifts choice).2⟩

theorem keeps_ofExcept {outcome : Except Failure α}
    (holds : ∀ value, outcome = .ok value → ∀ now, rely state now → post now value) :
    (ofExcept outcome : Program Query Answer Failure α).Keeps env rely guar post state := by
  cases outcome with
  | ok value => exact holds value rfl
  | error failure => exact trivial

/-- Two guarantees and postconditions together. -/
theorem Keeps.and {guar' : State → State → Prop} {other : State → α → Prop}
    (one : program.Keeps env rely guar post state)
    (two : program.Keeps env rely guar' other state) :
    program.Keeps env rely (fun before after => guar before after ∧ guar' before after)
      (fun now value => post now value ∧ other now value) state := by
  induction program generalizing state with
  | done value => exact fun now drifts => ⟨one now drifts, two now drifts⟩
  | fail failure => exact trivial
  | ask query next ih =>
      intro now drifts choice
      obtain ⟨change, rest⟩ := one now drifts choice
      obtain ⟨change', rest'⟩ := two now drifts choice
      exact ⟨⟨change, change'⟩, ih _ rest rest'⟩

theorem Keeps.mono {weaker : State → State → Prop}
    (implies : ∀ before after, guar before after → weaker before after)
    (keeps : program.Keeps env rely guar post state) :
    program.Keeps env rely weaker post state := by
  induction program generalizing state with
  | done value => exact keeps
  | fail failure => exact trivial
  | ask query next ih =>
      intro now drifts choice
      obtain ⟨change, rest⟩ := keeps now drifts choice
      exact ⟨implies _ _ change, ih _ rest⟩

/-- What neither the program nor the others change holds at the end as well. -/
theorem Keeps.frame (held : State → Prop) (relied : ∀ {s t}, held s → rely s t → held t)
    (guaranteed : ∀ {s t}, held s → guar s t → held t) (holds : held state)
    (keeps : program.Keeps env rely guar post state) :
    program.Keeps env rely guar (fun now value => held now ∧ post now value) state := by
  induction program generalizing state with
  | done value => exact fun now drifts => ⟨relied holds drifts, keeps now drifts⟩
  | fail failure => exact trivial
  | ask query next ih =>
      intro now drifts choice
      obtain ⟨change, rest⟩ := keeps now drifts choice
      exact ⟨change, ih _ (guaranteed (relied holds drifts) change) rest⟩

/-- A program whose queries all change the state as `guar` says. -/
theorem Asks.keeps {allowed : Query → Prop} {good : α → Prop}
    (guaranteed : ∀ state query (choice : Choice query), allowed query →
      guar state (env.after state query choice))
    (asks : program.Asks allowed good) (state : State) :
    program.Keeps env rely guar (fun _ value => good value) state := by
  induction program generalizing state with
  | done value => exact fun _ _ => asks
  | fail failure => exact trivial
  | ask query next ih =>
      exact fun now _ choice => ⟨guaranteed now query choice asks.1, ih _ (asks.2 _) _⟩

end Keeps

/-! ### Runs with others, and both outcomes -/

section Settles

variable (rely : State → State → Prop)

/-- One step of a program whose queries are served while others act. -/
inductive ServedStep (others : State → State → Prop) :
    State × Program Query Answer Failure α → State × Program Query Answer Failure α → Prop where
  | serve {s : State} {query : Query} {next : Answer query → Program Query Answer Failure α}
      (choice : Choice query) :
      ServedStep others (s, .ask query next)
        (env.after s query choice, next (env.answer s query choice))
  | others {s t : State} {program : Program Query Answer Failure α} (moved : others s t) :
      ServedStep others (s, program) (t, program)

/-- Whatever the environment chooses and others do, the program ends with an outcome, a value or a
failure, that satisfies `post`. -/
def Settles (post : State → Except Failure α → Prop) (program : Program Query Answer Failure α)
    (state : State) : Prop :=
  program.attempt.Keeps env rely (fun _ _ => True) post state

/-- The program has ended. -/
def Ended : Program Query Answer Failure α → Prop
  | .done _ | .fail _ => True
  | .ask _ _ => False

/-- A program served to its end, as such steps. -/
theorem serve_run (choices : Nat → (query : Query) → Choice query)
    (others : State → State → Prop) (s : State) (program : Program Query Answer Failure α) :
    Relation.ReflTransGen (ServedStep env others) (s, program)
      ((serve env choices s program).2, ofExcept (serve env choices s program).1) := by
  induction program generalizing s choices with
  | done value => exact .refl
  | fail failure => exact .refl
  | ask query next ih => exact .head (.serve (choices 0 query)) (ih _ _ _)

variable {env rely}

/-- If the environment has a choice at every query, the program can be served to its end. -/
theorem exists_ended (choose : ∀ query, Choice query) (others : State → State → Prop) (s : State)
    (program : Program Query Answer Failure α) :
    ∃ t rest, Relation.ReflTransGen (ServedStep env others) (s, program) (t, rest) ∧
      rest.Ended := by
  induction program generalizing s with
  | done value => exact ⟨s, .done value, .refl, trivial⟩
  | fail failure => exact ⟨s, .fail failure, .refl, trivial⟩
  | ask query next ih =>
      obtain ⟨t, rest, run, ended⟩ :=
        ih (env.answer s query (choose query)) (env.after s query (choose query))
      exact ⟨t, rest, .head (.serve (choose query)) run, ended⟩

/-- What a program does is what it does at the start of a sequence. -/
theorem served_bind {others : State → State → Prop} {s t : State}
    {program left : Program Query Answer Failure α} (rest : α → Program Query Answer Failure β)
    (run : Relation.ReflTransGen (ServedStep env others) (s, program) (t, left)) :
    Relation.ReflTransGen (ServedStep env others) (s, program.bind rest) (t, left.bind rest) := by
  refine Relation.ReflTransGen.lift
    (fun place : State × Program Query Answer Failure α => (place.1, place.2.bind rest)) ?_ _ _ run
  rintro _ _ (choice | moved)
  · exact .serve choice
  · exact .others moved

theorem served_mapFail {others : State → State → Prop} {s t : State}
    {program left : Program Query Answer Failure α} (rewrite : Failure → Failure)
    (run : Relation.ReflTransGen (ServedStep env others) (s, program) (t, left)) :
    Relation.ReflTransGen (ServedStep env others) (s, program.mapFail rewrite)
      (t, left.mapFail rewrite) := by
  refine Relation.ReflTransGen.lift
    (fun place : State × Program Query Answer Failure α => (place.1, place.2.mapFail rewrite))
    ?_ _ _ run
  rintro _ _ (choice | moved)
  · exact .serve choice
  · exact .others moved

variable {post : State → Except Failure α → Prop} {post' : State → Except Failure β → Prop}
variable {program : Program Query Answer Failure α} {s t : State}

theorem settles_done {value : α} (holds : ∀ now, rely s now → post now (.ok value)) :
    (.done value : Program Query Answer Failure α).Settles env rely post s :=
  holds

theorem settles_fail {failure : Failure} (holds : ∀ now, rely s now → post now (.error failure)) :
    (.fail failure : Program Query Answer Failure α).Settles env rely post s :=
  holds

theorem settles_ask {query : Query} {next : Answer query → Program Query Answer Failure α}
    (served : ∀ now, rely s now → ∀ choice,
      (next (env.answer now query choice)).Settles env rely post (env.after now query choice)) :
    (.ask query next : Program Query Answer Failure α).Settles env rely post s :=
  fun now drifts choice => ⟨trivial, served now drifts choice⟩

theorem Settles.drift (trans : ∀ {s t u}, rely s t → rely t u → rely s u)
    (settles : program.Settles env rely post s) (drifts : rely s t) :
    program.Settles env rely post t :=
  Keeps.drift trans settles drifts

theorem Settles.weaken {weaker : State → Except Failure α → Prop}
    (implies : ∀ now outcome, post now outcome → weaker now outcome)
    (settles : program.Settles env rely post s) : program.Settles env rely weaker s :=
  Keeps.weaken implies settles

/-- A sequence: the first part ends with a failure that satisfies `post'`, or with a value from
which the rest settles. -/
theorem Settles.bind {rest : α → Program Query Answer Failure β} (refl : ∀ s, rely s s)
    (first : program.Settles env rely (fun now outcome =>
      match outcome with
      | .ok value => (rest value).Settles env rely post' now
      | .error failure => post' now (.error failure)) s) :
    (program.bind rest).Settles env rely post' s := by
  induction program generalizing s with
  | done value => exact first s (refl s)
  | fail failure => exact first
  | ask query next ih =>
      intro now drifts choice
      exact ⟨trivial, ih _ (first now drifts choice).2⟩

theorem Settles.mapFail {rewrite : Failure → Failure}
    (settles : program.Settles env rely (fun now outcome =>
      post now (outcome.mapError rewrite)) s) :
    (program.mapFail rewrite).Settles env rely post s := by
  induction program generalizing s with
  | done value => exact settles
  | fail failure => exact settles
  | ask query next ih =>
      intro now drifts choice
      exact ⟨trivial, ih _ (settles now drifts choice).2⟩

/-- What a program settles holds in every state of a run in which others do what `rely` allows. -/
theorem Settles.run {others : State → State → Prop} (allowed : ∀ {s t}, others s t → rely s t)
    (refl : ∀ s, rely s s) (trans : ∀ {s t u}, rely s t → rely t u → rely s u)
    {rest : Program Query Answer Failure α} (settles : program.Settles env rely post s)
    (run : Relation.ReflTransGen (ServedStep env others) (s, program) (t, rest)) :
    rest.Settles env rely post t := by
  generalize reached : (t, rest) = last at run
  induction run generalizing t rest with
  | refl =>
      obtain ⟨rfl, rfl⟩ := Prod.mk.inj reached
      exact settles
  | tail _ step ih =>
      cases step with
      | serve choice =>
          obtain ⟨rfl, rfl⟩ := Prod.mk.inj reached
          exact ((ih rfl) _ (refl _) choice).2
      | others moved =>
          obtain ⟨rfl, rfl⟩ := Prod.mk.inj reached
          exact (ih rfl).drift trans (allowed moved)

/-- What a program settles holds of its outcome when it is served to its end. -/
theorem Settles.serve (refl : ∀ s, rely s s) (trans : ∀ {s t u}, rely s t → rely t u → rely s u)
    (settles : program.Settles env rely post s)
    (choices : Nat → (query : Query) → Choice query) :
    post (program.serve env choices s).2 (program.serve env choices s).1 := by
  have run := serve_run env choices (fun _ _ => False) s program
  have ended := settles.run nofun refl trans run
  cases outcome : (program.serve env choices s).1 with
  | ok value =>
      rw [outcome] at ended
      exact ended _ (refl _)
  | error failure =>
      rw [outcome] at ended
      exact ended _ (refl _)

end Settles

end Program

end MerkleProofService.Library
