/-
Module: MerkleProofService.Library.StatefulPrograms
Layer: Library
Purpose: Programs that work on a state of their own, and programs in lockstep.  The state a stateful
  program has reached is there also where it fails.  Two programs are in lockstep if they ask the
  same queries, whatever they are answered, and end alike: this is how a program is compared with
  one that works on another state.
Imports: Library.Program
Trusted boundary: none
Main exports: Program.Lockstep, Program.Lockstep.bind, Program.Lockstep.map_eq, Stateful,
  Stateful.ofProgram, Stateful.Alike, Stateful.lockstep_bind, Stateful.Ending, Stateful.asks_bind
-/
import MerkleProofService.Library.Program

namespace MerkleProofService.Library

variable {Query : Type} {Answer : Query → Type} {Failure : Type} {α β γ δ : Type}

/-! ### Lockstep -/

/-- The programs ask the same queries in the same order, whatever they are answered, and end with
related values or with the same failure. -/
inductive Program.Lockstep (related : α → β → Prop) :
    Program Query Answer Failure α → Program Query Answer Failure β → Prop where
  | done {first : α} {second : β} (holds : related first second) :
      Lockstep related (.done first) (.done second)
  | fail (failure : Failure) : Lockstep related (.fail failure) (.fail failure)
  | ask {query : Query} {next : Answer query → Program Query Answer Failure α}
      {next' : Answer query → Program Query Answer Failure β}
      (each : ∀ answer, Lockstep related (next answer) (next' answer)) :
      Lockstep related (.ask query next) (.ask query next')

namespace Program.Lockstep

variable {related : α → β → Prop} {first : Program Query Answer Failure α}
variable {second : Program Query Answer Failure β}

theorem refl (program : Program Query Answer Failure α) :
    Lockstep (fun value other => value = other) program program := by
  induction program with
  | done value => exact .done rfl
  | fail failure => exact .fail failure
  | ask query next ih => exact .ask ih

theorem bind {related' : γ → δ → Prop} {rest : α → Program Query Answer Failure γ}
    {rest' : β → Program Query Answer Failure δ} (lockstep : Lockstep related first second)
    (next : ∀ value other, related value other → Lockstep related' (rest value) (rest' other)) :
    Lockstep related' (first.bind rest) (second.bind rest') := by
  induction lockstep with
  | done holds => exact next _ _ holds
  | fail failure => exact .fail failure
  | ask each ih => exact .ask ih

theorem trans {related' : β → γ → Prop} {third : Program Query Answer Failure γ}
    (lockstep : Lockstep related first second) (lockstep' : Lockstep related' second third) :
    Lockstep (fun value last => ∃ other, related value other ∧ related' other last)
      first third := by
  induction lockstep generalizing third with
  | done holds =>
      cases lockstep' with
      | done holds' => exact .done ⟨_, holds, holds'⟩
  | fail failure =>
      cases lockstep' with
      | fail _ => exact .fail failure
  | ask each ih =>
      cases lockstep' with
      | ask each' => exact .ask fun answer => ih answer (each' answer)

/-- A program in lockstep with one whose values are a view of its own. -/
theorem map_eq (lockstep : Lockstep related first second) {view : α → β}
    (viewed : ∀ value other, related value other → view value = other) :
    view <$> first = second := by
  induction lockstep with
  | done holds => exact congrArg Program.done (viewed _ _ holds)
  | fail failure => rfl
  | ask each ih => exact congrArg (Program.ask _) (funext ih)

/-- What holds of the values of one program, read through the relation. -/
theorem asks (lockstep : Lockstep related first second) {allowed : Query → Prop}
    {post : β → Prop} {post' : α → Prop} (asks : second.Asks allowed post)
    (transfer : ∀ value other, related value other → post other → post' value) :
    first.Asks allowed post' := by
  induction lockstep with
  | done holds => exact transfer _ _ holds asks
  | fail failure => exact trivial
  | ask each ih => exact ⟨asks.1, fun answer => ih answer (asks.2 answer)⟩

end Program.Lockstep

/-! ### Programs on a state -/

/-- A program that works on a state; the state is there also where the program fails. -/
def Stateful (Query : Type) (Answer : Query → Type) (Failure State α : Type) : Type :=
  State → Program Query Answer Failure (Except Failure α × State)

namespace Stateful

variable {State Other : Type}

def bind (first : Stateful Query Answer Failure State α)
    (rest : α → Stateful Query Answer Failure State β) : Stateful Query Answer Failure State β :=
  fun s => (first s).bind fun ended =>
    match ended with
    | (.ok value, t) => rest value t
    | (.error failure, t) => .done (.error failure, t)

instance : Monad (Stateful Query Answer Failure State) where
  pure value := fun s => .done (.ok value, s)
  bind := Stateful.bind

/-- A program that reads the state and leaves it as it is. -/
def ofProgram (program : State → Program Query Answer Failure α) :
    Stateful Query Answer Failure State α :=
  fun s => (program s).attempt.bind fun outcome => .done (outcome, s)

/-- A step on the state that asks nothing. -/
def step (move : State → α × State) : Stateful Query Answer Failure State α :=
  fun s => .done (.ok (move s).1, (move s).2)

@[simp] theorem pure_apply (value : α) (s : State) :
    (pure value : Stateful Query Answer Failure State α) s = .done (.ok value, s) := rfl

@[simp] theorem step_bind (move : State → α × State)
    (rest : α → Stateful Query Answer Failure State β) (s : State) :
    (step move >>= rest) s = rest (move s).1 (move s).2 := rfl

theorem bind_of_done {first : Stateful Query Answer Failure State α}
    {rest : α → Stateful Query Answer Failure State β} {s t : State} {value : α}
    (returns : first s = .done (.ok value, t)) : (first >>= rest) s = rest value t := by
  change (first s).bind _ = _
  rw [returns]
  rfl

/-- Both programs returned, with related values and states, or both failed alike. -/
inductive Alike (related : α → State → β → Other → Prop) (failed : State → Other → Prop) :
    Except Failure α × State → Except Failure β × Other → Prop where
  | ok {value : α} {s : State} {other : β} {t : Other} (holds : related value s other t) :
      Alike related failed (.ok value, s) (.ok other, t)
  | error (failure : Failure) {s : State} {t : Other} (holds : failed s t) :
      Alike related failed (.error failure, s) (.error failure, t)

section Lockstep

variable {related : α → State → β → Other → Prop} {failed : State → Other → Prop}
variable {related' : γ → State → δ → Other → Prop} {s : State} {t : Other}

theorem lockstep_bind {first : Stateful Query Answer Failure State α}
    {second : Stateful Query Answer Failure Other β}
    {rest : α → Stateful Query Answer Failure State γ}
    {rest' : β → Stateful Query Answer Failure Other δ}
    (lockstep : (first s).Lockstep (Alike related failed) (second t))
    (next : ∀ value s' other t', related value s' other t' →
      (rest value s').Lockstep (Alike related' failed) (rest' other t')) :
    ((first >>= rest) s).Lockstep (Alike related' failed) ((second >>= rest') t) := by
  apply lockstep.bind
  intro ended ended' alike
  cases alike with
  | ok holds => exact next _ _ _ _ holds
  | error failure holds => exact .done (.error failure holds)

/-- The same program on two states. -/
theorem lockstep_ofProgram {program : State → Program Query Answer Failure α}
    {program' : Other → Program Query Answer Failure α} (same : program s = program' t)
    (holds : failed s t) :
    (ofProgram program s).Lockstep
      (Alike (fun value s' other t' => value = other ∧ s' = s ∧ t' = t) failed)
      (ofProgram program' t) := by
  rw [ofProgram, ofProgram, same]
  apply (Program.Lockstep.refl _).bind
  rintro outcome _ rfl
  cases outcome with
  | ok value => exact .done (.ok ⟨rfl, rfl, rfl⟩)
  | error failure => exact .done (.error failure holds)

end Lockstep

/-! ### A stateful program and one without the state -/

/-- A program without the state ends with what `view` tells of the end of a stateful one. -/
def Reports (view : α → State → β) (ended : Except Failure α × State)
    (outcome : Except Failure β) : Prop :=
  outcome = ended.1.map fun value => view value ended.2

theorem reports_ofProgram_bind {view : β → State → δ} {s : State}
    {program : State → Program Query Answer Failure α}
    {rest : α → Stateful Query Answer Failure State β} {rest' : α → Program Query Answer Failure δ}
    (next : ∀ value, (rest value s).Lockstep (Reports view) (rest' value).attempt) :
    ((ofProgram program >>= rest) s).Lockstep (Reports view)
      ((program s).bind rest').attempt := by
  change ((_ : Program Query Answer Failure _).bind _).Lockstep _ _
  rw [Program.attempt_bind, ofProgram, Program.bind_assoc]
  apply (Program.Lockstep.refl _).bind
  rintro outcome _ rfl
  cases outcome with
  | ok value => exact next value
  | error failure => exact .done rfl

theorem reports_bind {view : α → State → γ} {view' : β → State → δ} {s : State}
    {first : Stateful Query Answer Failure State α}
    {rest : α → Stateful Query Answer Failure State β} {program : Program Query Answer Failure γ}
    {rest' : γ → Program Query Answer Failure δ}
    (lockstep : (first s).Lockstep (Reports view) program.attempt)
    (next : ∀ value t, (rest value t).Lockstep (Reports view') (rest' (view value t)).attempt) :
    ((first >>= rest) s).Lockstep (Reports view') (program.bind rest').attempt := by
  rw [Program.attempt_bind]
  apply lockstep.bind
  rintro ⟨outcome, t⟩ _ rfl
  cases outcome with
  | ok value => exact next value t
  | error failure => exact .done rfl

/-! ### What holds at the end -/

/-- What holds where a program returns and where it fails. -/
def Ending (good : α → State → Prop) (bad : State → Prop) : Except Failure α × State → Prop
  | (.ok value, s) => good value s
  | (.error _, s) => bad s

theorem asks_ofProgram {program : State → Program Query Answer Failure α} {bad : State → Prop}
    {s : State} (holds : bad s) :
    (ofProgram program s).Asks (fun _ => True) (Ending (fun _ t => t = s) bad) := by
  apply (Program.asks_any _).bind
  intro outcome _
  cases outcome with
  | ok value => exact rfl
  | error failure => exact holds

theorem asks_bind {allowed : Query → Prop} {good : α → State → Prop} {bad : State → Prop}
    {good' : β → State → Prop} {first : Stateful Query Answer Failure State α}
    {rest : α → Stateful Query Answer Failure State β} {s : State}
    (asks : (first s).Asks allowed (Ending good bad))
    (next : ∀ value t, good value t → (rest value t).Asks allowed (Ending good' bad)) :
    ((first >>= rest) s).Asks allowed (Ending good' bad) := by
  apply asks.bind
  rintro ⟨outcome, t⟩ ends
  cases outcome with
  | ok value => exact next value t ends
  | error failure => exact ends

end Stateful

end MerkleProofService.Library
