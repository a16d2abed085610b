/-
Module: MerkleProofService.Library.TracedRuns
Layer: Library
Purpose: Steps that show an event or nothing, the trace of the events shown along a run, and two
  systems of which one follows the events of the other.  A property of a trace says of every event
  what the events before it make right (`EachEvent`); it is kept by showing one more such event.
Imports: Mathlib.Logic.Relation
Trusted boundary: none
Main exports: Traced, Traced.Step, Traced.run_cons, Traced.invariant, Traced.simulates, EachEvent,
  eachEvent_snoc, Follows
-/
import Mathlib.Logic.Relation

namespace MerkleProofService.Library

universe u v w

variable {State : Type u} {Event : Type v} {Other : Type w}

/-- A state with the events that were shown on the way to it. -/
structure Traced (State : Type u) (Event : Type v) where
  state : State
  trace : List Event

/-- One step, and what it shows added to the trace. -/
def Traced.Step (step : State → Option Event → State → Prop) (before after : Traced State Event) :
    Prop :=
  ∃ shown, step before.state shown after.state ∧ after.trace = before.trace ++ shown.toList

/-- The state and the trace after a move, given what the move shows. -/
def Traced.move {Move : Type w} (move : State → Move → Option (Option Event × State))
    (traced : Traced State Event) (made : Move) : Option (Traced State Event) :=
  (move traced.state made).map fun shown => ⟨shown.2, traced.trace ++ shown.1.toList⟩

theorem Traced.move_step {Move : Type w} {move : State → Move → Option (Option Event × State)}
    {step : State → Option Event → State → Prop}
    (sound : ∀ s made shown t, move s made = some (shown, t) → step s shown t)
    {before after : Traced State Event} {made : Move}
    (moved : before.move move made = some after) : Traced.Step step before after := by
  obtain ⟨⟨shown, state⟩, chosen, rfl⟩ := Option.map_eq_some_iff.mp moved
  exact ⟨shown, sound _ made shown state chosen, rfl⟩

section Runs

variable {step : State → Option Event → State → Prop} {before after : Traced State Event}

/-- A step and a run from where it leads. -/
theorem Traced.run_cons {s t : State} {shown : Option Event} {trace : List Event}
    (first : step s shown t)
    (rest : Relation.ReflTransGen (Traced.Step step) ⟨t, trace ++ shown.toList⟩ after) :
    Relation.ReflTransGen (Traced.Step step) ⟨s, trace⟩ after :=
  .head ⟨shown, first, rfl⟩ rest

/-- What every step keeps of the state and the trace, the whole run keeps. -/
theorem Traced.invariant {holds : State → List Event → Prop}
    (keeps : ∀ {s shown t trace}, holds s trace → step s shown t →
      holds t (trace ++ shown.toList))
    (run : Relation.ReflTransGen (Traced.Step step) before after)
    (start : holds before.state before.trace) : holds after.state after.trace := by
  induction run with
  | refl => exact start
  | tail _ last ih =>
      obtain ⟨shown, moved, same⟩ := last
      exact same ▸ keeps ih moved

/-- A system whose steps are steps of another one, or show nothing and stand still there, has the
traces of the other one. -/
theorem Traced.simulates {other : Other → Option Event → Other → Prop} {view : State → Other}
    {holds : State → Prop} (keeps : ∀ {s shown t}, holds s → step s shown t → holds t)
    (matched : ∀ {s shown t}, holds s → step s shown t →
      (shown = none ∧ view t = view s) ∨ other (view s) shown (view t))
    (run : Relation.ReflTransGen (Traced.Step step) before after) (start : holds before.state) :
    Relation.ReflTransGen (Traced.Step other) ⟨view before.state, before.trace⟩
      ⟨view after.state, after.trace⟩ := by
  have both : holds after.state ∧ Relation.ReflTransGen (Traced.Step other)
      ⟨view before.state, before.trace⟩ ⟨view after.state, after.trace⟩ := by
    induction run with
    | refl => exact ⟨start, .refl⟩
    | tail _ last ih =>
        obtain ⟨shown, moved, same⟩ := last
        refine ⟨keeps ih.1 moved, ?_⟩
        rcases matched ih.1 moved with ⟨rfl, still⟩ | moves
        · rw [same, still, Option.toList_none, List.append_nil]
          exact ih.2
        · exact ih.2.tail ⟨shown, moves, same⟩
  exact both.2

end Runs

/-! ### Properties of traces -/

/-- Every event of the trace is right after the events before it. -/
def EachEvent (right : List Event → Event → Prop) (trace : List Event) : Prop :=
  ∀ before event after, trace = before ++ event :: after → right before event

theorem eachEvent_nil (right : List Event → Event → Prop) : EachEvent right [] := by
  intro before event after split
  cases before <;> cases split

theorem eachEvent_snoc {right : List Event → Event → Prop} {trace : List Event} {event : Event} :
    EachEvent right (trace ++ [event]) ↔ EachEvent right trace ∧ right trace event := by
  constructor
  · intro each
    refine ⟨fun before other after split => ?_, each trace event [] rfl⟩
    exact each before other (after ++ [event]) (by rw [split, List.append_assoc, List.cons_append])
  · rintro ⟨each, last⟩ before other after split
    rcases List.eq_nil_or_concat after with rfl | ⟨rest, final, rfl⟩
    · obtain ⟨same, equal⟩ := List.append_inj' split rfl
      obtain rfl := same
      obtain rfl := (List.cons.inj equal).1
      exact last
    · rw [List.concat_eq_append, ← List.cons_append, ← List.append_assoc] at split
      exact each before other rest (List.append_inj_left' split rfl)

/-! ### Following the events of another system -/

/-- A system whose events another one follows.  Steps that show nothing leave the other one as it
is, and the other one may move alone. -/
inductive Follows (step : State → Option Event → State → Prop)
    (accepts : Other → Event → Other → Prop) (alone : Other → Other → Prop) :
    State × Other → Option Event → State × Other → Prop where
  | silent {s s' : State} {t : Other} (moved : step s none s') :
      Follows step accepts alone (s, t) none (s', t)
  | shown {s s' : State} {t t' : Other} {event : Event} (moved : step s (some event) s')
      (accepted : accepts t event t') :
      Follows step accepts alone (s, t) (some event) (s', t')
  | alone {s : State} {t t' : Other} (moved : alone t t') :
      Follows step accepts alone (s, t) none (s, t')

end MerkleProofService.Library
