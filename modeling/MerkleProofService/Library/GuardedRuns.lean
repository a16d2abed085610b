/-
Module: MerkleProofService.Library.GuardedRuns
Layer: Library
Purpose: Runs of a step relation whose steps all meet a condition, the invariant rule for them, and
  runs made by playing a list of moves, so that a concrete run can be evaluated.
Imports: Mathlib.Logic.Relation
Trusted boundary: none
Main exports: GuardedRun.steps, GuardedRun.invariant, play, played,
  run_of_played
-/
import Mathlib.Logic.Relation

namespace MerkleProofService.Library

universe u v

variable {State : Type u} {step guard : State → State → Prop} {before after : State}

namespace GuardedRun

/-- A guarded run is a run. -/
theorem steps (run : Relation.ReflTransGen (fun s t => step s t ∧ guard s t) before after) :
    Relation.ReflTransGen step before after := by
  induction run with
  | refl => exact .refl
  | tail _ last ih => exact ih.tail last.1

/-- What every step that meets the condition keeps, the whole run keeps. -/
theorem invariant {holds : State → Prop}
    (keeps : ∀ {s t}, holds s → step s t → guard s t → holds t)
    (run : Relation.ReflTransGen (fun s t => step s t ∧ guard s t) before after)
    (start : holds before) : holds after := by
  induction run with
  | refl => exact start
  | tail _ last ih => exact keeps ih last.1 last.2

end GuardedRun

section Play

variable (guard) {Move : Type v} (move : State → Move → Option State)
variable [∀ s t, Decidable (guard s t)]

/-- The state a list of moves leads to, if each of them can be made and meets the condition. -/
def play : List Move → State → Option State
  | [], state => some state
  | first :: moves, state =>
      (move state first).bind fun next => if guard state next then play moves next else none

/-- The state reached by moves that can all be made. -/
def played (moves : List Move) (state : State) : State :=
  (play guard move moves state).getD state

variable {move} {guard}

theorem run_of_play {moves : List Move} (played : play guard move moves before = some after)
    (sound : ∀ s t made, move s made = some t → step s t) :
    Relation.ReflTransGen (fun s t => step s t ∧ guard s t) before after := by
  induction moves generalizing before with
  | nil =>
      obtain rfl := Option.some.inj played
      exact .refl
  | cons first moves ih =>
      rcases Option.bind_eq_some_iff.mp played with ⟨next, made, rest⟩
      by_cases meets : guard before next
      · rw [if_pos meets] at rest
        exact .head ⟨sound _ _ _ made, meets⟩ (ih rest)
      · rw [if_neg meets] at rest
        cases rest

theorem run_of_played {moves : List Move} (made : (play guard move moves before).isSome = true)
    (sound : ∀ s t made, move s made = some t → step s t) :
    Relation.ReflTransGen (fun s t => step s t ∧ guard s t) before
      (played guard move moves before) := by
  rcases Option.isSome_iff_exists.mp made with ⟨after, reached⟩
  have same : played guard move moves before = after := by
    rw [played, reached]
    rfl
  exact run_of_play (same ▸ reached) sound

end Play

end MerkleProofService.Library
