/-
Module: MerkleProofService.Library.FairRuns
Layer: Library
Purpose: Infinite runs that are weakly fair: a party that could act for ever acts.  A rank that every
  step lowers leads such a run to its goal, and among parties that keep to their parts of a store
  the run of one party is a fair run of that party alone.
Imports: Mathlib.Order.WellFounded, Library.DisjointParties
Trusted boundary: none
Main exports: FairRun, FairRun.reaches, FairRun.stays, Parties.Acts, Parties.FairFor,
  Parties.exists_fairFor, Parties.FairFor.alone
-/
import Mathlib.Order.WellFounded
import MerkleProofService.Library.DisjointParties

namespace MerkleProofService.Library

universe u v w

/-! ### One party -/

section OneParty

variable {σ : Type u} {step : σ → σ → Prop} {run : ℕ → σ}

/-- An infinite run that may pause and is weakly fair: after any time there is a step, or a state
without one. -/
structure FairRun (step : σ → σ → Prop) (run : ℕ → σ) : Prop where
  steps : ∀ n, run (n + 1) = run n ∨ step (run n) (run (n + 1))
  fair : ∀ n, ∃ m, n ≤ m ∧ (step (run m) (run (m + 1)) ∨ ¬ ∃ t, step (run m) t)

namespace FairRun

/-- What every step keeps holds all along. -/
theorem invariant (kept : σ → Prop) (keeps : ∀ s t, kept s → step s t → kept t)
    (fair : FairRun step run) {n m : ℕ} (later : n ≤ m) (start : kept (run n)) :
    kept (run m) := by
  induction m, later using Nat.le_induction with
  | base => exact start
  | succ m _ ih =>
      rcases fair.steps m with pause | moved
      · rw [pause]
        exact ih
      · exact keeps _ _ ih moved

/-- A run in which a step is always possible before the goal, and lowers the rank, gets there. -/
theorem reaches {α : Type v} [Preorder α] [WellFoundedLT α] (rank : σ → α) {kept goal : σ → Prop}
    (keeps : ∀ s t, kept s → step s t → kept t)
    (enabled : ∀ s, kept s → ¬ goal s → ∃ t, step s t)
    (descends : ∀ s t, kept s → ¬ goal s → step s t → rank t < rank s)
    (fair : FairRun step run) (start : kept (run 0)) : ∃ n, goal (run n) := by
  by_contra never
  have before (n : ℕ) : ¬ goal (run n) := fun reached => never ⟨n, reached⟩
  have all (n : ℕ) : kept (run n) := fair.invariant kept keeps (Nat.zero_le n) start
  -- pauses keep the rank, steps lower it
  have falls {n m : ℕ} (later : n ≤ m) : rank (run m) ≤ rank (run n) := by
    induction m, later using Nat.le_induction with
    | base => exact le_refl _
    | succ m _ ih =>
        rcases fair.steps m with pause | moved
        · rw [pause]
          exact ih
        · exact (descends _ _ (all m) (before m) moved).le.trans ih
  have none : ∀ a n, rank (run n) = a → False := by
    intro a
    induction a using WellFoundedLT.induction with
    | ind a ih =>
        rintro n rfl
        obtain ⟨m, later, moved | stuck⟩ := fair.fair n
        · have lower := descends _ _ (all m) (before m) moved
          exact ih _ (lower.trans_le (falls later)) (m + 1) rfl
        · exact stuck (enabled _ (all m) (before m))
  exact none _ 0 rfl

/-- If every step keeps the goal, the run stays there. -/
theorem stays {α : Type v} [Preorder α] [WellFoundedLT α] (rank : σ → α) {kept goal : σ → Prop}
    (keeps : ∀ s t, kept s → step s t → kept t)
    (enabled : ∀ s, kept s → ¬ goal s → ∃ t, step s t)
    (descends : ∀ s t, kept s → ¬ goal s → step s t → rank t < rank s)
    (stable : ∀ s t, kept s → goal s → step s t → goal t)
    (fair : FairRun step run) (start : kept (run 0)) : ∃ n, ∀ m, n ≤ m → goal (run m) := by
  obtain ⟨n, reached⟩ := fair.reaches rank keeps enabled descends start
  refine ⟨n, fun m later => ?_⟩
  have both : kept (run m) ∧ goal (run m) := by
    refine fair.invariant (fun s => kept s ∧ goal s) (fun s t both moved => ?_) later
      ⟨fair.invariant kept keeps (Nat.zero_le n) start, reached⟩
    exact ⟨keeps s t both.1 moved, stable s t both.1 both.2 moved⟩
  exact both.2

end FairRun

end OneParty

/-! ### One of many parties -/

namespace Parties

variable {Id : Type u} {Store : Type v} {Place : Type w}
variable {step : Id → Store × Place → Store × Place → Prop}
variable {same : Id → Store → Store → Prop} {good : Id → Place → Prop}
variable {run : ℕ → Parties Id Store Place} {party : Id}

/-- The party makes the step. -/
def Acts (step : Id → Store × Place → Store × Place → Prop) (party : Id)
    (s t : Parties Id Store Place) : Prop :=
  step party (s.store, s.places party) (t.store, t.places party) ∧
    ∀ other, other ≠ party → t.places other = s.places other

/-- An infinite run of all parties that is weakly fair to one of them. -/
structure FairFor (step : Id → Store × Place → Store × Place → Prop) (party : Id)
    (run : ℕ → Parties Id Store Place) : Prop where
  steps : ∀ n, run (n + 1) = run n ∨ ∃ active, Acts step active (run n) (run (n + 1))
  fair : ∀ n, ∃ m, n ≤ m ∧ (Acts step party (run m) (run (m + 1)) ∨
    ¬ ∃ after, step party ((run m).store, (run m).places party) after)

theorem Acts.keeps_good (apart : Apart step same good) {s t : Parties Id Store Place}
    (acts : Acts step party s t) (all : ∀ other, good other (s.places other)) :
    ∀ other, good other (t.places other) := by
  intro other
  by_cases here : other = party
  · subst here
    exact apart.keeps (all other) acts.1
  · rw [acts.2 other here]
    exact all other

namespace FairFor

theorem all_good (apart : Apart step same good) (fair : FairFor step party run)
    (start : ∀ other, good other ((run 0).places other)) (n : ℕ) :
    ∀ other, good other ((run n).places other) := by
  induction n with
  | zero => exact start
  | succ n ih =>
      rcases fair.steps n with pause | ⟨active, acts⟩
      · rw [pause]
        exact ih
      · exact acts.keeps_good apart ih

/-- One step of the run, beside a store with the same part. -/
theorem follow (apart : Apart step same good) (fair : FairFor step party run) {n : ℕ}
    (all : ∀ other, good other ((run n).places other)) (solo : Store)
    (agree : same party (run n).store solo) :
    ∃ solo', same party (run (n + 1)).store solo' ∧
      (Acts step party (run n) (run (n + 1)) →
        step party (solo, (run n).places party) (solo', (run (n + 1)).places party)) ∧
      ((solo', (run (n + 1)).places party) = (solo, (run n).places party) ∨
        step party (solo, (run n).places party) (solo', (run (n + 1)).places party)) := by
  by_cases own : Acts step party (run n) (run (n + 1))
  · obtain ⟨solo', moved, agree'⟩ := apart.own (all party) agree own.1
    exact ⟨solo', agree', fun _ => moved, Or.inr moved⟩
  · refine ⟨solo, ?_, fun acts => absurd acts own, Or.inl ?_⟩
    all_goals rcases fair.steps n with pause | ⟨active, acts⟩
    · rw [pause]
      exact agree
    · have different : active ≠ party := fun here => own (here ▸ acts)
      exact apart.trans (apart.others different (all active) acts.1) agree
    · rw [pause]
    · have different : party ≠ active := fun here => own (here ▸ acts)
      rw [acts.2 party different]

/-- The party makes a fair run of its own, on a store with the same part all along. -/
theorem alone (apart : Apart step same good)
    (symm : ∀ {first second}, same party first second → same party second first)
    (fair : FairFor step party run) (start : ∀ other, good other ((run 0).places other))
    {solo : Store} (agree : same party (run 0).store solo) :
    ∃ solos : ℕ → Store, solos 0 = solo ∧
      FairRun (step party) (fun n => (solos n, (run n).places party)) ∧
      ∀ n, same party (run n).store (solos n) := by
  have all := fair.all_good apart start
  choose! next agrees acts moves using fun n => fair.follow apart (all n)
  let solos : ℕ → Store := fun n => Nat.rec solo next n
  have beside (n : ℕ) : same party (run n).store (solos n) := by
    induction n with
    | zero => exact agree
    | succ n ih => exact agrees n (solos n) ih
  refine ⟨solos, rfl, ⟨fun n => moves n (solos n) (beside n), fun n => ?_⟩, beside⟩
  obtain ⟨m, later, own | stuck⟩ := fair.fair n
  · exact ⟨m, later, Or.inl (acts m (solos m) (beside m) own)⟩
  · refine ⟨m, later, Or.inr ?_⟩
    rintro ⟨⟨store, place⟩, moved⟩
    obtain ⟨store', moved', _⟩ := apart.own (all m party) (symm (beside m)) moved
    exact stuck ⟨_, moved'⟩

end FairFor

end Parties

end MerkleProofService.Library
