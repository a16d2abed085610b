/-
Module: MerkleProofService.Library.DisjointParties
Layer: Library
Purpose: Parties that share one store and each keep to a part of it.  If a party's steps depend on
  its own part only, and the steps of the others leave that part as it is, then whatever the
  interleaving, each party has made a run it could have made alone.
Imports: Mathlib.Logic.Function.Basic, Mathlib.Logic.Relation
Trusted boundary: none
Main exports: Parties, Parties.Step, Apart, Apart.follow, Parties.alone
-/
import Mathlib.Logic.Function.Basic
import Mathlib.Logic.Relation

namespace MerkleProofService.Library

universe u v w

variable {Id : Type u} {Store : Type v} {Place : Type w}

/-- The shared store and where every party stands. -/
structure Parties (Id : Type u) (Store : Type v) (Place : Type w) where
  store : Store
  places : Id → Place

/-- One party makes a step. -/
inductive Parties.Step [DecidableEq Id] (step : Id → Store × Place → Store × Place → Prop) :
    Parties Id Store Place → Parties Id Store Place → Prop where
  | acts {s : Parties Id Store Place} {store : Store} {place : Place} (party : Id)
      (moved : step party (s.store, s.places party) (store, place)) :
      Parties.Step step s ⟨store, Function.update s.places party place⟩

/-- The parties keep to their parts: `same` says that two stores agree on the part of a party, and
`good` what is kept of its place. -/
structure Apart (step : Id → Store × Place → Store × Place → Prop)
    (same : Id → Store → Store → Prop) (good : Id → Place → Prop) : Prop where
  refl : ∀ party store, same party store store
  trans : ∀ {party first second third},
    same party first second → same party second third → same party first third
  keeps : ∀ {party store store' place place'}, good party place →
    step party (store, place) (store', place') → good party place'
  /-- A step can be made on any store with the same part. -/
  own : ∀ {party store other store' place place'}, good party place → same party store other →
    step party (store, place) (store', place') →
    ∃ other', step party (other, place) (other', place') ∧ same party store' other'
  others : ∀ {party bystander store store' place place'}, party ≠ bystander → good party place →
    step party (store, place) (store', place') → same bystander store' store

/-- A step can be made beside any store that agrees on the parts of all parties, and the stores
still do after it. -/
theorem Apart.follow {step : Id → Store × Place → Store × Place → Prop}
    {same : Id → Store → Store → Prop} {good : Id → Place → Prop} (apart : Apart step same good)
    (symm : ∀ {party first second}, same party first second → same party second first)
    {party : Id} {store other store' : Store} {place place' : Place} (fits : good party place)
    (agree : ∀ bystander, same bystander store other)
    (moved : step party (store, place) (store', place')) :
    ∃ other', step party (other, place) (other', place') ∧
      ∀ bystander, same bystander store' other' := by
  obtain ⟨other', moved', own⟩ := apart.own fits (agree party) moved
  refine ⟨other', moved', fun bystander => ?_⟩
  by_cases here : party = bystander
  · exact here ▸ own
  · have before := apart.others here fits moved
    have after := apart.others here fits moved'
    exact apart.trans before (apart.trans (agree bystander) (symm after))

namespace Parties

variable [DecidableEq Id] {step : Id → Store × Place → Store × Place → Prop}
variable {same : Id → Store → Store → Prop} {good : Id → Place → Prop}
variable {before s t : Parties Id Store Place}

/-- A party has made a run of its own, which has led it to its place and to a store with the same
part. -/
def Alone (step : Id → Store × Place → Store × Place → Prop) (same : Id → Store → Store → Prop)
    (before s : Parties Id Store Place) (party : Id) : Prop :=
  ∃ solo, Relation.ReflTransGen (step party) (before.store, before.places party)
    (solo, s.places party) ∧ same party s.store solo

theorem Step.keeps_good (apart : Apart step same good) (made : Step step s t)
    (all : ∀ party, good party (s.places party)) : ∀ party, good party (t.places party) := by
  cases made with
  | @acts store place active moved =>
      intro party
      change good party (Function.update s.places active place party)
      by_cases here : party = active
      · subst here
        rw [Function.update_self]
        exact apart.keeps (all party) moved
      · rw [Function.update_of_ne here]
        exact all party

theorem Alone.snoc (apart : Apart step same good) (all : ∀ party, good party (s.places party))
    {party : Id} (alone : Alone step same before s party) (made : Step step s t) :
    Alone step same before t party := by
  obtain ⟨solo, run, agree⟩ := alone
  cases made with
  | @acts store place active moved =>
      by_cases here : party = active
      · subst here
        obtain ⟨solo', again, agree'⟩ := apart.own (all party) agree moved
        refine ⟨solo', ?_, agree'⟩
        change Relation.ReflTransGen _ _ (solo', Function.update s.places party place party)
        rw [Function.update_self]
        exact run.tail again
      · refine ⟨solo, ?_, apart.trans (apart.others (Ne.symm here) (all active) moved) agree⟩
        change Relation.ReflTransGen _ _ (solo, Function.update s.places active place party)
        rw [Function.update_of_ne here]
        exact run

/-- Whatever the interleaving, every party has made a run it could have made alone. -/
theorem alone (apart : Apart step same good) (start : ∀ party, good party (before.places party))
    (run : Relation.ReflTransGen (Step step) before s) (party : Id) :
    Alone step same before s party := by
  have both : (∀ party, good party (s.places party)) ∧
      ∀ party, Alone step same before s party := by
    induction run with
    | refl => exact ⟨start, fun party => ⟨_, .refl, apart.refl party _⟩⟩
    | tail _ last ih =>
        exact ⟨last.keeps_good apart ih.1, fun party => (ih.2 party).snoc apart ih.1 last⟩
  exact both.2 party

end Parties

end MerkleProofService.Library
