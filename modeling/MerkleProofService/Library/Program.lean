/-
Module: MerkleProofService.Library.Program
Layer: Library
Purpose: Programs that question their environment one request at a time and may fail.
  A program is either finished, failed, or waiting for the answer to one query.  The same
  program can therefore be evaluated against a fixed environment (`evalWith`) or be driven
  one answer at a time by a system in which other parties act between two queries.
Imports: none (Mathlib-free)
Trusted boundary: none
Main exports: Program, Program.attempt, Program.mapFail, Program.liftQuery, Program.evalWith,
  Program.questions, Program.evalWith_bind, Program.Asks
-/

namespace MerkleProofService.Library

/-- A computation over queries `Query`, each with its own type of answers, that ends with a
value or a failure. -/
inductive Program (Query : Type) (Answer : Query → Type) (Failure α : Type) where
  | done (value : α)
  | fail (failure : Failure)
  | ask (query : Query) (next : Answer query → Program Query Answer Failure α)

namespace Program

section Combinators

variable {Query : Type} {Answer : Query → Type} {Failure α β γ : Type}

/-- Sequential composition; a failure skips the rest. -/
def bind : Program Query Answer Failure α → (α → Program Query Answer Failure β) →
    Program Query Answer Failure β
  | .done value, rest => rest value
  | .fail failure, _ => .fail failure
  | .ask query next, rest => .ask query fun answer => (next answer).bind rest

instance : Monad (Program Query Answer Failure) where
  pure := .done
  bind := Program.bind

/-- Run a program and hand its outcome, success or failure, to the caller. -/
def attempt : Program Query Answer Failure α →
    Program Query Answer Failure (Except Failure α)
  | .done value => .done (.ok value)
  | .fail failure => .done (.error failure)
  | .ask query next => .ask query fun answer => (next answer).attempt

/-- Rewrite the failure a program ends with. -/
def mapFail (rewrite : Failure → Failure) :
    Program Query Answer Failure α → Program Query Answer Failure α
  | .done value => .done value
  | .fail failure => .fail (rewrite failure)
  | .ask query next => .ask query fun answer => (next answer).mapFail rewrite

/-- A computation that asks nothing. -/
def ofExcept : Except Failure α → Program Query Answer Failure α
  | .ok value => .done value
  | .error failure => .fail failure

/-- Run a program in an environment that understands more queries. -/
def liftQuery {Wide : Type} {WideAnswer : Wide → Type} (wide : Query → Wide)
    (narrow : (query : Query) → WideAnswer (wide query) → Answer query) :
    Program Query Answer Failure α → Program Wide WideAnswer Failure α
  | .done value => .done value
  | .fail failure => .fail failure
  | .ask query next => .ask (wide query) fun answer =>
      (next (narrow query answer)).liftQuery wide narrow

/-- Whatever it is answered, the program asks only what `allowed` admits, and a value it ends with
satisfies `post`. -/
def Asks (allowed : Query → Prop) (post : α → Prop) : Program Query Answer Failure α → Prop
  | .done value => post value
  | .fail _ => True
  | .ask query next => allowed query ∧ ∀ answer, (next answer).Asks allowed post

/-- Evaluation against an environment that answers every query the same way each time. -/
def evalWith (answers : (query : Query) → Answer query) :
    Program Query Answer Failure α → Except Failure α
  | .done value => .ok value
  | .fail failure => .error failure
  | .ask query next => (next (answers query)).evalWith answers

/-- How many queries such an environment is asked. -/
def questions (answers : (query : Query) → Answer query) :
    Program Query Answer Failure α → Nat
  | .done _ => 0
  | .fail _ => 0
  | .ask query next => (next (answers query)).questions answers + 1

theorem bind_assoc (program : Program Query Answer Failure α)
    (first : α → Program Query Answer Failure β)
    (second : β → Program Query Answer Failure γ) :
    (program.bind first).bind second =
      program.bind fun value => (first value).bind second := by
  induction program with
  | done value => rfl
  | fail failure => rfl
  | ask query next ih =>
      simp only [bind]
      congr 1
      funext answer
      exact ih answer

@[simp] theorem bind_done (program : Program Query Answer Failure α) :
    program.bind .done = program := by
  induction program with
  | done value => rfl
  | fail failure => rfl
  | ask query next ih => exact congrArg (ask query) (funext ih)

theorem attempt_bind (program : Program Query Answer Failure α)
    (rest : α → Program Query Answer Failure β) :
    (program.bind rest).attempt = program.attempt.bind fun outcome =>
      match outcome with
      | .ok value => (rest value).attempt
      | .error failure => .done (.error failure) := by
  induction program with
  | done value => rfl
  | fail failure => rfl
  | ask query next ih => exact congrArg (ask query) (funext ih)

theorem liftQuery_mapFail {Wide : Type} {WideAnswer : Wide → Type} (wide : Query → Wide)
    (narrow : (query : Query) → WideAnswer (wide query) → Answer query)
    (rewrite : Failure → Failure) (program : Program Query Answer Failure α) :
    (program.mapFail rewrite).liftQuery wide narrow =
      (program.liftQuery wide narrow).mapFail rewrite := by
  induction program with
  | done value => rfl
  | fail failure => rfl
  | ask query next ih =>
      simp only [mapFail, liftQuery]
      congr 1
      funext answer
      exact ih (narrow query answer)

theorem liftQuery_bind {Wide : Type} {WideAnswer : Wide → Type} (wide : Query → Wide)
    (narrow : (query : Query) → WideAnswer (wide query) → Answer query)
    (program : Program Query Answer Failure α) (rest : α → Program Query Answer Failure β) :
    (program.bind rest).liftQuery wide narrow =
      (program.liftQuery wide narrow).bind fun value => (rest value).liftQuery wide narrow := by
  induction program with
  | done value => rfl
  | fail failure => rfl
  | ask query next ih =>
      simp only [bind, liftQuery]
      congr 1
      funext answer
      exact ih (narrow query answer)

@[simp] theorem pure_eq (value : α) :
    (pure value : Program Query Answer Failure α) = .done value := rfl

@[simp] theorem bind_eq (program : Program Query Answer Failure α)
    (rest : α → Program Query Answer Failure β) :
    (program >>= rest) = program.bind rest := rfl

/-! ### Evaluation is a morphism of monads -/

variable (answers : (query : Query) → Answer query)

@[simp] theorem evalWith_ofExcept (outcome : Except Failure α) :
    (ofExcept outcome : Program Query Answer Failure α).evalWith answers = outcome := by
  cases outcome <;> rfl

@[simp] theorem evalWith_bind (program : Program Query Answer Failure α)
    (rest : α → Program Query Answer Failure β) :
    (program.bind rest).evalWith answers =
      (program.evalWith answers).bind fun value => (rest value).evalWith answers := by
  induction program with
  | done value => rfl
  | fail failure => rfl
  | ask query next ih => exact ih (answers query)

@[simp] theorem evalWith_attempt (program : Program Query Answer Failure α) :
    program.attempt.evalWith answers = .ok (program.evalWith answers) := by
  induction program with
  | done value => rfl
  | fail failure => rfl
  | ask query next ih => exact ih (answers query)

@[simp] theorem evalWith_mapFail (rewrite : Failure → Failure)
    (program : Program Query Answer Failure α) :
    (program.mapFail rewrite).evalWith answers =
      (program.evalWith answers).mapError rewrite := by
  induction program with
  | done value => rfl
  | fail failure => rfl
  | ask query next ih => exact ih (answers query)

/-! ### The queries of composed programs -/

section Asks

variable {allowed : Query → Prop} {post : α → Prop} {post' : β → Prop}

theorem asks_ofExcept {outcome : Except Failure α}
    (holds : ∀ value, outcome = .ok value → post value) :
    (ofExcept outcome : Program Query Answer Failure α).Asks allowed post := by
  cases outcome with
  | ok value => exact holds value rfl
  | error failure => exact trivial

theorem Asks.bind {program : Program Query Answer Failure α}
    {rest : α → Program Query Answer Failure β} (first : program.Asks allowed post)
    (second : ∀ value, post value → (rest value).Asks allowed post') :
    (program.bind rest).Asks allowed post' := by
  induction program with
  | done value => exact second value first
  | fail failure => exact trivial
  | ask query next ih => exact ⟨first.1, fun answer => ih answer (first.2 answer)⟩

theorem Asks.attempt {program : Program Query Answer Failure α}
    (asks : program.Asks allowed post) :
    program.attempt.Asks allowed fun outcome => ∀ value, outcome = .ok value → post value := by
  induction program with
  | done value =>
      intro other same
      cases same
      exact asks
  | fail failure =>
      intro value same
      cases same
  | ask query next ih => exact ⟨asks.1, fun answer => ih answer (asks.2 answer)⟩

theorem Asks.mapFail {rewrite : Failure → Failure}
    {program : Program Query Answer Failure α} (asks : program.Asks allowed post) :
    (program.mapFail rewrite).Asks allowed post := by
  induction program with
  | done value => exact asks
  | fail failure => exact trivial
  | ask query next ih => exact ⟨asks.1, fun answer => ih answer (asks.2 answer)⟩

theorem Asks.liftQuery {Wide : Type} {WideAnswer : Wide → Type} {wide : Query → Wide}
    {narrow : (query : Query) → WideAnswer (wide query) → Answer query}
    {allowedWide : Wide → Prop} (implies : ∀ query, allowed query → allowedWide (wide query))
    {program : Program Query Answer Failure α} (asks : program.Asks allowed post) :
    (program.liftQuery wide narrow).Asks allowedWide post := by
  induction program with
  | done value => exact asks
  | fail failure => exact trivial
  | ask query next ih =>
      exact ⟨implies query asks.1, fun answer => ih _ (asks.2 (narrow query answer))⟩

theorem Asks.weaken {weaker : α → Prop} (implies : ∀ value, post value → weaker value)
    {program : Program Query Answer Failure α} (asks : program.Asks allowed post) :
    program.Asks allowed weaker := by
  induction program with
  | done value => exact implies value asks
  | fail failure => exact trivial
  | ask query next ih => exact ⟨asks.1, fun answer => ih answer (asks.2 answer)⟩

/-- A program that asks only what `allowed` admits ends the same against environments that answer
those queries alike. -/
theorem Asks.evalWith_congr {answers other : (query : Query) → Answer query}
    (same : ∀ query, allowed query → answers query = other query)
    {program : Program Query Answer Failure α} (asks : program.Asks allowed post) :
    program.evalWith answers = program.evalWith other := by
  induction program with
  | done value => rfl
  | fail failure => rfl
  | ask query next ih =>
      rw [evalWith, evalWith, same query asks.1]
      exact ih (other query) (asks.2 (other query))

theorem Asks.mono {wider : Query → Prop} (implies : ∀ query, allowed query → wider query)
    {program : Program Query Answer Failure α} (asks : program.Asks allowed post) :
    program.Asks wider post := by
  induction program with
  | done value => exact asks
  | fail failure => exact trivial
  | ask query next ih =>
      exact ⟨implies query asks.1, fun answer => ih answer (asks.2 answer)⟩

/-- Every program asks something and ends with some value. -/
theorem asks_any (program : Program Query Answer Failure α) :
    program.Asks (fun _ => True) fun _ => True := by
  induction program with
  | done value => exact trivial
  | fail failure => exact trivial
  | ask query next ih => exact ⟨trivial, ih⟩

end Asks

end Combinators

end Program

end MerkleProofService.Library
