/-
Module: MerkleProofService.Library.ReadWindows
Layer: Library
Purpose: Readers that take no lock.  The questions such a reader asks about one part of the store
  are answered from one snapshot, if the writer leaves that part alone from the first of them to the
  last.  Before the first one and after the last one the writer is free.
Imports: Library.SharedStore
Trusted boundary: none
Main exports: Program.MayAsk, Shared.HasAsked, Shared.Between, Shared.Separates,
  Shared.FromSnapshot, Shared.FromSnapshot.step, Shared.snapshot_of_window
-/
import MerkleProofService.Library.SharedStore

namespace MerkleProofService.Library

namespace Program

section Window

variable {Contents Query : Type} {Answer : Query → Type} {Failure α : Type}
variable {interface : StoreInterface Contents Query Answer} {inv : Contents → Prop}
variable {granted : Option (Σ query, Answer query) → Contents → Prop}

/-- Suitably answered, the program asks such a question. -/
def MayAsk (about : Query → Prop) : Program Query Answer Failure α → Prop
  | .done _ | .fail _ => False
  | .ask query next => about query ∨ ∃ answer, (next answer).MayAsk about

/-- A reader without the lock whose question is answered. -/
theorem Ensures.answered {post : ReaderMode Contents Query Answer → Except Failure α → Prop}
    {query : Query} {next : Answer query → Program Query Answer Failure α}
    {lastRead : Option (Σ query, Answer query)} {contents : Contents} {answer : Answer query}
    (ensures : (Program.ask query next).Ensures interface inv granted post (.free lastRead))
    (plain : interface.access query = .plain) (holds : inv contents)
    (answered : interface.answers contents query answer) :
    (next answer).Ensures interface inv granted post (.free (some ⟨query, answer⟩)) := by
  unfold Ensures at ensures
  rw [plain] at ensures
  exact ensures contents holds answer answered

/-- A reader that takes no lock is never stuck at one. -/
theorem Asks.ensures {program : Program Query Answer Failure α}
    (plain : program.Asks (fun query => interface.access query = .plain) fun _ => True)
    (lastRead : Option (Σ query, Answer query)) :
    program.Ensures interface inv granted (fun _ _ => True) (.free lastRead) := by
  induction program generalizing lastRead with
  | done value => exact trivial
  | fail failure => exact trivial
  | ask query next ih =>
      unfold Ensures
      rw [plain.1]
      exact fun _ _ answer _ => ih answer (plain.2 answer) _

end Window

end Program

namespace Shared

section Window

variable {Contents Update Query : Type} {Answer : Query → Type} {Failure α : Type}
variable (interface : StoreInterface Contents Query Answer)
variable (computes : Contents → Update → Prop) (write : Contents → Update → Contents)
variable (granted : Option (Σ query, Answer query) → Contents → Prop)
variable (watched : Query → Prop) (known : Contents → Prop) (same : Contents → Contents → Prop)
variable (post : Contents → ReaderMode Contents Query Answer → Except Failure α → Prop)

/-- The reader has asked a watched question. -/
def HasAsked (s : Shared Contents Update Query Answer Failure α) : Prop :=
  ∃ query ∈ s.asked, watched query

/-- The reader is between its first watched question and its last. -/
def Between (s : Shared Contents Update Query Answer Failure α) : Prop :=
  s.HasAsked watched ∧ s.reader.MayAsk watched

/-- What a reader may see that stays with a snapshot. -/
def Sees (snapshot contents : Contents) : Prop :=
  known contents ∧ same snapshot contents

/-- `same` is about what the watched questions ask only: the answer to any other one could come
from contents that are the same as a given snapshot. -/
structure Separates : Prop where
  refl : ∀ contents, same contents contents
  unwatched : ∀ {snapshot contents query answer}, known snapshot → known contents →
    ¬ watched query → interface.answers contents query answer →
    ∃ alike, Sees known same snapshot alike ∧ interface.answers alike query answer

/-- The reader's program ensures what it should on a snapshot: on any, before the first watched
question; after it, on one that was current then and that the watched questions still see. -/
structure FromSnapshot (s : Shared Contents Update Query Answer Failure α) : Prop where
  plain : s.reader.Asks (fun query => interface.access query = .plain) fun _ => True
  before : ¬ s.HasAsked watched → ∀ snapshot, known snapshot → ∃ lastRead,
    s.reader.Ensures interface (Sees known same snapshot) granted (post snapshot) (.free lastRead)
  after : s.HasAsked watched → ∃ snapshot ∈ s.seen, known snapshot ∧
    (s.reader.MayAsk watched → same snapshot s.contents) ∧ ∃ lastRead,
    s.reader.Ensures interface (Sees known same snapshot) granted (post snapshot) (.free lastRead)

variable {interface computes write granted watched known same post}
variable {a b s : Shared Contents Update Query Answer Failure α}

/-- A question is answered. -/
theorem FromSnapshot.read {query : Query} {next : Answer query → Program Query Answer Failure α}
    {answer : Answer query} (separates : Separates interface watched known same)
    (isKnown : known a.contents) (current : a.contents ∈ a.seen)
    (asks : a.reader = .ask query next) (answered : interface.answers a.contents query answer)
    (inv : FromSnapshot interface granted watched known same post a) :
    FromSnapshot interface granted watched known same post
      { a with
        reader := next answer
        asked := query :: a.asked
        lastRead := some ⟨query, answer⟩ } := by
  obtain ⟨plain, before, after⟩ := inv
  rw [asks] at plain before after
  have grown : HasAsked watched { a with
        reader := next answer
        asked := query :: a.asked
        lastRead := some ⟨query, answer⟩ } ↔ watched query ∨ a.HasAsked watched := by
    simp only [HasAsked, List.mem_cons, exists_eq_or_imp]
  by_cases isWatched : watched query
  · refine ⟨plain.2 answer, fun none => absurd (grown.mpr (Or.inl isWatched)) none, fun _ => ?_⟩
    by_cases first : a.HasAsked watched
    · obtain ⟨snapshot, seen, isSnapshot, sees, _, ensures⟩ := after first
      have now := sees (Or.inl isWatched)
      exact ⟨snapshot, seen, isSnapshot, fun _ => now, _,
        ensures.answered plain.1 ⟨isKnown, now⟩ answered⟩
    · -- the snapshot is taken here
      obtain ⟨_, ensures⟩ := before first a.contents isKnown
      have now := separates.refl a.contents
      exact ⟨a.contents, current, isKnown, fun _ => now, _,
        ensures.answered plain.1 ⟨isKnown, now⟩ answered⟩
  · refine ⟨plain.2 answer, fun none snapshot isSnapshot => ?_, fun some => ?_⟩
    · obtain ⟨_, ensures⟩ := before (fun asked => none (grown.mpr (Or.inr asked))) snapshot
        isSnapshot
      obtain ⟨alike, holds, alsoAnswered⟩ :=
        separates.unwatched isSnapshot isKnown isWatched answered
      exact ⟨_, ensures.answered plain.1 holds alsoAnswered⟩
    · obtain ⟨snapshot, seen, isSnapshot, sees, _, ensures⟩ :=
        after ((grown.mp some).resolve_left isWatched)
      obtain ⟨alike, holds, alsoAnswered⟩ :=
        separates.unwatched isSnapshot isKnown isWatched answered
      exact ⟨snapshot, seen, isSnapshot, fun may => sees (Or.inr ⟨answer, may⟩), _,
        ensures.answered plain.1 holds alsoAnswered⟩

/-- One step of either party, if a write between the watched questions keeps what they see. -/
theorem FromSnapshot.step (failures : ∀ snapshot mode failure, post snapshot mode (.error failure))
    (separates : Separates interface watched known same) (isKnown : known a.contents)
    (current : a.contents ∈ a.seen) (step : Step interface computes write a b)
    (keeps : a.Between watched → ∀ snapshot, same snapshot a.contents → same snapshot b.contents)
    (inv : FromSnapshot interface granted watched known same post a) :
    FromSnapshot interface granted watched known same post b := by
  have noLock : ∀ {query next}, a.reader = .ask query next →
      interface.access query = .plain := by
    intro query next asks
    have plain := inv.plain
    rw [asks] at plain
    exact plain.1
  cases step with
  | read asks plain answered => exact inv.read separates isKnown current asks answered
  | acquire asks locks free => exact absurd ((noLock asks).symm.trans locks) (by simp)
  | release asks unlocks => exact absurd ((noLock asks).symm.trans unlocks) (by simp)
  | abort failure asks =>
      refine ⟨trivial, fun _ snapshot _ => ⟨none, failures snapshot _ failure⟩, fun some => ?_⟩
      obtain ⟨snapshot, seen, isSnapshot, _⟩ := inv.after some
      exact ⟨snapshot, seen, isSnapshot, False.elim, none, failures snapshot _ failure⟩
  | write locked =>
      refine ⟨inv.plain, inv.before, fun some => ?_⟩
      obtain ⟨snapshot, seen, isSnapshot, sees, ensures⟩ := inv.after some
      exact ⟨snapshot, List.mem_cons_of_mem _ seen, isSnapshot,
        fun may => keeps ⟨some, may⟩ snapshot (sees may), ensures⟩
  | compute idle computed => exact ⟨inv.plain, inv.before, inv.after⟩
  | discard computed => exact ⟨inv.plain, inv.before, inv.after⟩
  | lock computed free => exact ⟨inv.plain, inv.before, inv.after⟩
  | writeFails locked => exact ⟨inv.plain, inv.before, inv.after⟩
  | unlock written => exact ⟨inv.plain, inv.before, inv.after⟩

/-- A reader without a lock ends with what its program ensures on one snapshot, if the writer keeps
what the watched questions are about from the first of them to the last. -/
theorem snapshot_of_window {contents : Contents} {reader : Program Query Answer Failure α}
    {guard : Shared Contents Update Query Answer Failure α →
      Shared Contents Update Query Answer Failure α → Prop}
    (failures : ∀ snapshot mode failure, post snapshot mode (.error failure))
    (separates : Separates interface watched known same)
    (stays : ∀ contents update, known contents → computes contents update →
      known (write contents update))
    (keeps : ∀ s t, guard s t → s.Between watched → ∀ snapshot, same snapshot s.contents →
      same snapshot t.contents)
    (isKnown : known contents)
    (plain : reader.Asks (fun query => interface.access query = .plain) fun _ => True)
    (ensures : ∀ snapshot, known snapshot →
      reader.Ensures interface (Sees known same snapshot) granted (post snapshot) (.free none))
    (run : Relation.ReflTransGen (fun s t => Step interface computes write s t ∧ guard s t)
      (start Update contents reader) s)
    {value : α} (returned : s.reader = .done value) :
    ∃ snapshot ∈ s.seen, ∃ mode, post snapshot mode (.ok value) := by
  let holds (s : Shared Contents Update Query Answer Failure α) : Prop :=
    Covered interface computes known (fun _ _ => True) (fun _ _ => True) s ∧
      FromSnapshot interface granted watched known same post s
  have along : holds s := by
    refine @GuardedRun.invariant _ _ _ _ _ holds ?_ run
      ⟨Covered.start isKnown (plain.ensures none), plain,
        fun _ snapshot isSnapshot => ⟨none, ensures snapshot isSnapshot⟩, ?_⟩
    · rintro s t ⟨covered, inv⟩ step meets
      exact ⟨covered.step (fun _ _ => trivial) step
          (fun update computed written => written ▸ stays _ _ covered.holds computed)
          fun _ _ => trivial,
        inv.step failures separates covered.holds covered.current step (keeps s t meets)⟩
    · rintro ⟨_, member, _⟩
      cases member
  obtain ⟨covered, inv⟩ := along
  by_cases asked : s.HasAsked watched
  · obtain ⟨snapshot, seen, _, _, lastRead, ended⟩ := inv.after asked
    rw [returned] at ended
    exact ⟨snapshot, seen, _, ended⟩
  · obtain ⟨lastRead, ended⟩ := inv.before asked s.contents covered.holds
    rw [returned] at ended
    exact ⟨s.contents, covered.current, _, ended⟩

end Window

end Shared

end MerkleProofService.Library
