/-
Module: MerkleProofService.Library.SharedStore
Layer: Library
Purpose: A reader and a writer on one store under a readers-writer lock.  The reader is a program
  whose queries are answered by the store as it is at that moment; some of its queries take and
  release the read lock.  The writer computes an update from the store and writes it under the
  write lock.  `Program.Ensures` says what a reader ends with in every interleaving, and is proved
  along the reader's program.
Imports: Library.Program, Library.GuardedRuns
Trusted boundary: none
Main exports: StoreInterface, Shared, Shared.Step, Program.Ensures, Program.Ensures.bind,
  Program.Ensures.of_eval, Shared.Covered, Shared.Covered.run, Shared.serve_run,
  Shared.commit_run
-/
import MerkleProofService.Library.GuardedRuns
import MerkleProofService.Library.Program

namespace MerkleProofService.Library

/-- What a query does to the reader's lock. -/
inductive Access where
  | plain
  | acquire
  | release
deriving DecidableEq

/-- What a store may answer, and which queries are about the lock. -/
structure StoreInterface (Contents Query : Type) (Answer : Query → Type) where
  access : Query → Access
  answers : Contents → (query : Query) → Answer query → Prop

/-- Where the writer is with its update. -/
inductive Writer (Update : Type) where
  | idle
  | computed (update : Update)
  | locked (update : Update)
  | written

namespace Writer

variable {Update : Type}

/-- The writer holds the write lock. -/
def Holds : Writer Update → Prop
  | .locked _ | .written => True
  | .idle | .computed _ => False

/-- The update that is still to be written. -/
def pending : Writer Update → Option Update
  | .computed update | .locked update => some update
  | .idle | .written => none

end Writer

/-- The state of both parties.  `asked`, `lastRead` and `seen` are history: the questions about the
contents, the last of them with its answer, and the contents that were current since the start. -/
structure Shared (Contents Update Query : Type) (Answer : Query → Type)
    (Failure α : Type) where
  contents : Contents
  reader : Program Query Answer Failure α
  reading : Bool
  asked : List Query
  lastRead : Option (Σ query, Answer query)
  writer : Writer Update
  seen : List Contents

namespace Shared

variable {Contents Update Query : Type} {Answer : Query → Type} {Failure α : Type}

/-- The reader is called. -/
def start (Update : Type) (contents : Contents) (reader : Program Query Answer Failure α) :
    Shared Contents Update Query Answer Failure α where
  contents := contents
  reader := reader
  reading := false
  asked := []
  lastRead := none
  writer := .idle
  seen := [contents]

/-- One step of either party.  `computes` says which updates the writer can come to, `write`
what they do. -/
inductive Step (interface : StoreInterface Contents Query Answer)
    (computes : Contents → Update → Prop) (write : Contents → Update → Contents) :
    Shared Contents Update Query Answer Failure α →
      Shared Contents Update Query Answer Failure α → Prop where
  | read {s} {query : Query} {next : Answer query → Program Query Answer Failure α}
      {answer : Answer query} (asks : s.reader = .ask query next)
      (plain : interface.access query = .plain)
      (answered : interface.answers s.contents query answer) :
      Step interface computes write s
        { s with
          reader := next answer
          asked := query :: s.asked
          lastRead := some ⟨query, answer⟩ }
  | acquire {s} {query : Query} {next : Answer query → Program Query Answer Failure α}
      {answer : Answer query} (asks : s.reader = .ask query next)
      (locks : interface.access query = .acquire) (free : ¬ s.writer.Holds) :
      Step interface computes write s { s with reader := next answer, reading := true }
  | release {s} {query : Query} {next : Answer query → Program Query Answer Failure α}
      {answer : Answer query} (asks : s.reader = .ask query next)
      (unlocks : interface.access query = .release) :
      Step interface computes write s { s with reader := next answer, reading := false }
  /-- The reader is cancelled, or a query of it fails; its lock is released. -/
  | abort {s} {query : Query} {next : Answer query → Program Query Answer Failure α}
      (failure : Failure) (asks : s.reader = .ask query next) :
      Step interface computes write s { s with reader := .fail failure, reading := false }
  | compute {s} {update : Update} (idle : s.writer = .idle)
      (computed : computes s.contents update) :
      Step interface computes write s { s with writer := .computed update }
  | discard {s} {update : Update} (computed : s.writer = .computed update) :
      Step interface computes write s { s with writer := .idle }
  | lock {s} {update : Update} (computed : s.writer = .computed update)
      (free : s.reading = false) :
      Step interface computes write s { s with writer := .locked update }
  | write {s} {update : Update} (locked : s.writer = .locked update) :
      Step interface computes write s
        { s with
          contents := write s.contents update
          writer := .written
          seen := write s.contents update :: s.seen }
  | writeFails {s} {update : Update} (locked : s.writer = .locked update) :
      Step interface computes write s { s with writer := .written }
  | unlock {s} (written : s.writer = .written) :
      Step interface computes write s { s with writer := .idle }

end Shared

/-! ### What a reader ends with -/

/-- The part of a reader's run that its program depends on: the last answer before it took the
lock, the contents under the lock, and the contents it has seen there. -/
inductive ReaderMode (Contents Query : Type) (Answer : Query → Type) where
  | free (lastRead : Option (Σ query, Answer query))
  | held (snapshot : Contents)
  | released (snapshot : Contents)

namespace ReaderMode

variable {Contents Query : Type} {Answer : Query → Type}

/-- The contents a query may meet: any that satisfy the invariant, but only the snapshot while
the lock is held. -/
def Shows (inv : Contents → Prop) (mode : ReaderMode Contents Query Answer)
    (contents : Contents) : Prop :=
  match mode with
  | .free _ | .released _ => inv contents
  | .held snapshot => contents = snapshot

def afterRead (mode : ReaderMode Contents Query Answer) (asked : Σ query, Answer query) :
    ReaderMode Contents Query Answer :=
  match mode with
  | .free _ => .free (some asked)
  | .held snapshot => .held snapshot
  | .released snapshot => .released snapshot

end ReaderMode

namespace Program

section Ensures

variable {Contents Query : Type} {Answer : Query → Type} {Failure α β : Type}
variable (interface : StoreInterface Contents Query Answer) (inv : Contents → Prop)
variable (granted : Option (Σ query, Answer query) → Contents → Prop)

/-- In every interleaving with a writer that keeps `inv`, the program ends with an outcome that
satisfies `post`.  `granted` is what is known of the last answer when the lock is granted. -/
def Ensures (post : ReaderMode Contents Query Answer → Except Failure α → Prop) :
    ReaderMode Contents Query Answer → Program Query Answer Failure α → Prop
  | mode, .done value => post mode (.ok value)
  | mode, .fail failure => post mode (.error failure)
  | mode, .ask query next =>
      match interface.access query with
      | .plain => ∀ contents, mode.Shows inv contents → ∀ answer,
          interface.answers contents query answer →
            Ensures post (mode.afterRead ⟨query, answer⟩) (next answer)
      | .acquire =>
          match mode with
          | .free lastRead => ∀ contents, inv contents → granted lastRead contents →
              ∀ answer, Ensures post (.held contents) (next answer)
          | .held _ | .released _ => False
      | .release =>
          match mode with
          | .held snapshot => ∀ answer, Ensures post (.released snapshot) (next answer)
          | .free _ | .released _ => False

variable {interface inv granted}

/-! ### Rules -/

/-- A transformation that follows a program query by query ensures what it makes of the outcomes
the program ensures. -/
theorem Ensures.through {post : ReaderMode Contents Query Answer → Except Failure α → Prop}
    (transform : Program Query Answer Failure α → Program Query Answer Failure β)
    (post' : ReaderMode Contents Query Answer → Except Failure β → Prop)
    (asks : ∀ query next,
      transform (.ask query next) = .ask query fun answer => transform (next answer))
    (done : ∀ mode value, post mode (.ok value) →
      (transform (.done value)).Ensures interface inv granted post' mode)
    (fail : ∀ mode failure, post mode (.error failure) →
      (transform (.fail failure)).Ensures interface inv granted post' mode)
    {program : Program Query Answer Failure α} {mode : ReaderMode Contents Query Answer}
    (ensures : program.Ensures interface inv granted post mode) :
    (transform program).Ensures interface inv granted post' mode := by
  induction program generalizing mode with
  | done value => exact done mode value ensures
  | fail failure => exact fail mode failure ensures
  | ask query next ih =>
      rw [asks]
      unfold Ensures at ensures ⊢
      cases access : interface.access query with
      | plain =>
          rw [access] at ensures
          exact fun contents shows answer answered =>
            ih answer (ensures contents shows answer answered)
      | acquire =>
          rw [access] at ensures
          cases mode with
          | free lastRead =>
              exact fun contents holds grant answer =>
                ih answer (ensures contents holds grant answer)
          | held snapshot => exact ensures
          | released snapshot => exact ensures
      | release =>
          rw [access] at ensures
          cases mode with
          | held snapshot => exact fun answer => ih answer (ensures answer)
          | free lastRead => exact ensures
          | released snapshot => exact ensures

variable {mode : ReaderMode Contents Query Answer}

theorem Ensures.weaken {post weaker : ReaderMode Contents Query Answer → Except Failure α → Prop}
    (implies : ∀ mode outcome, post mode outcome → weaker mode outcome)
    {program : Program Query Answer Failure α}
    (ensures : program.Ensures interface inv granted post mode) :
    program.Ensures interface inv granted weaker mode :=
  ensures.through id weaker (fun _ _ => rfl) (fun mode _ => implies mode _)
    fun mode _ => implies mode _

/-- The first part of a sequence may leave to the rest what it ends with. -/
theorem Ensures.bind {post : ReaderMode Contents Query Answer → Except Failure β → Prop}
    {program : Program Query Answer Failure α} {rest : α → Program Query Answer Failure β}
    (ensures : program.Ensures interface inv granted
      (fun mode outcome => match outcome with
        | .ok value => (rest value).Ensures interface inv granted post mode
        | .error failure => post mode (.error failure)) mode) :
    (program.bind rest).Ensures interface inv granted post mode :=
  ensures.through (·.bind rest) post (fun _ _ => rfl) (fun _ _ holds => holds)
    fun _ _ holds => holds

theorem Ensures.attempt
    {post : ReaderMode Contents Query Answer → Except Failure (Except Failure α) → Prop}
    {program : Program Query Answer Failure α}
    (ensures : program.Ensures interface inv granted
      (fun mode outcome => post mode (.ok outcome)) mode) :
    program.attempt.Ensures interface inv granted post mode :=
  ensures.through Program.attempt post (fun _ _ => rfl) (fun _ _ holds => holds)
    fun _ _ holds => holds

theorem Ensures.mapFail {post : ReaderMode Contents Query Answer → Except Failure α → Prop}
    {rewrite : Failure → Failure} {program : Program Query Answer Failure α}
    (ensures : program.Ensures interface inv granted
      (fun mode outcome => post mode (outcome.mapError rewrite)) mode) :
    (program.mapFail rewrite).Ensures interface inv granted post mode := by
  apply Ensures.through (·.mapFail rewrite) post (fun _ _ => rfl) _ _ ensures
  · exact fun _ _ holds => holds
  · exact fun _ _ holds => holds

/-- A program that takes no lock and whose queries all contents in question answer alike ends
with its value on any of them. -/
theorem Ensures.of_eval {post : ReaderMode Contents Query Answer → Except Failure α → Prop}
    (answers : (query : Query) → Answer query)
    (modes : ReaderMode Contents Query Answer → Prop)
    (closed : ∀ mode asked, modes mode → modes (mode.afterRead asked))
    {program : Program Query Answer Failure α}
    (asks : program.Asks (fun query => interface.access query = .plain ∧
      ∀ mode contents answer, modes mode → mode.Shows inv contents →
        interface.answers contents query answer → answer = answers query) fun _ => True)
    (outcome : ∀ mode, modes mode → post mode (program.evalWith answers)) (start : modes mode) :
    program.Ensures interface inv granted post mode := by
  induction program generalizing mode with
  | done value => exact outcome mode start
  | fail failure => exact outcome mode start
  | ask query next ih =>
      rcases asks with ⟨⟨plain, same⟩, later⟩
      unfold Ensures
      rw [plain]
      intro contents shows answer answered
      obtain rfl := same mode contents answer start shows answered
      exact ih _ (later _) outcome (closed mode _ start)

end Ensures

end Program

/-! ### Every interleaving -/

namespace Shared

section Runs

variable {Contents Update Query : Type} {Answer : Query → Type} {Failure α : Type}
variable (interface : StoreInterface Contents Query Answer)
variable (computes : Contents → Update → Prop) (write : Contents → Update → Contents)
variable (inv : Contents → Prop)
variable (granted : Option (Σ query, Answer query) → Contents → Prop)
variable (post : ReaderMode Contents Query Answer → Except Failure α → Prop)

/-- The mode is that of the reader's run so far. -/
def Tracks (mode : ReaderMode Contents Query Answer)
    (s : Shared Contents Update Query Answer Failure α) : Prop :=
  match mode with
  | .free lastRead => s.reading = false ∧ s.lastRead = lastRead
  | .held snapshot => s.reading = true ∧ s.contents = snapshot
  | .released snapshot => s.reading = false ∧ snapshot ∈ s.seen ∧ inv snapshot

/-- The invariant of a run: the reader's program still ensures the postcondition, and no update
is written behind its back while it holds the lock. -/
structure Covered (s : Shared Contents Update Query Answer Failure α) : Prop where
  holds : inv s.contents
  current : s.contents ∈ s.seen
  pending : ∀ update, s.writer.pending = some update → computes s.contents update
  exclusive : s.reading = true → ¬ s.writer.Holds
  ensures : ∃ mode, Tracks inv mode s ∧ s.reader.Ensures interface inv granted post mode

variable {interface computes write inv granted post}

theorem Covered.start {contents : Contents} {reader : Program Query Answer Failure α}
    (holds : inv contents)
    (ensures : reader.Ensures interface inv granted post (.free none)) :
    Covered interface computes inv granted post (Shared.start Update contents reader) where
  holds := holds
  current := List.mem_cons_self
  pending := fun _ none => (nomatch none)
  exclusive := fun reading => (nomatch reading)
  ensures := ⟨.free none, ⟨rfl, rfl⟩, ensures⟩

/-- One step keeps the invariant of a run, if a written update keeps the invariant of the
contents and the lock is granted as the reader's proof assumes. -/
theorem Covered.step {a b : Shared Contents Update Query Answer Failure α}
    (failures : ∀ mode failure, post mode (.error failure))
    (step : Step interface computes write a b)
    (keeps : ∀ update, computes a.contents update → b.contents = write a.contents update →
      inv b.contents)
    (grants : a.reading = false → b.reading = true → granted a.lastRead a.contents)
    (covered : Covered interface computes inv granted post a) :
    Covered interface computes inv granted post b := by
  rcases covered with ⟨holds, current, pending, exclusive, mode, tracks, ensures⟩
  cases step with
  | read asks plain answered =>
      rw [asks] at ensures
      unfold Program.Ensures at ensures
      rw [plain] at ensures
      refine ⟨holds, current, pending, exclusive, ?_⟩
      cases mode with
      | free lastRead =>
          exact ⟨.free _, ⟨tracks.1, rfl⟩, ensures _ holds _ answered⟩
      | held snapshot => exact ⟨_, tracks, ensures _ tracks.2 _ answered⟩
      | released snapshot => exact ⟨_, tracks, ensures _ holds _ answered⟩
  | acquire asks locks free =>
      rw [asks] at ensures
      unfold Program.Ensures at ensures
      rw [locks] at ensures
      refine ⟨holds, current, pending, fun _ => free, ?_⟩
      cases mode with
      | free lastRead =>
          have grant := grants tracks.1 rfl
          rw [tracks.2] at grant
          exact ⟨.held a.contents, ⟨rfl, rfl⟩, ensures _ holds grant _⟩
      | held snapshot => exact ensures.elim
      | released snapshot => exact ensures.elim
  | release asks unlocks =>
      rw [asks] at ensures
      unfold Program.Ensures at ensures
      rw [unlocks] at ensures
      refine ⟨holds, current, pending, fun reading => (nomatch reading), ?_⟩
      cases mode with
      | held snapshot =>
          rcases tracks with ⟨_, rfl⟩
          exact ⟨.released a.contents, ⟨rfl, current, holds⟩, ensures _⟩
      | free lastRead => exact ensures.elim
      | released snapshot => exact ensures.elim
  | abort failure asks =>
      exact ⟨holds, current, pending, fun reading => (nomatch reading),
        .free a.lastRead, ⟨rfl, rfl⟩, failures _ failure⟩
  | compute idle computed =>
      refine ⟨holds, current, fun update computing => ?_, fun _ locked => locked, mode, ?_, ensures⟩
      · obtain rfl := Option.some.inj computing
        exact computed
      · cases mode <;> exact tracks
  | discard computed =>
      refine ⟨holds, current, fun _ none => (nomatch none), fun _ locked => locked, mode, ?_,
        ensures⟩
      cases mode <;> exact tracks
  | lock computed free =>
      refine ⟨holds, current, fun update locking => ?_, fun reading => ?_, mode, ?_, ensures⟩
      · exact pending update (by rw [computed]; exact locking)
      · rw [free] at reading
        cases reading
      · cases mode <;> exact tracks
  | @write update locked =>
      have computed := pending update (by rw [locked]; rfl)
      have notReading : a.reading ≠ true := fun reading =>
        exclusive reading (by rw [locked]; trivial)
      refine ⟨keeps update computed rfl, List.mem_cons_self, fun _ none => (nomatch none),
        fun reading => absurd reading notReading, mode, ?_, ensures⟩
      cases mode with
      | free lastRead => exact tracks
      | held snapshot => exact absurd tracks.1 notReading
      | released snapshot => exact ⟨tracks.1, List.mem_cons_of_mem _ tracks.2.1, tracks.2.2⟩
  | writeFails locked =>
      refine ⟨holds, current, fun _ none => (nomatch none), fun reading => ?_, mode, ?_, ensures⟩
      · exact absurd (show a.writer.Holds by rw [locked]; trivial) (exclusive reading)
      · cases mode <;> exact tracks
  | unlock written =>
      refine ⟨holds, current, fun _ none => (nomatch none), fun _ locked => locked, mode, ?_,
        ensures⟩
      cases mode <;> exact tracks

/-- Along a run whose steps meet `guard`. -/
theorem Covered.run {a b : Shared Contents Update Query Answer Failure α}
    {guard : Shared Contents Update Query Answer Failure α →
      Shared Contents Update Query Answer Failure α → Prop}
    (failures : ∀ mode failure, post mode (.error failure))
    (keeps : ∀ s t update, guard s t → inv s.contents → computes s.contents update →
      t.contents = write s.contents update → inv t.contents)
    (grants : ∀ s t, guard s t → s.reading = false → t.reading = true →
      granted s.lastRead s.contents)
    (covered : Covered interface computes inv granted post a)
    (run : Relation.ReflTransGen
      (fun s t => Step interface computes write s t ∧ guard s t) a b) :
    Covered interface computes inv granted post b := by
  refine GuardedRun.invariant ?_ run covered
  intro s t covered step meets
  exact covered.step failures step
    (fun update computed written => keeps s t update meets covered.holds computed written)
    (grants s t meets)

/-- What was current during a run stays on record. -/
theorem seen_of_run {a b : Shared Contents Update Query Answer Failure α}
    {guard : Shared Contents Update Query Answer Failure α →
      Shared Contents Update Query Answer Failure α → Prop}
    (run : Relation.ReflTransGen
      (fun s t => Step interface computes write s t ∧ guard s t) a b)
    {contents : Contents} (seen : contents ∈ a.seen) : contents ∈ b.seen := by
  refine @GuardedRun.invariant _ _ _ _ _ (fun s => contents ∈ s.seen) ?_ run seen
  intro s t seen step _
  cases step with
  | write locked => exact List.mem_cons_of_mem _ seen
  | _ => exact seen

end Runs

/-! ### Schedules

Runs in which the reader goes on alone for a while, or the writer brings one update to its end. -/

section Schedules

variable {Contents Update Query : Type} {Answer : Query → Type} {Failure α : Type}
variable (interface : StoreInterface Contents Query Answer)
variable (computes : Contents → Update → Prop) (write : Contents → Update → Contents)
variable (answers : Contents → (query : Query) → Answer query)

/-- The contents would still give the answer the reader got last. -/
def LastAnswered (s : Shared Contents Update Query Answer Failure α) : Prop :=
  ∀ query answer, s.lastRead = some ⟨query, answer⟩ → interface.answers s.contents query answer

/-- If the step takes the read lock, the answer the reader got last is still current. -/
def InTime (s t : Shared Contents Update Query Answer Failure α) : Prop :=
  s.reading = false → t.reading = true → s.LastAnswered interface

/-- What the reader has ended with. -/
def outcome (s : Shared Contents Update Query Answer Failure α) : Option (Except Failure α) :=
  match s.reader with
  | .done value => some (.ok value)
  | .fail failure => some (.error failure)
  | .ask _ _ => none

/-- One query of the reader. -/
def answer (s : Shared Contents Update Query Answer Failure α) :
    Shared Contents Update Query Answer Failure α :=
  match s.reader with
  | .done _ | .fail _ => s
  | .ask query next =>
      match interface.access query with
      | .plain =>
          { s with
            reader := next (answers s.contents query)
            asked := query :: s.asked
            lastRead := some ⟨query, answers s.contents query⟩ }
      | .acquire => { s with reader := next (answers s.contents query), reading := true }
      | .release => { s with reader := next (answers s.contents query), reading := false }

/-- The reader alone, for a number of queries. -/
def serve : Nat → Shared Contents Update Query Answer Failure α →
    Shared Contents Update Query Answer Failure α
  | 0, s => s
  | count + 1, s => serve count (answer interface answers s)

/-- The writer alone, with one update. -/
def commit (update : Update) (s : Shared Contents Update Query Answer Failure α) :
    Shared Contents Update Query Answer Failure α :=
  { s with contents := write s.contents update, seen := write s.contents update :: s.seen }

variable {interface computes write answers}
variable {s : Shared Contents Update Query Answer Failure α}

theorem reader_of_outcome {value : α} (ended : s.outcome = some (.ok value)) :
    s.reader = .done value := by
  unfold outcome at ended
  cases shape : s.reader with
  | done other =>
      rw [shape] at ended
      cases ended
      rfl
  | fail failure =>
      rw [shape] at ended
      cases ended
  | ask query next =>
      rw [shape] at ended
      cases ended

/-- A query leaves the contents, the writer and the history of the contents alone. -/
theorem answer_frame : (answer interface answers s).contents = s.contents ∧
    (answer interface answers s).writer = s.writer ∧
    (answer interface answers s).seen = s.seen := by
  unfold answer
  split
  · exact ⟨rfl, rfl, rfl⟩
  · exact ⟨rfl, rfl, rfl⟩
  · split <;> exact ⟨rfl, rfl, rfl⟩

/-- A query of the reader is a step. -/
theorem answer_step (honest : ∀ contents query,
      interface.answers contents query (answers contents query)) (idle : s.writer = .idle) :
    answer interface answers s = s ∨
      Step interface computes write s (answer interface answers s) := by
  unfold answer
  split
  · exact Or.inl rfl
  · exact Or.inl rfl
  · rename_i query next shape
    right
    split
    · rename_i access
      exact .read shape access (honest _ _)
    · rename_i access
      apply Step.acquire shape access
      rw [idle]
      exact id
    · rename_i access
      exact .release shape access

/-- After a query that is answered now, the last answer is current. -/
theorem answer_lastAnswered (honest : ∀ contents query,
      interface.answers contents query (answers contents query))
    (current : s.LastAnswered interface) :
    (answer interface answers s).LastAnswered interface := by
  unfold answer
  split
  · exact current
  · exact current
  · split
    · intro query answer same
      cases same
      exact honest _ _
    · exact current
    · exact current

theorem serve_frame (count : Nat) : (serve interface answers count s).contents = s.contents ∧
    (serve interface answers count s).writer = s.writer ∧
    (serve interface answers count s).seen = s.seen := by
  induction count generalizing s with
  | zero => exact ⟨rfl, rfl, rfl⟩
  | succ count ih =>
      have first := @answer_frame _ _ _ _ _ _ interface answers s
      have rest := @ih (answer interface answers s)
      exact ⟨rest.1.trans first.1, rest.2.1.trans first.2.1, rest.2.2.trans first.2.2⟩

/-- The reader alone makes a run.  `kept` holds all along it and gives the guard of every step. -/
theorem serve_run {kept : Shared Contents Update Query Answer Failure α → Prop}
    {guard : Shared Contents Update Query Answer Failure α →
      Shared Contents Update Query Answer Failure α → Prop}
    (honest : ∀ contents query, interface.answers contents query (answers contents query))
    (keeps : ∀ s, kept s → kept (answer interface answers s) ∧
      guard s (answer interface answers s))
    (count : Nat) (idle : s.writer = .idle) (holds : kept s) :
    Relation.ReflTransGen (fun a b => Step interface computes write a b ∧ guard a b) s
      (serve interface answers count s) := by
  induction count generalizing s with
  | zero => exact .refl
  | succ count ih =>
      have rest := ih (answer_frame.2.1.trans idle) (keeps s holds).1
      rcases @answer_step _ _ _ _ _ _ interface computes write answers s honest idle with
        same | step
      · rw [same] at rest
        rw [serve, same]
        exact rest
      · exact .head ⟨step, (keeps s holds).2⟩ rest

/-- The reader alone makes a run under any guard that its queries meet. -/
theorem serve_run_of_answer
    {guard : Shared Contents Update Query Answer Failure α →
      Shared Contents Update Query Answer Failure α → Prop}
    (honest : ∀ contents query, interface.answers contents query (answers contents query))
    (meets : ∀ s, guard s (answer interface answers s)) (count : Nat) (idle : s.writer = .idle) :
    Relation.ReflTransGen (fun a b => Step interface computes write a b ∧ guard a b) s
      (serve interface answers count s) :=
  @serve_run _ _ _ _ _ _ interface computes write answers s (fun _ => True) guard honest
    (fun s _ => ⟨trivial, meets s⟩) count idle trivial

/-- The reader alone takes its locks in time, if its last answer is current at the start. -/
theorem serve_run_inTime
    (honest : ∀ contents query, interface.answers contents query (answers contents query))
    (count : Nat) (idle : s.writer = .idle) (current : s.LastAnswered interface) :
    Relation.ReflTransGen (fun a b => Step interface computes write a b ∧ InTime interface a b) s
      (serve interface answers count s) :=
  serve_run honest (fun _ current => ⟨answer_lastAnswered honest current, fun _ _ => current⟩)
    count idle current

/-- One update from its computation to the release of the lock makes a run, during which the reader
does nothing. -/
theorem commit_run {update : Update}
    {guard : Shared Contents Update Query Answer Failure α →
      Shared Contents Update Query Answer Failure α → Prop}
    (keeps : ∀ a b, a.asked = s.asked → b.reading = a.reading → b.contents = a.contents ∨
      (a.contents = s.contents ∧ b.contents = write s.contents update) → guard a b)
    (idle : s.writer = .idle) (free : s.reading = false)
    (computed : computes s.contents update) :
    Relation.ReflTransGen (fun a b => Step interface computes write a b ∧ guard a b) s
      (commit write update s) := by
  have final : commit write update s = { commit write update s with writer := .idle } := by
    rw [commit, ← idle]
  rw [final]
  apply Relation.ReflTransGen.head ⟨.compute idle computed, keeps _ _ rfl rfl (Or.inl rfl)⟩
  apply Relation.ReflTransGen.head ⟨.lock rfl free, keeps _ _ rfl rfl (Or.inl rfl)⟩
  apply Relation.ReflTransGen.head ⟨.write rfl, keeps _ _ rfl rfl (Or.inr ⟨rfl, rfl⟩)⟩
  exact Relation.ReflTransGen.single ⟨.unlock rfl, keeps _ _ rfl rfl (Or.inl rfl)⟩

/-- A step that leaves the lock alone is in time. -/
theorem inTime_of_reading_eq {a b : Shared Contents Update Query Answer Failure α}
    (same : b.reading = a.reading) : InTime interface a b := by
  intro before after
  rw [same, before] at after
  cases after

end Schedules

end Shared

end MerkleProofService.Library
