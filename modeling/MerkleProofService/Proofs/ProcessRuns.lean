/-
Module: MerkleProofService.Proofs.ProcessRuns
Layer: Proofs
Purpose: What the rounds of the start command leave open.  A start that fails after `NewDB` has
  opened the database leaves its handle open for the rest of the process, and one that fails after
  the node was reached its client.  With a backend that can be opened only once, no later round of
  the same process gets at the database: the loop goes on, but the service is never back.
Imports: Application.Process, Proofs.ConfigurationRuns
Trusted boundary: none
Main exports: Attempt.leavesHandle, Attempt.leavesClient, Attempt.opens, InitEnds, settles_init,
  RoundEnds, LockedOut, failed_start_locks_out
-/
import MerkleProofService.Application.Process
import MerkleProofService.Proofs.ConfigurationRuns

namespace MerkleProofService

open Library

/-! ### Kinds of attempts -/

/-- The start has failed after the database was opened. -/
def Attempt.leavesHandle : Attempt → Bool
  | .failed (.wrap _ (.wrap text _)) => text = "configure zk certificate registry"
  | .failed (.wrap _ err) => err = noJobs
  | .failed _ | .served => false

/-- The start has failed after the node was reached. -/
def Attempt.leavesClient : Attempt → Bool
  | .failed (.wrap _ (.wrap text _)) => text ≠ "connect via RPC"
  | .failed _ => true
  | .served => false

/-- The database was opened. -/
def Attempt.opens (attempt : Attempt) : Bool :=
  attempt = .served || attempt.leavesHandle

/-! ### How `Init` ends -/

/-- Where `Init` has ended, and what it has opened by then. -/
inductive InitEnds (exclusive : Bool) (s t : Process) :
    Except GoError (Service × List JobDescriptor) → Prop where
  | unconnected (cause : GoError) (handles : t.handles = s.handles)
      (clients : t.clients = s.clients) :
      InitEnds exclusive s t (.error (.wrapf "connect via RPC" cause))
  | noBlock (cause : GoError) (handles : t.handles = s.handles)
      (clients : t.clients = s.clients + 1) :
      InitEnds exclusive s t (.error (.wrapf "get latest block" cause))
  | noDatabase (cause : GoError) (handles : t.handles = s.handles)
      (clients : t.clients = s.clients + 1) :
      InitEnds exclusive s t (.error (.wrapf "create storage DB" cause))
  | unconfigured (cause : GoError) (free : exclusive = true → s.handles = 0)
      (handles : t.handles = s.handles + 1) (clients : t.clients = s.clients + 1) :
      InitEnds exclusive s t (.error (.wrapf "configure zk certificate registry" cause))
  | jobless (free : exclusive = true → s.handles = 0) (handles : t.handles = s.handles + 1)
      (clients : t.clients = s.clients + 1) :
      InitEnds exclusive s t (.error noJobs)
  | initialized {made : Service × List JobDescriptor} (free : exclusive = true → s.handles = 0)
      (handles : t.handles = s.handles + 1) (clients : t.clients = s.clients + 1) :
      InitEnds exclusive s t (.ok made)

section Init

variable {exclusive : Bool} {codec : MetadataCodec} {addressString : Address → String}
variable {addresses : List Address} {s t : Process}

/-- Configuring opens nothing. -/
theorem settles_ofService {α : Type} (program : ServiceProgram α) (s : Process) :
    (InitProgram.ofService program).Settles (initEnvironment exclusive) Eq
      (fun t _ => t.handles = s.handles ∧ t.clients = s.clients) s := by
  induction program generalizing s with
  | done value => exact Program.settles_done fun _ same => same ▸ ⟨rfl, rfl⟩
  | fail err => exact Program.settles_fail fun _ same => same ▸ ⟨rfl, rfl⟩
  | ask query next ih =>
      refine Program.settles_ask fun now same choice => ?_
      subst same
      exact ih (serviceEnvironment.answer s.database query choice)
        { s with database := serviceEnvironment.after s.database query choice }

/-- The choice decides what `NewDB` returns, unless the backend is locked. -/
theorem newDBAnswer_ok {handles : Nat} {choice : Option GoError}
    (opened : newDBAnswer exclusive handles choice = .ok ()) :
    exclusive = true → handles = 0 := by
  intro isExclusive
  cases choice with
  | none =>
      by_contra some
      rw [newDBAnswer, if_pos ⟨isExclusive, Nat.pos_of_ne_zero some⟩] at opened
      cases opened
  | some err => cases opened

theorem settles_init (exclusive : Bool) (codec : MetadataCodec)
    (addressString : Address → String) (addresses : List Address) (s : Process) :
    (initApplication codec addressString addresses).Settles (initEnvironment exclusive) Eq
      (InitEnds exclusive s) s := by
  have refl : ∀ s : Process, s = s := fun _ => rfl
  -- each call fails, and `Init` with it, or goes on with what it has opened
  refine Program.Settles.bind refl (Program.Settles.mapFail (Program.settles_ask ?_))
  rintro _ rfl (dialed : Except GoError Unit)
  rcases dialed with err | _
  · exact Program.settles_fail fun _ same => same ▸ .unconnected err rfl rfl
  refine Program.settles_done fun _ same => same ▸ ?_
  refine Program.Settles.bind refl (Program.Settles.mapFail (Program.settles_ask ?_))
  rintro _ rfl (latest : Except GoError UInt64)
  rcases latest with err | _
  · exact Program.settles_fail fun _ same => same ▸ .noBlock err rfl rfl
  refine Program.settles_done fun _ same => same ▸ ?_
  refine Program.Settles.bind refl (Program.Settles.mapFail (Program.settles_ask ?_))
  rintro _ rfl choice
  change (Program.ofExcept (newDBAnswer exclusive s.handles choice)).Settles _ _ _
    { s with
      clients := s.clients + 1
      handles := openedBy s.handles (newDBAnswer exclusive s.handles choice) }
  cases opened : newDBAnswer exclusive s.handles choice with
  | error err => exact Program.settles_fail fun _ same => same ▸ .noDatabase err rfl rfl
  | ok _ =>
      have free := newDBAnswer_ok opened
      refine Program.settles_done fun _ same => same ▸ ?_
      refine Program.Settles.bind refl (Program.Settles.mapFail
        ((settles_ofService _ _).weaken ?_))
      rintro t outcome ⟨handles, clients⟩
      cases outcome with
      | error err => exact .unconfigured err free handles clients
      | ok made =>
          change Program.Settles _ _ _ (if made.2.length = 0 then .fail noJobs else .done made) t
          split
          · exact Program.settles_fail fun _ same => same ▸ .jobless free handles clients
          · exact Program.settles_done fun _ same => same ▸ .initialized free handles clients

theorem init_ends (choices : Nat → (query : InitQuery) → InitChoice query)
    {outcome : Except GoError (Service × List JobDescriptor)}
    (ended : (initApplication codec addressString addresses).serve (initEnvironment exclusive)
      choices s = (outcome, t)) : InitEnds exclusive s t outcome := by
  have ends := (settles_init exclusive codec addressString addresses s).serve (fun _ => rfl)
    Eq.trans choices
  rwa [ended] at ends

end Init

/-! ### One round -/

/-- What a round shows says what it leaves open, and whether the database was free. -/
structure RoundEnds (exclusive : Bool) (s t : Process) (attempt : Attempt) : Prop where
  handles : t.handles = s.handles + attempt.leavesHandle.toNat
  clients : t.clients = s.clients + attempt.leavesClient.toNat
  free : exclusive = true → attempt.opens = true → s.handles = 0

section Rounds

variable {exclusive : Bool} {codec : MetadataCodec} {addressString : Address → String}
variable {addresses : List Address} {s t : Process} {attempt : Attempt}

theorem GoError.wrapf_of_noPanic {text : String} {err : GoError}
    (noPanic : ∀ reason, err ≠ .panic reason) : err.wrapf text = .wrap text err := by
  cases err with
  | panic reason => exact absurd rfl (noPanic reason)
  | notFound | message | wrap => rfl

/-- An error with a text around it is a panic only if the error is. -/
theorem GoError.cause_noPanic {text : String} {cause : GoError}
    (noPanic : ∀ reason, cause.wrapf text ≠ .panic reason) (reason : String) :
    cause ≠ .panic reason := by
  rintro rfl
  exact noPanic reason rfl

/-- A start that has failed at one of the calls. -/
theorem roundEnds_failed {text : String} {cause : GoError}
    (noPanic : ∀ reason, cause.wrapf text ≠ .panic reason)
    (handles : t.handles =
      s.handles + (decide (text = "configure zk certificate registry")).toNat)
    (clients : t.clients = s.clients + (decide (text ≠ "connect via RPC")).toNat)
    (free : exclusive = true → text = "configure zk certificate registry" → s.handles = 0) :
    RoundEnds exclusive s t (.failed (.wrapf "init application" (.wrapf text cause))) := by
  rw [GoError.wrapf_of_noPanic noPanic,
    GoError.wrapf_of_noPanic (GoError.cause_noPanic noPanic)]
  refine ⟨handles, clients, fun isExclusive opens => free isExclusive ?_⟩
  simpa [Attempt.opens, Attempt.leavesHandle] using opens

theorem ProcessStep.ends
    (step : ProcessStep exclusive codec addressString addresses s (some attempt) t) :
    RoundEnds exclusive s t attempt := by
  cases step with
  | fails choices ended noPanic =>
      cases init_ends choices ended with
      | unconnected cause handles clients =>
          exact roundEnds_failed noPanic handles clients (by simp)
      | noBlock cause handles clients =>
          exact roundEnds_failed noPanic handles clients (by simp)
      | noDatabase cause handles clients =>
          exact roundEnds_failed noPanic handles clients (by simp)
      | unconfigured cause free handles clients =>
          exact roundEnds_failed noPanic handles clients fun isExclusive _ => free isExclusive
      | jobless free handles clients =>
          exact ⟨handles, clients, fun isExclusive _ => free isExclusive⟩
  | serves choices ended database =>
      cases init_ends choices ended with
      | initialized free handles clients =>
          refine ⟨?_, ?_, fun isExclusive _ => free isExclusive⟩
          · exact congrArg (· - 1) handles
          · exact congrArg (· - 1) clients

theorem ProcessStep.shows {shown : Option Attempt}
    (step : ProcessStep exclusive codec addressString addresses s shown t) :
    ∃ attempt, shown = some attempt := by
  cases step with
  | fails => exact ⟨_, rfl⟩
  | serves => exact ⟨_, rfl⟩

end Rounds

/-! ### The loop -/

/-- With an exclusive backend, the database is not opened any more after a start that has left its
handle open. -/
def LockedOut (before : List Attempt) (attempt : Attempt) : Prop :=
  (∃ earlier ∈ before, earlier.leavesHandle = true) → attempt.opens = false

/-- What holds after every round. -/
structure LoopAt (exclusive : Bool) (s : Process) (trace : List Attempt) : Prop where
  handles : s.handles = trace.countP Attempt.leavesHandle
  clients : s.clients = trace.countP Attempt.leavesClient
  locked : exclusive = true → EachEvent LockedOut trace

theorem LoopAt.snoc {exclusive : Bool} {s t : Process} {trace : List Attempt} {attempt : Attempt}
    (sound : LoopAt exclusive s trace) (ends : RoundEnds exclusive s t attempt) :
    LoopAt exclusive t (trace ++ [attempt]) where
  handles := by
    rw [ends.handles, sound.handles, List.countP_append, List.countP_singleton]
    cases attempt.leavesHandle <;> rfl
  clients := by
    rw [ends.clients, sound.clients, List.countP_append, List.countP_singleton]
    cases attempt.leavesClient <;> rfl
  locked isExclusive := by
    refine eachEvent_snoc.mpr ⟨sound.locked isExclusive, fun left => ?_⟩
    have held : 0 < s.handles := by
      rw [sound.handles]
      exact List.countP_pos_iff.mpr left
    by_contra opened
    have free := ends.free isExclusive (Bool.eq_true_of_not_eq_false opened)
    exact absurd free held.ne'

/-! ### A contract that cannot be called -/

/-- The choices of a round in which the node and the database answer, and the contract as `service`
says. -/
def roundChoice (service : (query : ServiceQuery) → ServiceChoice query) :
    (query : InitQuery) → InitChoice query
  | .dial => (.ok () : Except GoError Unit)
  | .blockNumber => (.ok 7 : Except GoError UInt64)
  | .newDB => (none : Option GoError)
  | .service query => service query

/-- A round with these choices, on a backend that can be opened only once. -/
def servedRound (service : (query : ServiceQuery) → ServiceChoice query) (s : Process) :
    Except GoError (Service × List JobDescriptor) × Process :=
  (initApplication fixedMetadataCodec (fun _ => "") [1]).serve (initEnvironment true)
    (fun _ => roundChoice service) s

def errorOf {α : Type} : Except GoError α → Option GoError
  | .ok _ => none
  | .error err => some err

theorem errorOf_eq_some {α : Type} {outcome : Except GoError α} {err : GoError}
    (failed : errorOf outcome = some err) : outcome = .error err := by
  cases outcome with
  | ok value => cases failed
  | error other => rw [Option.some.inj failed]

/-- The error of the first round. -/
def unconfiguredError : GoError :=
  .wrap "configure zk certificate registry" (.wrap "initialize registry for address "
    (.wrap "failed to fetch metadata from contract" (.wrap "failed to create contract caller"
      (.message "no contract code at given address"))))

/-- The error of the second, although nothing would fail in it. -/
def lockedError : GoError := .wrap "create storage DB" databaseLocked

/-- The process after both. -/
def twoRounds : Traced Process Attempt where
  state := (servedRound allSucceed (servedRound contractFails ⟨∅, 0, 0⟩).2).2
  trace := [.failed (.wrap "init application" unconfiguredError),
    .failed (.wrap "init application" lockedError)]

theorem round_fails {service : (query : ServiceQuery) → ServiceChoice query} {s : Process}
    {err : GoError} (failed : errorOf (servedRound service s).1 = some err)
    (noPanic : ∀ reason, err ≠ .panic reason) :
    ProcessStep true fixedMetadataCodec (fun _ => "") [1] s
      (some (.failed (.wrapf "init application" err))) (servedRound service s).2 :=
  .fails (fun _ => roundChoice service) (Prod.ext (errorOf_eq_some failed) rfl) noPanic

theorem twoRounds_run :
    Relation.ReflTransGen
      (Traced.Step (ProcessStep true fixedMetadataCodec (fun _ => "") [1]))
      ⟨⟨∅, 0, 0⟩, []⟩ twoRounds := by
  have first : errorOf (servedRound contractFails ⟨∅, 0, 0⟩).1 = some unconfiguredError := by
    decide +kernel
  have second : errorOf (servedRound allSucceed (servedRound contractFails ⟨∅, 0, 0⟩).2).1 =
      some lockedError := by decide +kernel
  exact Traced.run_cons (round_fails first nofun)
    (Traced.run_cons (round_fails second nofun) .refl)

/-! ### Every run of the start command -/

/-- In every run of the start command, whatever fails: the handles left open are those of the starts
that failed after the database was opened, and the clients those of the starts that failed after the
node was reached; and if the backend can be opened only once, then after one start of the first kind
no later round of the process opens the database again. -/
theorem failed_start_locks_out (exclusive : Bool) (codec : MetadataCodec)
    (addressString : Address → String) (addresses : List Address) (database : Database)
    {s : Traced Process Attempt}
    (run : Relation.ReflTransGen
      (Traced.Step (ProcessStep exclusive codec addressString addresses))
      ⟨⟨database, 0, 0⟩, []⟩ s) :
    s.state.handles = s.trace.countP Attempt.leavesHandle ∧
      s.state.clients = s.trace.countP Attempt.leavesClient ∧
      (exclusive = true → EachEvent LockedOut s.trace) := by
  have sound : LoopAt exclusive s.state s.trace := by
    refine Traced.invariant (fun {_ _ _ _} sound step => ?_) run
      ⟨rfl, rfl, fun _ => eachEvent_nil _⟩
    obtain ⟨attempt, rfl⟩ := step.shows
    exact sound.snoc step.ends
  exact ⟨sound.handles, sound.clients, sound.locked⟩

/-- A contract that could not be called once keeps the service down, although it could be called
in the next round. -/
theorem failed_start_locks_out_contract :
    twoRounds.state.handles = 1 ∧ twoRounds.trace.map Attempt.opens = [true, false] ∧
      twoRounds.state.clients = 2 ∧ EachEvent LockedOut twoRounds.trace := by
  obtain ⟨handles, clients, locked⟩ := failed_start_locks_out true fixedMetadataCodec
    (fun _ => "") [1] ∅ twoRounds_run
  exact ⟨handles, by decide, clients, locked rfl⟩

end MerkleProofService
