/-
Module: MerkleProofService.Proofs.ConcurrentRequests
Layer: Proofs
Purpose: A client's request next to the commits of a registry's job.  Between two queries of the
  request the job may compute a batch, take the write lock, write and release it.  The rules here
  say what the parts of the handlers ensure in every such interleaving.
Imports: Library.SharedStore, Query.Handlers, Proofs.JobCommits
Trusted boundary: human-reviewed spec
Main exports: requestInterface, Serving, JobCommits, ServingStep, LockedInTime,
  ensures_registryOnHead, ensures_withRLock, ensures_tryRun, served_in_time
-/
import MerkleProofService.Library.SharedStore
import MerkleProofService.Query.Handlers
import MerkleProofService.Proofs.JobCommits

namespace MerkleProofService

open Library

/-! ### The system -/

/-- Only the lock of the job's own registry is shared with the job. -/
def requestAccess (lock : RegistryIndex) : RequestQuery → Access
  | .rLock index => if index = lock then .acquire else .plain
  | .rUnlock index => if index = lock then .release else .plain
  | .read _ | .isOnHead _ => .plain

/-- The database answers reads; whether the indexer is on the head may change at any time. -/
def RequestAnswers (database : Database) : (query : RequestQuery) → RequestAnswer query → Prop
  | .read query, answer => answer = Read.answersOf database query
  | .rLock _, _ | .rUnlock _, _ | .isOnHead _, _ => True

def requestInterface (lock : RegistryIndex) :
    StoreInterface Database RequestQuery RequestAnswer where
  access := requestAccess lock
  answers := RequestAnswers

/-- A request and a job on one database. -/
abbrev Serving (α : Type) := Shared Database Batch RequestQuery RequestAnswer GoError α

/-- The batches the job can come to, when the contract emits the operations `emits` allows. -/
def JobCommits (poseidon : PoseidonHash) (job : ZkCertificateRegistryJob)
    (emits : Database → List LeafOperation → Prop) (database : Database) (batch : Batch) : Prop :=
  ∃ operations block, emits database operations ∧
    Read.evalOn database (job.commitBatch poseidon operations block) = .ok batch

def ServingStep {α : Type} (poseidon : PoseidonHash) (job : ZkCertificateRegistryJob)
    (emits : Database → List LeafOperation → Prop) : Serving α → Serving α → Prop :=
  Shared.Step (requestInterface job.registry.mutex) (JobCommits poseidon job emits) Store.write

/-- If the step takes the read lock, the database still holds what the request read last. -/
def LockedInTime {α : Type} (job : ZkCertificateRegistryJob) : Serving α → Serving α → Prop :=
  Shared.InTime (requestInterface job.registry.mutex)

/-- What is known of the last answer of a request that is granted the lock in time. -/
def StillAnswered (lastRead : Option (Σ query, RequestAnswer query)) (database : Database) :
    Prop :=
  ∀ query answer, lastRead = some ⟨query, answer⟩ → RequestAnswers database query answer

/-- No job writes the registry index entries. -/
theorem JobCommits.lookup_registryIndexKey {poseidon : PoseidonHash}
    {job : ZkCertificateRegistryJob} {emits : Database → List LeafOperation → Prop}
    {database : Database} {batch : Batch} (built : InitializedRegistry poseidon job.registry)
    (computed : JobCommits poseidon job emits database batch) (address : Address) :
    (Store.write database batch).lookup (makeRegistryIndexKey address) =
      database.lookup (makeRegistryIndexKey address) := by
  rcases computed with ⟨operations, block, _, run⟩
  apply Store.lookup_write_of_none
  exact commitBatch_frame built run (makeRegistryIndexKey_noRegistryKey _ _)
    (makeJobKey_ne_makeRegistryIndexKey _ _)

/-! ### Rules for the parts of a handler -/

section Rules

variable {α : Type} {lock : RegistryIndex} {inv : Database → Prop}
variable {granted : Option (Σ query, RequestAnswer query) → Database → Prop}
variable {mode : ReaderMode Database RequestQuery RequestAnswer}

/-- Looking at the outcome of a computation. -/
theorem ensures_tryRun {computation : Request α}
    {post : ReaderMode Database RequestQuery RequestAnswer →
      Except GoError (Except GoError α) → Prop}
    (panics : ∀ mode reason, post mode (.error (.panic reason)))
    (ensures : computation.Ensures (requestInterface lock) inv granted
      (fun mode outcome => post mode (.ok outcome)) mode) :
    computation.tryRun.Ensures (requestInterface lock) inv granted post mode := by
  apply Program.Ensures.bind
  apply Program.Ensures.attempt
  apply ensures.weaken
  intro mode outcome holds
  cases outcome with
  | ok value => exact holds
  | error err =>
      cases err with
      | panic reason => exact panics mode reason
      | notFound => exact holds
      | message text => exact holds
      | wrap text cause => exact holds

/-- Reads of entries that no commit changes. -/
theorem ensures_ofRead_stable {computation : Read α} {allowed : ReadQuery → Prop}
    {database : Database} {lastRead : Option (Σ query, RequestAnswer query)}
    {post : ReaderMode Database RequestQuery RequestAnswer → Except GoError α → Prop}
    (asks : computation.Asks allowed fun _ => True)
    (stable : ∀ query, allowed query → ∀ contents, inv contents →
      Read.answersOf contents query = Read.answersOf database query)
    (outcome : ∀ lastRead, post (.free lastRead) (Read.evalOn database computation)) :
    (Request.ofRead computation).Ensures (requestInterface lock) inv granted post
      (.free lastRead) := by
  apply Program.Ensures.of_eval (Request.answersOf database true)
    (fun mode => ∃ lastRead, mode = .free lastRead)
  · rintro _ asked ⟨lastRead, rfl⟩
    exact ⟨some asked, rfl⟩
  · apply asks.liftQuery
    intro query member
    refine ⟨rfl, ?_⟩
    rintro _ contents answer ⟨lastRead, rfl⟩ holds answered
    exact Eq.trans answered (stable query member contents holds)
  · rintro _ ⟨lastRead, rfl⟩
    have evaluated := Request.evalOn_ofRead database true computation
    rw [Request.evalOn] at evaluated
    rw [evaluated]
    exact outcome lastRead
  · exact ⟨lastRead, rfl⟩

/-- Under the lock everything is read from one database. -/
theorem ensures_withRLock {body : Read α}
    {lastRead : Option (Σ query, RequestAnswer query)}
    {post : ReaderMode Database RequestQuery RequestAnswer → Except GoError α → Prop}
    (outcome : ∀ database, inv database → granted lastRead database →
      post (.released database) (Read.evalOn database body)) :
    (Request.withRLock lock (Request.ofRead body)).Ensures (requestInterface lock) inv granted
      post (.free lastRead) := by
  have acquires : (requestInterface lock).access (.rLock lock) = .acquire := if_pos rfl
  have releases : (requestInterface lock).access (.rUnlock lock) = .release := if_pos rfl
  unfold Request.withRLock
  apply Program.Ensures.bind
  unfold Request.rLock Program.Ensures
  rw [acquires]
  intro database holds grant answer
  apply Program.Ensures.bind
  apply Program.Ensures.of_eval (Request.answersOf database true)
    (fun mode => mode = .held database)
  · rintro _ asked rfl
    rfl
  · apply Program.Asks.weaken (fun _ _ => trivial)
    apply Program.Asks.attempt
    apply (Program.asks_any body).liftQuery
    intro query _
    refine ⟨rfl, ?_⟩
    rintro _ contents answer rfl rfl answered
    exact answered
  · rintro _ rfl
    have evaluated := Request.evalOn_ofRead database true body
    rw [Request.evalOn] at evaluated
    rw [Program.evalWith_attempt, evaluated]
    apply Program.Ensures.bind
    unfold Request.rUnlock Program.Ensures
    rw [releases]
    intro answer
    have ended := outcome database holds grant
    cases result : Read.evalOn database body with
    | ok value =>
        rw [result] at ended
        exact ended
    | error err =>
        rw [result] at ended
        exact ended
  · rfl

/-- The registry lookup of a request reads one entry. -/
theorem zkCertificateRegistry_asks (service : Service) (address : Address) :
    (service.zkCertificateRegistry address).Asks
      (fun query => query = .get (makeRegistryIndexKey address)) fun _ => True := by
  have get : (Read.get (makeRegistryIndexKey address)).Asks
      (fun query => query = .get (makeRegistryIndexKey address)) fun _ => True :=
    ⟨rfl, fun answer => Program.asks_ofExcept fun _ _ => trivial⟩
  unfold Service.zkCertificateRegistry findRegistryIndex
  apply Program.Asks.bind
  · apply Program.Asks.mapFail
    apply get.bind
    intro data _
    cases data with
    | nil => exact trivial
    | cons index rest => exact trivial
  · intro index _
    cases service.registry index with
    | none => exact trivial
    | some registry => exact trivial

/-- The opening of a handler hands on the registry that the address stands for. -/
theorem ensures_registryOnHead {server : Server} {requested unknown : String}
    {registry : ZKCertificateRegistry} {database : Database}
    {lastRead : Option (Σ query, RequestAnswer query)}
    {post : ReaderMode Database RequestQuery RequestAnswer →
      Except GoError ZKCertificateRegistry → Prop}
    (found : Read.evalOn database
      (server.registryService.zkCertificateRegistry (server.hexToAddress requested)) =
        .ok registry)
    (stable : ∀ contents, inv contents →
      contents.lookup (makeRegistryIndexKey (server.hexToAddress requested)) =
        database.lookup (makeRegistryIndexKey (server.hexToAddress requested)))
    (errors : ∀ mode err, post mode (.error err))
    (outcome : ∀ lastRead, post (.free lastRead) (.ok registry)) :
    (server.registryOnHead requested unknown).Ensures (requestInterface lock) inv granted post
      (.free lastRead) := by
  unfold Server.registryOnHead
  split
  · exact errors _ _
  · apply Program.Ensures.bind
    apply ensures_tryRun (fun mode reason => errors mode _)
    apply ensures_ofRead_stable (zkCertificateRegistry_asks _ _)
    · intro query only contents holds
      rw [only, Read.answersOf, Read.answersOf, stable contents holds]
    · intro lastRead
      rw [found]
      apply Program.Ensures.bind
      -- the flag may have any value at this moment
      intro contents _ onHead _
      cases onHead with
      | false => exact errors _ _
      | true => exact outcome _

end Rules

/-! ### Whole runs -/

/-- A request ends with what its program ensures, if the steps of the run keep the invariant and
grant the lock as the program's proof assumes. -/
theorem served {α : Type} {poseidon : PoseidonHash} {job : ZkCertificateRegistryJob}
    {emits : Database → List LeafOperation → Prop} {database : Database} {request : Request α}
    {inv : Database → Prop} {granted : Option (Σ query, RequestAnswer query) → Database → Prop}
    {guard : Serving α → Serving α → Prop}
    {post : ReaderMode Database RequestQuery RequestAnswer → Except GoError α → Prop}
    (failures : ∀ mode err, post mode (.error err))
    (keeps : ∀ s t batch, guard s t → inv s.contents →
      JobCommits poseidon job emits s.contents batch →
      t.contents = Store.write s.contents batch → inv t.contents)
    (grants : ∀ s t, guard s t → s.reading = false → t.reading = true →
      granted s.lastRead s.contents)
    (holds : inv database)
    (ensures : request.Ensures (requestInterface job.registry.mutex) inv granted post
      (.free none))
    {s : Serving α}
    (run : Relation.ReflTransGen (fun a b => ServingStep poseidon job emits a b ∧ guard a b)
      (Shared.start Batch database request) s)
    {value : α} (returned : s.reader = .done value) :
    ∃ mode, Shared.Tracks inv mode s ∧ post mode (.ok value) := by
  have covered : Shared.Covered (requestInterface job.registry.mutex)
      (JobCommits poseidon job emits) inv granted post s :=
    Shared.Covered.run failures keeps grants (Shared.Covered.start holds ensures) run
  rcases covered.ensures with ⟨mode, tracks, ended⟩
  rw [returned] at ended
  exact ⟨mode, tracks, ended⟩

/-- A request that is granted the lock in time. -/
theorem served_in_time {α : Type} {poseidon : PoseidonHash} {job : ZkCertificateRegistryJob}
    {emits : Database → List LeafOperation → Prop} {database : Database} {request : Request α}
    {inv : Database → Prop}
    {post : ReaderMode Database RequestQuery RequestAnswer → Except GoError α → Prop}
    (failures : ∀ mode err, post mode (.error err))
    (keeps : ∀ contents batch, inv contents → JobCommits poseidon job emits contents batch →
      inv (Store.write contents batch))
    (holds : inv database)
    (ensures : request.Ensures (requestInterface job.registry.mutex) inv StillAnswered post
      (.free none))
    {s : Serving α}
    (run : Relation.ReflTransGen
      (fun a b => ServingStep poseidon job emits a b ∧ LockedInTime job a b)
      (Shared.start Batch database request) s)
    {value : α} (returned : s.reader = .done value) :
    ∃ mode, Shared.Tracks inv mode s ∧ post mode (.ok value) := by
  apply served failures _ _ holds ensures run returned
  · intro a b batch _ before computed written
    rw [written]
    exact keeps _ _ before computed
  · intro a b inTime before after
    exact inTime before after

/-! ### A small server -/

/-- Decimal numbers, as the small server reads them. -/
def readDecimal (text : String) : Except GoError U256 :=
  if text.toList ≠ [] ∧ text.toList.all Char.isDigit then
    .ok (BitVec.ofNat 256 (Nat.ofDigitChars 10 text.toList 0))
  else .error (.message "not a decimal number")

def showDecimal (value : U256) : String :=
  toString value.toNat

/-- A server that knows the small registry only. -/
def smallServer : Server where
  registryService := ⟨fun index => if index = 0 then some smallRegistry else none⟩
  isHexAddress := fun _ => true
  hexToAddress := fun _ => 0
  fromDecimal := readDecimal
  string := showDecimal

theorem showDecimal_injective : Function.Injective showDecimal := by
  intro first second same
  have digits := congrArg String.toList same
  simp only [showDecimal, Nat.toString_eq_repr, Nat.toList_repr] at digits
  exact BitVec.eq_of_toNat_eq (toDigits_ten_inj digits)

/-- The small registry is registered, and nothing is committed. -/
def registeredDatabase : Database :=
  Store.write ∅ [.set (makeRegistryIndexKey 0) [0]]

theorem registeredDatabase_state : ∃ nodes,
    RegistryState fieldHash smallRegistry registeredDatabase nodes
      (emptySlots smallRegistry.metadata) fun _ => none := by
  obtain ⟨nodes, empty⟩ :=
    registryState_empty fieldHash_spec smallRegistry_built smallRegistry_contract
  refine ⟨nodes, empty.foreign smallRegistry_built ?_⟩
  intro key inside
  rw [lastEffect_singleton]
  apply if_neg
  intro same
  exact inside (same ▸ makeRegistryIndexKey_noRegistryKey _ _)

/-- The answers of the database while the indexer is on the head. -/
def headAnswers (database : Database) : (query : RequestQuery) → RequestAnswer query :=
  Request.answersOf database true

theorem headAnswers_honest (lock : RegistryIndex) (database : Database) (query : RequestQuery) :
    (requestInterface lock).answers database query (headAnswers database query) := by
  cases query with
  | read query => exact rfl
  | rLock index => exact trivial
  | rUnlock index => exact trivial
  | isOnHead index => exact trivial

end MerkleProofService
