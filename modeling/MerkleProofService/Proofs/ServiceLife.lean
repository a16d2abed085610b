/-
Module: MerkleProofService.Proofs.ServiceLife
Layer: Proofs
Purpose: The service from its first start on an empty database on.  Starts configure jobs for any
  addresses, the jobs run interleaved, and the process is stopped and started again at any point,
  with other addresses in its configuration if need be.  All of it is, for the entries of the jobs,
  one interleaving of jobs that were known from the beginning; so what holds of the fleet holds
  across restarts, and that the registries are built alike and keep apart is derived here.
Imports: Proofs.ConfigurationRuns, Proofs.ServedAnswers
Trusted boundary: LifeStep, the environment of the process
Main exports: Life, LifeStep, LifeRun, LifeAt, ConfiguredJob, handlerAt, life_refines_fleet,
  life_serves_contract
-/
import MerkleProofService.Proofs.ConfigurationRuns
import MerkleProofService.Proofs.ServedAnswers
import Mathlib.Data.Fintype.EquivFin

namespace MerkleProofService

open Library
open ServiceProgram

/-! ### The life of the service -/

/-- The database and the process that is running: its call of `configureZkCertificateRegistry`,
what that has returned, the handlers `Produce` has made, and where each job stands. -/
structure Life where
  database : Database
  calling : Option (ServiceProgram (Service × List JobDescriptor))
  configured : Option (Service × List JobDescriptor)
  handlers : JobDescriptor → Option ZkCertificateRegistryJob
  places : JobDescriptor → JobPlace

/-- A process has just been started. -/
def Life.start (database : Database) : Life where
  database := database
  calling := none
  configured := none
  handlers := fun _ => none
  places := fun _ => ⟨none, none⟩

/-- One step of the process, of one of its jobs, or the end of the process and the start of the
next.  A call of `configureZkCertificateRegistry` that has failed leaves only the last.  Jobs of an
earlier start are gone: its database was closed. -/
inductive LifeStep (codec : MetadataCodec) (addressString : Address → String)
    (poseidon : PoseidonHash) (factory : JobFactory) (chains : JobDescriptor → Chain) :
    Life → Life → Prop where
  | call {s : Life} (addresses : List Address) (idle : s.calling = none)
      (unconfigured : s.configured = none) :
      LifeStep codec addressString poseidon factory chains s
        { s with calling := some (configureFresh codec addressString addresses) }
  | serve {s : Life} {query : ServiceQuery}
      {next : ServiceAnswer query → ServiceProgram (Service × List JobDescriptor)}
      (choice : ServiceChoice query) (asks : s.calling = some (.ask query next)) :
      LifeStep codec addressString poseidon factory chains s
        { s with
          database := serviceEnvironment.after s.database query choice
          calling := some (next (serviceEnvironment.answer s.database query choice)) }
  | returns {s : Life} {made : Service × List JobDescriptor}
      (done : s.calling = some (.done made)) :
      LifeStep codec addressString poseidon factory chains s
        { s with calling := none, configured := some made }
  /-- `StartJob` makes the handler of a job that is not in the map yet. -/
  | produces {s : Life} {made : Service × List JobDescriptor} {job : JobDescriptor}
      {handler : ZkCertificateRegistryJob} (configured : s.configured = some made)
      (member : job ∈ made.2) (fresh : s.handlers job = none)
      (produced : Read.evalOn s.database
        ({ factory with registryService := made.1 }.produce job) = .ok handler) :
      LifeStep codec addressString poseidon factory chains s
        { s with handlers := Function.update s.handlers job (some handler) }
  | acts {s : Life} {job : JobDescriptor} {handler : ZkCertificateRegistryJob}
      {database : Database} {place : JobPlace} (handled : s.handlers job = some handler)
      (moved : JobStep poseidon handler (chains job) (s.database, s.places job)
        (database, place)) :
      LifeStep codec addressString poseidon factory chains s
        { s with database := database, places := Function.update s.places job place }
  | restart {s : Life} :
      LifeStep codec addressString poseidon factory chains s (.start s.database)

/-- A job that is about to filter a range has one that fits. -/
def Life.Fits (s : Life) : Prop :=
  ∀ job, RangesFit ⟨s.database, (s.places job).running⟩ ⟨s.database, none⟩

/-- Runs in which every range fits. -/
abbrev LifeRun (codec : MetadataCodec) (addressString : Address → String)
    (poseidon : PoseidonHash) (factory : JobFactory) (chains : JobDescriptor → Chain) :
    Life → Life → Prop :=
  Relation.ReflTransGen fun s t =>
    LifeStep codec addressString poseidon factory chains s t ∧ s.Fits

/-! ### Configuration leaves the jobs -/

/-- The keys of the registrations. -/
def registrationKeys : Set StoreKey :=
  {key | key ∈ numberKeys ∨ ∃ address, key = .metadata address}

/-- A query that changes registrations at most. -/
def LeavesJobs : ServiceQuery → Prop
  | .writeSync batch => WritesOnly registrationKeys batch
  | .read _ | .contract _ _ => True

section Configure

variable {codec : MetadataCodec} {addressString : Address → String}

theorem leavesJobs_of_leavesMetadata (query : ServiceQuery) (leaves : LeavesMetadata query) :
    LeavesJobs query := by
  cases query with
  | read query => exact trivial
  | contract contractAddress call => exact trivial
  | writeSync batch => exact WritesOnly.mono leaves fun _ => Or.inl

theorem leavesJobs_of_callsContract (query : ServiceQuery) (calls : CallsContract query) :
    LeavesJobs query := by
  cases query with
  | contract contractAddress call => exact trivial
  | read query => cases calls
  | writeSync batch => cases calls

theorem setMetadata_queues {metadata : StoredMetadata} {batch : Batch}
    (queued : setMetadata codec [] metadata = .ok batch) : WritesOnly registrationKeys batch := by
  obtain ⟨record, _, rfl⟩ := setMetadata_eq_ok queued
  have own : StoreKey.metadata metadata.address ∈ registrationKeys := Or.inr ⟨_, rfl⟩
  exact (writesOnly_nil registrationKeys).snoc own rfl

theorem findOrFetchMetadata_leaves (address : Address) (registryIndex : RegistryIndex) :
    (findOrFetchMetadata codec address registryIndex).Asks LeavesJobs fun _ => True := by
  refine Program.Asks.bind ((ofRead_leaves (Program.asks_any _)).mono
    leavesJobs_of_leavesMetadata) fun outcome _ => ?_
  cases outcome with
  | ok metadata => exact trivial
  | error err =>
      dsimp only
      split
      · refine Program.Asks.bind (Program.Asks.mapFail ((fetchMetadata_calls address).mono
          leavesJobs_of_callsContract)) fun fetched _ => ?_
        refine Program.Asks.bind (Program.Asks.mapFail (Program.asks_ofExcept
          fun batch queued => setMetadata_queues queued)) fun batch writes => ?_
        exact Program.Asks.bind (Program.Asks.mapFail
          ⟨writes, fun answer => Program.asks_ofExcept fun _ _ => trivial⟩) fun _ _ => trivial
      · exact trivial

theorem configure_leaves (addresses : List Address) (service : Service)
    (jobs : List JobDescriptor) :
    (configureZkCertificateRegistry codec addressString addresses service jobs).Asks LeavesJobs
      fun _ => True := by
  induction addresses generalizing service jobs with
  | nil => exact trivial
  | cons address addresses ih =>
      have initializes : (initializeMetadata codec addressString address).Asks LeavesJobs
          fun _ => True :=
        Program.Asks.bind ((findOrApplyIndex_leaves address).mono leavesJobs_of_leavesMetadata)
          fun registryIndex _ => Program.Asks.bind
            (findOrFetchMetadata_leaves address registryIndex) fun _ _ => trivial
      exact Program.Asks.bind (Program.Asks.mapFail initializes) fun made _ => ih _ _

/-- The entries of a job are the same after such a query. -/
theorem sameOwn_of_leaves (job : ZkCertificateRegistryJob) (database : Database)
    {query : ServiceQuery} (leaves : LeavesJobs query) (choice : ServiceChoice query) :
    SameOwn job (serviceEnvironment.after database query choice) database := by
  intro key member
  cases query with
  | read query => rfl
  | contract contractAddress call => rfl
  | writeSync batch =>
      cases (choice : Option DatabaseError) with
      | some failed => rfl
      | none =>
          have outside : key ∉ registrationKeys := by
            rcases member with (⟨_, _, rfl⟩ | ⟨_, rfl⟩) | rfl <;>
              simp [registrationKeys, numberKeys]
          exact Store.lookup_write_of_none (leaves key outside)

end Configure

/-! ### Handlers -/

/-- At most 256 addresses have a number. -/
def FewRegistries (codec : MetadataCodec) (database : Database) : Prop :=
  ∀ order, Registered codec order database → order.length ≤ 256

/-- The handler is the one of the job, for the registry of which the metadata is stored. -/
def HandlerOf (codec : MetadataCodec) (factory : JobFactory) (database : Database)
    (job : JobDescriptor) (handler : ZkCertificateRegistryJob) : Prop :=
  ∃ metadata, metadataAt codec database job.address = .ok metadata ∧
    job = configuredJob job.address metadata ∧
    handler = factory.newZkCertificateRegistryJob job
      (newZKCertificateRegistry metadata.index metadata.toMetadata)

section Handlers

variable {codec : MetadataCodec} {factory : JobFactory} {database before after : Database}
variable {configured : Service × List JobDescriptor} {job : JobDescriptor}
variable {handler : ZkCertificateRegistryJob}

theorem Extends.refl (codec : MetadataCodec) (database : Database) :
    Extends codec database database :=
  (SameRegistrations.refl database).extends

theorem Extends.trans {middle : Database} (first : Extends codec before middle)
    (second : Extends codec middle after) : Extends codec before after where
  numbers order registered := by
    obtain ⟨order', registered', earlier⟩ := first.numbers order registered
    obtain ⟨order'', registered'', later⟩ := second.numbers order' registered'
    exact ⟨order'', registered'', earlier.trans later⟩
  metadata address metadata stored := second.metadata _ _ (first.metadata _ _ stored)

theorem FewRegistries.earlier (few : FewRegistries codec after)
    (extended : Extends codec before after) : FewRegistries codec before := by
  intro order registered
  obtain ⟨order', registered', earlier⟩ := extended.numbers order registered
  exact earlier.length_le.trans (few order' registered')

theorem HandlerOf.later (own : HandlerOf codec factory before job handler)
    (extended : Extends codec before after) : HandlerOf codec factory after job handler := by
  obtain ⟨metadata, stored, same⟩ := own
  exact ⟨metadata, extended.metadata _ _ stored, same⟩

/-- `Produce` makes a handler of an instance the service has cached. -/
theorem produce_eq_ok
    (produced : Read.evalOn database
      ({ factory with registryService := configured.1 }.produce job) = .ok handler) :
    ∃ index registry, configured.1.registry index = some registry ∧
      handler = factory.newZkCertificateRegistryJob job registry := by
  unfold JobFactory.produce at produced
  split at produced
  · simp only [Program.bind_eq, Read.evalOn_bind, Read.evalOn_wrapf, except_bind_eq_ok,
      except_mapError_eq_ok, Service.zkCertificateRegistry] at produced
    obtain ⟨registry, ⟨index, _, found⟩, same⟩ := produced
    cases cached : configured.1.registry index with
    | none =>
        rw [cached] at found
        cases found
    | some found' =>
        rw [cached] at found
        obtain rfl := Except.ok.inj found
        exact ⟨index, found', cached, (Except.ok.inj same).symm⟩
  · cases produced

/-- Whatever the numbers are, its registry is initialised. -/
theorem Configuration.built (poseidon : PoseidonHash)
    (configuration : Configuration codec database configured)
    (produced : Read.evalOn database
      ({ factory with registryService := configured.1 }.produce job) = .ok handler) :
    InitializedRegistry poseidon handler.registry := by
  obtain ⟨index, registry, cached, rfl⟩ := produce_eq_ok produced
  obtain ⟨_, _, metadata, _, sameIndex, rfl⟩ := configuration.own index registry cached
  exact newZKCertificateRegistry_initialized poseidon sameIndex

theorem Configuration.handlerOf (roundTrips : codec.RoundTrips) {order : List Address}
    (registered : Registered codec order database) (few : FewRegistries codec database)
    (configuration : Configuration codec database configured) (member : job ∈ configured.2)
    (produced : Read.evalOn database
      ({ factory with registryService := configured.1 }.produce job) = .ok handler) :
    HandlerOf codec factory database job handler := by
  obtain ⟨metadata, stored, same, made⟩ :=
    configuration.produces roundTrips registered (few order registered) member factory
  exact ⟨metadata, stored, same, (Except.ok.inj (made.symm.trans produced)).symm⟩

end Handlers

/-! ### Invariant of the life -/

/-- A job without a call fills no batch. -/
def JobPlace.Sound (place : JobPlace) : Prop :=
  place.running = none → place.filling = none

/-- What holds in every state: what is configured is what is stored, a call of
`configureZkCertificateRegistry` will return that and leaves the jobs, and the jobs keep to their
entries. -/
structure LifeAt (codec : MetadataCodec) (poseidon : PoseidonHash) (factory : JobFactory)
    (s : Life) : Prop where
  registered : ∃ order, Registered codec order s.database
  calling : ∀ program, s.calling = some program →
    Program.Keeps serviceEnvironment SameRegistrations (Extends codec) (Configuration codec)
      program s.database ∧ program.Asks LeavesJobs fun _ => True
  configured : ∀ made, s.configured = some made → Configuration codec s.database made
  built : ∀ job handler, s.handlers job = some handler →
    InitializedRegistry poseidon handler.registry ∧ OwnFilling handler (s.places job)
  idle : ∀ job, s.handlers job = none → s.places job = ⟨none, none⟩
  handlers : FewRegistries codec s.database → ∀ job handler, s.handlers job = some handler →
    HandlerOf codec factory s.database job handler
  places : ∀ job, (s.places job).Sound

section Invariant

variable {codec : MetadataCodec} {addressString : Address → String} {poseidon : PoseidonHash}
variable {factory : JobFactory} {chains : JobDescriptor → Chain} {s t : Life}
variable {job : ZkCertificateRegistryJob} {chain : Chain} {before after : Database × JobPlace}

theorem lifeAt_start {database : Database} {order : List Address}
    (registered : Registered codec order database) :
    LifeAt codec poseidon factory (.start database) where
  registered := ⟨order, registered⟩
  calling := nofun
  configured := nofun
  built := nofun
  idle _ _ := rfl
  handlers _ := nofun
  places _ _ := rfl

theorem JobPlace.Sound.step (sound : before.2.Sound)
    (step : JobStep poseidon job chain before after) : after.2.Sound := by
  intro stopped
  cases step with
  | start | head | logs | begins | writes | failure => cases stopped
  | reads => cases sound stopped
  | crash => rfl

/-- A job changes no registration. -/
theorem JobStep.sameRegistrations (own : OwnFilling job before.2)
    (step : JobStep poseidon job chain before after) : SameRegistrations before.1 after.1 where
  entries address :=
    have outside : StoreKey.addressIndex address ∉ jobKeys job := by simp [jobKeys, registryKeys]
    step.lookup_other own outside
  counter :=
    have outside : StoreKey.indexCounter ∉ jobKeys job := by simp [jobKeys, registryKeys]
    step.lookup_other own outside
  metadata address :=
    have outside : StoreKey.metadata address ∉ jobKeys job := by simp [jobKeys, registryKeys]
    step.lookup_other own outside

/-- Registrations are only added. -/
theorem LifeStep.extends (sound : LifeAt codec poseidon factory s)
    (step : LifeStep codec addressString poseidon factory chains s t) :
    Extends codec s.database t.database := by
  cases step with
  | call | returns | produces | restart => exact .refl codec _
  | serve choice asks => exact ((sound.calling _ asks).1 s.database (.refl _) choice).1
  | acts handled moved => exact (moved.sameRegistrations (sound.built _ _ handled).2).extends

theorem LifeAt.step (roundTrips : codec.RoundTrips) (sound : LifeAt codec poseidon factory s)
    (step : LifeStep codec addressString poseidon factory chains s t) :
    LifeAt codec poseidon factory t := by
  have extended := step.extends sound
  obtain ⟨order, registered⟩ := sound.registered
  cases step with
  | call addresses idle unconfigured =>
      refine { sound with calling := ?_ }
      rintro _ ⟨⟩
      refine ⟨?_, configure_leaves addresses _ _⟩
      exact (keeps_configure roundTrips addresses registered (configuration_empty _ _)).weaken
        fun _ _ => And.left
  | serve choice asks =>
      obtain ⟨keeps, leaves⟩ := sound.calling _ asks
      obtain ⟨order', registered', _⟩ := extended.numbers order registered
      refine { sound with registered := ⟨order', registered'⟩, calling := ?_, configured := ?_,
                          handlers := ?_ }
      · rintro _ ⟨⟩
        exact ⟨(keeps s.database (.refl _) choice).2, leaves.2 _⟩
      · exact fun made configured => (sound.configured made configured).later extended.metadata
      · exact fun few job handler handled =>
          (sound.handlers (few.earlier extended) job handler handled).later extended
  | returns done =>
      refine { sound with calling := nofun, configured := ?_ }
      rintro _ ⟨⟩
      exact (sound.calling _ done).1 s.database (.refl _)
  | @produces made job handler configured member fresh produced =>
      have configuration := sound.configured made configured
      refine { sound with built := ?_, idle := ?_, handlers := ?_ }
      · refine (Function.forall_update_iff s.handlers fun other found => ∀ made',
          found = some made' → InitializedRegistry poseidon made'.registry ∧
            OwnFilling made' (s.places other)).mpr ⟨?_, fun other _ => sound.built other⟩
        rintro _ ⟨⟩
        refine ⟨configuration.built poseidon produced, ?_⟩
        rw [sound.idle job fresh]
        exact ownFilling_stopped handler
      · exact (Function.forall_update_iff s.handlers fun other found => found = none →
          s.places other = ⟨none, none⟩).mpr ⟨nofun, fun other _ => sound.idle other⟩
      · intro few
        refine (Function.forall_update_iff s.handlers fun other found => ∀ made',
          found = some made' → HandlerOf codec factory s.database other made').mpr
          ⟨?_, fun other _ => sound.handlers few other⟩
        rintro _ ⟨⟩
        exact configuration.handlerOf roundTrips registered few member produced
  | @acts job handler database place handled moved =>
      obtain ⟨built, own⟩ := sound.built job handler handled
      have same := moved.sameRegistrations own
      refine ⟨⟨order, registered.same same⟩, ?_, ?_, ?_, ?_, ?_, ?_⟩
      · intro program calling
        obtain ⟨keeps, leaves⟩ := sound.calling program calling
        exact ⟨keeps.drift SameRegistrations.trans same, leaves⟩
      · exact fun made configured => (sound.configured made configured).later extended.metadata
      · refine (Function.forall_update_iff s.places fun other place => ∀ made,
          s.handlers other = some made → InitializedRegistry poseidon made.registry ∧
            OwnFilling made place).mpr ⟨fun made handled' => ?_, fun other _ => sound.built other⟩
        obtain rfl := Option.some.inj (handled.symm.trans handled')
        exact ⟨built, own.step built moved⟩
      · refine (Function.forall_update_iff s.places fun other place => s.handlers other = none →
          place = ⟨none, none⟩).mpr ⟨fun unhandled => ?_, fun other _ => sound.idle other⟩
        cases handled.symm.trans unhandled
      · exact fun few other made handled' =>
          (sound.handlers (few.earlier extended) other made handled').later extended
      · exact (Function.forall_update_iff s.places fun _ place => place.Sound).mpr
          ⟨(sound.places job).step moved, fun other _ => sound.places other⟩
  | restart => exact lifeAt_start registered

theorem LifeAt.run (roundTrips : codec.RoundTrips)
    (run : LifeRun codec addressString poseidon factory chains (.start ∅) s) :
    LifeAt codec poseidon factory s := by
  induction run with
  | refl => exact lifeAt_start (registered_empty codec)
  | tail _ last ih => exact ih.step roundTrips last.1

end Invariant

/-! ### The jobs of a database -/

/-- The jobs that are configured for addresses of which the metadata is stored. -/
abbrev ConfiguredJob (codec : MetadataCodec) (database : Database) :=
  { job : JobDescriptor // ∃ metadata, metadataAt codec database job.address = .ok metadata ∧
    job = configuredJob job.address metadata }

/-- The instance built from the stored metadata; without it there is none, and the value is of no
account. -/
def registryAt (codec : MetadataCodec) (database : Database) (address : Address) :
    ZKCertificateRegistry :=
  match metadataAt codec database address with
  | .ok metadata => newZKCertificateRegistry metadata.index metadata.toMetadata
  | .error _ => newZKCertificateRegistry 0 ⟨0, 0, 0⟩

def handlerAt (codec : MetadataCodec) (factory : JobFactory) (database : Database)
    (job : ConfiguredJob codec database) : ZkCertificateRegistryJob :=
  factory.newZkCertificateRegistryJob job.1 (registryAt codec database job.1.address)

section Jobs

variable {codec : MetadataCodec} {factory : JobFactory} {database : Database}
variable {order : List Address}

theorem registryAt_eq {address : Address} {metadata : StoredMetadata}
    (stored : metadataAt codec database address = .ok metadata) :
    registryAt codec database address =
      newZKCertificateRegistry metadata.index metadata.toMetadata := by
  rw [registryAt, stored]

/-- The handlers of the jobs are those. -/
theorem HandlerOf.eq_handlerAt {job : JobDescriptor} {handler : ZkCertificateRegistryJob}
    (own : HandlerOf codec factory database job handler) :
    ∃ configured : ConfiguredJob codec database, configured.1 = job ∧
      handlerAt codec factory database configured = handler := by
  obtain ⟨metadata, stored, same, rfl⟩ := own
  refine ⟨⟨job, metadata, stored, same⟩, rfl, ?_⟩
  rw [handlerAt, registryAt_eq stored]

theorem handlerAt_built (poseidon : PoseidonHash) (job : ConfiguredJob codec database) :
    InitializedRegistry poseidon (handlerAt codec factory database job).registry := by
  obtain ⟨metadata, stored, _⟩ := job.2
  change InitializedRegistry poseidon (registryAt codec database job.1.address)
  rw [registryAt_eq stored]
  exact newZKCertificateRegistry_initialized poseidon rfl

/-- Jobs of one address are the same. -/
theorem configuredJob_ext {first second : ConfiguredJob codec database}
    (same : first.1.address = second.1.address) : first = second := by
  obtain ⟨metadata, stored, made⟩ := first.2
  obtain ⟨metadata', stored', made'⟩ := second.2
  rw [← same, stored] at stored'
  obtain rfl := Except.ok.inj stored'
  refine Subtype.ext ?_
  rw [made, made', same]

/-- Each job has the number of its address. -/
theorem handlerAt_index (factory : JobFactory) (roundTrips : codec.RoundTrips)
    (registered : Registered codec order database) (job : ConfiguredJob codec database) :
    job.1.address ∈ order ∧
      (handlerAt codec factory database job).registry.leafView.registryIndex =
        indexIn order job.1.address := by
  obtain ⟨metadata, stored, _⟩ := job.2
  obtain ⟨member, index⟩ := registered.metadataAt_index roundTrips stored
  refine ⟨member, ?_⟩
  change (registryAt codec database job.1.address).leafView.registryIndex = _
  rw [registryAt_eq stored, ← index]
  rfl

/-- With at most 256 numbers, different jobs follow different registries. -/
theorem handlerAt_apart (roundTrips : codec.RoundTrips)
    (registered : Registered codec order database) (few : FewRegistries codec database) :
    JobsApart (handlerAt codec factory database) where
  registries {first second} different same := by
    obtain ⟨member, index⟩ := handlerAt_index factory roundTrips registered first
    obtain ⟨member', index'⟩ := handlerAt_index factory roundTrips registered second
    have sameNumber : indexIn order first.1.address = indexIn order second.1.address := by
      rw [← index, ← index', same]
    exact different (configuredJob_ext
      (idxOf_injOn (few order registered) member member' sameNumber))
  records different same := different (Subtype.ext same)

theorem configuredJob_finite (roundTrips : codec.RoundTrips)
    (registered : Registered codec order database) : Finite (ConfiguredJob codec database) := by
  have numbered : ∀ job : ConfiguredJob codec database, job.1.address ∈ order := by
    intro job
    obtain ⟨metadata, stored, _⟩ := job.2
    exact (registered.metadataAt_index roundTrips stored).1
  refine Finite.of_injective
    (fun job => (⟨job.1.address, numbered job⟩ : { address // address ∈ order })) ?_
  intro first second same
  exact configuredJob_ext (congrArg Subtype.val same)

end Jobs

/-! ### The life as a run of the fleet -/

/-- The fleet of the jobs of a database, which may be a later one, stands where the life does. -/
structure Mirrors (codec : MetadataCodec) (factory : JobFactory) (later : Database) (s : Life)
    (fleet : Fleet (ConfiguredJob codec later)) : Prop where
  entries : ∀ job, SameOwn (handlerAt codec factory later job) s.database fleet.store
  places : ∀ job, fleet.places job = s.places job.1

section Crash

variable {Id : Type} [DecidableEq Id] {poseidon : PoseidonHash}
variable {jobs : Id → ZkCertificateRegistryJob} {chains : Id → Chain}

/-- One job crashes, if it is started at all. -/
theorem fleet_crash (fleet : Fleet Id) (id : Id) (sound : (fleet.places id).Sound)
    (fits : RangesFit ⟨fleet.store, (fleet.places id).running⟩ ⟨fleet.store, none⟩) :
    FleetRun poseidon jobs chains fleet
      ⟨fleet.store, Function.update fleet.places id ⟨none, none⟩⟩ := by
  rcases place : fleet.places id with ⟨_ | running, filling⟩
  · rw [place] at sound
    obtain rfl : filling = none := sound rfl
    rw [← place, Function.update_eq_self]
  · refine .single (.acts id ⟨?_, fits⟩)
    rw [place]
    exact .crash

/-- Jobs crash one after the other. -/
theorem fleet_crashes (ids : List Id) (fleet : Fleet Id)
    (sound : ∀ id, (fleet.places id).Sound)
    (fits : ∀ id, RangesFit ⟨fleet.store, (fleet.places id).running⟩ ⟨fleet.store, none⟩) :
    FleetRun poseidon jobs chains fleet
      ⟨fleet.store, fun id => if id ∈ ids then ⟨none, none⟩ else fleet.places id⟩ := by
  induction ids generalizing fleet with
  | nil => exact .refl
  | cons id ids ih =>
      have rest := ih ⟨fleet.store, Function.update fleet.places id ⟨none, none⟩⟩
        ((Function.forall_update_iff fleet.places fun _ place => place.Sound).mpr
          ⟨fun _ => rfl, fun other _ => sound other⟩)
        ((Function.forall_update_iff fleet.places fun _ place =>
          RangesFit ⟨fleet.store, place.running⟩ ⟨fleet.store, none⟩).mpr
          ⟨trivial, fun other _ => fits other⟩)
      have crashed : (fun other => if other ∈ id :: ids then ⟨none, none⟩ else fleet.places other) =
          fun other => if other ∈ ids then ⟨none, none⟩ else
            Function.update fleet.places id ⟨none, none⟩ other := by
        funext other
        by_cases here : other = id <;> simp [here]
      rw [crashed]
      exact (fleet_crash fleet id (sound id) (fits id)).trans rest

end Crash

section Simulation

variable {codec : MetadataCodec} {addressString : Address → String} {poseidon : PoseidonHash}
variable {factory : JobFactory} {chains : JobDescriptor → Chain} {s t : Life}
variable {later : Database} {order : List Address} {fleet : Fleet (ConfiguredJob codec later)}

/-- The runs of the fleet of a database, each job with its chain. -/
abbrev DatabaseRun (codec : MetadataCodec) (poseidon : PoseidonHash) (factory : JobFactory)
    (chains : JobDescriptor → Chain) (later : Database) :
    Fleet (ConfiguredJob codec later) → Fleet (ConfiguredJob codec later) → Prop :=
  FleetRun poseidon (handlerAt codec factory later) fun job => chains job.1

theorem SameOwn.symm {job : ZkCertificateRegistryJob} {first second : Database}
    (same : SameOwn job first second) : SameOwn job second first :=
  fun key member => (same key member).symm

theorem SameOwn.trans {job : ZkCertificateRegistryJob} {first second third : Database}
    (one : SameOwn job first second) (two : SameOwn job second third) :
    SameOwn job first third :=
  fun key member => (one key member).trans (two key member)

/-- A step of a job is a step of the fleet. -/
theorem Mirrors.acts (separate : JobsApart (handlerAt codec factory later))
    (follows : Mirrors codec factory later s fleet) (configured : ConfiguredJob codec later)
    (own : OwnFilling (handlerAt codec factory later configured) (s.places configured.1))
    {database : Database} {place : JobPlace}
    (moved : JobFits poseidon (handlerAt codec factory later configured) (chains configured.1)
      (s.database, s.places configured.1) (database, place)) :
    ∃ fleet', DatabaseRun codec poseidon factory chains later fleet fleet' ∧
      Mirrors codec factory later
        { s with database := database, places := Function.update s.places configured.1 place }
        fleet' := by
  have apart : Apart
      (fun job => JobFits poseidon (handlerAt codec factory later job) (chains job.1))
      (fun job => SameOwn (handlerAt codec factory later job))
      fun job => OwnFilling (handlerAt codec factory later job) :=
    jobs_apart (handlerAt_built poseidon) separate
  obtain ⟨store, moved', agree⟩ := apart.follow SameOwn.symm own follows.entries moved
  rw [← follows.places] at moved'
  refine ⟨_, .single (.acts configured moved'), agree, fun job => ?_⟩
  change Function.update fleet.places configured place job =
    Function.update s.places configured.1 place job.1
  by_cases here : job = configured
  · rw [here, Function.update_self, Function.update_self]
  · have elsewhere : job.1 ≠ configured.1 := fun same => here (Subtype.ext same)
    rw [Function.update_of_ne here, Function.update_of_ne elsewhere]
    exact follows.places job

/-- The end of the process is a crash of all jobs. -/
theorem Mirrors.restart (finite : Finite (ConfiguredJob codec later))
    (follows : Mirrors codec factory later s fleet) (sound : ∀ job, (s.places job).Sound)
    (fits : s.Fits) :
    ∃ fleet', DatabaseRun codec poseidon factory chains later fleet fleet' ∧
      Mirrors codec factory later (.start s.database) fleet' := by
  obtain ⟨all, listed⟩ := Finite.exists_univ_list (ConfiguredJob codec later)
  refine ⟨_, fleet_crashes all fleet (fun job => ?_) (fun job => ?_), follows.entries,
    fun job => if_pos (listed.2 job)⟩
  · rw [follows.places]
    exact sound job.1
  · rw [follows.places]
    exact fits job.1

/-- One step of the life. -/
theorem Mirrors.step (roundTrips : codec.RoundTrips) (sound : LifeAt codec poseidon factory s)
    (step : LifeStep codec addressString poseidon factory chains s t) (fits : s.Fits)
    (extended : Extends codec t.database later) (registered : Registered codec order later)
    (few : FewRegistries codec later) (follows : Mirrors codec factory later s fleet) :
    ∃ fleet', DatabaseRun codec poseidon factory chains later fleet fleet' ∧
      Mirrors codec factory later t fleet' := by
  have earlier := (step.extends sound).trans extended
  cases step with
  | call addresses idle unconfigured => exact ⟨fleet, .refl, follows.entries, follows.places⟩
  | serve choice asks =>
      refine ⟨fleet, .refl, fun job => ?_, follows.places⟩
      exact (sameOwn_of_leaves _ s.database (sound.calling _ asks).2.1 choice).trans
        (follows.entries job)
  | returns done => exact ⟨fleet, .refl, follows.entries, follows.places⟩
  | produces configured member fresh produced =>
      exact ⟨fleet, .refl, follows.entries, follows.places⟩
  | acts handled moved =>
      have own := (sound.built _ _ handled).2
      obtain ⟨configured, rfl, rfl⟩ :=
        ((sound.handlers (few.earlier earlier) _ _ handled).later earlier).eq_handlerAt
      exact follows.acts (handlerAt_apart roundTrips registered few) configured own
        ⟨moved, fits configured.1⟩
  | restart => exact follows.restart (configuredJob_finite roundTrips registered) sound.places fits

theorem Mirrors.run (roundTrips : codec.RoundTrips)
    (run : LifeRun codec addressString poseidon factory chains (.start ∅) s)
    (extended : Extends codec s.database later) (registered : Registered codec order later)
    (few : FewRegistries codec later) :
    ∃ fleet, DatabaseRun codec poseidon factory chains later (Fleet.stopped ∅) fleet ∧
      Mirrors codec factory later s fleet := by
  induction run with
  | refl => exact ⟨_, .refl, fun job key member => rfl, fun job => rfl⟩
  | tail before last ih =>
      have sound := LifeAt.run roundTrips before
      obtain ⟨fleet, reached, follows⟩ := ih ((last.1.extends sound).trans extended)
      obtain ⟨fleet', moved, follows'⟩ :=
        follows.step roundTrips sound last.1 last.2 extended registered few
      exact ⟨fleet', reached.trans moved, follows'⟩

end Simulation

/-! ### A life with a restart -/

section Steps

variable {codec : MetadataCodec} {addressString : Address → String} {poseidon : PoseidonHash}
variable {factory : JobFactory} {chains : JobDescriptor → Chain} {s : Life}

/-- A start that comes through. -/
theorem life_configures {choices : Nat → (query : ServiceQuery) → ServiceChoice query}
    {addresses : List Address} {made : Service × List JobDescriptor} (idle : s.calling = none)
    (unconfigured : s.configured = none) (fits : s.Fits)
    (returned : ((configureFresh codec addressString addresses).serve serviceEnvironment choices
      s.database).1 = .ok made) :
    LifeRun codec addressString poseidon factory chains s
      { s with
        database := ((configureFresh codec addressString addresses).serve serviceEnvironment
          choices s.database).2
        calling := none
        configured := some made } := by
  have served := Program.serve_run serviceEnvironment choices (fun _ _ => False) s.database
    (configureFresh codec addressString addresses)
  rw [returned] at served
  have serving : LifeRun codec addressString poseidon factory chains _ _ :=
    Relation.ReflTransGen.lift
      (fun place : Database × ServiceProgram (Service × List JobDescriptor) =>
        { s with database := place.1, calling := some place.2 })
      (by
        rintro _ _ (choice | ⟨⟨⟩⟩)
        exact ⟨.serve choice rfl, fits⟩) _ _ served
  exact .head ⟨.call addresses idle unconfigured, fits⟩ (serving.tail ⟨.returns rfl, fits⟩)

theorem Life.Fits.update {job : JobDescriptor} {database : Database} {place : JobPlace}
    (fits : s.Fits) (range : RangesFit ⟨database, place.running⟩ ⟨database, none⟩) :
    ({ s with database := database, places := Function.update s.places job place } : Life).Fits :=
  (Function.forall_update_iff s.places fun _ place =>
    RangesFit ⟨database, place.running⟩ ⟨database, none⟩).mpr ⟨range, fun other _ => fits other⟩

/-- What a job does by itself is part of the life. -/
theorem life_acts {job : JobDescriptor} {handler : ZkCertificateRegistryJob}
    {database : Database} {place : JobPlace} (handled : s.handlers job = some handler)
    (fits : s.Fits)
    (run : Relation.ReflTransGen (JobFits poseidon handler (chains job))
      (s.database, s.places job) (database, place)) :
    LifeRun codec addressString poseidon factory chains s
      { s with database := database, places := Function.update s.places job place } := by
  have acting : LifeRun codec addressString poseidon factory chains _ _ :=
    Relation.ReflTransGen.lift
      (fun reached : Database × JobPlace =>
        { s with database := reached.1, places := Function.update s.places job reached.2 })
      (by
        rintro ⟨before, place⟩ ⟨after, place'⟩ ⟨moved, fits'⟩
        refine ⟨?_, fits.update fits'⟩
        have here : JobStep poseidon handler (chains job)
            (before, Function.update s.places job place job) (after, place') := by
          rwa [Function.update_self]
        have step : LifeStep codec addressString poseidon factory chains
            { s with database := before, places := Function.update s.places job place } _ :=
          .acts handled here
        simpa only [Function.update_idem] using step) _ _ run
  simpa only [Function.update_eq_self] using acting

end Steps

/-- The factory of the small job. -/
def smallFactory : JobFactory where
  registryService := ⟨fun _ => none⟩
  jobCodec := fixedCodec
  eventCertificateProcessed := 1
  parseCertificateProcessed := parseSmallLog
  addressString := fun _ => ""

/-- The database after the first start, for address 0. -/
def afterFirstStart : Database := (servedCall allSucceed [0] ∅).2

/-- Block 1 is written; the job is about to fill the next batch when the process is stopped. -/
def firstLifeMoves : List JobMove :=
  [.start ⟨5, .poll⟩, .head 1, .logs, .begins, .reads, .reads, .writes, .head 2, .logs, .begins]

def firstLife : Database × JobPlace :=
  played (fun before after => RangesFit ⟨before.1, before.2.running⟩ ⟨after.1, after.2.running⟩)
    (JobPlace.move fieldHash (smallJobAt 0) smallChain) firstLifeMoves
    (afterFirstStart, ⟨none, none⟩)

theorem firstLife_run :
    Relation.ReflTransGen (JobFits fieldHash (smallJobAt 0) smallChain)
      (afterFirstStart, ⟨none, none⟩) firstLife := by
  have made : (play
      (fun before after => RangesFit ⟨before.1, before.2.running⟩ ⟨after.1, after.2.running⟩)
      (JobPlace.move fieldHash (smallJobAt 0) smallChain) firstLifeMoves
      (afterFirstStart, ⟨none, none⟩)).isSome = true := by decide +kernel
  exact run_of_played made fun _ _ _ moved => JobPlace.move_step moved

/-- The next start, with one more address before the old one. -/
def afterNextStart : Database := (servedCall allSucceed [1, 0] firstLife.1).2

/-- Keys tell the addresses apart. -/
theorem AppliedOrder.length_le_keys {order : List Address} {database : Database}
    (applied : AppliedOrder order database) : order.length ≤ database.keys.card := by
  have injective : Function.Injective makeRegistryIndexKey :=
    fun _ _ same => makeRegistryIndexKey_inj.mp same
  rw [← List.length_map makeRegistryIndexKey,
    ← List.toFinset_card_of_nodup (applied.nodup.map injective)]
  refine Finset.card_le_card fun key member => ?_
  obtain ⟨address, listed, rfl⟩ := List.mem_map.mp (List.mem_toFinset.mp member)
  have stored := applied.entries address
  rw [if_pos listed] at stored
  exact Finmap.mem_keys.mpr (Finmap.mem_of_lookup_eq_some stored)

theorem few_of_keys {codec : MetadataCodec} {database : Database}
    (entries : database.keys.card ≤ 256) : FewRegistries codec database :=
  fun _ registered => registered.toAppliedOrder.length_le_keys.trans entries

/-- The job of address 0, whichever start has configured it. -/
def smallDescriptor : JobDescriptor := ⟨0, contractZkCertificateRegistry, 0⟩

/-- What the contract says of the registry of address 0. -/
def smallMetadata : StoredMetadata where
  depth := 2
  emptyValue := 5
  index := 0
  address := 0
  initBlockHeight := 0
  description := ""

theorem produces_smallJob {s : Life} {made : Service × List JobDescriptor}
    (sound : LifeAt fixedMetadataCodec fieldHash smallFactory s)
    (configured : s.configured = some made) (member : smallDescriptor ∈ made.2)
    (few : s.database.keys.card ≤ 256)
    (stored : metadataAt fixedMetadataCodec s.database 0 = .ok smallMetadata) :
    Read.evalOn s.database
      ({ smallFactory with registryService := made.1 }.produce smallDescriptor) =
        .ok (smallJobAt 0) := by
  obtain ⟨order, registered⟩ := sound.registered
  obtain ⟨metadata, stored', _, produced⟩ := (sound.configured made configured).produces
    fixedMetadataCodec_roundTrips registered (few_of_keys few order registered) member smallFactory
  obtain rfl := Except.ok.inj (stored.symm.trans stored')
  exact produced

theorem afterFirstStart_metadata :
    metadataAt fixedMetadataCodec afterFirstStart 0 = .ok smallMetadata := by
  decide +kernel

theorem afterNextStart_metadata :
    metadataAt fixedMetadataCodec afterNextStart 0 = .ok smallMetadata := by
  decide +kernel

/-- The runs of the small job's service. -/
abbrev SmallLife : Life → Life → Prop :=
  LifeRun fixedMetadataCodec (fun _ => "") fieldHash smallFactory fun _ => smallChain

/-- A start of it that comes through. -/
theorem small_configures {addresses : List Address} {database : Database}
    {jobs : List JobDescriptor}
    (listed : (servedCall allSucceed addresses database).1.toOption.map Prod.snd = some jobs) :
    ∃ made, SmallLife (.start database)
      { Life.start (servedCall allSucceed addresses database).2 with configured := some made } ∧
      made.2 = jobs := by
  obtain ⟨made, returned, same⟩ := servedCall_returned listed
  have fits : (Life.start database).Fits := fun _ => trivial
  exact ⟨made, life_configures rfl rfl fits returned, same⟩

/-- The first start, the job up to the middle of its second batch, and a restart. -/
theorem first_life : SmallLife (.start ∅) (.start firstLife.1) := by
  have listed : (servedCall allSucceed [0] ∅).1.toOption.map Prod.snd = some [smallDescriptor] := by
    decide +kernel
  have few : afterFirstStart.keys.card ≤ 256 := by decide +kernel
  have range : RangesFit ⟨firstLife.1, firstLife.2.running⟩ ⟨firstLife.1, none⟩ := by
    decide +kernel
  obtain ⟨made, starts, jobs⟩ := small_configures listed
  have member : smallDescriptor ∈ made.2 := by simp [jobs]
  have produced := produces_smallJob (LifeAt.run fixedMetadataCodec_roundTrips starts) rfl member
    few afterFirstStart_metadata
  have stopped : (Life.start afterFirstStart).Fits := fun _ => trivial
  have handled := starts.tail ⟨.produces rfl member rfl produced, stopped⟩
  have indexed := handled.trans (life_acts (Function.update_self ..) stopped firstLife_run)
  exact indexed.tail ⟨.restart, stopped.update range⟩

/-- Two starts, with a restart between them. -/
theorem two_lives :
    ∃ s made, SmallLife (.start ∅) s ∧ s.database = afterNextStart ∧ s.configured = some made ∧
      smallDescriptor ∈ made.2 ∧
      Read.evalOn s.database
        ({ smallFactory with registryService := made.1 }.produce smallDescriptor) =
          .ok (smallJobAt 0) := by
  have listed : (servedCall allSucceed [1, 0] firstLife.1).1.toOption.map Prod.snd =
      some [⟨1, contractZkCertificateRegistry, 0⟩, smallDescriptor] := by decide +kernel
  have few : afterNextStart.keys.card ≤ 256 := by decide +kernel
  obtain ⟨made, starts, jobs⟩ := small_configures listed
  have member : smallDescriptor ∈ made.2 := by simp [jobs]
  have again := first_life.trans starts
  exact ⟨_, made, again, rfl, rfl, member,
    produces_smallJob (LifeAt.run fixedMetadataCodec_roundTrips again) rfl member few
      afterNextStart_metadata⟩

/-! ### Every life -/

section Lives

variable {codec : MetadataCodec} {addressString : Address → String} {poseidon : PoseidonHash}
variable {factory : JobFactory} {chains : JobDescriptor → Chain} {s : Life}

/-- Whatever was configured and run from an empty database on, through all restarts: while at most
256 addresses have a number, the handlers of the process are jobs of one fleet, which keep to
different entries, and one interleaving of these jobs, with crashes for the restarts, leads each of
them to where it stands and leaves its entries as they are stored. -/
theorem life_refines_fleet (roundTrips : codec.RoundTrips)
    (run : LifeRun codec addressString poseidon factory chains (.start ∅) s)
    (few : FewRegistries codec s.database) :
    (∀ job handler, s.handlers job = some handler →
      ∃ configured : ConfiguredJob codec s.database, configured.1 = job ∧
        handlerAt codec factory s.database configured = handler) ∧
    JobsApart (handlerAt codec factory s.database) ∧
    ∃ fleet, DatabaseRun codec poseidon factory chains s.database (Fleet.stopped ∅) fleet ∧
      Mirrors codec factory s.database s fleet := by
  have sound := LifeAt.run roundTrips run
  obtain ⟨order, registered⟩ := sound.registered
  refine ⟨fun job handler handled => ?_, handlerAt_apart roundTrips registered few, ?_⟩
  · exact (sound.handlers few job handler handled).eq_handlerAt
  · exact Mirrors.run roundTrips run (.refl codec _) registered few

/-- The second start has given address 1 a number as well, and the fleet has both jobs. -/
theorem life_refines_fleet_twoLives :
    ∃ s, SmallLife (.start ∅) s ∧
      resumeBlock fixedCodec smallDescriptor s.database = .ok 1 ∧
      JobsApart (handlerAt fixedMetadataCodec smallFactory s.database) ∧
      ∃ fleet, DatabaseRun fixedMetadataCodec fieldHash smallFactory (fun _ => smallChain)
          s.database (Fleet.stopped ∅) fleet ∧
        Mirrors fixedMetadataCodec smallFactory s.database s fleet := by
  obtain ⟨s, made, run, reached, _⟩ := two_lives
  have entries : afterNextStart.keys.card ≤ 256 := by decide +kernel
  have recorded : resumeBlock fixedCodec smallDescriptor afterNextStart = .ok 1 := by
    decide +kernel
  rw [← reached] at entries recorded
  exact ⟨s, run, recorded,
    (life_refines_fleet fixedMetadataCodec_roundTrips run (few_of_keys entries)).2⟩

/-- In every life a proof request to the service is answered for the slots of the contract at the
block its job has recorded: a value that stands in a slot gets a proof of this slot that verifies
against the stored root, any other value is not found. -/
theorem life_serves_contract (spec : PoseidonSpec poseidon) (roundTrips : codec.RoundTrips)
    (jobRoundTrips : factory.jobCodec.RoundTrips)
    (run : LifeRun codec addressString poseidon factory chains (.start ∅) s)
    (few : FewRegistries codec s.database) {made : Service × List JobDescriptor}
    (configured : s.configured = some made) {job : JobDescriptor} (member : job ∈ made.2)
    {handler : ZkCertificateRegistryJob}
    (produced : Read.evalOn s.database
      ({ factory with registryService := made.1 }.produce job) = .ok handler)
    (contract : ContractMetadata handler.registry.metadata)
    (history : ContractChain handler (chains job)) (server : Server)
    (service : server.registryService = made.1) (req : QueryProofRequest) {leaf : U256}
    (hex : server.isHexAddress req.registry = true)
    (address : server.hexToAddress req.registry = job.address)
    (parsed : server.fromDecimal req.leaf = .ok leaf) :
    ∃ slots, SlotsAt handler (chains job) s.database slots ∧
      (∀ index, leaf ≠ handler.registry.metadata.emptyValue → slots index = leaf →
        ∃ path root, Request.evalOn s.database true (server.proof poseidon req) =
            .ok ⟨req.leaf, path.map server.string, index, server.string root⟩ ∧
          Read.evalOn s.database (handler.registry.sparseTree.getRoot poseidon) = .ok root ∧
          VerifiesAgainst poseidon leaf path index root) ∧
      ((leaf = handler.registry.metadata.emptyValue ∨ ∀ index, slots index ≠ leaf) →
        Request.evalOn s.database true (server.proof poseidon req) =
          .error (statusErrorf .notFound s!"leaf not found: {req.leaf}")) := by
  have sound := LifeAt.run roundTrips run
  obtain ⟨order, registered⟩ := sound.registered
  have configuration := sound.configured made configured
  have own := configuration.handlerOf roundTrips registered few member produced
  have found : Read.evalOn s.database (server.registryService.zkCertificateRegistry
      (server.hexToAddress req.registry)) = .ok handler.registry := by
    obtain ⟨metadata, stored, _, found⟩ :=
      configuration.finds roundTrips registered (few order registered) member
    obtain ⟨metadata', stored', _, rfl⟩ := own
    obtain rfl := Except.ok.inj (stored.symm.trans stored')
    rw [service, address]
    exact found
  obtain ⟨place, rfl, rfl⟩ := own.eq_handlerAt
  have built : InitializedRegistry poseidon (handlerAt codec factory s.database place).registry :=
    handlerAt_built poseidon place
  obtain ⟨fleet, reached, follows⟩ := Mirrors.run roundTrips run (.refl codec _) registered few
  have settled := (fleet_settled spec (handlerAt_built poseidon)
    (handlerAt_apart roundTrips registered few) reached contract jobRoundTrips
    history.certificates (emptyForJob_empty _)).same built (follows.entries place)
  obtain ⟨nodes, slots, position, at', state⟩ := settled.represents spec built contract history
  exact ⟨slots, at', state.answers_proof built hex found parsed⟩

/-- After the second start 7 is served from slot 1, where block 1 has put it before the restart. -/
theorem life_serves_contract_twoLives :
    ∃ s made path root, SmallLife (.start ∅) s ∧ s.configured = some made ∧
      Request.evalOn s.database true
          ({ smallServer with registryService := made.1 }.proof fieldHash ⟨"0x00", "7"⟩) =
        .ok ⟨"7", path.map showDecimal, 1, showDecimal root⟩ ∧
      VerifiesAgainst fieldHash 7 path 1 root := by
  obtain ⟨s, made, run, reached, configured, member, produced⟩ := two_lives
  have entries : afterNextStart.keys.card ≤ 256 := by decide +kernel
  have recorded : resumeBlock fixedCodec smallDescriptor afterNextStart = .ok 1 := by
    decide +kernel
  have stored : (afterNextStart.lookup (makeJobKey smallDescriptor)).isSome = true := by
    decide +kernel
  have holds : contractSlots (smallJobAt 0) smallChain 1 1 = 7 := by decide +kernel
  rw [← reached] at entries recorded stored
  obtain ⟨slots, at', found, _⟩ := life_serves_contract fieldHash_spec
    fixedMetadataCodec_roundTrips fixedCodec_roundTrips run (few_of_keys entries) configured member
    produced smallRegistry_contract (twoJobs_history false)
    { smallServer with registryService := made.1 } rfl ⟨"0x00", "7"⟩ rfl rfl rfl
  have seven : slots 1 = 7 := by
    rcases at' with ⟨missing, _⟩ | ⟨block, known, rfl⟩
    · have none : s.database.lookup (makeJobKey smallDescriptor) = none := missing
      rw [none] at stored
      cases stored
    · obtain rfl : block = 1 := Except.ok.inj (known.resumeBlock.symm.trans recorded)
      exact holds
  obtain ⟨path, root, answered, _, verifies⟩ := found 1 (by decide) seven
  exact ⟨s, made, path, root, run, configured, answered, verifies⟩

end Lives

end MerkleProofService
