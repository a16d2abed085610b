/-
Module: MerkleProofService.Proofs.ConfigurationRuns
Layer: Proofs
Purpose: Every start of the application configures the same jobs.  The calls of
  `configureZkCertificateRegistry` are served query by query, any of which may fail, with crashes,
  restarts and the writes of running jobs in between: an address keeps its job, its number and its
  stored metadata, and `Produce` makes the same handler of the job after every start.
Imports: Application.Configuration, Proofs.InitializationRuns, Proofs.JobFootprints
Trusted boundary: none
Main exports: metadataAt, Extends, Configuration, Configuring, ConfiguringStep, ConfiguredAt,
  configured_jobs_stable
-/
import MerkleProofService.Application.Configuration
import MerkleProofService.Proofs.InitializationRuns
import MerkleProofService.Proofs.JobFootprints

namespace MerkleProofService

open Library
open ServiceProgram

/-! ### Stored metadata -/

/-- The metadata stored for an address. -/
def metadataAt (codec : MetadataCodec) (database : Database) (address : Address) :
    Except GoError StoredMetadata :=
  metadataOfEntry codec ((database.lookup (makeZKCertificateRegistryKey address)).getD [])

/-- Stored metadata stays as it is. -/
def MetadataStays (codec : MetadataCodec) (before after : Database) : Prop :=
  ∀ address metadata, metadataAt codec before address = .ok metadata →
    metadataAt codec after address = .ok metadata

/-- Registrations are only added: numbers that were given stay, and so does stored metadata. -/
structure Extends (codec : MetadataCodec) (before after : Database) : Prop where
  numbers : ∀ order, Registered codec order before →
    ∃ order', Registered codec order' after ∧ order <+: order'
  metadata : MetadataStays codec before after

section Stored

variable {codec : MetadataCodec} {before after : Database}

theorem SameRegistrations.metadataAt_eq (same : SameRegistrations before after)
    (address : Address) : metadataAt codec after address = metadataAt codec before address := by
  rw [metadataAt, same.metadata, metadataAt]

theorem SameRegistrations.extends (same : SameRegistrations before after) :
    Extends codec before after where
  numbers order registered := ⟨order, registered.same same, List.prefix_rfl⟩
  metadata address metadata stored := by rwa [same.metadataAt_eq]

/-- The keys of the numbers. -/
def numberKeys : Set StoreKey :=
  {key | key = .indexCounter ∨ ∃ address, key = .addressIndex address}

/-- A query that changes no metadata. -/
def LeavesMetadata : ServiceQuery → Prop
  | .writeSync batch => WritesOnly numberKeys batch
  | .read _ | .contract _ _ => True

theorem metadataStays_of_leaves (codec : MetadataCodec) (database : Database)
    (query : ServiceQuery) (choice : ServiceChoice query) (leaves : LeavesMetadata query) :
    MetadataStays codec database (serviceEnvironment.after database query choice) := by
  intro address metadata stored
  cases query with
  | read query => exact stored
  | contract contractAddress call => exact stored
  | writeSync batch =>
      cases (choice : Option DatabaseError) with
      | some failed => exact stored
      | none =>
          have outside : StoreKey.metadata address ∉ numberKeys := by
            simp [numberKeys]
          have kept : (Store.write database batch).lookup (makeZKCertificateRegistryKey address) =
              database.lookup (makeZKCertificateRegistryKey address) :=
            Store.lookup_write_of_none (leaves (.metadata address) outside)
          change metadataAt codec (Store.write database batch) address = .ok metadata
          rw [metadataAt, kept]
          exact stored

end Stored

/-! ### Numbering leaves the metadata -/

section Numbering

variable {α : Type} {addressString : Address → String}

theorem ofRead_leaves {read : Read α} {post : α → Prop}
    (asks : read.Asks (fun _ => True) post) : (ofRead read).Asks LeavesMetadata post :=
  Program.Asks.liftQuery (fun _ _ => trivial) asks

theorem setIndex_queues (address : Address) (index : RegistryIndex) :
    (setIndex addressString [] address index).Asks (fun _ => True) (WritesOnly numberKeys) := by
  refine Program.Asks.bind (Program.asks_any _) fun outcome _ => ?_
  cases outcome with
  | ok found => exact trivial
  | error err =>
      refine Program.asks_ofExcept fun batch queued => ?_
      have own : StoreKey.addressIndex address ∈ numberKeys := Or.inr ⟨address, rfl⟩
      exact (writesOnly_nil numberKeys).set own queued

theorem applyAddressToIndexSync_leaves (address : Address) :
    (applyAddressToIndexSync addressString address).Asks LeavesMetadata fun _ => True := by
  refine Program.Asks.bind (ofRead_leaves (Program.asks_any _)) fun outcome _ => ?_
  cases outcome with
  | ok found => exact trivial
  | error err =>
      refine Program.Asks.bind (ofRead_leaves (Program.asks_any _)) fun index _ => ?_
      refine Program.Asks.bind (ofRead_leaves (Program.Asks.mapFail
        (setIndex_queues address index))) fun batch writes => ?_
      refine Program.Asks.bind (Program.Asks.mapFail (Program.asks_ofExcept
        fun counted queued => writes.set (Or.inl rfl) queued)) fun counted own => ?_
      exact Program.Asks.bind (Program.Asks.mapFail
        ⟨own, fun answer => Program.asks_ofExcept fun _ _ => trivial⟩) fun _ _ => trivial

theorem findOrApplyIndex_leaves (address : Address) :
    (findOrApplyIndex addressString address).Asks LeavesMetadata fun _ => True := by
  refine Program.Asks.bind (ofRead_leaves (Program.asks_any _)) fun outcome _ => ?_
  cases outcome with
  | ok found => exact trivial
  | error err =>
      dsimp only
      split
      · exact Program.Asks.mapFail (applyAddressToIndexSync_leaves address)
      · exact trivial

end Numbering

/-! ### Metadata is stored once -/

section Fetching

variable {codec : MetadataCodec} {database : Database} {address : Address}

/-- A call of a contract. -/
def CallsContract : ServiceQuery → Prop
  | .contract _ _ => True
  | .read _ | .writeSync _ => False

theorem fetchMetadata_calls (address : Address) :
    (fetchMetadataFromContract address).Asks CallsContract
      fun metadata => metadata.address = address := by
  have call : ∀ (text : String) (made : ContractCall),
      (ServiceProgram.wrapf text (contract address made)).Asks CallsContract fun _ => True :=
    fun text made => Program.Asks.mapFail
      ⟨trivial, fun _ => Program.asks_ofExcept fun _ _ => trivial⟩
  refine (call _ .newCaller).bind fun _ _ => (call _ .treeDepth).bind fun _ _ => ?_
  refine (call _ .zeroValue).bind fun _ _ => (call _ .initBlockHeight).bind fun _ _ => ?_
  exact (call _ .description).bind fun _ _ => rfl

/-- Fetching changes nothing. -/
theorem keeps_fetchMetadata {missing : GoError}
    (none : metadataAt codec database address = .error missing) :
    Program.Keeps serviceEnvironment SameRegistrations (MetadataStays codec)
      (fun now metadata => metadataAt codec now address = .error missing ∧
        metadata.address = address) (fetchMetadataFromContract address) database := by
  have keeps : Program.Keeps serviceEnvironment SameRegistrations
      (fun before after => after = before) (fun _ metadata => metadata.address = address)
      (fetchMetadataFromContract address) database := by
    refine (fetchMetadata_calls address).keeps (fun state query choice calls => ?_) database
    cases query with
    | contract contractAddress call => rfl
    | read query => cases calls
    | writeSync batch => cases calls
  refine (keeps.frame (fun now => metadataAt codec now address = .error missing)
    ?_ ?_ none).mono ?_
  · intro before after still same
    rwa [same.metadataAt_eq]
  · rintro before _ still rfl
    exact still
  · rintro before _ rfl other metadata stored
    exact stored

/-- Writing metadata where there is none. -/
theorem metadataStays_set {record : Bytes} {missing : GoError}
    (none : metadataAt codec database address = .error missing) :
    MetadataStays codec database (Store.write database
      [.set (makeZKCertificateRegistryKey address) record]) := by
  intro other metadata stored
  have different : makeZKCertificateRegistryKey address ≠ makeZKCertificateRegistryKey other := by
    intro same
    rw [makeZKCertificateRegistryKey_inj.mp same, stored] at none
    cases none
  rw [metadataAt, Store.lookup_write_of_none (by
    rw [lastEffect_singleton, WriteOp.key, if_neg different])]
  exact stored

/-- Metadata that was written is stored. -/
theorem metadataAt_set (roundTrips : codec.RoundTrips) {metadata : StoredMetadata}
    {record : Bytes} (encoded : codec.encode metadata = .ok record) :
    metadataAt codec (Store.write database [.set (makeZKCertificateRegistryKey address) record])
      address = .ok metadata := by
  obtain ⟨nonempty, decoded⟩ := roundTrips metadata record encoded
  have written : (Store.write database [.set (makeZKCertificateRegistryKey address) record]).lookup
      (makeZKCertificateRegistryKey address) = some record := by
    rw [Store.lookup_write, lastEffect_singleton, WriteOp.key, if_pos rfl]
    rfl
  rw [metadataAt, written, Option.getD_some, metadataOfEntry,
    if_neg fun none => nonempty (List.length_eq_zero_iff.mp none), decoded]
  rfl

/-- What is fetched is stored, where nothing was. -/
theorem keeps_storeFetched (roundTrips : codec.RoundTrips) {missing : GoError}
    (none : metadataAt codec database address = .error missing) (registryIndex : RegistryIndex) :
    Program.Keeps serviceEnvironment SameRegistrations (MetadataStays codec)
      (fun now metadata => metadataAt codec now address = .ok metadata)
      (Program.bind (ServiceProgram.wrapf "failed to fetch metadata from contract"
          (fetchMetadataFromContract address)) fun fetched =>
        Program.bind (ServiceProgram.wrapf "failed to set metadata" (.ofExcept
          (setMetadata codec [] { fetched with index := registryIndex }))) fun batch =>
          (ServiceProgram.wrapf "failed to write batch" (writeSync batch)).bind fun _ =>
            .done { fetched with index := registryIndex }) database := by
  refine Program.Keeps.bind SameRegistrations.refl (Program.Keeps.mapFail
    ((keeps_fetchMetadata none).weaken ?_))
  rintro now fetched ⟨still, rfl⟩
  refine Program.Keeps.bind SameRegistrations.refl (Program.Keeps.mapFail
    (Program.keeps_ofExcept fun batch queued later drifts => ?_))
  obtain ⟨record, encoded, rfl⟩ := setMetadata_eq_ok queued
  refine Program.Keeps.bind SameRegistrations.refl (Program.Keeps.mapFail ?_)
  intro current drifts' choice
  cases (choice : Option DatabaseError) with
  | some failed => exact ⟨fun _ _ stored => stored, trivial⟩
  | none =>
      have here : metadataAt codec current fetched.address = .error missing := by
        rwa [drifts'.metadataAt_eq, drifts.metadataAt_eq]
      refine ⟨metadataStays_set here, fun written same last same' => ?_⟩
      exact (same'.metadataAt_eq _).trans ((same.metadataAt_eq _).trans
        (metadataAt_set roundTrips encoded))

/-- Looking at the metadata of an address: what is stored, or an error of the database. -/
theorem keeps_lookAtMetadata {order : List Address} (roundTrips : codec.RoundTrips)
    (registered : Registered codec order database)
    {good : Database → Except GoError StoredMetadata → Prop}
    (stored : ∀ now, SameRegistrations database now → good now (metadataAt codec database address))
    (failed : ∀ now, SameRegistrations database now → ∀ failed : DatabaseError,
      good now (.error failed.err)) :
    Program.Keeps serviceEnvironment SameRegistrations (MetadataStays codec) good
      (ofRead (getMetadata codec address).tryRun) database := by
  have calm : NoPanic (metadataAt codec database address) := by
    rcases registered.metadataOfEntry_cases roundTrips address with missing | ⟨found, decoded, _⟩
    · rw [metadataAt, missing]
      exact fun reason same => by cases same
    · rw [metadataAt, decoded]
      exact NoPanic.ok _
  have looks : Registers codec address good (ofRead (getMetadata codec address).tryRun) database :=
    registers_tryRun (readsEntry_getMetadata codec address) (fun _ same => same.metadata address)
      calm stored failed
  have both := looks.and ((ofRead_leaves (Program.asks_any _)).keeps
    (metadataStays_of_leaves codec) database)
  exact (both.mono fun _ _ => And.right).weaken fun _ _ => And.left

/-- `findOrFetchMetadata` returns what is stored, and stores it only where nothing was. -/
theorem keeps_findOrFetchMetadata {order : List Address} (roundTrips : codec.RoundTrips)
    (registered : Registered codec order database) (registryIndex : RegistryIndex) :
    Program.Keeps serviceEnvironment SameRegistrations (MetadataStays codec)
      (fun now metadata => metadataAt codec now address = .ok metadata)
      (findOrFetchMetadata codec address registryIndex) database := by
  refine Program.Keeps.bind SameRegistrations.refl
    (keeps_lookAtMetadata roundTrips registered (fun now same => ?_) fun now same failed => ?_)
  · rcases registered.metadataOfEntry_cases roundTrips address with missing | ⟨found, decoded, _⟩
    · have none : metadataAt codec now address = .error .notFound :=
        (same.metadataAt_eq address).trans missing
      rw [metadataAt, missing]
      exact keeps_storeFetched roundTrips none registryIndex
    · rw [metadataAt, decoded]
      intro later drifts
      exact ((drifts.metadataAt_eq address).trans (same.metadataAt_eq address)).trans decoded
  · simp only [failed.foreign]
    exact trivial

end Fetching

/-! ### Configured jobs -/

/-- What `InitializeRegistry` returns: the stored metadata of the address, under its number. -/
structure InitializedAs (codec : MetadataCodec) (address : Address) (now : Database)
    (made : RegistryIndex × StoredMetadata) : Prop where
  stored : metadataAt codec now address = .ok made.2
  index : made.1 = made.2.index
  numbered : ∃ order, Registered codec order now

/-- What `configureZkCertificateRegistry` returns: the job of each address has the start block its
stored metadata says, and the instances are those of the addresses, under their numbers. -/
structure Configuration (codec : MetadataCodec) (database : Database)
    (configured : Service × List JobDescriptor) : Prop where
  jobs : ∀ job ∈ configured.2, ∃ metadata, metadataAt codec database job.address = .ok metadata ∧
    job = configuredJob job.address metadata
  cached : ∀ job ∈ configured.2, ∀ metadata, metadataAt codec database job.address = .ok metadata →
    (configured.1.registry metadata.index).isSome
  own : ∀ index registry, configured.1.registry index = some registry →
    ∃ job ∈ configured.2, ∃ metadata, metadataAt codec database job.address = .ok metadata ∧
      metadata.index = index ∧ registry = newZKCertificateRegistry index metadata.toMetadata

section Configured

variable {codec : MetadataCodec} {addressString : Address → String} {order : List Address}
variable {database now : Database} {address : Address} {service : Service}
variable {jobs : List JobDescriptor}

theorem keeps_initializeMetadata (roundTrips : codec.RoundTrips)
    (registered : Registered codec order database) :
    Program.Keeps serviceEnvironment SameRegistrations (Extends codec)
      (InitializedAs codec address) (initializeMetadata codec addressString address) database := by
  have grows : ∀ before after, Grows codec address before after ∧ MetadataStays codec before after →
      Extends codec before after := by
    rintro before after ⟨numbers, stays⟩
    refine ⟨fun order registered => ?_, stays⟩
    obtain ⟨order', registered', earlier, _⟩ := numbers order registered
    exact ⟨order', registered', earlier⟩
  have numbers : Registers codec address (NumberedAs codec address)
      (findOrApplyIndex addressString address) database := registers_findOrApplyIndex registered
  have both := numbers.and ((findOrApplyIndex_leaves address).keeps
    (metadataStays_of_leaves codec) database)
  refine Program.Keeps.bind SameRegistrations.refl ((both.mono grows).weaken ?_)
  rintro now _ ⟨⟨order, numbered, member, rfl⟩, _⟩
  have fetches := (registers_findOrFetchMetadata roundTrips numbered member).and
    (keeps_findOrFetchMetadata roundTrips numbered (indexIn order address))
  refine Program.Keeps.bind SameRegistrations.refl ((fetches.mono grows).weaken ?_)
  rintro later metadata ⟨⟨still, index⟩, stored⟩ last same
  refine ⟨?_, index.symm, order, still.same same⟩
  rw [same.metadataAt_eq]
  exact stored

theorem Configuration.later {configured : Service × List JobDescriptor}
    (configuration : Configuration codec database configured)
    (stays : MetadataStays codec database now) : Configuration codec now configured where
  jobs job member := by
    obtain ⟨metadata, stored, same⟩ := configuration.jobs job member
    exact ⟨metadata, stays _ _ stored, same⟩
  cached job member metadata stored := by
    obtain ⟨before, known, _⟩ := configuration.jobs job member
    obtain rfl := Except.ok.inj ((stays _ _ known).symm.trans stored)
    exact configuration.cached job member before known
  own index registry cached := by
    obtain ⟨job, member, metadata, stored, same⟩ := configuration.own index registry cached
    exact ⟨job, member, metadata, stays _ _ stored, same⟩

theorem configuration_empty (codec : MetadataCodec) (database : Database) :
    Configuration codec database (⟨fun _ => none⟩, []) where
  jobs _ member := by cases member
  cached _ member := by cases member
  own _ _ cached := by cases cached

/-- One more address. -/
theorem Configuration.snoc (configuration : Configuration codec database (service, jobs))
    {made : RegistryIndex × StoredMetadata}
    (initialized : InitializedAs codec address database made) :
    Configuration codec database
      (service.cache made.1 (newZKCertificateRegistry made.1 made.2.toMetadata),
        jobs ++ [configuredJob address made.2]) where
  jobs job member := by
    rcases List.mem_append.mp member with old | new
    · exact configuration.jobs job old
    · obtain rfl := List.mem_singleton.mp new
      exact ⟨made.2, initialized.stored, rfl⟩
  cached job member metadata stored := by
    change (Function.update service.registry made.1 _ metadata.index).isSome = true
    by_cases here : metadata.index = made.1
    · rw [here, Function.update_self]
      rfl
    · rw [Function.update_of_ne here]
      rcases List.mem_append.mp member with old | new
      · exact configuration.cached job old metadata stored
      · obtain rfl := List.mem_singleton.mp new
        obtain rfl := Except.ok.inj (initialized.stored.symm.trans stored)
        exact absurd initialized.index.symm here
  own index registry cached := by
    change Function.update service.registry made.1 _ index = some registry at cached
    by_cases here : index = made.1
    · subst here
      rw [Function.update_self] at cached
      exact ⟨_, List.mem_append_right jobs (List.mem_singleton.mpr rfl), made.2, initialized.stored,
        initialized.index.symm, (Option.some.inj cached).symm⟩
    · rw [Function.update_of_ne here] at cached
      obtain ⟨job, member, rest⟩ := configuration.own index registry cached
      exact ⟨job, List.mem_append_left _ member, rest⟩

/-- `configureZkCertificateRegistry` adds a job for each address. -/
theorem keeps_configure (roundTrips : codec.RoundTrips) (addresses : List Address)
    (registered : Registered codec order database)
    (configuration : Configuration codec database (service, jobs)) :
    Program.Keeps serviceEnvironment SameRegistrations (Extends codec)
      (fun now made => Configuration codec now made ∧
        made.2.map JobDescriptor.address = jobs.map JobDescriptor.address ++ addresses)
      (configureZkCertificateRegistry codec addressString addresses service jobs) database := by
  induction addresses generalizing order database service jobs with
  | nil =>
      intro now same
      exact ⟨configuration.later same.extends.metadata, (List.append_nil _).symm⟩
  | cons address addresses ih =>
      refine Program.Keeps.bind SameRegistrations.refl (Program.Keeps.mapFail ?_)
      refine ((keeps_initializeMetadata roundTrips registered).frame
        (fun now => Configuration codec now (service, jobs)) ?_ ?_ configuration).weaken ?_
      · exact fun before same => before.later same.extends.metadata
      · exact fun before extended => before.later extended.metadata
      · rintro now ⟨index, metadata⟩ ⟨still, initialized⟩
        obtain ⟨order', numbered⟩ := initialized.numbered
        refine (ih numbered (still.snoc initialized)).weaken ?_
        rintro later made ⟨configured, listed⟩
        refine ⟨configured, ?_⟩
        rw [listed, List.map_append, List.append_assoc]
        rfl

end Configured

/-! ### Sequences of starts -/

/-- The database and the call of `configureZkCertificateRegistry` in progress; `returned` is
history: what calls have returned, each for a new service. -/
structure Configuring where
  database : Database
  calling : Option (ServiceProgram (Service × List JobDescriptor))
  returned : List (Service × List JobDescriptor)

/-- The first start on an empty database. -/
def Configuring.start : Configuring := ⟨∅, none, []⟩

/-- A call for these addresses, by an application that has just been created. -/
def configureFresh (codec : MetadataCodec) (addressString : Address → String)
    (addresses : List Address) : ServiceProgram (Service × List JobDescriptor) :=
  configureZkCertificateRegistry codec addressString addresses ⟨fun _ => none⟩ []

/-- One step.  A call is served query by query; the process may be restarted at any point, and
others may change any entry that is no registration. -/
inductive ConfiguringStep (codec : MetadataCodec) (addressString : Address → String) :
    Configuring → Configuring → Prop where
  | call {s : Configuring} (addresses : List Address) (idle : s.calling = none) :
      ConfiguringStep codec addressString s
        { s with calling := some (configureFresh codec addressString addresses) }
  | serve {s : Configuring} {query : ServiceQuery}
      {next : ServiceAnswer query → ServiceProgram (Service × List JobDescriptor)}
      (choice : ServiceChoice query) (asks : s.calling = some (.ask query next)) :
      ConfiguringStep codec addressString s
        { s with
          database := serviceEnvironment.after s.database query choice
          calling := some (next (serviceEnvironment.answer s.database query choice)) }
  | returns {s : Configuring} {made : Service × List JobDescriptor}
      (done : s.calling = some (.done made)) :
      ConfiguringStep codec addressString s
        { s with calling := none, returned := made :: s.returned }
  | fails {s : Configuring} {err : GoError} (failed : s.calling = some (.fail err)) :
      ConfiguringStep codec addressString s { s with calling := none }
  | restart {s : Configuring} : ConfiguringStep codec addressString s { s with calling := none }
  | others {s : Configuring} {database : Database}
      (same : SameRegistrations s.database database) :
      ConfiguringStep codec addressString s { s with database := database }

/-- The invariant: what was returned is what is stored, and so will be what a call returns. -/
structure ConfiguredAt (codec : MetadataCodec) (s : Configuring) : Prop where
  registered : ∃ order, Registered codec order s.database
  returned : ∀ made ∈ s.returned, Configuration codec s.database made
  calling : ∀ program, s.calling = some program →
    Program.Keeps serviceEnvironment SameRegistrations (Extends codec) (Configuration codec)
      program s.database

section Starts

variable {codec : MetadataCodec} {addressString : Address → String} {s t : Configuring}

theorem ConfiguredAt.step (roundTrips : codec.RoundTrips) (sound : ConfiguredAt codec s)
    (step : ConfiguringStep codec addressString s t) : ConfiguredAt codec t := by
  cases step with
  | call addresses idle =>
      refine { sound with calling := ?_ }
      rintro _ ⟨⟩
      obtain ⟨order, registered⟩ := sound.registered
      exact (keeps_configure roundTrips addresses registered (configuration_empty _ _)).weaken
        fun _ _ => And.left
  | serve choice asks =>
      obtain ⟨extended, rest⟩ := sound.calling _ asks s.database (.refl _) choice
      obtain ⟨order, registered⟩ := sound.registered
      obtain ⟨order', registered', _⟩ := extended.numbers order registered
      refine ⟨⟨order', registered'⟩, fun made member => ?_, ?_⟩
      · exact (sound.returned made member).later extended.metadata
      · rintro _ ⟨⟩
        exact rest
  | returns done =>
      refine ⟨sound.registered, fun other member => ?_, nofun⟩
      rcases List.mem_cons.mp member with rfl | old
      · exact sound.calling _ done s.database (.refl _)
      · exact sound.returned other old
  | fails failed => exact ⟨sound.registered, sound.returned, nofun⟩
  | restart => exact ⟨sound.registered, sound.returned, nofun⟩
  | others same =>
      obtain ⟨order, registered⟩ := sound.registered
      refine ⟨⟨order, registered.same same⟩, fun made member => ?_, fun program calling => ?_⟩
      · exact (sound.returned made member).later same.extends.metadata
      · exact (sound.calling program calling).drift SameRegistrations.trans same

theorem ConfiguredAt.run (roundTrips : codec.RoundTrips)
    (run : Relation.ReflTransGen (ConfiguringStep codec addressString) .start s) :
    ConfiguredAt codec s := by
  induction run with
  | refl => exact ⟨⟨[], registered_empty codec⟩, nofun, nofun⟩
  | tail _ last ih => exact ih.step roundTrips last

end Starts

/-! ### Handlers -/

section Handlers

variable {codec : MetadataCodec} {database : Database} {order : List Address}
variable {configured : Service × List JobDescriptor} {job : JobDescriptor}

/-- Stored metadata has the number of its address. -/
theorem Registered.metadataAt_index (roundTrips : codec.RoundTrips)
    (registered : Registered codec order database) {address : Address} {metadata : StoredMetadata}
    (stored : metadataAt codec database address = .ok metadata) :
    address ∈ order ∧ metadata.index = indexIn order address := by
  cases entry : database.lookup (makeZKCertificateRegistryKey address) with
  | none =>
      rw [metadataAt, entry] at stored
      cases stored
  | some record =>
      obtain ⟨member, _⟩ := registered.metadata address record entry
      refine ⟨member, ?_⟩
      rcases registered.metadataOfEntry_cases roundTrips address with
        missing | ⟨found, known, index⟩
      · rw [metadataAt, missing] at stored
        cases stored
      · rw [metadataAt, known] at stored
        obtain rfl := Except.ok.inj stored
        exact index

/-- The service finds what it has cached under the number of the address. -/
theorem evalOn_zkCertificateRegistry {service : Service} {address : Address}
    {index : RegistryIndex} {registry : ZKCertificateRegistry}
    (found : Read.evalOn database (findRegistryIndex address) = .ok index)
    (cached : service.registry index = some registry) :
    Read.evalOn database (service.zkCertificateRegistry address) = .ok registry := by
  simp only [Service.zkCertificateRegistry, Program.bind_eq, Read.evalOn_bind, Read.evalOn_wrapf,
    found, Except.mapError, except_bind_ok, cached]
  rfl

/-- With at most 256 numbers, the service finds the instance built from the stored metadata. -/
theorem Configuration.finds (roundTrips : codec.RoundTrips)
    (registered : Registered codec order database) (few : order.length ≤ 256)
    (configuration : Configuration codec database configured) (member : job ∈ configured.2) :
    ∃ metadata, metadataAt codec database job.address = .ok metadata ∧
      job = configuredJob job.address metadata ∧
      Read.evalOn database (configured.1.zkCertificateRegistry job.address) =
        .ok (newZKCertificateRegistry metadata.index metadata.toMetadata) := by
  obtain ⟨metadata, stored, same⟩ := configuration.jobs job member
  obtain ⟨numbered, index⟩ := registered.metadataAt_index roundTrips stored
  obtain ⟨registry, cached⟩ := Option.isSome_iff_exists.mp
    (configuration.cached job member metadata stored)
  -- the instance under this number is the one of this address
  obtain ⟨other, _, metadata', stored', index', rfl⟩ := configuration.own _ _ cached
  obtain ⟨numbered', sameIndex⟩ := registered.metadataAt_index roundTrips stored'
  have sameNumber : indexIn order other.address = indexIn order job.address := by
    rw [← sameIndex, index', index]
  have sameAddress := idxOf_injOn few numbered' numbered sameNumber
  rw [sameAddress, stored] at stored'
  obtain rfl := Except.ok.inj stored'
  refine ⟨metadata, stored, same, ?_⟩
  exact evalOn_zkCertificateRegistry (index ▸ registered.find_mem numbered) cached

/-- `Produce` makes the same handler of a job whichever start has configured it. -/
theorem Configuration.produces (roundTrips : codec.RoundTrips)
    (registered : Registered codec order database) (few : order.length ≤ 256)
    (configuration : Configuration codec database configured) (member : job ∈ configured.2)
    (f : JobFactory) :
    ∃ metadata, metadataAt codec database job.address = .ok metadata ∧
      job = configuredJob job.address metadata ∧
      Read.evalOn database ({ f with registryService := configured.1 }.produce job) =
        .ok (f.newZkCertificateRegistryJob job
          (newZKCertificateRegistry metadata.index metadata.toMetadata)) := by
  obtain ⟨metadata, stored, same, found⟩ := configuration.finds roundTrips registered few member
  refine ⟨metadata, stored, same, ?_⟩
  have contract : job.contract = contractZkCertificateRegistry := by rw [same]; rfl
  rw [JobFactory.produce, if_pos contract]
  simp only [Program.bind_eq, Read.evalOn_bind, Read.evalOn_wrapf, found]
  rfl

end Handlers

/-! ### Two starts after a failed one -/

section Calls

variable {codec : MetadataCodec} {addressString : Address → String} {s : Configuring}

/-- A call in progress, served to its end. -/
theorem serving_run (choices : Nat → (query : ServiceQuery) → ServiceChoice query)
    {program : ServiceProgram (Service × List JobDescriptor)} (calling : s.calling = some program) :
    Relation.ReflTransGen (ConfiguringStep codec addressString) s
      { s with
        database := (program.serve serviceEnvironment choices s.database).2
        calling := some (.ofExcept (program.serve serviceEnvironment choices s.database).1) } := by
  have served := Program.serve_run serviceEnvironment choices (fun _ _ => False) s.database program
  have lifted : Relation.ReflTransGen (ConfiguringStep codec addressString) _ _ :=
    Relation.ReflTransGen.lift
      (fun place : Database × ServiceProgram (Service × List JobDescriptor) =>
        { s with database := place.1, calling := some place.2 })
      (by
        rintro _ _ (choice | ⟨⟨⟩⟩)
        exact .serve choice rfl) _ _ served
  simpa only [← calling] using lifted

/-- A call that returns. -/
theorem call_returns {choices : Nat → (query : ServiceQuery) → ServiceChoice query}
    {addresses : List Address} {made : Service × List JobDescriptor} (idle : s.calling = none)
    (returned : ((configureFresh codec addressString addresses).serve serviceEnvironment choices
      s.database).1 = .ok made) :
    Relation.ReflTransGen (ConfiguringStep codec addressString) s
      { s with
        database := ((configureFresh codec addressString addresses).serve serviceEnvironment
          choices s.database).2
        calling := none
        returned := made :: s.returned } := by
  refine .head (.call addresses idle) ((serving_run choices rfl).tail (.returns ?_))
  exact congrArg (fun outcome => some (Program.ofExcept outcome)) returned

/-- A call after which the process is restarted. -/
theorem call_restarts (choices : Nat → (query : ServiceQuery) → ServiceChoice query)
    (addresses : List Address) (idle : s.calling = none) :
    Relation.ReflTransGen (ConfiguringStep codec addressString) s
      { s with
        database := ((configureFresh codec addressString addresses).serve serviceEnvironment
          choices s.database).2
        calling := none } :=
  .head (.call addresses idle) ((serving_run choices rfl).tail .restart)

end Calls

/-- A call of the application, served with the same choices throughout. -/
def servedCall (choice : (query : ServiceQuery) → ServiceChoice query) (addresses : List Address)
    (database : Database) : Except GoError (Service × List JobDescriptor) × Database :=
  (configureFresh fixedMetadataCodec (fun _ => "") addresses).serve serviceEnvironment
    (fun _ query => choice query) database

/-- The first start fails at the contract of address 1, which has its number by then. -/
def afterFailedStart : Database := (servedCall contractFails [1, 2] ∅).2

example : (servedCall contractFails [1, 2] ∅).1.isOk = false := by decide +kernel

/-- The second start comes through. -/
def afterSecondStart : Database := (servedCall allSucceed [2, 1] afterFailedStart).2

/-- What a call has returned, if it has. -/
theorem servedCall_returned {choice : (query : ServiceQuery) → ServiceChoice query}
    {addresses : List Address} {database : Database} {jobs : List JobDescriptor}
    (listed : (servedCall choice addresses database).1.toOption.map Prod.snd = some jobs) :
    ∃ made, (servedCall choice addresses database).1 = .ok made ∧ made.2 = jobs := by
  cases outcome : (servedCall choice addresses database).1 with
  | error err =>
      rw [outcome] at listed
      cases listed
  | ok made =>
      rw [outcome] at listed
      exact ⟨made, rfl, Option.some.inj listed⟩

/-- A failed start and two starts that come through. -/
theorem three_starts :
    ∃ s first second, Relation.ReflTransGen (ConfiguringStep fixedMetadataCodec fun _ => "")
        .start s ∧ s.returned = [second, first] ∧
      first.2 = [⟨2, contractZkCertificateRegistry, 0⟩, ⟨1, contractZkCertificateRegistry, 0⟩] ∧
      second.2 = [⟨1, contractZkCertificateRegistry, 0⟩] := by
  have listed : (servedCall allSucceed [2, 1] afterFailedStart).1.toOption.map Prod.snd =
      some [⟨2, contractZkCertificateRegistry, 0⟩, ⟨1, contractZkCertificateRegistry, 0⟩] := by
    decide +kernel
  have listed' : (servedCall allSucceed [1] afterSecondStart).1.toOption.map Prod.snd =
      some [⟨1, contractZkCertificateRegistry, 0⟩] := by decide +kernel
  obtain ⟨first, returned, jobs⟩ := servedCall_returned listed
  obtain ⟨second, returned', jobs'⟩ := servedCall_returned listed'
  have dropped : Relation.ReflTransGen (ConfiguringStep fixedMetadataCodec fun _ => "")
      .start ⟨afterFailedStart, none, []⟩ :=
    call_restarts (fun _ query => contractFails query) [1, 2] rfl
  exact ⟨_, first, second, (dropped.trans (call_returns rfl returned)).trans
    (call_returns rfl returned'), rfl, jobs, jobs'⟩

/-! ### All starts agree -/

/-- However often the application was started, whatever has failed and wherever it was stopped,
while jobs wrote their own entries: all starts that came through have configured the same job for an
address; and while at most 256 addresses have a number, `Produce` makes the same handler of it. -/
theorem configured_jobs_stable (addressString : Address → String) {codec : MetadataCodec}
    (roundTrips : codec.RoundTrips) {s : Configuring}
    (run : Relation.ReflTransGen (ConfiguringStep codec addressString) .start s) :
    (∀ first ∈ s.returned, ∀ second ∈ s.returned, ∀ job ∈ first.2, ∀ other ∈ second.2,
      job.address = other.address → job = other) ∧
    ∃ order, AppliedOrder order s.database ∧ (order.length ≤ 256 →
      ∀ first ∈ s.returned, ∀ second ∈ s.returned, ∀ job ∈ first.2, job ∈ second.2 →
        ∀ f : JobFactory, ∃ handler,
          Read.evalOn s.database ({ f with registryService := first.1 }.produce job) =
            .ok handler ∧
          Read.evalOn s.database ({ f with registryService := second.1 }.produce job) =
            .ok handler) := by
  have sound := ConfiguredAt.run roundTrips run
  obtain ⟨order, registered⟩ := sound.registered
  refine ⟨?_, order, registered.toAppliedOrder, ?_⟩
  · intro first inFirst second inSecond job member other member' sameAddress
    obtain ⟨metadata, stored, same⟩ := (sound.returned first inFirst).jobs job member
    obtain ⟨metadata', stored', same'⟩ := (sound.returned second inSecond).jobs other member'
    rw [← sameAddress, stored] at stored'
    obtain rfl := Except.ok.inj stored'
    rw [same, same', sameAddress]
  · intro few first inFirst second inSecond job member member' f
    obtain ⟨metadata, stored, _, made⟩ := (sound.returned first inFirst).produces roundTrips
      registered few member f
    obtain ⟨metadata', stored', _, made'⟩ := (sound.returned second inSecond).produces roundTrips
      registered few member' f
    obtain rfl := Except.ok.inj (stored.symm.trans stored')
    exact ⟨_, made, made'⟩

/-- After a failed start, two starts have configured the same job for address 1. -/
theorem configured_jobs_stable_restarted :
    ∃ s first second, Relation.ReflTransGen (ConfiguringStep fixedMetadataCodec fun _ => "")
        .start s ∧ s.returned = [second, first] ∧ first.2.length = 2 ∧ second.2.length = 1 ∧
      ∀ job ∈ first.2, ∀ other ∈ second.2, job.address = other.address → job = other := by
  obtain ⟨s, first, second, run, returned, jobs, jobs'⟩ := three_starts
  refine ⟨s, first, second, run, returned, by rw [jobs]; rfl, by rw [jobs']; rfl, ?_⟩
  exact (configured_jobs_stable (fun _ => "") fixedMetadataCodec_roundTrips run).1 first
    (by simp [returned]) second (by simp [returned])

end MerkleProofService
