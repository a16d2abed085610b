/-
Module: MerkleProofService.Proofs.InitializationRuns
Layer: Proofs
Purpose: Sequences of `InitializeRegistry` calls, with failures, retries and restarts, while others
  write their own entries.  Every instance ever returned or cached reads and writes one key space,
  that of the index its address has; an address is given an index once.
Imports: Proofs.RegistryInitialization, Library.GuardedRuns
Trusted boundary: none
Main exports: Initializing, InitializingStep, SoundAt, SoundAt.step, OneKeySpace,
  instances_have_one_key_space
-/
import MerkleProofService.Library.GuardedRuns
import MerkleProofService.Proofs.RegistryInitialization

namespace MerkleProofService

open Library

/-! ### Sequences of calls -/

/-- The service with its database.  `calling` is the call of `InitializeRegistry` in progress, and
`returned` is history: the instances calls have returned, with their addresses. -/
structure Initializing where
  database : Database
  service : Service
  calling : Option (Address × ServiceProgram (RegistryIndex × ZKCertificateRegistry))
  returned : List (Address × ZKCertificateRegistry)

/-- The first start on an empty database. -/
def Initializing.start : Initializing where
  database := ∅
  service := ⟨fun _ => none⟩
  calling := none
  returned := []

/-- One step.  A call is served query by query; the process may be restarted at any point, which
clears what it has in memory, and others may change any entry that is no registration. -/
inductive InitializingStep (codec : MetadataCodec) (addressString : Address → String) :
    Initializing → Initializing → Prop where
  | call {s : Initializing} (address : Address) (idle : s.calling = none) :
      InitializingStep codec addressString s
        { s with calling := some (address, initializeRegistry codec addressString address) }
  | serve {s : Initializing} {address : Address} {query : ServiceQuery}
      {next : ServiceAnswer query → ServiceProgram (RegistryIndex × ZKCertificateRegistry)}
      (choice : ServiceChoice query) (asks : s.calling = some (address, .ask query next)) :
      InitializingStep codec addressString s
        { s with
          database := serviceEnvironment.after s.database query choice
          calling := some (address, next (serviceEnvironment.answer s.database query choice)) }
  | returns {s : Initializing} {address : Address} {registryIndex : RegistryIndex}
      {registry : ZKCertificateRegistry}
      (done : s.calling = some (address, .done (registryIndex, registry))) :
      InitializingStep codec addressString s
        { s with
          service := s.service.cache registryIndex registry
          calling := none
          returned := (address, registry) :: s.returned }
  | fails {s : Initializing} {address : Address} {err : GoError}
      (failed : s.calling = some (address, .fail err)) :
      InitializingStep codec addressString s { s with calling := none }
  | restart {s : Initializing} :
      InitializingStep codec addressString s
        { s with service := ⟨fun _ => none⟩, calling := none }
  | others {s : Initializing} {database : Database}
      (same : SameRegistrations s.database database) :
      InitializingStep codec addressString s { s with database := database }

/-- The numbers are those of `order`; every instance has the number of its address; a call in
progress will give its address the next number at most. -/
structure SoundAt (codec : MetadataCodec) (order : List Address) (s : Initializing) : Prop where
  registered : Registered codec order s.database
  returned : ∀ address registry, (address, registry) ∈ s.returned → OwnIndex order address registry
  cached : ∀ index registry, s.service.registry index = some registry →
    registry.leafView.registryIndex = index ∧ ∃ address, (address, registry) ∈ s.returned
  calling : ∀ address program, s.calling = some (address, program) →
    Registers codec address (GoodInstance codec address) program s.database

section Runs

variable {codec : MetadataCodec} {addressString : Address → String} {order : List Address}
variable {s t : Initializing} {address : Address}

theorem soundAt_start (codec : MetadataCodec) : SoundAt codec [] .start where
  registered := registered_empty codec
  returned := fun _ _ member => by cases member
  cached := fun _ _ cached => by cases cached
  calling := fun _ _ calling => by cases calling

/-- An address keeps its number when others are given theirs. -/
theorem indexIn_of_prefix {order' : List Address} (earlier : order <+: order')
    (member : address ∈ order) : indexIn order' address = indexIn order address := by
  rw [indexIn, indexIn, idxOf_of_prefix earlier member]

theorem OwnIndex.later {order' : List Address} {registry : ZKCertificateRegistry}
    (own : OwnIndex order address registry) (earlier : order <+: order') :
    OwnIndex order' address registry := by
  have same := indexIn_of_prefix earlier own.member
  refine ⟨earlier.subset own.member, ?_, ?_, ?_, ?_⟩
  · rw [same, own.metadata]
  · rw [same, own.leafView]
  · rw [same, own.mutex]
  · rw [same, own.tree]

/-- Orders of the same numbers give an instance the same number. -/
theorem OwnIndex.ofOrder {other : List Address} {database : Database}
    {registry : ZKCertificateRegistry} (own : OwnIndex other address registry)
    (applied : Registered codec other database) (registered : Registered codec order database) :
    OwnIndex order address registry := by
  obtain ⟨member, same⟩ := applied.indexIn_eq registered own.member
  refine ⟨member, ?_, ?_, ?_, ?_⟩
  · rw [same, own.metadata]
  · rw [same, own.leafView]
  · rw [same, own.mutex]
  · rw [same, own.tree]

/-- The address a number was given to in this step is the one being initialised. -/
def Calls (s : Initializing) (address : Address) : Prop :=
  ∃ program, s.calling = some (address, program)

theorem SoundAt.step (roundTrips : codec.RoundTrips) (sound : SoundAt codec order s)
    (step : InitializingStep codec addressString s t) :
    ∃ order', SoundAt codec order' t ∧ order <+: order' ∧
      ∀ other ∈ order', other ∈ order ∨ Calls s other := by
  have unchanged : ∀ other ∈ order, other ∈ order ∨ Calls s other := fun _ => Or.inl
  cases step with
  | call address idle =>
      refine ⟨order, { sound with calling := ?_ }, List.prefix_rfl, unchanged⟩
      intro other program calling
      obtain ⟨rfl, rfl⟩ := Prod.mk.inj (Option.some.inj calling)
      exact registers_initializeRegistry roundTrips sound.registered
  | @serve address query next choice asks =>
      obtain ⟨grows, rest⟩ := sound.calling address _ asks s.database (.refl _) choice
      obtain ⟨order', registered, earlier, members⟩ := grows order sound.registered
      refine ⟨order', ⟨registered, ?_, sound.cached, ?_⟩, earlier, ?_⟩
      · exact fun other registry member => (sound.returned other registry member).later earlier
      · intro other program calling
        obtain ⟨rfl, rfl⟩ := Prod.mk.inj (Option.some.inj calling)
        exact rest
      · intro other member
        rcases members other member with old | rfl
        · exact Or.inl old
        · exact Or.inr ⟨_, asks⟩
  | @returns address registryIndex registry done =>
      obtain ⟨other, applied, own, index⟩ := sound.calling address _ done s.database (.refl _)
      refine ⟨order, ⟨sound.registered, ?_, ?_, ?_⟩, List.prefix_rfl, unchanged⟩
      · intro last held member
        rcases List.mem_cons.mp member with same | old
        · obtain ⟨rfl, rfl⟩ := Prod.mk.inj same
          exact own.ofOrder applied sound.registered
        · exact sound.returned last held old
      · intro slot held cached
        change Function.update s.service.registry registryIndex (some registry) slot = _ at cached
        by_cases here : slot = registryIndex
        · subst here
          rw [Function.update_self] at cached
          obtain rfl := Option.some.inj cached
          exact ⟨index.symm, address, List.mem_cons_self⟩
        · rw [Function.update_of_ne here] at cached
          obtain ⟨same, holder, old⟩ := sound.cached slot held cached
          exact ⟨same, holder, List.mem_cons_of_mem _ old⟩
      · intro last program calling
        cases calling
  | fails failed =>
      refine ⟨order, { sound with calling := ?_ }, List.prefix_rfl, unchanged⟩
      intro other program calling
      cases calling
  | restart =>
      refine ⟨order, { sound with cached := ?_, calling := ?_ }, List.prefix_rfl, unchanged⟩
      · intro index registry cached
        cases cached
      · intro other program calling
        cases calling
  | others same =>
      refine ⟨order, { sound with registered := ?_, calling := ?_ }, List.prefix_rfl, unchanged⟩
      · exact sound.registered.same same
      · intro other program calling
        exact (sound.calling other program calling).drift SameRegistrations.trans same

/-- Every run keeps the numbers given so far. -/
theorem SoundAt.run (roundTrips : codec.RoundTrips) (sound : SoundAt codec order s)
    (run : Relation.ReflTransGen (InitializingStep codec addressString) s t) :
    ∃ order', SoundAt codec order' t ∧ order <+: order' := by
  induction run with
  | refl => exact ⟨order, sound, List.prefix_rfl⟩
  | tail _ last ih =>
      obtain ⟨middle, soundMiddle, earlier⟩ := ih
      obtain ⟨order', sound', later, _⟩ := soundMiddle.step roundTrips last
      exact ⟨order', sound', earlier.trans later⟩

/-- No call for another address is in progress. -/
def OnlyCalls (address : Address) (s : Initializing) : Prop :=
  ∀ other, Calls s other → other = address

/-- Calls for an address that has a number give no number. -/
theorem SoundAt.retry (roundTrips : codec.RoundTrips) (sound : SoundAt codec order s)
    (member : address ∈ order) (only : OnlyCalls address s)
    (run : Relation.ReflTransGen (fun before after =>
      InitializingStep codec addressString before after ∧ OnlyCalls address after) s t) :
    SoundAt codec order t ∧ OnlyCalls address t := by
  induction run with
  | refl => exact ⟨sound, only⟩
  | tail _ last ih =>
      obtain ⟨soundMiddle, onlyMiddle⟩ := ih
      obtain ⟨order', sound', later, members⟩ := soundMiddle.step roundTrips last.1
      refine ⟨?_, last.2⟩
      -- whatever was added is the address itself, which was there
      have same : order' = order := by
        obtain ⟨added, rfl⟩ := later
        cases added with
        | nil => exact List.append_nil order
        | cons first rest =>
            have fresh : first ∉ order := fun old =>
              (List.nodup_append.mp sound'.registered.nodup).2.2 first old first
                List.mem_cons_self rfl
            rcases members first (by simp) with old | called
            · exact absurd old fresh
            · exact absurd (onlyMiddle first called ▸ member) fresh
      exact same ▸ sound'

/-- Orders determine the numbers. -/
theorem AppliedOrder.sameIndexes {before after : Database} (first : AppliedOrder order before)
    (second : AppliedOrder order after) : SameIndexes before after where
  entries := fun address => (second.entries address).trans (first.entries address).symm
  counter := second.counter.trans first.counter.symm

theorem Registered.mem_of_found {database : Database} {index : RegistryIndex}
    (registered : Registered codec order database)
    (found : Read.evalOn database (findRegistryIndex address) = .ok index) :
    address ∈ order ∧ index = indexIn order address := by
  have member : address ∈ order := by
    by_contra fresh
    rw [evalOn_findRegistryIndex_missing (registered.notMem_iff.mp fresh)] at found
    cases found
  exact ⟨member, Except.ok.inj (found.symm.trans (registered.find_mem member))⟩

end Runs

/-- The instance of an address reads, writes and locks under the index the database has for the
address. -/
structure OneKeySpace (database : Database) (address : Address) (registry : ZKCertificateRegistry) :
    Prop where
  index : Read.evalOn database (findRegistryIndex address) = .ok registry.metadata.index
  leafView : registry.leafView.registryIndex = registry.metadata.index
  mutex : registry.mutex = registry.metadata.index
  tree : registry.sparseTree.storageLeafGetter = LeafView.getter ⟨registry.metadata.index⟩

/-- In every state reached by calls of `InitializeRegistry`, whatever fails and whenever the process
is restarted: every instance ever returned has one key space, and so has every cached one, which is
cached under that index; the addresses are numbered without gaps; an address that has an index keeps
it, whatever is initialised later; and calls for that address alone return it and change no index
and no counter. -/
theorem instances_have_one_key_space (addressString : Address → String) {codec : MetadataCodec}
    (roundTrips : codec.RoundTrips) {s : Initializing}
    (run : Relation.ReflTransGen (InitializingStep codec addressString) .start s) :
    (∀ address registry, (address, registry) ∈ s.returned →
      OneKeySpace s.database address registry) ∧
    (∀ index registry, s.service.registry index = some registry →
      registry.metadata.index = index ∧ ∃ address, OneKeySpace s.database address registry) ∧
    (∃ order, AppliedOrder order s.database) ∧
    (∀ address index, Read.evalOn s.database (findRegistryIndex address) = .ok index →
      ∀ t, Relation.ReflTransGen (InitializingStep codec addressString) s t →
        Read.evalOn t.database (findRegistryIndex address) = .ok index ∧
        ∀ registry, (address, registry) ∈ t.returned → registry.metadata.index = index) ∧
    ∀ address index, Read.evalOn s.database (findRegistryIndex address) = .ok index →
      OnlyCalls address s → ∀ t, Relation.ReflTransGen (fun before after =>
        InitializingStep codec addressString before after ∧ OnlyCalls address after) s t →
      SameIndexes s.database t.database ∧
      ∀ registry, (address, registry) ∈ t.returned → registry.metadata.index = index := by
  obtain ⟨order, sound, _⟩ := (soundAt_start codec).run roundTrips run
  have oneKeySpace : ∀ address registry, (address, registry) ∈ s.returned →
      OneKeySpace s.database address registry := by
    intro address registry member
    have own := sound.returned address registry member
    refine ⟨?_, ?_, ?_, ?_⟩
    · rw [own.metadata]
      exact sound.registered.find_mem own.member
    · rw [own.leafView, own.metadata]
    · rw [own.mutex, own.metadata]
    · rw [own.tree, own.metadata]
  refine ⟨oneKeySpace, ?_, ⟨order, sound.registered.toAppliedOrder⟩, ?_, ?_⟩
  · intro index registry cached
    obtain ⟨same, address, member⟩ := sound.cached index registry cached
    have keys := oneKeySpace address registry member
    exact ⟨keys.leafView.symm.trans same, address, keys⟩
  · intro address index found t later
    obtain ⟨member, rfl⟩ := sound.registered.mem_of_found found
    obtain ⟨order', sound', earlier⟩ := sound.run roundTrips later
    rw [← indexIn_of_prefix earlier member]
    exact ⟨sound'.registered.find_mem (earlier.subset member),
      fun registry returned => (sound'.returned address registry returned).metadata⟩
  · intro address index found only t retries
    obtain ⟨member, rfl⟩ := sound.registered.mem_of_found found
    obtain ⟨sound', _⟩ := sound.retry roundTrips member only retries
    refine ⟨sound.registered.toAppliedOrder.sameIndexes sound'.registered.toAppliedOrder, ?_⟩
    intro registry returned
    exact (sound'.returned address registry returned).metadata

/-! ### A concrete run -/

/-- Metadata without a description, in records of fixed length. -/
def fixedMetadataCodec : MetadataCodec where
  encode metadata :=
    if metadata.description = "" then
      .ok (metadata.address.bytes ++ metadata.depth :: metadata.index ::
        (U256.bytes32 metadata.emptyValue ++ bigEndian 8 metadata.initBlockHeight.toNat))
    else .error (.message "description")
  decode record :=
    match record.drop 20 with
    | depth :: index :: rest =>
        .ok {
          address := BitVec.ofNat 160 (decodeBigEndian (record.take 20))
          depth := depth
          index := index
          emptyValue := U256.setBytes (rest.take 32)
          initBlockHeight := UInt64.ofNat (decodeBigEndian (rest.drop 32))
          description := "" }
    | _ => .error (.message "EOF")

theorem fixedMetadataCodec_roundTrips : fixedMetadataCodec.RoundTrips := by
  rintro ⟨⟨depth, emptyValue, index⟩, address, initBlockHeight, description⟩ record encoded
  simp only [fixedMetadataCodec] at encoded
  by_cases plain : description = ""
  · subst plain
    rw [if_pos rfl] at encoded
    obtain rfl := Except.ok.inj encoded
    have addressLength : address.bytes.length = 20 := Address.length_bytes address
    have valueLength : (U256.bytes32 emptyValue).length = 32 := length_bigEndian 32 _
    have addressBack : BitVec.ofNat 160 (decodeBigEndian address.bytes) = address := by
      rw [Address.bytes, decodeBigEndian_bigEndian address.isLt]
      exact BitVec.ofNat_toNat _ _
    have valueBack : U256.setBytes (U256.bytes32 emptyValue) = emptyValue := by
      rw [U256.setBytes, U256.bytes32, decodeBigEndian_bigEndian (U256.toNat_lt emptyValue)]
      exact BitVec.ofNat_toNat _ _
    have blockBack : UInt64.ofNat (decodeBigEndian (bigEndian 8 initBlockHeight.toNat)) =
        initBlockHeight := by
      rw [decodeBigEndian_bigEndian initBlockHeight.toNat_lt, UInt64.ofNat_toNat]
    refine ⟨by simp, ?_⟩
    simp only [fixedMetadataCodec, List.drop_left' addressLength, List.take_left' addressLength,
      List.take_left' valueLength, List.drop_left' valueLength, addressBack, valueBack, blockBack]
  · rw [if_neg plain] at encoded
    cases encoded

/-- The choices that decide a run. -/
inductive InitializingMove where
  | call (address : Address)
  | serve (choice : (query : ServiceQuery) → ServiceChoice query)
  | returns
  | fails
  | restart

/-- The state after a move, if it can be made. -/
def Initializing.move (codec : MetadataCodec) (addressString : Address → String)
    (s : Initializing) : InitializingMove → Option Initializing
  | .call address =>
      match s.calling with
      | none =>
          some { s with calling := some (address, initializeRegistry codec addressString address) }
      | some _ => none
  | .serve choice =>
      match s.calling with
      | some (address, .ask query next) =>
          some { s with
            database := serviceEnvironment.after s.database query (choice query)
            calling := some (address,
              next (serviceEnvironment.answer s.database query (choice query))) }
      | _ => none
  | .returns =>
      match s.calling with
      | some (address, .done (registryIndex, registry)) =>
          some { s with
            service := s.service.cache registryIndex registry
            calling := none
            returned := (address, registry) :: s.returned }
      | _ => none
  | .fails =>
      match s.calling with
      | some (_, .fail _) => some { s with calling := none }
      | _ => none
  | .restart => some { s with service := ⟨fun _ => none⟩, calling := none }

theorem Initializing.move_step {codec : MetadataCodec} {addressString : Address → String}
    {before after : Initializing} {made : InitializingMove}
    (moved : before.move codec addressString made = some after) :
    InitializingStep codec addressString before after := by
  rcases before with ⟨database, service, calling, returned⟩
  cases made with
  | call address =>
      cases calling with
      | none =>
          obtain rfl := Option.some.inj moved
          exact .call address rfl
      | some running => cases moved
  | serve choice =>
      rcases calling with _ | ⟨address, program⟩
      · cases moved
      · cases program with
        | ask query next =>
            obtain rfl := Option.some.inj moved
            exact .serve (choice query) rfl
        | done value => cases moved
        | fail err => cases moved
  | returns =>
      rcases calling with _ | ⟨address, program⟩
      · cases moved
      · cases program with
        | done made =>
            obtain rfl := Option.some.inj moved
            exact .returns rfl
        | ask query next => cases moved
        | fail err => cases moved
  | fails =>
      rcases calling with _ | ⟨address, program⟩
      · cases moved
      · cases program with
        | fail err =>
            obtain rfl := Option.some.inj moved
            exact .fails rfl
        | ask query next => cases moved
        | done value => cases moved
  | restart =>
      obtain rfl := Option.some.inj moved
      exact .restart

/-- Nothing fails: the contract has a tree of depth 2 with the empty leaf 5. -/
def allSucceed : (query : ServiceQuery) → ServiceChoice query
  | .read (.get _) => (none : Option DatabaseError)
  | .read .ctxDone => (none : Option GoError)
  | .writeSync _ => (none : Option DatabaseError)
  | .contract _ .newCaller => (.ok () : Except GoError Unit)
  | .contract _ .treeDepth => (.ok 2 : Except GoError U256)
  | .contract _ .zeroValue => (.ok 5 : Except GoError U256)
  | .contract _ .initBlockHeight => (.ok 0 : Except GoError U256)
  | .contract _ .description => (.ok "" : Except GoError String)

/-- The contract cannot be reached. -/
def contractFails : (query : ServiceQuery) → ServiceChoice query
  | .read (.get _) => (none : Option DatabaseError)
  | .read .ctxDone => (none : Option GoError)
  | .writeSync _ => (none : Option DatabaseError)
  | .contract _ _ => .error (.message "no contract code at given address")

/-- Address 1 gets its index and the contract call after it fails; the process is restarted. -/
def failedMoves : List InitializingMove :=
  List.flatten [[.call 1], List.replicate 7 (.serve contractFails), [.fails, .restart]]

/-- Address 2 is initialised, and then address 1 again. -/
def retryMoves : List InitializingMove :=
  List.flatten [[.call 2], List.replicate 12 (.serve allSucceed), [.returns, .call 1],
    List.replicate 8 (.serve allSucceed), [.returns]]

/-- The state a list of moves leads to. -/
def initializedBy (moves : List InitializingMove) (s : Initializing) : Initializing :=
  played (fun _ _ => True) (Initializing.move fixedMetadataCodec fun _ => "") moves s

theorem initializedBy_run {moves : List InitializingMove} {s : Initializing}
    (made : (play (fun _ _ => True) (Initializing.move fixedMetadataCodec fun _ => "") moves
      s).isSome = true) :
    Relation.ReflTransGen (InitializingStep fixedMetadataCodec fun _ => "") s
      (initializedBy moves s) :=
  GuardedRun.steps (run_of_played made fun _ _ _ => Initializing.move_step)

/-- The retry returns the index that was given before the failure. -/
theorem instances_have_one_key_space_retried :
    ∃ s t registry,
      Relation.ReflTransGen (InitializingStep fixedMetadataCodec fun _ => "") .start s ∧
      Relation.ReflTransGen (InitializingStep fixedMetadataCodec fun _ => "") s t ∧
      Read.evalOn s.database (findRegistryIndex 1) = .ok 0 ∧
      t.returned.map Prod.fst = [1, 2] ∧ (1, registry) ∈ t.returned ∧
      OneKeySpace t.database 1 registry ∧ registry.metadata.index = 0 := by
  have failed := @initializedBy_run failedMoves .start (by decide +kernel)
  have retried := @initializedBy_run retryMoves (initializedBy failedMoves .start)
    (by decide +kernel)
  have found : Read.evalOn (initializedBy failedMoves .start).database (findRegistryIndex 1) =
      .ok 0 := by decide +kernel
  have addresses : (initializedBy retryMoves (initializedBy failedMoves .start)).returned.map
      Prod.fst = [1, 2] := by decide +kernel
  obtain ⟨⟨address, registry⟩, member, rfl⟩ := List.mem_map.mp
    (addresses.symm ▸ List.mem_cons_self : (1 : Address) ∈ _)
  obtain ⟨_, _, _, keeps, _⟩ :=
    instances_have_one_key_space (fun _ => "") fixedMetadataCodec_roundTrips failed
  obtain ⟨oneKeySpace, _⟩ := instances_have_one_key_space (fun _ => "")
    fixedMetadataCodec_roundTrips (failed.trans retried)
  exact ⟨_, _, registry, failed, retried, found, addresses, member,
    oneKeySpace _ registry member, (keeps 1 0 found _ retried).2 registry member⟩

end MerkleProofService
