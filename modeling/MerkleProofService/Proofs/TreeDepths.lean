/-
Module: MerkleProofService.Proofs.TreeDepths
Layer: Proofs
Purpose: Which tree depths of a contract give a usable registry.  The depth is cut to 8 bits when
  the metadata is fetched and is not checked afterwards; the number of leaves is a power of two in
  64 bits, a leaf index has 32 and the table of empty branches has `depth + 1` entries in 8 bits.
  A registry whose initialisation succeeds is usable exactly if the contract's depth is at most 32.
Imports: Proofs.InitializationRuns, Proofs.SlotSearch
Trusted boundary: none
Main exports: Usable, usable_iff, served_initializeRegistry_depth, initialized_usable_iff
-/
import MerkleProofService.Proofs.InitializationRuns
import MerkleProofService.Proofs.SlotSearch

namespace MerkleProofService

open Library
open ServiceProgram

/-! ### Usable trees -/

/-- The tree has the depth of the contract and as many leaves, each with an index of its own, and
nothing that looks for a leaf or a root divides by zero or leaves an array. -/
structure Usable (poseidon : PoseidonHash) (tree : SparseMerkleTree) (treeDepth : U256) :
    Prop where
  depth : tree.depth.toNat = treeDepth.toNat
  maxLeaves : tree.maxLeaves.toNat = 2 ^ treeDepth.toNat
  nonzero : tree.maxLeaves ≠ 0
  leafNumbers : ∀ number : UInt64, number < tree.maxLeaves →
    number.toUInt32.toNat = number.toNat
  getRoot : ∀ database, NoPanic (Read.evalOn database (tree.getRoot poseidon))
  getRandomEmptyLeafIndex : ∀ database draws,
    NoPanic (Read.evalOn database (tree.getRandomEmptyLeafIndex draws))
  findEmptyLeafIndex : ∀ database buffer draws,
    NoPanic (Read.evalOn database (tree.findEmptyLeafIndexInSimulation poseidon
      (SimulationBatch.mk tree.storageLeafGetter buffer) draws))
  emptyBranches : NoPanic (tree.calculateEmptyBranchHashes poseidon)

section Trees

variable {poseidon : PoseidonHash} {tree : SparseMerkleTree} {database : Database}
variable {registryIndex : RegistryIndex}

theorem leafIndexOfDraw_noPanic (nonzero : tree.maxLeaves ≠ 0) (draw : UInt64) :
    NoPanic (tree.leafIndexOfDraw draw) := by
  rw [SparseMerkleTree.leafIndexOfDraw, if_neg nonzero]
  exact NoPanic.ok _

theorem getRandomEmptyLeafIndexLoop_noPanic
    (getter : tree.storageLeafGetter = LeafView.getter ⟨registryIndex⟩)
    (nonzero : tree.maxLeaves ≠ 0) (maxIterations : Nat) (draws : Stream' UInt64) :
    NoPanic (Read.evalOn database (tree.getRandomEmptyLeafIndexLoop maxIterations draws)) := by
  induction maxIterations generalizing draws with
  | zero =>
      intro reason same
      cases same
  | succ maxIterations ih =>
      rw [SparseMerkleTree.getRandomEmptyLeafIndexLoop_succ]
      simp only [Program.bind_eq, Read.evalOn_bind, Read.evalOn_ctxDone, except_bind_ok,
        Read.evalOn_ofExcept]
      refine NoPanic.bind (leafIndexOfDraw_noPanic nonzero _) fun index _ => ?_
      rw [evalOn_emptyInStorage getter, except_bind_ok]
      cases (storedLeaf database registryIndex 0 index).isNone with
      | true => exact NoPanic.ok _
      | false => exact ih _

theorem findEmptyLeafIndexLoop_noPanic (calm : NeverPanics poseidon)
    (getter : tree.storageLeafGetter = LeafView.getter ⟨registryIndex⟩)
    (cache : CacheSound poseidon tree) (shallow : tree.depth.toNat < 255)
    (nonzero : tree.maxLeaves ≠ 0) {batch : SimulationBatch}
    (backed : batch.storage = tree.storageLeafGetter) (maxIterations : Nat)
    (draws : Stream' UInt64) :
    NoPanic (Read.evalOn database
      (tree.findEmptyLeafIndexLoop poseidon batch maxIterations draws)) := by
  induction maxIterations generalizing draws with
  | zero =>
      intro reason same
      cases same
  | succ maxIterations ih =>
      rw [SparseMerkleTree.findEmptyLeafIndexLoop_succ]
      simp only [Program.bind_eq, Read.evalOn_bind, Read.evalOn_ctxDone, except_bind_ok,
        Read.evalOn_ofExcept, SparseMerkleTree.emptyInSimulation, Read.evalOn_wrapf]
      refine NoPanic.bind (leafIndexOfDraw_noPanic nonzero _) fun index _ => ?_
      have calmRead : NoPanic (Read.evalOn database
          (tree.getLeafFromBatchOrStorage poseidon batch 0 index)) :=
        simulation_noPanic calm getter cache shallow backed 0 index
      refine NoPanic.bind (NoPanic.bind (calmRead.mapError_wrapf _) fun leaf _ => NoPanic.ok _)
        fun accepted _ => ?_
      cases accepted with
      | true => exact NoPanic.ok _
      | false => exact ih _

/-- A tree of at most 32 levels is usable. -/
theorem usable_of_shallow (calm : NeverPanics poseidon)
    (getter : tree.storageLeafGetter = LeafView.getter ⟨registryIndex⟩)
    (cache : CacheSound poseidon tree) {treeDepth : U256}
    (depth : tree.depth.toNat = treeDepth.toNat) (shallow : treeDepth.toNat ≤ 32) :
    Usable poseidon tree treeDepth := by
  rw [← depth] at shallow
  have leaves := toNat_maxLeaves shallow
  have fits : 2 ^ tree.depth.toNat ≤ 2 ^ 32 := Nat.pow_le_pow_right (by decide) shallow
  have nonzero : tree.maxLeaves ≠ 0 := by
    intro zero
    rw [zero] at leaves
    exact absurd leaves.symm (Nat.two_pow_pos _).ne'
  refine
    { depth := depth
      maxLeaves := by rw [leaves, depth]
      nonzero := nonzero
      leafNumbers := fun number below => ?_
      getRoot := fun database =>
        evalOn_getLeafFromStorage_noPanic calm getter cache (by omega) _ _
      getRandomEmptyLeafIndex := fun database draws =>
        getRandomEmptyLeafIndexLoop_noPanic getter nonzero _ draws
      findEmptyLeafIndex := fun database buffer draws =>
        findEmptyLeafIndexLoop_noPanic calm getter cache (by omega) nonzero rfl _ draws
      emptyBranches := calculateEmptyBranchHashes_noPanic calm (by omega) }
  rw [UInt64.lt_iff_toNat_lt, leaves] at below
  rw [UInt64.toNat_toUInt32]
  exact Nat.mod_eq_of_lt (by omega)

/-- A usable tree has at most 32 levels: with more, some leaf has no index of its own. -/
theorem Usable.shallow {treeDepth : U256} (usable : Usable poseidon tree treeDepth) :
    treeDepth.toNat ≤ 32 := by
  by_contra deep
  have fits : 2 ^ 33 ≤ 2 ^ treeDepth.toNat := Nat.pow_le_pow_right (by decide) (by omega)
  have below : UInt64.ofNat (2 ^ 32) < tree.maxLeaves := by
    rw [UInt64.lt_iff_toNat_lt, usable.maxLeaves]
    exact Nat.lt_of_lt_of_le (by decide) fits
  exact absurd (usable.leafNumbers _ below) (by decide)

theorem usable_iff (calm : NeverPanics poseidon)
    (getter : tree.storageLeafGetter = LeafView.getter ⟨registryIndex⟩)
    (cache : CacheSound poseidon tree) {treeDepth : U256}
    (cut : tree.depth = (UInt64.ofNat treeDepth.toNat).toUInt8) :
    Usable poseidon tree treeDepth ↔ treeDepth.toNat ≤ 32 := by
  constructor
  · exact Usable.shallow
  · intro shallow
    refine usable_of_shallow calm getter cache ?_ shallow
    rw [cut, UInt64.toNat_toUInt8, UInt64.toNat_ofNat']
    omega

end Trees

/-! ### The depth an initialisation gives -/

section Served

variable {α : Type} {codec : MetadataCodec} {addressString : Address → String}
variable {address : Address} {database after : Database}
variable {choices : Nat → (query : ServiceQuery) → ServiceChoice query}

/-- A reader leaves the database as it is. -/
theorem serve_ofRead_ok {read : Read α} {value : α}
    (served : Program.serve serviceEnvironment choices database (ofRead read) =
      (.ok value, after)) : after = database := by
  induction read generalizing choices with
  | done value => exact (Prod.mk.inj served).2.symm
  | fail err => cases served
  | ask query next ih =>
      cases query with
      | get key => exact ih _ served
      | ctxDone => exact ih _ served

theorem serve_ofExcept_ok {outcome : Except GoError α} {value : α}
    (served : Program.serve serviceEnvironment choices database (.ofExcept outcome) =
      (.ok value, after)) : outcome = .ok value ∧ after = database := by
  cases outcome with
  | error err => cases served
  | ok other =>
      obtain ⟨same, rfl⟩ := Prod.mk.inj served
      exact ⟨same, rfl⟩

theorem serve_writeSync_ok {batch : Batch} {value : Unit}
    (served : Program.serve serviceEnvironment choices database (writeSync batch) =
      (.ok value, after)) : after = Store.write database batch := by
  change Program.serve serviceEnvironment _ (writtenUnless database batch
    (choices 0 (.writeSync batch))) (.ofExcept (writeAnswer (choices 0 (.writeSync batch)))) = _
    at served
  cases chosen : (choices 0 (.writeSync batch) : Option DatabaseError) with
  | none =>
      rw [chosen] at served
      exact (Prod.mk.inj served).2.symm
  | some failed =>
      rw [chosen] at served
      cases served

/-- A contract call returns what the contract answers. -/
theorem serve_contract_ok {call : ContractCall} {value : ContractValue call}
    (served : Program.serve serviceEnvironment choices database (contract address call) =
      (.ok value, after)) : choices 0 (.contract address call) = .ok value ∧ after = database :=
  serve_ofExcept_ok served

theorem serve_setIndex_ok {index : RegistryIndex} {batch : Batch}
    (served : Program.serve serviceEnvironment choices database
      (ofRead (setIndex addressString [] address index)) = (.ok batch, after)) :
    batch = [.set (makeRegistryIndexKey address) [index]] := by
  rw [ofRead_setIndex, Program.serve] at served
  have outcome := (serve_ofExcept_ok served).1
  unfold setIndexAfter at outcome
  split at outcome
  · cases outcome
  · cases outcome
  · exact (Except.ok.inj outcome).symm

/-- Giving an index changes no metadata. -/
theorem serve_applyAddressToIndex_metadata {index : RegistryIndex}
    (served : Program.serve serviceEnvironment choices database
      (applyAddressToIndexSync addressString address) = (.ok index, after)) (other : Address) :
    after.lookup (makeZKCertificateRegistryKey other) =
      database.lookup (makeZKCertificateRegistryKey other) := by
  obtain ⟨_, outcome, _, found, decided⟩ := Program.serve_bind_ok served
  obtain rfl := serve_ofRead_ok found
  cases outcome with
  | ok index =>
      obtain ⟨_, rfl⟩ := Prod.mk.inj decided
      rfl
  | error err =>
      obtain ⟨_, next, _, counted, afterCount⟩ := Program.serve_bind_ok decided
      obtain ⟨_, indexed, _, set, afterSet⟩ := Program.serve_bind_ok afterCount
      obtain ⟨_, batch, _, queued, afterQueue⟩ := Program.serve_bind_ok afterSet
      obtain ⟨_, _, _, written, ended⟩ := Program.serve_bind_ok afterQueue
      obtain rfl := serve_ofRead_ok counted
      obtain rfl := serve_ofRead_ok set
      rw [ofRead_wrapf] at set
      obtain rfl := serve_setIndex_ok (Program.serve_mapFail_ok set)
      obtain ⟨same, rfl⟩ := serve_ofExcept_ok (Program.serve_mapFail_ok queued)
      obtain rfl := Except.ok.inj same
      obtain rfl := serve_writeSync_ok (Program.serve_mapFail_ok written)
      obtain ⟨_, rfl⟩ := Prod.mk.inj ended
      refine Store.lookup_write_of_none ?_
      simp [lastEffect, WriteOp.key,
        Ne.symm (makeZKCertificateRegistryKey_ne_indexKey other address),
        Ne.symm (makeZKCertificateRegistryKey_ne_counterKey other)]

theorem serve_findOrApplyIndex_metadata {index : RegistryIndex}
    (served : Program.serve serviceEnvironment choices database
      (findOrApplyIndex addressString address) = (.ok index, after)) (other : Address) :
    after.lookup (makeZKCertificateRegistryKey other) =
      database.lookup (makeZKCertificateRegistryKey other) := by
  obtain ⟨_, outcome, _, found, served⟩ := Program.serve_bind_ok served
  obtain rfl := serve_ofRead_ok found
  cases outcome with
  | ok index =>
      obtain ⟨_, rfl⟩ := Prod.mk.inj served
      rfl
  | error err =>
      cases missing : err.isNotFound with
      | true =>
          simp only [missing, if_true] at served
          exact serve_applyAddressToIndex_metadata (Program.serve_mapFail_ok served) other
      | false =>
          simp only [missing] at served
          cases served

/-- The depth that is fetched is the contract's, cut to 8 bits. -/
theorem serve_fetchMetadata_depth {treeDepth : U256} {metadata : StoredMetadata}
    (answers : ∀ number value, choices number (.contract address .treeDepth) = .ok value →
      value = treeDepth)
    (served : Program.serve serviceEnvironment choices database
      (fetchMetadataFromContract address) = (.ok metadata, after)) :
    metadata.depth = (UInt64.ofNat treeDepth.toNat).toUInt8 := by
  obtain ⟨_, _, _, _, afterCaller⟩ := Program.serve_bind_ok served
  obtain ⟨_, depth, _, asked, afterDepth⟩ := Program.serve_bind_ok afterCaller
  obtain ⟨_, emptyValue, _, _, afterEmptyValue⟩ := Program.serve_bind_ok afterDepth
  obtain ⟨_, initBlockHeight, _, _, afterHeight⟩ := Program.serve_bind_ok afterEmptyValue
  obtain ⟨_, description, _, _, ended⟩ := Program.serve_bind_ok afterHeight
  have answer := (serve_contract_ok (Program.serve_mapFail_ok asked)).1
  obtain ⟨same, _⟩ := Prod.mk.inj ended
  rw [← Except.ok.inj same, answers _ _ answer]

/-- The outcome of reading one entry: what the entry holds, or the database's error. -/
theorem serve_tryRun_ok {key : Bytes} {decode : Bytes → Except GoError α} {read : Read α}
    (reads : ReadsEntry key decode read) {outcome : Except GoError α}
    (served : Program.serve serviceEnvironment choices database (ofRead read.tryRun) =
      (.ok outcome, after)) :
    outcome = decode ((database.lookup key).getD []) ∨
      ∃ failed : DatabaseError, outcome = .error failed.err := by
  rw [reads.tryRun_eq] at served
  change Program.serve serviceEnvironment _ database (resume .done (decodeAnswer decode
    (getAnswer database key (choices 0 (.read (.get key)))))) = _ at served
  cases chosen : (choices 0 (.read (.get key)) : Option DatabaseError) with
  | none =>
      rw [chosen] at served
      change Program.serve serviceEnvironment _ database
        (resume .done (decode ((database.lookup key).getD []))) = _ at served
      by_cases calm : NoPanic (decode ((database.lookup key).getD []))
      · rw [resume_of_noPanic calm] at served
        exact Or.inl (Except.ok.inj (Prod.mk.inj served).1).symm
      · simp only [NoPanic, ne_eq, not_forall, not_not] at calm
        obtain ⟨reason, panics⟩ := calm
        rw [panics] at served
        cases served
  | some failed =>
      rw [chosen] at served
      change Program.serve serviceEnvironment _ database
        (resume .done (.error failed.err)) = _ at served
      rw [resume_of_noPanic failed.noPanicOutcome] at served
      exact Or.inr ⟨failed, (Except.ok.inj (Prod.mk.inj served).1).symm⟩

/-- So is the depth that is stored, if it was the one that was fetched at an earlier start. -/
theorem serve_findOrFetchMetadata_depth {treeDepth : U256} {registryIndex : RegistryIndex}
    {metadata : StoredMetadata}
    (answers : ∀ number value, choices number (.contract address .treeDepth) = .ok value →
      value = treeDepth)
    (stored : ∀ metadata, Read.evalOn database (getMetadata codec address) = .ok metadata →
      metadata.depth = (UInt64.ofNat treeDepth.toNat).toUInt8)
    (served : Program.serve serviceEnvironment choices database
      (findOrFetchMetadata codec address registryIndex) = (.ok metadata, after)) :
    metadata.depth = (UInt64.ofNat treeDepth.toNat).toUInt8 := by
  have reads := readsEntry_getMetadata codec address
  obtain ⟨_, outcome, _, found, decided⟩ := Program.serve_bind_ok served
  cases outcome with
  | ok known =>
      obtain ⟨same, _⟩ := Prod.mk.inj decided
      obtain rfl : known = metadata := Except.ok.inj same
      rcases serve_tryRun_ok reads found with entry | ⟨failed, mismatch⟩
      · refine stored known ?_
        rw [reads.evalOn_eq, entry]
      · cases mismatch
  | error err =>
      cases missing : err.isNotFound with
      | false =>
          simp only [missing] at decided
          cases decided
      | true =>
          simp only [missing, if_true] at decided
          obtain ⟨_, fetched, _, fetching, afterFetch⟩ := Program.serve_bind_ok decided
          obtain ⟨_, batch, _, _, afterSet⟩ := Program.serve_bind_ok afterFetch
          obtain ⟨_, _, _, _, ended⟩ := Program.serve_bind_ok afterSet
          obtain ⟨same, _⟩ := Prod.mk.inj ended
          rw [← Except.ok.inj same]
          change fetched.depth = _
          exact serve_fetchMetadata_depth (fun number => answers _)
            (Program.serve_mapFail_ok fetching)

/-- The tree of an initialised registry has the depth of the contract, cut to 8 bits. -/
theorem served_initializeRegistry_depth {treeDepth : U256}
    {made : RegistryIndex × ZKCertificateRegistry}
    (answers : ∀ number value, choices number (.contract address .treeDepth) = .ok value →
      value = treeDepth)
    (stored : ∀ metadata, Read.evalOn database (getMetadata codec address) = .ok metadata →
      metadata.depth = (UInt64.ofNat treeDepth.toNat).toUInt8)
    (served : Program.serve serviceEnvironment choices database
      (initializeRegistry codec addressString address) = (.ok made, after)) :
    ∃ registryIndex metadata, made.2 = newZKCertificateRegistry registryIndex metadata ∧
      metadata.depth = (UInt64.ofNat treeDepth.toNat).toUInt8 := by
  obtain ⟨_, registryIndex, middle, applied, afterIndex⟩ := Program.serve_bind_ok served
  obtain ⟨_, metadata, _, found, ended⟩ := Program.serve_bind_ok afterIndex
  obtain ⟨same, _⟩ := Prod.mk.inj ended
  obtain rfl := Except.ok.inj same
  refine ⟨registryIndex, metadata.toMetadata, rfl, ?_⟩
  refine serve_findOrFetchMetadata_depth (fun number => answers _) (fun known => ?_) found
  have frame := serve_findOrApplyIndex_metadata applied address
  have reads := readsEntry_getMetadata codec address
  rw [reads.evalOn_eq, frame, ← reads.evalOn_eq]
  exact stored known

end Served

/-! ### Usable registries -/

section Initialized

variable {poseidon : PoseidonHash} {codec : MetadataCodec} {addressString : Address → String}
variable {address : Address} {database after : Database} {treeDepth : U256}
variable {choices : Nat → (query : ServiceQuery) → ServiceChoice query}

/-- A registry that is initialised is usable exactly if the contract's tree has at most 32
levels. -/
theorem initialized_usable_iff (calm : NeverPanics poseidon)
    (answers : ∀ number value, choices number (.contract address .treeDepth) = .ok value →
      value = treeDepth)
    (stored : ∀ metadata, Read.evalOn database (getMetadata codec address) = .ok metadata →
      metadata.depth = (UInt64.ofNat treeDepth.toNat).toUInt8)
    {made : RegistryIndex × ZKCertificateRegistry}
    (served : Program.serve serviceEnvironment choices database
      (initializeRegistry codec addressString address) = (.ok made, after)) :
    Usable poseidon made.2.sparseTree treeDepth ↔ treeDepth.toNat ≤ 32 := by
  obtain ⟨registryIndex, metadata, instanceOf, depth⟩ :=
    served_initializeRegistry_depth answers stored served
  have tree : TreeOf poseidon metadata.depth metadata.emptyValue registryIndex
      made.2.sparseTree := by
    rw [instanceOf]
    exact .created
  exact usable_iff calm tree.getter tree.cacheSound (tree.shape.1.trans depth)

end Initialized

/-- A contract with the given tree depth. -/
def contractOfDepth (treeDepth : U256) :
    Address → (call : ContractCall) → Except GoError (ContractValue call)
  | _, .newCaller => (.ok () : Except GoError Unit)
  | _, .treeDepth => (.ok treeDepth : Except GoError U256)
  | _, .zeroValue => (.ok 5 : Except GoError U256)
  | _, .initBlockHeight => (.ok 0 : Except GoError U256)
  | _, .description => (.ok "" : Except GoError String)

/-- Nothing fails at the first start of the registry at address 1. -/
def firstStart (treeDepth : U256) :
    Except GoError (RegistryIndex × ZKCertificateRegistry) × Database :=
  Program.serve serviceEnvironment (faultChoices (fun _ => none) (contractOfDepth treeDepth)) ∅
    (initializeRegistry fixedMetadataCodec (fun _ => "") 1)

theorem initialized_usable_iff_full :
    ∃ made after, firstStart 32 = (.ok made, after) ∧ Usable fieldHash made.2.sparseTree 32 := by
  have succeeds : ∃ made after, firstStart 32 = (.ok made, after) := ⟨_, _, rfl⟩
  obtain ⟨made, after, served⟩ := succeeds
  refine ⟨made, after, served, (initialized_usable_iff fieldHash_calm (fun _ _ answer => ?_)
    (fun _ missing => ?_) served).mpr (by decide)⟩
  · exact (Except.ok.inj answer).symm
  · cases missing

/-- With 64 levels the registry is initialised, its tree has no leaves in 64 bits, and the first
certificate that asks for an empty leaf divides by zero. -/
theorem deep_tree_divides_by_zero :
    ∃ made after, firstStart 64 = (.ok made, after) ∧ made.2.sparseTree.maxLeaves = 0 ∧
      Read.evalOn after (made.2.sparseTree.getRandomEmptyLeafIndex (Stream'.const 0)) =
        .error (.panic "integer divide by zero") := by
  refine ⟨_, _, rfl, ?_, ?_⟩
  · rfl
  · rfl

end MerkleProofService
