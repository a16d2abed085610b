/-
Module: MerkleProofService.Proofs.KeySpace
Layer: Proofs
Purpose: The one key space all storages share.  The six key builders together are injective, so an
  entry belongs to one storage and one of its keys.  Computations are described by the keys they
  read and batches by the keys they write; what reads beside a batch is not changed by it.  A job's
  commit writes beside everything another registry reads.
Imports: ZkRegistry.MetadataStorage, Proofs.JobCommits, Proofs.IndexAssignment,
  Proofs.ReadFootprints
Trusted boundary: none
Main exports: StoreKey, StoreKey.bytes_injective, ReadsOnly, WritesOnly, ReadsOnly.unchanged,
  SameObservations, commit_leaves_others
-/
import MerkleProofService.ZkRegistry.MetadataStorage
import MerkleProofService.Proofs.JobCommits
import MerkleProofService.Proofs.IndexAssignment
import MerkleProofService.Proofs.ReadFootprints

namespace MerkleProofService

open Library

/-! ### Keys -/

/-- What an entry of the database is about. -/
inductive StoreKey where
  | job (descriptor : JobDescriptor)
  | leaf (registry : RegistryIndex) (level : TreeLevel) (index : TreeLeafIndex)
  | leafIndex (registry : RegistryIndex) (value : U256)
  | metadata (address : Address)
  | addressIndex (address : Address)
  | indexCounter
deriving DecidableEq, Repr

namespace StoreKey

def bytes : StoreKey → Bytes
  | .job descriptor => makeJobKey descriptor
  | .leaf registry level index => makeLeafKey registry level index
  | .leafIndex registry value => makeLeafIndexKey registry value
  | .metadata address => makeZKCertificateRegistryKey address
  | .addressIndex address => makeRegistryIndexKey address
  | .indexCounter => makeRegistryIndexCounterKey

/-- The storage a key belongs to, as the first byte of its bytes. -/
def firstByte : StoreKey → UInt8
  | .job _ => jobKeyPrefix
  | .leaf _ _ _ => merkleTreeLeafKeyPrefix
  | .leafIndex _ _ => merkleTreeLeafIndexPrefix
  | .metadata _ => zkCertificateRegistryKeyPrefix
  | .addressIndex _ => zkCertificateRegistryIndexPrefix
  | .indexCounter => zkCertificateRegistryCounterPrefix

theorem head?_bytes (key : StoreKey) : key.bytes.head? = some key.firstByte := by
  cases key <;> rfl

end StoreKey

theorem makeJobKey_inj {first second : JobDescriptor} :
    makeJobKey first = makeJobKey second ↔ first = second := by
  constructor
  · intro same
    rcases first with ⟨address, contract, startBlock⟩
    rcases second with ⟨otherAddress, otherContract, otherBlock⟩
    obtain ⟨addresses, rest⟩ := List.append_inj (List.cons.inj same).2 (by simp)
    obtain ⟨contracts, blocks⟩ := List.cons.inj rest
    have equal := @bigEndian_injective 8 _ _ startBlock.toNat_lt otherBlock.toNat_lt blocks
    have sameAddress : address = otherAddress := Address.bytes_inj.mp addresses
    have sameContract : contract = otherContract := contracts
    rw [sameAddress, sameContract, UInt64.toNat_inj.mp equal]
  · rintro rfl
    rfl

theorem makeZKCertificateRegistryKey_inj {first second : Address} :
    makeZKCertificateRegistryKey first = makeZKCertificateRegistryKey second ↔
      first = second := by
  rw [makeZKCertificateRegistryKey, makeZKCertificateRegistryKey, List.cons.injEq,
    Address.bytes_inj]
  exact and_iff_right rfl

/-- No two keys have the same bytes, of whatever storages they are. -/
theorem StoreKey.bytes_injective : Function.Injective StoreKey.bytes := by
  intro first second same
  have heads : first.firstByte = second.firstByte := by
    have equal := congrArg List.head? same
    rw [head?_bytes, head?_bytes] at equal
    exact Option.some.inj equal
  -- keys of different storages differ in the first byte
  cases first <;> cases second <;> first
    | exact absurd heads (by simp only [firstByte]; decide)
    | skip
  · exact congrArg _ (makeJobKey_inj.mp same)
  · obtain ⟨rfl, rfl, rfl⟩ := makeLeafKey_inj.mp same
    rfl
  · obtain ⟨rfl, rfl⟩ := makeLeafIndexKey_inj.mp same
    rfl
  · exact congrArg _ (makeZKCertificateRegistryKey_inj.mp same)
  · exact congrArg _ (makeRegistryIndexKey_inj.mp same)
  · rfl

/-! ### Footprints -/

/-- Whatever it is answered, the computation reads no entry beside `keys`. -/
def ReadsOnly {α : Type} (keys : Set StoreKey) (computation : Read α) : Prop :=
  computation.Asks (fun query => query = .ctxDone ∨ ∃ key ∈ keys, query = .get key.bytes)
    fun _ => True

/-- The batch does nothing to keys beside `keys`. -/
def WritesOnly (keys : Set StoreKey) (batch : Batch) : Prop :=
  ∀ key, key ∉ keys → lastEffect batch key.bytes = none

/-- A computation that reads beside a batch is not changed by it. -/
theorem ReadsOnly.unchanged {α : Type} {keys written : Set StoreKey} {computation : Read α}
    {batch : Batch} (reads : ReadsOnly keys computation) (writes : WritesOnly written batch)
    (apart : ∀ key ∈ keys, key ∉ written) (database : Database) :
    Read.evalOn (Store.write database batch) computation = Read.evalOn database computation := by
  refine reads.evalWith_congr ?_
  rintro query (rfl | ⟨key, member, rfl⟩)
  · rfl
  · change Except.ok _ = Except.ok _
    rw [Store.lookup_write_of_none (writes key (apart key member))]

theorem readsOnly_get {α : Type} (key : StoreKey) {rest : Bytes → Read α}
    (done : ∀ entry, ReadsOnly {key} (rest entry)) :
    ReadsOnly {key} ((Read.get key.bytes).bind rest) := by
  refine ⟨Or.inr ⟨key, rfl, rfl⟩, fun answer => ?_⟩
  cases answer with
  | ok entry => exact done entry
  | error err => exact trivial

theorem ReadsOnly.mono {α : Type} {keys wider : Set StoreKey} {computation : Read α}
    (reads : ReadsOnly keys computation) (subset : keys ⊆ wider) : ReadsOnly wider computation := by
  refine Program.Asks.mono ?_ reads
  rintro query (done | ⟨key, member, same⟩)
  · exact Or.inl done
  · exact Or.inr ⟨key, subset member, same⟩

/-! ### Footprints of the storages -/

/-- The nodes and the value-to-index entries of a registry. -/
def registryKeys (registry : RegistryIndex) : Set StoreKey :=
  {key | (∃ level index, key = .leaf registry level index) ∨
    ∃ value, key = .leafIndex registry value}

theorem readsOnly_tree {α : Type} {registry : RegistryIndex} {computation : Read α}
    (asks : computation.Asks (OnTree registry) fun _ => True) :
    ReadsOnly (registryKeys registry) computation := by
  refine Program.Asks.mono ?_ asks
  rintro query (done | ⟨level, index, rfl⟩)
  · exact Or.inl done
  · exact Or.inr ⟨.leaf registry level index, Or.inl ⟨level, index, rfl⟩, rfl⟩

theorem readsOnly_getLeafIndex (view : LeafView) (value : U256) :
    ReadsOnly (registryKeys view.registryIndex) (view.getLeafIndex value) := by
  have entry : ReadsOnly {.leafIndex view.registryIndex value} (view.getLeafIndex value) :=
    readsOnly_get (.leafIndex view.registryIndex value) fun _ =>
      Program.asks_ofExcept fun _ _ => trivial
  refine entry.mono ?_
  rintro key rfl
  exact Or.inr ⟨value, rfl⟩

theorem readsOnly_selectJob (codec : JobCodec) (descriptor : JobDescriptor) :
    ReadsOnly {.job descriptor} (selectJob codec descriptor) :=
  readsOnly_get (.job descriptor) fun _ => Program.asks_ofExcept fun _ _ => trivial

theorem readsOnly_getMetadata (codec : MetadataCodec) (address : Address) :
    ReadsOnly {.metadata address} (getMetadata codec address) := by
  refine readsOnly_get (.metadata address) fun entry => ?_
  split
  · exact trivial
  · exact Program.asks_ofExcept fun _ _ => trivial

theorem readsOnly_findRegistryIndex (address : Address) :
    ReadsOnly {.addressIndex address} (findRegistryIndex address) := by
  refine readsOnly_get (.addressIndex address) fun entry => ?_
  cases entry with
  | nil => exact trivial
  | cons index rest => exact trivial

theorem readsOnly_getNextRegistryIndex :
    ReadsOnly {.indexCounter} getNextRegistryIndex := by
  refine readsOnly_get .indexCounter fun entry => ?_
  cases entry with
  | nil => exact trivial
  | cons counter rest => exact trivial

/-- A commit writes keys of its registry and its own record. -/
theorem writesOnly_commitBatch {poseidon : PoseidonHash} {job : ZkCertificateRegistryJob}
    (built : InitializedRegistry poseidon job.registry) {database : Database}
    {operations : List LeafOperation} {block : UInt64} {batch : Batch}
    (run : Read.evalOn database (job.commitBatch poseidon operations block) = .ok batch) :
    WritesOnly (registryKeys job.registry.leafView.registryIndex ∪ {.job job.jobDescriptor})
      batch := by
  intro key outside
  refine commitBatch_frame built run ⟨fun level index same => ?_, fun value same => ?_⟩
    fun same => ?_
  · have named : key = .leaf job.registry.leafView.registryIndex level index :=
      StoreKey.bytes_injective same
    exact outside (Or.inl (Or.inl ⟨level, index, named⟩))
  · have named : key = .leafIndex job.registry.leafView.registryIndex value :=
      StoreKey.bytes_injective same
    exact outside (Or.inl (Or.inr ⟨value, named⟩))
  · have named : StoreKey.job job.jobDescriptor = key := StoreKey.bytes_injective same
    exact outside (Or.inr named.symm)

/-! ### Registries do not interfere -/

/-- The database a `Commit` leaves: it fails before the write, or its whole batch is written. -/
def ZkCertificateRegistryJob.afterCommit (poseidon : PoseidonHash)
    (job : ZkCertificateRegistryJob) (operations : List LeafOperation) (block : UInt64)
    (database : Database) : Database :=
  match Read.evalOn database (job.commitBatch poseidon operations block) with
  | .ok batch => Store.write database batch
  | .error _ => database

/-- Everything that can be observed of a job and its registry, of the metadata and the index of
any address, and of the index counter is the same in both databases. -/
structure SameObservations (poseidon : PoseidonHash) (job : ZkCertificateRegistryJob)
    (database database' : Database) : Prop where
  leaf : ∀ level index,
    Read.evalOn database' (job.registry.leafView.getLeaf level index) =
      Read.evalOn database (job.registry.leafView.getLeaf level index)
  leafIndex : ∀ value,
    Read.evalOn database' (job.registry.leafView.getLeafIndex value) =
      Read.evalOn database (job.registry.leafView.getLeafIndex value)
  root : Read.evalOn database' (job.registry.sparseTree.getRoot poseidon) =
    Read.evalOn database (job.registry.sparseTree.getRoot poseidon)
  proofAtIndex : ∀ index,
    Read.evalOn database' (job.registry.sparseTree.createProof poseidon index) =
      Read.evalOn database (job.registry.sparseTree.createProof poseidon index)
  proofOfValue : ∀ onHead value,
    Request.evalOn database' onHead (job.registry.createProof poseidon value) =
      Request.evalOn database onHead (job.registry.createProof poseidon value)
  record : Read.evalOn database' (selectJob job.jobCodec job.jobDescriptor) =
    Read.evalOn database (selectJob job.jobCodec job.jobDescriptor)
  metadata : ∀ codec address,
    Read.evalOn database' (getMetadata codec address) =
      Read.evalOn database (getMetadata codec address)
  addressIndex : ∀ address,
    Read.evalOn database' (findRegistryIndex address) =
      Read.evalOn database (findRegistryIndex address)
  nextIndex : Read.evalOn database' getNextRegistryIndex = Read.evalOn database getNextRegistryIndex

section Frames

variable {poseidon : PoseidonHash} {job other : ZkCertificateRegistryJob}

/-- A value is proved where the index says it is. -/
theorem evalOn_registry_createProof (reg : ZKCertificateRegistry) (database : Database)
    (onHead : Bool) (value : U256) :
    Request.evalOn database onHead (reg.createProof poseidon value) =
      (Read.evalOn database
        (Read.wrapf "failed to get leaf index" (reg.leafView.getLeafIndex value))).bind
        fun leafIndex => Read.evalOn database (Read.wrapf "failed to create proof"
          (reg.sparseTree.createProof poseidon leafIndex)) := by
  simp only [ZKCertificateRegistry.createProof, Program.bind_eq, Request.evalOn_bind,
    Request.evalOn_ofRead, Request.evalOn_withRLock]

/-- The keys of different registries are different. -/
theorem registryKeys_apart {first second : RegistryIndex} (different : first ≠ second) :
    ∀ key ∈ registryKeys second, key ∉ registryKeys first := by
  rintro key (⟨level, index, rfl⟩ | ⟨value, rfl⟩) inside
  · rcases inside with ⟨_, _, same⟩ | ⟨_, same⟩
    · exact different (StoreKey.leaf.inj same).1.symm
    · cases same
  · rcases inside with ⟨_, _, same⟩ | ⟨_, same⟩
    · cases same
    · exact different (StoreKey.leafIndex.inj same).1.symm

/-- What is read of another registry is beside the nodes, the entries and the record. -/
theorem ReadsOnly.registry_unchanged {α : Type} {computation : Read α}
    {first second : RegistryIndex} {descriptor : JobDescriptor} {batch : Batch}
    (reads : ReadsOnly (registryKeys second) computation) (different : first ≠ second)
    (writes : WritesOnly (registryKeys first ∪ {.job descriptor}) batch) (database : Database) :
    Read.evalOn (Store.write database batch) computation = Read.evalOn database computation := by
  refine reads.unchanged writes ?_ database
  rintro key member (inside | rfl)
  · exact registryKeys_apart different key member inside
  · rcases member with ⟨_, _, same⟩ | ⟨_, same⟩ <;> cases same

/-- What is read at one key is unchanged by a batch that does not write it. -/
theorem ReadsOnly.key_unchanged {α : Type} {computation : Read α} {key : StoreKey}
    {keys : Set StoreKey} {batch : Batch} (reads : ReadsOnly {key} computation)
    (writes : WritesOnly keys batch) (outside : key ∉ keys) (database : Database) :
    Read.evalOn (Store.write database batch) computation = Read.evalOn database computation := by
  refine reads.unchanged writes ?_ database
  rintro other rfl
  exact outside

/-- A commit of any operations leaves all that can be observed of another registry, of its job and
of the registrations. -/
theorem commit_leaves_others (built : InitializedRegistry poseidon job.registry)
    (otherBuilt : InitializedRegistry poseidon other.registry)
    (indexes : job.registry.leafView.registryIndex ≠ other.registry.leafView.registryIndex)
    (addresses : job.jobDescriptor.address ≠ other.jobDescriptor.address)
    (operations : List LeafOperation) (block : UInt64) (database : Database) :
    SameObservations poseidon other database
      (job.afterCommit poseidon operations block database) := by
  unfold ZkCertificateRegistryJob.afterCommit
  cases run : Read.evalOn database (job.commitBatch poseidon operations block) with
  | error err => exact ⟨fun _ _ => rfl, fun _ => rfl, rfl, fun _ => rfl, fun _ _ => rfl, rfl,
      fun _ _ => rfl, fun _ => rfl, rfl⟩
  | ok batch =>
      have writes := writesOnly_commitBatch built run
      have leafIndex := fun value =>
        (readsOnly_getLeafIndex other.registry.leafView value).registry_unchanged indexes writes
          database
      have proof := fun index => (readsOnly_tree
        (@createProof_asks poseidon _ _ otherBuilt.tree.getter index)).registry_unchanged indexes
          writes database
      exact
        { leaf := fun level index =>
            (readsOnly_tree (getLeaf_asks level index)).registry_unchanged indexes writes database
          leafIndex := leafIndex
          root := (readsOnly_tree (getLeafFromStorage_asks otherBuilt.tree.getter
            other.registry.sparseTree.depth 0)).registry_unchanged indexes writes database
          proofAtIndex := proof
          proofOfValue := fun onHead value => by
            simp only [evalOn_registry_createProof, Read.evalOn_wrapf, leafIndex, proof]
          record := (readsOnly_selectJob _ _).key_unchanged writes
            (by simpa [registryKeys] using fun same =>
              addresses (congrArg JobDescriptor.address same).symm) database
          metadata := fun codec address => (readsOnly_getMetadata codec address).key_unchanged
            writes (by simp [registryKeys]) database
          addressIndex := fun address => (readsOnly_findRegistryIndex address).key_unchanged
            writes (by simp [registryKeys]) database
          nextIndex := readsOnly_getNextRegistryIndex.key_unchanged writes
            (by simp [registryKeys]) database }

end Frames

/-- A job for another registry of another address. -/
def secondJob : ZkCertificateRegistryJob :=
  { smallJob with
    jobDescriptor := ⟨1, contractZkCertificateRegistry, 0⟩
    registry := newZKCertificateRegistry 1 ⟨2, 5, 1⟩ }

theorem commit_leaves_others_second :
    SameObservations fieldHash secondJob ∅
      (smallJob.afterCommit fieldHash [⟨⟨1, 7⟩, .addition⟩, ⟨⟨3, 9⟩, .revocation⟩] 4 ∅) :=
  commit_leaves_others smallRegistry_built (newZKCertificateRegistry_initialized fieldHash rfl)
    (by decide) (by decide) _ 4 ∅

end MerkleProofService
