/-
Module: MerkleProofService.Proofs.JobFootprints
Layer: Proofs
Purpose: What a job reads and writes, whatever it is answered.  Filling a batch asks for node entries
  of the job's registry only, and the batch is about nodes and value-to-index entries of that
  registry and about the job's own record.
Imports: Proofs.KeySpace
Trusted boundary: none
Main exports: OnKeys, jobKeys, handleLogs_asks, JobsApart, JobsApart.keys
-/
import MerkleProofService.Proofs.KeySpace

namespace MerkleProofService

open Library
open TreeLeafGetterSetter (getLeaf setLeaf)

/-- A query for one of the keys, or for the state of the context. -/
def OnKeys (keys : Set StoreKey) (query : ReadQuery) : Prop :=
  query = .ctxDone ∨ ∃ key ∈ keys, query = .get key.bytes

/-- The entries a job reads and writes: those of its registry, and its record. -/
def jobKeys (job : ZkCertificateRegistryJob) : Set StoreKey :=
  registryKeys job.registry.leafView.registryIndex ∪ {.job job.jobDescriptor}

/-! ### Batches -/

section Batches

variable {keys : Set StoreKey} {batch batch' : Batch} {key : StoreKey} {value : Bytes}

theorem writesOnly_nil (keys : Set StoreKey) : WritesOnly keys [] :=
  fun _ _ => rfl

theorem WritesOnly.mono {wider : Set StoreKey} (writes : WritesOnly keys batch)
    (subset : keys ⊆ wider) : WritesOnly wider batch :=
  fun key outside => writes key fun inside => outside (subset inside)

/-- One more operation on one of the keys. -/
theorem WritesOnly.snoc (writes : WritesOnly keys batch) (member : key ∈ keys)
    {op : WriteOp Bytes Bytes} (own : op.key = key.bytes) : WritesOnly keys (batch ++ [op]) := by
  intro other outside
  have different : op.key ≠ other.bytes := by
    intro same
    exact outside (StoreKey.bytes_injective (own.symm.trans same) ▸ member)
  rw [lastEffect_append, lastEffect_singleton, if_neg different, Option.none_or]
  exact writes other outside

theorem WritesOnly.set (writes : WritesOnly keys batch) (member : key ∈ keys)
    (queued : batch.set key.bytes value = .ok batch') : WritesOnly keys batch' := by
  unfold Batch.set at queued
  split at queued
  · cases queued
  · obtain rfl := Except.ok.inj queued
    exact writes.snoc member rfl

theorem WritesOnly.delete (writes : WritesOnly keys batch) (member : key ∈ keys)
    (queued : batch.delete key.bytes = .ok batch') : WritesOnly keys batch' := by
  unfold Batch.delete at queued
  split at queued
  · cases queued
  · obtain rfl := Except.ok.inj queued
    exact writes.snoc member rfl

end Batches

/-! ### Insertion into a batch -/

/-- The buffer belongs to the registry, and its batch is about entries of it. -/
structure OwnBuffer (registryIndex : RegistryIndex) (buffer : BatchWithLeavesBuffer) : Prop where
  index : buffer.index = registryIndex
  writes : WritesOnly (registryKeys registryIndex) buffer.batch

section Insertion

variable {poseidon : PoseidonHash} {tree : SparseMerkleTree} {registryIndex : RegistryIndex}
variable {buffer : BatchWithLeavesBuffer}

/-- The buffer itself is not in the database. -/
theorem bufferGetLeaf_asks (buffer : BatchWithLeavesBuffer) (level : TreeLevel)
    (index : TreeLeafIndex) :
    (getLeaf buffer level index).Asks (OnTree registryIndex) fun _ => True := by
  change (BatchWithLeavesBuffer.getLeaf buffer level index).Asks _ _
  unfold BatchWithLeavesBuffer.getLeaf
  split <;> exact trivial

theorem bufferSetLeaf_asks (own : OwnBuffer registryIndex buffer) (text : String)
    (level : TreeLevel) (index : TreeLeafIndex) (value : U256) :
    (Read.wrapf text (.ofExcept (setLeaf buffer level index value))).Asks (OnTree registryIndex)
      (OwnBuffer registryIndex) := by
  refine Program.Asks.mapFail (Program.asks_ofExcept ?_)
  intro buffer' isSet
  change BatchWithLeavesBuffer.setLeaf buffer level index value = _ at isSet
  unfold BatchWithLeavesBuffer.setLeaf at isSet
  obtain ⟨batch, queued, rest⟩ := except_bind_eq_ok.mp isSet
  obtain rfl := Except.ok.inj rest
  rw [own.index] at queued
  exact ⟨own.index, own.writes.set (Or.inl ⟨level, index, rfl⟩) queued⟩

theorem bufferOrStorage_asks
    (getter : tree.storageLeafGetter = LeafView.getter ⟨registryIndex⟩)
    (buffer : BatchWithLeavesBuffer) (level : TreeLevel) (index : TreeLeafIndex) :
    (tree.getLeafFromBatchOrStorage poseidon buffer level index).Asks (OnTree registryIndex)
      fun _ => True := by
  unfold SparseMerkleTree.getLeafFromBatchOrStorage
  apply (tryRun_asks (bufferGetLeaf_asks buffer level index)).bind
  intro outcome _
  cases outcome with
  | ok node => exact trivial
  | error err =>
      change Program.Asks _ _ (if err.isNotFound then _ else _)
      split
      · exact (getLeafFromStorage_asks getter level index).mapFail
      · exact trivial

theorem bufferNodeHash_asks
    (getter : tree.storageLeafGetter = LeafView.getter ⟨registryIndex⟩)
    (buffer : BatchWithLeavesBuffer) (level : TreeLevel) (index : TreeLeafIndex) :
    (tree.calculateHashForNode poseidon buffer level index).Asks (OnTree registryIndex)
      fun _ => True := by
  have siblings : (tree.getSiblingNodes poseidon buffer level index).Asks
      (OnTree registryIndex) fun _ => True := by
    apply (bufferOrStorage_asks getter buffer level _).bind
    intro leftNode _
    apply (bufferOrStorage_asks getter buffer level _).bind
    intro rightNode _
    exact trivial
  apply siblings.mapFail.bind
  intro nodes _
  exact Program.asks_ofExcept fun _ _ => trivial

theorem setLeaves_asks (leaves : List TreeLeaf) (own : OwnBuffer registryIndex buffer) :
    (SparseMerkleTree.setLeaves leaves buffer).Asks (OnTree registryIndex)
      (OwnBuffer registryIndex) := by
  induction leaves generalizing buffer with
  | nil => exact own
  | cons leaf leaves ih =>
      apply (bufferSetLeaf_asks own "set leaf" 0 leaf.index leaf.value).bind
      intro buffer' own'
      exact ih own'

theorem insertLevel_asks (getter : tree.storageLeafGetter = LeafView.getter ⟨registryIndex⟩)
    (level : TreeLevel) (leaves : List TreeLeaf) (updated : Finset TreeLeafIndex)
    (next : List TreeLeaf) (own : OwnBuffer registryIndex buffer) :
    (tree.insertLevel poseidon level leaves updated next buffer).Asks (OnTree registryIndex)
      fun result => OwnBuffer registryIndex result.2 := by
  induction leaves generalizing updated next buffer with
  | nil => exact own
  | cons leaf leaves ih =>
      rw [SparseMerkleTree.insertLevel]
      split
      · exact ih _ _ own
      · apply (bufferNodeHash_asks getter buffer level leaf.index).mapFail.bind
        intro nodeHash _
        apply (bufferSetLeaf_asks own "set node" (level + 1) (leaf.index / 2) nodeHash).bind
        intro buffer' own'
        exact ih _ _ own'

theorem insertLevels_asks (getter : tree.storageLeafGetter = LeafView.getter ⟨registryIndex⟩)
    (count : Nat) (level : TreeLevel) (leaves : List TreeLeaf)
    (own : OwnBuffer registryIndex buffer) :
    (tree.insertLevels poseidon count level leaves buffer).Asks (OnTree registryIndex)
      (OwnBuffer registryIndex) := by
  induction count generalizing level leaves buffer with
  | zero => exact own
  | succ count ih =>
      apply (insertLevel_asks getter level leaves ∅ [] own).bind
      intro result own'
      exact ih (level + 1) result.1 own'

theorem insertLeaves_asks (getter : tree.storageLeafGetter = LeafView.getter ⟨registryIndex⟩)
    (leaves : List TreeLeaf) (own : OwnBuffer registryIndex buffer) :
    (tree.insertLeaves poseidon buffer leaves).Asks (OnTree registryIndex)
      (OwnBuffer registryIndex) := by
  apply (setLeaves_asks leaves own).bind
  intro buffer' own'
  exact insertLevels_asks getter tree.depth.toNat 0 leaves own'

end Insertion

/-! ### The batch of a job -/

section Jobs

variable {poseidon : PoseidonHash} {job : ZkCertificateRegistryJob}

/-- The loop of `CommitOperations` queues index entries of its registry. -/
theorem queueOperations_writesOnly (reg : ZKCertificateRegistry) {operations : List LeafOperation}
    {batch batch' : Batch} {leaves leaves' : List TreeLeaf}
    (writes : WritesOnly (registryKeys reg.leafView.registryIndex) batch)
    (queued : reg.queueOperations operations batch leaves = .ok (batch', leaves')) :
    WritesOnly (registryKeys reg.leafView.registryIndex) batch' := by
  induction operations generalizing batch leaves with
  | nil =>
      obtain ⟨rfl, _⟩ := Prod.mk.inj (Except.ok.inj queued)
      exact writes
  | cons operation operations ih =>
      have member : StoreKey.leafIndex reg.leafView.registryIndex operation.leaf.value ∈
          registryKeys reg.leafView.registryIndex := Or.inr ⟨_, rfl⟩
      rw [ZKCertificateRegistry.queueOperations] at queued
      cases kind : operation.op with
      | addition =>
          simp only [kind, except_bind_eq_ok, except_mapError_eq_ok] at queued
          obtain ⟨next, set, rest⟩ := queued
          exact ih (writes.set member set) rest
      | revocation =>
          simp only [kind, except_bind_eq_ok, except_mapError_eq_ok] at queued
          obtain ⟨next, deleted, rest⟩ := queued
          exact ih (writes.delete member deleted) rest
      | unknown code =>
          rw [kind] at queued
          cases queued

theorem commitOperations_asks (built : InitializedRegistry poseidon job.registry)
    (operations : List LeafOperation) :
    (job.registry.commitOperations poseidon [] operations).Asks
      (OnTree job.registry.leafView.registryIndex)
      (WritesOnly (registryKeys job.registry.leafView.registryIndex)) := by
  have queued : (Program.ofExcept (job.registry.queueOperations operations [] []) :
      Read (Batch × List TreeLeaf)).Asks (OnTree job.registry.leafView.registryIndex)
      fun result => WritesOnly (registryKeys job.registry.leafView.registryIndex) result.1 :=
    Program.asks_ofExcept fun result same =>
      queueOperations_writesOnly job.registry (writesOnly_nil _) same
  apply queued.bind
  rintro ⟨batch, leaves⟩ writes
  have own : OwnBuffer job.registry.leafView.registryIndex
      (newBatchWithLeavesBuffer batch job.registry.metadata.index) := ⟨built.index, writes⟩
  apply (insertLeaves_asks built.tree.getter leaves own).mapFail.bind
  intro buffer own'
  exact own'.writes

theorem onTree_onKeys {query : ReadQuery}
    (onTree : OnTree job.registry.leafView.registryIndex query) : OnKeys (jobKeys job) query := by
  rcases onTree with done | ⟨level, index, rfl⟩
  · exact Or.inl done
  · exact Or.inr ⟨.leaf job.registry.leafView.registryIndex level index,
      Or.inl (Or.inl ⟨level, index, rfl⟩), rfl⟩

theorem commitLeaves_asks (built : InitializedRegistry poseidon job.registry)
    (operations : List LeafOperation) :
    (job.commitLeaves poseidon operations).Asks (OnKeys (jobKeys job))
      (WritesOnly (jobKeys job)) := by
  unfold ZkCertificateRegistryJob.commitLeaves
  split
  · exact (((commitOperations_asks built operations).mono fun _ => onTree_onKeys).weaken
      fun _ writes => writes.mono Set.subset_union_left).mapFail
  · exact writesOnly_nil _

/-- Whatever it is answered, a job that handles logs asks for its own entries, and fills a batch
with its own entries. -/
theorem handleLogs_asks (built : InitializedRegistry poseidon job.registry) (logs : List EvmLog)
    (block : UInt64) :
    (job.handleLogs poseidon logs block).Asks (OnKeys (jobKeys job))
      (WritesOnly (jobKeys job)) := by
  have handled : (Program.ofExcept (job.handleAll logs []) : Read OperationsBuffer).Asks
      (OnKeys (jobKeys job)) fun _ => True := Program.asks_ofExcept fun _ _ => trivial
  apply handled.bind
  intro operations _
  apply Program.Asks.mapFail
  apply (commitLeaves_asks built operations).bind
  intro batch writes
  refine Program.asks_ofExcept fun filled same => ?_
  obtain ⟨record, _, rfl⟩ := upsertJob_eq_ok.mp (except_mapError_eq_ok.mp same)
  have member : StoreKey.job job.jobDescriptor ∈ jobKeys job := Or.inr rfl
  exact writes.snoc member rfl

end Jobs

/-! ### Jobs apart -/

/-- Different jobs follow different registries and have different records. -/
structure JobsApart {Id : Type} (jobs : Id → ZkCertificateRegistryJob) : Prop where
  registries : ∀ {first second}, first ≠ second →
    (jobs first).registry.leafView.registryIndex ≠ (jobs second).registry.leafView.registryIndex
  records : ∀ {first second}, first ≠ second →
    (jobs first).jobDescriptor ≠ (jobs second).jobDescriptor

/-- They then have no entry in common. -/
theorem JobsApart.keys {Id : Type} {jobs : Id → ZkCertificateRegistryJob} (apart : JobsApart jobs)
    {first second : Id} (different : first ≠ second) :
    ∀ key ∈ jobKeys (jobs second), key ∉ jobKeys (jobs first) := by
  rintro key (inside | rfl) (other | same)
  · exact registryKeys_apart (apart.registries different) key inside other
  · obtain rfl : key = StoreKey.job (jobs first).jobDescriptor := same
    rcases inside with ⟨_, _, named⟩ | ⟨_, named⟩ <;> cases named
  · rcases other with ⟨_, _, named⟩ | ⟨_, named⟩ <;> cases named
  · exact apart.records different (StoreKey.job.inj same).symm

end MerkleProofService
