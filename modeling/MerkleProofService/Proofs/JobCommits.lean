/-
Module: MerkleProofService.Proofs.JobCommits
Layer: Proofs
Purpose: What a job's `Commit` does to the database once its batch is written: the operations are
  committed, the job's record is set, and the keys of all other kinds keep their entries.
Imports: Indexer.RegistryJob, ZkRegistry.Service, Proofs.RegistryStates
Trusted boundary: none
Main exports: commitBatch_spec, commitBatch_frame, RegistryState.jobCommit,
  NodeConsistent.jobCommit, smallJob
-/
import MerkleProofService.Indexer.RegistryJob
import MerkleProofService.ZkRegistry.Service
import MerkleProofService.Proofs.RegistryStates

namespace MerkleProofService

open Library

/-! ### Keys of other kinds -/

theorem makeJobKey_noRegistryKey (registryIndex : RegistryIndex) (descriptor : JobDescriptor) :
    NoRegistryKey registryIndex (makeJobKey descriptor) := by
  constructor
  · intro level index same
    exact absurd (List.cons.inj same).1 (by decide)
  · intro value same
    exact absurd (List.cons.inj same).1 (by decide)

theorem makeRegistryIndexKey_noRegistryKey (registryIndex : RegistryIndex) (address : Address) :
    NoRegistryKey registryIndex (makeRegistryIndexKey address) := by
  constructor
  · intro level index same
    exact absurd (List.cons.inj same).1 (by decide)
  · intro value same
    exact absurd (List.cons.inj same).1 (by decide)

theorem makeJobKey_ne_makeRegistryIndexKey (descriptor : JobDescriptor) (address : Address) :
    makeJobKey descriptor ≠ makeRegistryIndexKey address := by
  intro same
  exact absurd (List.cons.inj same).1 (by decide)

/-! ### The batch of a commit -/

section Commits

variable {poseidon : PoseidonHash} {job : ZkCertificateRegistryJob} {database : Database}
variable {operations : List LeafOperation} {block : UInt64} {batch : Batch}

theorem evalOn_insertLevels_nil {Buffer : Type} [TreeLeafGetterSetter Buffer]
    (tree : SparseMerkleTree) (count : Nat) (level : TreeLevel) (buffer : Buffer) :
    Read.evalOn database (tree.insertLevels poseidon count level [] buffer) = .ok buffer := by
  induction count generalizing level with
  | zero => rfl
  | succ count ih => exact ih (level + 1)

/-- Committing nothing queues nothing. -/
theorem evalOn_commitOperations_nil (reg : ZKCertificateRegistry) (before : Batch) :
    Read.evalOn database (reg.commitOperations poseidon before []) = .ok before := by
  have inserted : Read.evalOn database (reg.sparseTree.insertLeaves poseidon
      (newBatchWithLeavesBuffer before reg.metadata.index) []) =
        .ok (newBatchWithLeavesBuffer before reg.metadata.index) :=
    evalOn_insertLevels_nil _ _ _ _
  simp only [ZKCertificateRegistry.commitOperations, ZKCertificateRegistry.queueOperations,
    Program.bind_eq, Read.evalOn_bind, Read.evalOn_ofExcept, except_bind_ok, Read.evalOn_wrapf,
    inserted, except_mapError_ok]
  rfl

/-- The batch of a commit is that of the operations followed by the job's record. -/
theorem commitBatch_spec
    (run : Read.evalOn database (job.commitBatch poseidon operations block) = .ok batch) :
    ∃ queued record,
      Read.evalOn database (job.registry.commitOperations poseidon [] operations) =
        .ok queued ∧
      job.jobCodec.encode ⟨job.jobDescriptor, block⟩ = .ok record ∧
      batch = queued ++ [.set (makeJobKey job.jobDescriptor) record] := by
  simp only [ZkCertificateRegistryJob.commitBatch, Program.bind_eq, Read.evalOn_bind,
    Read.evalOn_ofExcept, except_bind_eq_ok, except_mapError_eq_ok, upsertJob_eq_ok] at run
  rcases run with ⟨queued, filled, record, encoded, rfl⟩
  refine ⟨queued, record, ?_, encoded, rfl⟩
  cases operations with
  | nil =>
      rw [evalOn_commitOperations_nil]
      exact filled
  | cons op operations =>
      rw [ZkCertificateRegistryJob.commitLeaves, if_pos (by simp), Read.evalOn_wrapf,
        except_mapError_eq_ok] at filled
      exact filled

/-- The record set last is the one stored. -/
theorem lookup_write_record (database : Database) (queued : Batch) (key record : Bytes) :
    (Store.write database (queued ++ [.set key record])).lookup key = some record := by
  rw [Store.lookup_write, lastEffect_append, lastEffect_singleton, WriteOp.key, if_pos rfl]
  rfl

/-- What a commit at a block stores of its job is that block. -/
theorem evalOn_selectJob_commitBatch (codec : job.jobCodec.RoundTrips)
    (run : Read.evalOn database (job.commitBatch poseidon operations block) = .ok batch) :
    Read.evalOn (Store.write database batch) (selectJob job.jobCodec job.jobDescriptor) =
      .ok ⟨job.jobDescriptor, block⟩ := by
  obtain ⟨queued, record, _, encoded, rfl⟩ := commitBatch_spec run
  obtain ⟨other, again, _, decoded⟩ := codec ⟨job.jobDescriptor, block⟩
  obtain rfl := Except.ok.inj (again.symm.trans encoded)
  simp only [selectJob, Program.bind_eq, Read.evalOn_bind, Read.evalOn_get, Read.evalOn_ofExcept,
    lookup_write_record]
  rw [Option.getD_some, except_bind_ok, decoded, except_mapError_ok]

/-- A job commits what its registry commits. -/
theorem commitBatch_of_operations (codec : job.jobCodec.RoundTrips) {queued : Batch}
    (committed : Read.evalOn database (job.registry.commitOperations poseidon [] operations) =
      .ok queued) (block : UInt64) :
    ∃ batch, Read.evalOn database (job.commitBatch poseidon operations block) = .ok batch := by
  obtain ⟨record, encoded, _⟩ := codec ⟨job.jobDescriptor, block⟩
  have leaves : Read.evalOn database (job.commitLeaves poseidon operations) = .ok queued := by
    cases operations with
    | nil =>
        rw [evalOn_commitOperations_nil] at committed
        exact committed
    | cons op operations =>
        rw [ZkCertificateRegistryJob.commitLeaves, if_pos (by simp), Read.evalOn_wrapf, committed]
        rfl
  refine ⟨queued ++ [.set (makeJobKey job.jobDescriptor) record], ?_⟩
  simp only [ZkCertificateRegistryJob.commitBatch, Program.bind_eq, Read.evalOn_bind, leaves,
    except_bind_ok, Read.evalOn_ofExcept, except_mapError_eq_ok, upsertJob_eq_ok]
  exact ⟨record, encoded, rfl⟩

/-- The batch of a commit touches the registry's keys and the job's, and no other. -/
theorem commitBatch_frame (built : InitializedRegistry poseidon job.registry)
    (run : Read.evalOn database (job.commitBatch poseidon operations block) = .ok batch)
    {key : Bytes} (outside : NoRegistryKey job.registry.leafView.registryIndex key)
    (notJob : makeJobKey job.jobDescriptor ≠ key) : lastEffect batch key = none := by
  obtain ⟨queued, record, committed, _, rfl⟩ := commitBatch_spec run
  rw [lastEffect_append, lastEffect_singleton, commitOperations_frame built committed outside,
    WriteOp.key, if_neg notJob]
  rfl

/-- The record is no key of the registry. -/
theorem lastEffect_record (registryIndex : RegistryIndex) (descriptor : JobDescriptor)
    (record key : Bytes) (inside : ¬ NoRegistryKey registryIndex key) :
    lastEffect ([.set (makeJobKey descriptor) record] : Batch) key = none := by
  rw [lastEffect_singleton]
  apply if_neg
  intro same
  exact inside (same ▸ makeJobKey_noRegistryKey registryIndex descriptor)

/-- A job's commit of operations the contract can emit leads from one represented state to the
next. -/
theorem RegistryState.jobCommit {nodes : Nat → Nat → U256} {slots : Slots}
    {position : U256 → Option TreeLeafIndex} (spec : PoseidonSpec poseidon)
    (built : InitializedRegistry poseidon job.registry)
    (contract : ContractMetadata job.registry.metadata)
    (state : RegistryState poseidon job.registry database nodes slots position)
    (wellFormed : WellFormed job.registry.metadata slots operations)
    (run : Read.evalOn database (job.commitBatch poseidon operations block) = .ok batch) :
    ∃ nodes', RegistryState poseidon job.registry (Store.write database batch) nodes'
      (applyOperations job.registry.metadata.emptyValue slots operations)
      (applyEntries position operations) := by
  obtain ⟨queued, record, committed, _, rfl⟩ := commitBatch_spec run
  obtain ⟨nodes', state'⟩ := state.commit spec built contract wellFormed committed
  refine ⟨nodes', ?_⟩
  rw [Store.write_append]
  exact state'.foreign built fun key inside => lastEffect_record _ _ record key inside

/-- A job's commit leaves a consistent tree. -/
theorem NodeConsistent.jobCommit (spec : PoseidonSpec poseidon)
    (built : InitializedRegistry poseidon job.registry)
    (contract : ContractMetadata job.registry.metadata)
    (consistent : NodeConsistent poseidon job.registry.sparseTree database)
    (committable : ∀ op ∈ operations, Committable job.registry.metadata op)
    (run : Read.evalOn database (job.commitBatch poseidon operations block) = .ok batch) :
    NodeConsistent poseidon job.registry.sparseTree (Store.write database batch) := by
  obtain ⟨queued, record, committed, _, rfl⟩ := commitBatch_spec run
  rcases consistent with ⟨nodes, reads, hashed⟩
  obtain ⟨nodes', effect⟩ := commitOperations_spec spec built
    (fun _ => built.emptyBranches spec contract) reads (fun _ _ => rfl) committable committed
  refine ⟨nodes', ?_, effect.recomputed.consistent hashed⟩
  rw [Store.write_append]
  apply effect.reads.congr built.tree.getter
  intro level index
  rw [storedLeaf, storedLeaf, Store.lookup_write_of_none]
  exact lastEffect_record _ _ record _ fun outside => outside.1 level index rfl

end Commits

/-! ### A small job -/

/-- Job records of fixed length: the descriptor as in the key, then the current block. -/
def fixedCodec : JobCodec where
  encode job := .ok (job.descriptor.address.bytes ++
    job.descriptor.contract :: (bigEndian 8 job.descriptor.startBlock.toNat ++
      bigEndian 8 job.currentBlock.toNat))
  decode record :=
    match record.drop 20 with
    | contract :: blocks =>
        .ok ⟨⟨BitVec.ofNat 160 (decodeBigEndian (record.take 20)), contract,
          UInt64.ofNat (decodeBigEndian (blocks.take 8))⟩,
          UInt64.ofNat (decodeBigEndian (blocks.drop 8))⟩
    | [] => .error (.message "EOF")

theorem fixedCodec_roundTrips : fixedCodec.RoundTrips := by
  intro job
  rcases job with ⟨⟨address, contract, startBlock⟩, currentBlock⟩
  have addressLength : address.bytes.length = 20 := Address.length_bytes address
  have startLength : (bigEndian 8 startBlock.toNat).length = 8 := length_bigEndian 8 _
  refine ⟨_, rfl, by simp, ?_⟩
  have addressBack : BitVec.ofNat 160 (decodeBigEndian address.bytes) = address := by
    rw [Address.bytes, decodeBigEndian_bigEndian address.isLt]
    exact BitVec.ofNat_toNat _ _
  have blockBack : ∀ block : UInt64,
      UInt64.ofNat (decodeBigEndian (bigEndian 8 block.toNat)) = block := by
    intro block
    rw [decodeBigEndian_bigEndian block.toNat_lt, UInt64.ofNat_toNat]
  simp only [fixedCodec, List.drop_left' addressLength, List.take_left' addressLength,
    List.take_left' startLength, List.drop_left' startLength, addressBack, blockBack]

/-- The three bytes of a small log: operation, leaf index and leaf. -/
def parseSmallLog (log : EvmLog) : Except GoError CertificateProcessed :=
  match log.data with
  | [operation, leafIndex, leaf] =>
      .ok ⟨BitVec.ofNat 256 leaf.toNat, BitVec.ofNat 256 leafIndex.toNat, operation⟩
  | _ => .error (.message "abi: cannot unmarshal")

/-- A job that follows the small registry. -/
def smallJob : ZkCertificateRegistryJob where
  jobDescriptor := ⟨0, contractZkCertificateRegistry, 0⟩
  registry := smallRegistry
  jobCodec := fixedCodec
  eventCertificateProcessed := 1
  parseCertificateProcessed := parseSmallLog

/-- The batch of a commit that succeeds. -/
def batchOf (poseidon : PoseidonHash) (job : ZkCertificateRegistryJob) (database : Database)
    (operations : List LeafOperation) (block : UInt64) : Batch :=
  (Read.evalOn database (job.commitBatch poseidon operations block)).toOption.getD []

theorem evalOn_commitBatch_eq_batchOf {poseidon : PoseidonHash} {job : ZkCertificateRegistryJob}
    {database : Database} {operations : List LeafOperation} {block : UInt64}
    (returns : (Read.evalOn database (job.commitBatch poseidon operations block)).isOk = true) :
    Read.evalOn database (job.commitBatch poseidon operations block) =
      .ok (batchOf poseidon job database operations block) := by
  unfold batchOf
  cases run : Read.evalOn database (job.commitBatch poseidon operations block) with
  | ok batch => rfl
  | error err =>
      rw [run] at returns
      cases returns

end MerkleProofService
