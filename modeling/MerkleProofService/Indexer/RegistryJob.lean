/-
Module: MerkleProofService.Indexer.RegistryJob
Layer: Indexer
Purpose: The job that follows one certificate registry
  (`internal/indexer/ZkCertificateRegistry.go`): it turns the logs of a range into leaf operations
  and commits them, with the block it has reached, in one batch.
Imports: Indexer.JobStorage, ZkRegistry.CertificateRegistry
Trusted boundary: human-reviewed spec
Main exports: EvmLog, CertificateProcessed, ZkCertificateRegistryJob,
  ZkCertificateRegistryJob.handleEVMLog, ZkCertificateRegistryJob.commitBatch,
  ZkCertificateRegistryJob.handleLogs
-/
import MerkleProofService.Indexer.JobStorage
import MerkleProofService.ZkRegistry.CertificateRegistry

namespace MerkleProofService

open Library

/-- `types.Log`, as far as the indexer and the job read it. -/
structure EvmLog where
  topics : List U256
  data : Bytes
  blockNumber : UInt64
  removed : Bool
deriving DecidableEq, Repr

/-- The arguments of a `CertificateProcessed` event the job reads. -/
structure CertificateProcessed where
  zkCertificateLeafHash : U256
  leafIndex : U256
  operation : UInt8
deriving DecidableEq, Repr

/-- `OperationsBuffer`. -/
abbrev OperationsBuffer := List LeafOperation

namespace OperationsBuffer

def appendAddition (buffer : OperationsBuffer) (index : TreeLeafIndex) (value : U256) :
    OperationsBuffer :=
  buffer ++ [⟨⟨index, value⟩, .addition⟩]

def appendRevocation (buffer : OperationsBuffer) (index : TreeLeafIndex) (value : U256) :
    OperationsBuffer :=
  buffer ++ [⟨⟨index, value⟩, .revocation⟩]

end OperationsBuffer

/-- `ZkCertificateRegistryJob`.  The id of the event and the parser of its logs come from the
generated contract binding. -/
structure ZkCertificateRegistryJob where
  jobDescriptor : JobDescriptor
  registry : ZKCertificateRegistry
  jobCodec : JobCodec
  eventCertificateProcessed : U256
  parseCertificateProcessed : EvmLog → Except GoError CertificateProcessed

namespace ZkCertificateRegistryJob

variable (poseidon : PoseidonHash) (job : ZkCertificateRegistryJob)

/-- `TreeLeafIndex(LeafIndex.Uint64())`: the low 32 bits of the index. -/
def leafIndexOf (leafIndex : U256) : TreeLeafIndex :=
  (UInt64.ofNat leafIndex.toNat).toUInt32

/-- `handleCertificateProcessedLog`.  A 32-byte leaf hash never overflows 256 bits, so the
overflow error is unreachable. -/
def handleCertificateProcessedLog (buffer : OperationsBuffer) (log : EvmLog) :
    Except GoError OperationsBuffer :=
  ((job.parseCertificateProcessed log).mapError (.wrapf "parse CertificateProcessed")).bind
    fun certificateProcessed =>
      let index := leafIndexOf certificateProcessed.leafIndex
      let leaf := certificateProcessed.zkCertificateLeafHash
      if certificateProcessed.operation = 0 then .ok (buffer.appendAddition index leaf)
      else if certificateProcessed.operation = 1 then .ok (buffer.appendRevocation index leaf)
      else .error (.message s!"unknown operation type: {certificateProcessed.operation}")

/-- `HandleEVMLog`: removed logs are skipped. -/
def handleEVMLog (buffer : OperationsBuffer) (log : EvmLog) : Except GoError OperationsBuffer :=
  if log.removed then .ok buffer
  else match log.topics with
    | [] => .error (.panic "index out of range [0] with length 0")
    | topic :: _ =>
        if topic = job.eventCertificateProcessed then
          (job.handleCertificateProcessedLog buffer log).mapError
            (.wrapf "handle CertificateProcessed log")
        else .error (.message s!"unknown event 0x{topic.toHex}")

/-- The leaves of a `Commit`; without operations it leaves its new batch empty. -/
def commitLeaves (operations : List LeafOperation) : Read Batch :=
  if operations.length > 0 then
    Read.wrapf "insert leaves" (job.registry.commitOperations poseidon [] operations)
  else .done []

/-- The part of `Commit` before `writeBatchWithLock`: the batch it fills. -/
def commitBatch (operations : List LeafOperation) (block : UInt64) : Read Batch := do
  let batch ← job.commitLeaves poseidon operations
  .ofExcept ((upsertJob job.jobCodec batch ⟨job.jobDescriptor, block⟩).mapError
    (.wrapf "update job's current startBlock"))

/-- The loop of `handleLogs`. -/
def handleAll : List EvmLog → OperationsBuffer → Except GoError OperationsBuffer
  | [], buffer => .ok buffer
  | log :: logs, buffer =>
      ((job.handleEVMLog buffer log).mapError (.wrapf "handle event")).bind fun buffer =>
        handleAll logs buffer

/-- `handleLogs` up to the write: the batch for the logs of one range, from an empty buffer. -/
def handleLogs (logs : List EvmLog) (progressBlock : UInt64) : Read Batch := do
  let operations ← .ofExcept (job.handleAll logs [])
  Read.wrapf "job commit" (job.commitBatch poseidon operations progressBlock)

end ZkCertificateRegistryJob

end MerkleProofService
