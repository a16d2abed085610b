/-
Module: MerkleProofService.Indexer.JobStorage
Layer: Indexer
Purpose: Job records (`internal/indexer/job_storage.go`).  A job is stored under its descriptor with
  the block it has reached; the record is written in the batch of the leaves it accounts for.
Imports: Storage.Database
Trusted boundary: human-reviewed spec; JobCodec.RoundTrips, the documented behaviour of msgpack
Main exports: JobDescriptor, Job, JobCodec, makeJobKey, upsertJob, deleteJob, selectJob,
  resumeBlock
-/
import MerkleProofService.Storage.Database

namespace MerkleProofService

open Library

/-- `Contract`: 1 is the certificate registry. -/
abbrev Contract := UInt8

def contractZkCertificateRegistry : Contract := 1

structure JobDescriptor where
  address : Address
  contract : Contract
  startBlock : UInt64
deriving DecidableEq, Repr

structure Job where
  descriptor : JobDescriptor
  currentBlock : UInt64
deriving DecidableEq, Repr

/-- The msgpack encoder and decoder of job records. -/
structure JobCodec where
  encode : Job → Except GoError Bytes
  decode : Bytes → Except GoError Job

/-- Every job is encoded, and decoded to itself; no record is empty. -/
def JobCodec.RoundTrips (codec : JobCodec) : Prop :=
  ∀ job, ∃ record, codec.encode job = .ok record ∧ record ≠ [] ∧ codec.decode record = .ok job

/-- The key of a job: prefix, address, contract and big-endian start block. -/
def makeJobKey (job : JobDescriptor) : Bytes :=
  jobKeyPrefix :: (job.address.bytes ++ job.contract :: bigEndian 8 job.startBlock.toNat)

/-- `UpsertJob`. -/
def upsertJob (codec : JobCodec) (batch : Batch) (job : Job) : Except GoError Batch :=
  ((codec.encode job).mapError (.wrapf "serialize job")).bind fun jobBytes =>
    batch.set (makeJobKey job.descriptor) jobBytes

/-- `DeleteJob`. -/
def deleteJob (batch : Batch) (jobDescriptor : JobDescriptor) : Except GoError Batch :=
  batch.delete (makeJobKey jobDescriptor)

/-- `SelectJob`; the record of a job that is not stored is empty. -/
def selectJob (codec : JobCodec) (jobDescriptor : JobDescriptor) : Read Job := do
  let jobBytes ← Read.get (makeJobKey jobDescriptor)
  .ofExcept ((codec.decode jobBytes).mapError (.wrapf "deserialize job"))

/-- The block a job is started at: `InitConfiguratorFromStorage` resumes a stored job at its
current block, `ReloadConfig` starts a job without a record at its start block. -/
def resumeBlock (codec : JobCodec) (jobDescriptor : JobDescriptor) (database : Database) :
    Except GoError UInt64 :=
  match database.lookup (makeJobKey jobDescriptor) with
  | none => .ok jobDescriptor.startBlock
  | some jobBytes =>
      ((codec.decode jobBytes).mapError (.wrapf "deserialize job")).map Job.currentBlock

@[simp] theorem makeJobKey_ne_nil (job : JobDescriptor) : makeJobKey job ≠ [] :=
  List.cons_ne_nil _ _

/-- A successful upsert queues exactly the record. -/
theorem upsertJob_eq_ok {codec : JobCodec} {batch batch' : Batch} {job : Job} :
    upsertJob codec batch job = .ok batch' ↔
      ∃ record, codec.encode job = .ok record ∧
        batch' = batch ++ [.set (makeJobKey job.descriptor) record] := by
  simp only [upsertJob, except_bind_eq_ok, except_mapError_eq_ok, Batch.set, makeJobKey_ne_nil,
    if_false, Except.ok.injEq]
  simp only [eq_comm]

theorem deleteJob_eq (batch : Batch) (jobDescriptor : JobDescriptor) :
    deleteJob batch jobDescriptor = .ok (batch ++ [.delete (makeJobKey jobDescriptor)]) := by
  simp [deleteJob, Batch.delete]

end MerkleProofService
