/-
Module: MerkleProofService.ZkRegistry.MetadataStorage
Layer: ZkRegistry
Purpose: The metadata of each registry contract (`internal/zkregistry/metadata_storage.go`), stored
  under the address of the contract.
Imports: ZkRegistry.CertificateRegistry
Trusted boundary: human-reviewed spec; MetadataCodec.RoundTrips, the documented behaviour of msgpack
Main exports: StoredMetadata, MetadataCodec, makeZKCertificateRegistryKey, setMetadata, getMetadata
-/
import MerkleProofService.ZkRegistry.CertificateRegistry

namespace MerkleProofService

open Library

/-- `Metadata` with the fields that only its storage knows. -/
structure StoredMetadata extends Metadata where
  address : Address
  initBlockHeight : UInt64
  description : String
deriving DecidableEq, Repr

/-- The msgpack encoder and decoder of metadata. -/
structure MetadataCodec where
  encode : StoredMetadata → Except GoError Bytes
  decode : Bytes → Except GoError StoredMetadata

/-- What is encoded is not empty and is decoded to itself. -/
def MetadataCodec.RoundTrips (codec : MetadataCodec) : Prop :=
  ∀ metadata record, codec.encode metadata = .ok record →
    record ≠ [] ∧ codec.decode record = .ok metadata

/-- The key of the metadata of a registry address. -/
def makeZKCertificateRegistryKey (address : Address) : Bytes :=
  zkCertificateRegistryKeyPrefix :: address.bytes

/-- `SetMetadata`. -/
def setMetadata (codec : MetadataCodec) (batch : Batch) (metadata : StoredMetadata) :
    Except GoError Batch :=
  ((codec.encode metadata).mapError (.wrapf "encode metadata")).bind fun metadataBytes =>
    batch.set (makeZKCertificateRegistryKey metadata.address) metadataBytes

/-- `GetMetadata`. -/
def getMetadata (codec : MetadataCodec) (address : Address) : Read StoredMetadata := do
  let metadataBytes ← Read.get (makeZKCertificateRegistryKey address)
  if metadataBytes.length = 0 then .fail .notFound
  else .ofExcept ((codec.decode metadataBytes).mapError (.wrapf "decode metadata"))

end MerkleProofService
