/-
Module: MerkleProofService.ZkRegistry.IndexStorage
Layer: ZkRegistry
Purpose: The index of each registry address (`internal/zkregistry/index_storage.go`).  An address
  is given the next index when it is first applied; the last index given is kept in a counter
  of one byte.  The storage holds nothing in memory, so a restart is no event of its own.
Imports: ZkRegistry.LeafStorage
Trusted boundary: human-reviewed spec
Main exports: makeRegistryIndexKey, makeRegistryIndexCounterKey, findRegistryIndex,
  applyAddressToIndex, applyAll
-/
import MerkleProofService.ZkRegistry.LeafStorage

namespace MerkleProofService

open Library

/-- The key of the index of a registry address. -/
def makeRegistryIndexKey (address : Address) : Bytes :=
  zkCertificateRegistryIndexPrefix :: address.bytes

/-- The key of the index counter: its prefix alone. -/
def makeRegistryIndexCounterKey : Bytes :=
  [zkCertificateRegistryCounterPrefix]

/-- `FindRegistryIndex`. -/
def findRegistryIndex (address : Address) : Read RegistryIndex := do
  match ← Read.get (makeRegistryIndexKey address) with
  | [] => .fail .notFound
  | index :: _ => return index

/-- `getNextRegistryIndex`; the sum is taken in 8 bits. -/
def getNextRegistryIndex : Read RegistryIndex := do
  match ← Read.get makeRegistryIndexCounterKey with
  | [] => return 0
  | counter :: _ => return counter + 1

/-- `setIndexCounter`. -/
def setIndexCounter (batch : Batch) (index : RegistryIndex) : Except GoError Batch :=
  batch.set makeRegistryIndexCounterKey [index]

section Apply

-- `Address.String`, the checksummed hexadecimal text of an address
variable (addressString : Address → String)

/-- `setIndex`. -/
def setIndex (batch : Batch) (address : Address) (index : RegistryIndex) : Read Batch := do
  match ← (findRegistryIndex address).tryRun with
  | .ok _ => .fail (.message ("address index already set for address " ++ addressString address))
  | .error _ => .ofExcept (batch.set (makeRegistryIndexKey address) [index])

/-- `ApplyAddressToIndex` up to its `WriteSync`: the index, and the batch that is written.
An address that has an index writes nothing; any error of the lookup counts as having none. -/
def applyAddressToIndex (address : Address) : Read (RegistryIndex × Batch) := do
  match ← (findRegistryIndex address).tryRun with
  | .ok index => return (index, [])
  | .error _ =>
      let index ← Read.wrapf "get next address index" getNextRegistryIndex
      let batch ← Read.wrapf "set address to index" (setIndex addressString [] address index)
      let batch ← Read.wrapf "set index counter" (.ofExcept (setIndexCounter batch index))
      return (index, batch)

/-- A sequence of `ApplyAddressToIndex` calls, each with its write: the indexes they return and
the database they leave. -/
def applyAll : List Address → Database → Except GoError (List RegistryIndex × Database)
  | [], database => .ok ([], database)
  | address :: addresses, database =>
      (Read.evalOn database (applyAddressToIndex addressString address)).bind
        fun (index, batch) =>
          (applyAll addresses (Store.write database batch)).map
            fun (indexes, database) => (index :: indexes, database)

end Apply

end MerkleProofService
