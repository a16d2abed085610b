/-
Module: MerkleProofService.ZkRegistry.Initialization
Layer: ZkRegistry
Purpose: How a registry comes into being (`InitializeRegistry` in `internal/zkregistry/service.go`).
  Its address is given an index, its metadata is read from the storage or fetched from the contract
  and stored, and the instance is built from both.  Every read, every write and every contract call
  is one query, and each of them may fail.
Imports: Library.ServedPrograms, ZkRegistry.MetadataStorage, ZkRegistry.Service
Trusted boundary: human-reviewed spec
Main exports: ServiceQuery, ServiceProgram, applyAddressToIndexSync, fetchMetadataFromContract,
  initializeRegistry, DatabaseError, ServiceChoice, serviceEnvironment
-/
import MerkleProofService.Library.ServedPrograms
import MerkleProofService.ZkRegistry.MetadataStorage
import MerkleProofService.ZkRegistry.Service

namespace MerkleProofService

open Library

/-! ### Queries -/

/-- What `fetchMetadataFromContract` asks of the chain. -/
inductive ContractCall where
  /-- `NewZkCertificateRegistryCaller`. -/
  | newCaller
  | treeDepth
  | zeroValue
  | initBlockHeight
  | description
deriving DecidableEq

/-- The values the calls return; a `[32]byte` is a number of 256 bits, so `FromBig` never
overflows. -/
def ContractValue : ContractCall → Type
  | .newCaller => Unit
  | .treeDepth | .zeroValue | .initBlockHeight => U256
  | .description => String

/-- What a computation of the service asks of its environment. -/
inductive ServiceQuery where
  | read (query : ReadQuery)
  /-- `batch.WriteSync()`. -/
  | writeSync (batch : Batch)
  /-- A call of the registry contract at an address. -/
  | contract (address : Address) (call : ContractCall)
deriving DecidableEq

def ServiceAnswer : ServiceQuery → Type
  | .read query => ReadAnswer query
  | .writeSync _ => Except GoError Unit
  | .contract _ call => Except GoError (ContractValue call)

/-- A computation that reads and writes the database and calls the contract. -/
abbrev ServiceProgram := Program ServiceQuery ServiceAnswer GoError

namespace ServiceProgram

variable {α : Type}

def ofRead (computation : Read α) : ServiceProgram α :=
  computation.liftQuery .read fun _ answer => answer

def writeSync (batch : Batch) : ServiceProgram Unit :=
  .ask (.writeSync batch) fun (answer : Except GoError Unit) => .ofExcept answer

def contract (address : Address) (call : ContractCall) : ServiceProgram (ContractValue call) :=
  .ask (.contract address call) fun (answer : Except GoError (ContractValue call)) =>
    .ofExcept answer

/-- `if err != nil { return fmt.Errorf(text + ": %w", err) }`. -/
def wrapf (text : String) (computation : ServiceProgram α) : ServiceProgram α :=
  computation.mapFail (GoError.wrapf text)

end ServiceProgram

open ServiceProgram

/-! ### Initialisation -/

section Initialization

variable (codec : MetadataCodec) (addressString : Address → String)

/-- `ApplyAddressToIndex` with its `WriteSync`. -/
def applyAddressToIndexSync (address : Address) : ServiceProgram RegistryIndex := do
  match ← ofRead (findRegistryIndex address).tryRun with
  | .ok index => return index
  | .error _ =>
      let index ← ofRead (Read.wrapf "get next address index" getNextRegistryIndex)
      let batch ← ofRead
        (Read.wrapf "set address to index" (setIndex addressString [] address index))
      let batch ← wrapf "set index counter" (.ofExcept (setIndexCounter batch index))
      wrapf "write batch" (writeSync batch)
      return index

/-- `fetchMetadataFromContract`.  The tree depth goes through 64 bits to the 8 bits of a
`TreeLevel`; the index is left for the caller to set. -/
def fetchMetadataFromContract (address : Address) : ServiceProgram StoredMetadata := do
  wrapf "failed to create contract caller" (contract address .newCaller)
  let treeDepth : U256 ← wrapf "failed to get tree depth" (contract address .treeDepth)
  let emptyValue : U256 ← wrapf "failed to get tree depth" (contract address .zeroValue)
  let initBlockHeight : U256 ←
    wrapf "failed to get init block height" (contract address .initBlockHeight)
  let description : String ← wrapf "failed to get description" (contract address .description)
  return {
    address := address
    depth := (UInt64.ofNat treeDepth.toNat).toUInt8
    emptyValue := emptyValue
    initBlockHeight := UInt64.ofNat initBlockHeight.toNat
    description := description
    index := 0 }

/-- The first part of `InitializeRegistry`: the index of the address, applied if it has none. -/
def findOrApplyIndex (address : Address) : ServiceProgram RegistryIndex := do
  match ← ofRead (findRegistryIndex address).tryRun with
  | .ok registryIndex => return registryIndex
  | .error err =>
      if err.isNotFound then
        wrapf "failed to apply address to index" (applyAddressToIndexSync addressString address)
      else .fail (.wrapf "failed to find registry index" err)

/-- The second part: the metadata, fetched and stored under this index if there is none. -/
def findOrFetchMetadata (address : Address) (registryIndex : RegistryIndex) :
    ServiceProgram StoredMetadata := do
  match ← ofRead (getMetadata codec address).tryRun with
  | .ok metadata => return metadata
  | .error err =>
      if err.isNotFound then
        let fetched ←
          wrapf "failed to fetch metadata from contract" (fetchMetadataFromContract address)
        let metadata := { fetched with index := registryIndex }
        let batch ← wrapf "failed to set metadata" (.ofExcept (setMetadata codec [] metadata))
        wrapf "failed to write batch" (writeSync batch)
        return metadata
      else .fail (.wrapf "failed to get registry metadata" err)

/-- `InitializeRegistry` up to its cache: the index under which the instance is cached, and the
instance. -/
def initializeRegistry (address : Address) :
    ServiceProgram (RegistryIndex × ZKCertificateRegistry) := do
  let registryIndex ← findOrApplyIndex addressString address
  let metadata ← findOrFetchMetadata codec address registryIndex
  return (registryIndex, newZKCertificateRegistry registryIndex metadata.toMetadata)

end Initialization

/-- The end of `InitializeRegistry`: the instance is cached. -/
def Service.cache (s : Service) (registryIndex : RegistryIndex) (registry : ZKCertificateRegistry) :
    Service where
  registry := Function.update s.registry registryIndex (some registry)

/-! ### The environment -/

/-- An error the database returns: an error value, and none of the service's own. -/
structure DatabaseError where
  err : GoError
  noPanic : ∀ reason, err ≠ .panic reason
  foreign : err.isNotFound = false

/-- What the environment chooses at a query: whether a read or a write fails, and what a contract
call returns. -/
def ServiceChoice : ServiceQuery → Type
  | .read (.get _) => Option DatabaseError
  | .read .ctxDone => Option GoError
  | .writeSync _ => Option DatabaseError
  | .contract _ call => Except GoError (ContractValue call)

/-- A read that does not fail shows the database. -/
def getAnswer (database : Database) (key : Bytes) : Option DatabaseError → Except GoError Bytes
  | none => .ok ((database.lookup key).getD [])
  | some failed => .error failed.err

def writeAnswer : Option DatabaseError → Except GoError Unit
  | none => .ok ()
  | some failed => .error failed.err

/-- A batch is written whole, or not at all when the write fails. -/
def writtenUnless (database : Database) (batch : Batch) : Option DatabaseError → Database
  | none => Store.write database batch
  | some _ => database

def serviceEnvironment : Environment Database ServiceQuery ServiceAnswer ServiceChoice where
  answer
    | database, .read (.get key), choice => getAnswer database key choice
    | _, .read .ctxDone, choice => (choice : Option GoError)
    | _, .writeSync _, choice => writeAnswer choice
    | _, .contract _ _, choice => choice
  after
    | database, .writeSync batch, choice => writtenUnless database batch choice
    | database, .read _, _ | database, .contract _ _, _ => database

end MerkleProofService
