/-
Module: MerkleProofService.Application.Configuration
Layer: Application
Purpose: How the jobs of the application come about: the addresses of the configuration
  (`getZkCertificateRegistry` in `cmd/galacticad-merkle/cmd/indexer/start.go`), the registries that
  are initialised for them with one job each (`configureZkCertificateRegistry` in
  `pkg/indexer/application.go`), and the handler of a job (`Produce` in
  `internal/indexer/job_factory.go`).
Imports: ZkRegistry.Initialization, Indexer.RegistryJob, Indexer.IndexLogs
Trusted boundary: human-reviewed spec
Main exports: getZkCertificateRegistry, compatibleConfig, initializeMetadata, configuredJob,
  configureZkCertificateRegistry, Contract.string, JobFactory, JobFactory.produce
-/
import MerkleProofService.ZkRegistry.Initialization
import MerkleProofService.Indexer.RegistryJob
import MerkleProofService.Indexer.IndexLogs

namespace MerkleProofService

open Library
open ServiceProgram

/-! ### The configuration -/

section Addresses

-- `common.IsHexAddress` and `common.HexToAddress`
variable (isHexAddress : String → Bool) (hexToAddress : String → Address)

/-- The loop of `getZkCertificateRegistry`; without addresses it returns nil. -/
def getZkCertificateRegistry : List String → Except GoError (List Address)
  | [] => .ok []
  | address :: addresses =>
      if !isHexAddress address then .error (.message s!"invalid address: {address}")
      else (getZkCertificateRegistry addresses).map fun contractAddresses =>
        hexToAddress address :: contractAddresses

end Addresses

/-- The check of the start command: without a websocket endpoint the mode is poll. -/
def compatibleConfig (evmRpc : String) (config : Config) : Config :=
  if config.indexerMode = .ws ∧ ¬ evmRpc.startsWith "ws" then { config with indexerMode := .poll }
  else config

/-! ### The jobs -/

/-- The start block of a job: the block before the contract was initialised. -/
def jobStartBlock (initBlockHeight : UInt64) : UInt64 :=
  if initBlockHeight > 0 then initBlockHeight - 1 else initBlockHeight

/-- The job of a registry. -/
def configuredJob (address : Address) (metadata : StoredMetadata) : JobDescriptor where
  address := address
  contract := contractZkCertificateRegistry
  startBlock := jobStartBlock metadata.initBlockHeight

section Configure

variable (codec : MetadataCodec) (addressString : Address → String)

/-- `InitializeRegistry` up to its instance, with all of the metadata the instance carries. -/
def initializeMetadata (address : Address) : ServiceProgram (RegistryIndex × StoredMetadata) := do
  let registryIndex ← findOrApplyIndex addressString address
  let metadata ← findOrFetchMetadata codec address registryIndex
  return (registryIndex, metadata)

/-- The loop of `configureZkCertificateRegistry`: what the service has cached, and the jobs. -/
def configureZkCertificateRegistry : List Address → Service → List JobDescriptor →
    ServiceProgram (Service × List JobDescriptor)
  | [], service, jobs => return (service, jobs)
  | address :: addresses, service, jobs => do
      let (registryIndex, metadata) ←
        wrapf s!"initialize registry for address {addressString address}"
          (initializeMetadata codec addressString address)
      configureZkCertificateRegistry addresses
        (service.cache registryIndex (newZKCertificateRegistry registryIndex metadata.toMetadata))
        (jobs ++ [configuredJob address metadata])

end Configure

/-! ### The handlers -/

/-- `Contract.String`. -/
def Contract.string (contract : Contract) : String :=
  if contract = contractZkCertificateRegistry then "ZkCertificateRegistry" else "unknown"

/-- `JobFactory`, with what its jobs take from the job storage and the contract binding. -/
structure JobFactory where
  registryService : Service
  jobCodec : JobCodec
  eventCertificateProcessed : U256
  parseCertificateProcessed : EvmLog → Except GoError CertificateProcessed
  addressString : Address → String

/-- `NewZkCertificateRegistryJob` of the factory. -/
def JobFactory.newZkCertificateRegistryJob (f : JobFactory) (jobDescriptor : JobDescriptor)
    (registry : ZKCertificateRegistry) : ZkCertificateRegistryJob where
  jobDescriptor := jobDescriptor
  registry := registry
  jobCodec := f.jobCodec
  eventCertificateProcessed := f.eventCertificateProcessed
  parseCertificateProcessed := f.parseCertificateProcessed

/-- `Produce`. -/
def JobFactory.produce (f : JobFactory) (jobDescriptor : JobDescriptor) :
    Read ZkCertificateRegistryJob :=
  if jobDescriptor.contract = contractZkCertificateRegistry then do
    let registry ← Read.wrapf
      s!"get zk certificate registry for address {f.addressString jobDescriptor.address}"
      (f.registryService.zkCertificateRegistry jobDescriptor.address)
    return f.newZkCertificateRegistryJob jobDescriptor registry
  else .fail (.message s!"unknown contract: {Contract.string jobDescriptor.contract}")

end MerkleProofService
