/-
Module: MerkleProofService.ZkRegistry.Service
Layer: ZkRegistry
Purpose: How a request finds its registry (`internal/zkregistry/service.go`): the address leads to
  a registry index in the database, the index to a cached registry.
Imports: ZkRegistry.CertificateRegistry, ZkRegistry.IndexStorage
Trusted boundary: human-reviewed spec
Main exports: Service, Service.zkCertificateRegistry
-/
import MerkleProofService.ZkRegistry.CertificateRegistry
import MerkleProofService.ZkRegistry.IndexStorage

namespace MerkleProofService

open Library

/-- `Service`, as far as requests use it: the registries it has cached. -/
structure Service where
  registry : RegistryIndex → Option ZKCertificateRegistry

/-- `Service.ZKCertificateRegistry`. -/
def Service.zkCertificateRegistry (s : Service) (address : Address) :
    Read ZKCertificateRegistry := do
  let index ← Read.wrapf "failed to find registry index" (findRegistryIndex address)
  match s.registry index with
  | some registry => return registry
  | none => .fail .notFound

end MerkleProofService
