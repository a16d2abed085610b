/-
Module: MerkleProofService.Query.Handlers
Layer: Query
Purpose: The handlers of the query server (`internal/query`): validation of a request, the
  registry it is about, and the response or the status error.
Imports: ZkRegistry.Service
Trusted boundary: human-reviewed spec
Main exports: Server, Server.proof, Server.getEmptyLeafProof, Server.getBatchProofs
-/
import MerkleProofService.ZkRegistry.Service

namespace MerkleProofService

open Library

/-! ### Messages -/

structure QueryProofRequest where
  registry : String
  leaf : String

/-- The message `Proof`, in the response of both proof queries. -/
structure ProofMessage where
  leaf : String
  path : List String
  index : UInt32
  root : String
deriving DecidableEq, Repr

structure GetEmptyLeafProofRequest where
  registry : String

structure BatchOperation where
  leafHash : String
  isAddition : Bool

structure QueryBatchProofsRequest where
  registry : String
  operations : List BatchOperation

structure BatchProof where
  index : UInt32
  path : List String
deriving DecidableEq, Repr

structure QueryBatchProofsResponse where
  initialRoot : String
  proofs : List BatchProof
deriving DecidableEq, Repr

/-- The gRPC codes the handlers use. -/
inductive Code where
  | invalidArgument
  | notFound
  | failedPrecondition
  | internal
deriving DecidableEq, Repr

def Code.string : Code → String
  | .invalidArgument => "InvalidArgument"
  | .notFound => "NotFound"
  | .failedPrecondition => "FailedPrecondition"
  | .internal => "Internal"

/-- `status.Errorf`, as the text of the error. -/
def statusErrorf (code : Code) (text : String) : GoError :=
  .message s!"rpc error: code = {code.string} desc = {text}"

/-- `err.Error()`. -/
def GoError.text : GoError → String
  | .notFound => "not found"
  | .message text => text
  | .wrap text cause => text ++ ": " ++ cause.text
  | .panic reason => reason

/-- Run a computation and look at the error it returned; a panic is not caught. -/
def Request.tryRun {α : Type} (computation : Request α) : Request (Except GoError α) :=
  computation.attempt.bind fun outcome =>
    match outcome with
    | .error (.panic reason) => .fail (.panic reason)
    | outcome => .done outcome

/-! ### The server -/

/-- `Server`, with the text conversions of the libraries it uses. -/
structure Server where
  registryService : Service
  isHexAddress : String → Bool
  hexToAddress : String → Address
  fromDecimal : String → Except GoError U256
  string : U256 → String

namespace Server

variable (poseidon : PoseidonHash) (s : Server)

/-- The opening that all handlers share: the registry of the request, once its indexer is on the
head.  They differ in the text for an unknown registry. -/
def registryOnHead (requested unknown : String) : Request ZKCertificateRegistry :=
  if !s.isHexAddress requested then
    .fail (statusErrorf .invalidArgument
      s!"invalid registry address, must be a hex string: {requested}")
  else do
    match ← (Request.ofRead
        (s.registryService.zkCertificateRegistry (s.hexToAddress requested))).tryRun with
    | .error _ => .fail (statusErrorf .notFound s!"{unknown}: {requested}")
    | .ok registry =>
        if !(← Request.isOnHead registry.mutex) then
          .fail (statusErrorf .failedPrecondition
            "registry indexer is not on head, try again later")
        else return registry

/-- `Server.Proof`.  The response repeats the leaf of the request. -/
def proof (req : QueryProofRequest) : Request ProofMessage := do
  let registry ← s.registryOnHead req.registry "registry not found"
  match s.fromDecimal req.leaf with
  | .error _ =>
      .fail (statusErrorf .invalidArgument
        s!"invalid leaf value, must be a decimal number: {req.leaf}")
  | .ok leafValue =>
      match ← (registry.createProof poseidon leafValue).tryRun with
      | .error err =>
          if err.isNotFound then
            .fail (statusErrorf .notFound s!"leaf not found: {req.leaf}")
          else
            .fail (statusErrorf .internal s!"failed to create proof for leaf: {req.leaf}")
      | .ok proof =>
          return { leaf := req.leaf, path := proof.path.map s.string, index := proof.index,
                   root := s.string proof.root }

/-- `Server.GetEmptyLeafProof`. -/
def getEmptyLeafProof (draws : Stream' UInt64) (req : GetEmptyLeafProofRequest) :
    Request ProofMessage := do
  let registry ← s.registryOnHead req.registry "tree not found"
  match ← (registry.getRandomEmptyLeafProof poseidon draws).tryRun with
  | .error _ => .fail (statusErrorf .internal "failed to get empty leaf proof, try again")
  | .ok proofOfEmptyIndex =>
      return { leaf := s.string proofOfEmptyIndex.leaf
               path := proofOfEmptyIndex.path.map s.string
               index := proofOfEmptyIndex.index
               root := s.string proofOfEmptyIndex.root }

/-- The loop of `GetBatchProofs` that converts the operations, from number `i` on. -/
def convertOperations (i : Nat) : List BatchOperation → Except GoError (List LeafOperation)
  | [] => .ok []
  | op :: operations =>
      match s.fromDecimal op.leafHash with
      | .error _ => .error (statusErrorf .invalidArgument
          s!"invalid leaf hash at index {i}, must be a decimal number: {op.leafHash}")
      | .ok leafHash =>
          -- the index is determined during the simulation
          (convertOperations (i + 1) operations).map fun operations =>
            ⟨⟨0, leafHash⟩, if op.isAddition then .addition else .revocation⟩ :: operations

/-- The response of `GetBatchProofs`. -/
def batchProofsResponse (initialRoot : U256) (proofs : List BatchProofResult) :
    QueryBatchProofsResponse where
  initialRoot := s.string initialRoot
  proofs := proofs.map fun proof => { index := proof.index, path := proof.path.map s.string }

/-- `Server.GetBatchProofs`.  The simulation takes no lock. -/
def getBatchProofs (draws : Stream' UInt64) (req : QueryBatchProofsRequest) :
    Request QueryBatchProofsResponse := do
  let registry ← s.registryOnHead req.registry "registry not found"
  if req.operations.length = 0 then
    .fail (statusErrorf .invalidArgument "operations cannot be empty")
  else do
    let operations ← .ofExcept (s.convertOperations 0 req.operations)
    match ← (Request.ofRead
        (registry.sparseTree.simulateBatchOperations poseidon operations draws)).tryRun with
    | .error err =>
        .fail (statusErrorf .internal s!"failed to simulate batch operations: {err.text}")
    | .ok (initialRoot, proofs) => return s.batchProofsResponse initialRoot proofs

end Server

end MerkleProofService
