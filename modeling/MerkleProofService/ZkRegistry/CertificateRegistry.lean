/-
Module: MerkleProofService.ZkRegistry.CertificateRegistry
Layer: ZkRegistry
Purpose: A certificate registry (`internal/zkregistry/zk_certificate_registry.go`): committing leaf
  operations to a batch, and the requests for a proof of a leaf and of an empty leaf.  A request
  reads the database and takes and releases the registry's read lock; each of these is one step
  of its own, between which the indexer may act.
Imports: ZkRegistry.BatchWithLeaves, ZkRegistry.Simulation
Trusted boundary: human-reviewed spec
Main exports: Metadata, ZKCertificateRegistry, ZKCertificateRegistry.commitOperations, Request,
  ZKCertificateRegistry.createProof, ZKCertificateRegistry.getRandomEmptyLeafProof
-/
import MerkleProofService.ZkRegistry.BatchWithLeaves
import MerkleProofService.ZkRegistry.Simulation

namespace MerkleProofService

open Library

/-- `Metadata`, as far as the registry itself reads it. -/
structure Metadata where
  depth : TreeLevel
  emptyValue : U256
  index : RegistryIndex
deriving DecidableEq, Repr

/-- `ZKCertificateRegistry`; its mutex view is named by the index it locks. -/
structure ZKCertificateRegistry where
  metadata : Metadata
  sparseTree : SparseMerkleTree
  leafView : LeafView
  mutex : RegistryIndex

/-- The registry instance `InitializeRegistry` builds once it has the registry's index and
metadata. -/
def newZKCertificateRegistry (registryIndex : RegistryIndex) (metadata : Metadata) :
    ZKCertificateRegistry where
  metadata := metadata
  sparseTree := newSparseTree metadata.depth metadata.emptyValue
    (LeafView.getter ⟨registryIndex⟩)
  leafView := ⟨registryIndex⟩
  mutex := registryIndex

/-! ### Requests -/

/-- What a request asks of its environment. -/
inductive RequestQuery where
  | read (query : ReadQuery)
  /-- `RLock` of the mutex of a registry. -/
  | rLock (index : RegistryIndex)
  /-- `RUnlock` of the mutex of a registry. -/
  | rUnlock (index : RegistryIndex)
  /-- `ProgressTracker().IsOnHead()` of a registry. -/
  | isOnHead (index : RegistryIndex)
deriving DecidableEq

def RequestAnswer : RequestQuery → Type
  | .read query => ReadAnswer query
  | .rLock _ | .rUnlock _ => Unit
  | .isOnHead _ => Bool

/-- A computation on behalf of a client.  It cannot write. -/
abbrev Request := Program RequestQuery RequestAnswer GoError

namespace Request

variable {α : Type}

def ofRead (computation : Read α) : Request α :=
  computation.liftQuery .read fun _ answer => answer

theorem ofRead_bind {β : Type} (computation : Read α) (rest : α → Read β) :
    ofRead (computation.bind rest) = (ofRead computation).bind fun value => ofRead (rest value) :=
  Program.liftQuery_bind _ _ computation rest

theorem ofRead_wrapf (text : String) (computation : Read α) :
    ofRead (Read.wrapf text computation) =
      (ofRead computation).mapFail (GoError.wrapf text) :=
  Program.liftQuery_mapFail _ _ _ computation

def rLock (index : RegistryIndex) : Request Unit :=
  .ask (.rLock index) fun (_ : Unit) => .done ()

def rUnlock (index : RegistryIndex) : Request Unit :=
  .ask (.rUnlock index) fun (_ : Unit) => .done ()

def isOnHead (index : RegistryIndex) : Request Bool :=
  .ask (.isOnHead index) fun (answer : Bool) => .done answer

/-- `RLock(); defer RUnlock()` around the rest of a function: the lock is released however the
function ends. -/
def withRLock (index : RegistryIndex) (body : Request α) : Request α := do
  rLock index
  let outcome ← body.attempt
  rUnlock index
  .ofExcept outcome

/-- The answers while nothing else happens: the locks are free. -/
def answersOf (database : Database) (onHead : Bool) :
    (query : RequestQuery) → RequestAnswer query
  | .read query => Read.answersOf database query
  | .rLock _ | .rUnlock _ => ()
  | .isOnHead _ => onHead

/-- The outcome of a request while nothing else happens. -/
def evalOn (database : Database) (onHead : Bool) (computation : Request α) : Except GoError α :=
  computation.evalWith (answersOf database onHead)

@[simp] theorem evalOn_ofRead (database : Database) (onHead : Bool) (computation : Read α) :
    evalOn database onHead (ofRead computation) = Read.evalOn database computation := by
  induction computation with
  | done value => rfl
  | fail err => rfl
  | ask query next ih => exact ih (Read.answersOf database query)

@[simp] theorem evalOn_bind {β : Type} (database : Database) (onHead : Bool)
    (computation : Request α) (rest : α → Request β) :
    evalOn database onHead (computation.bind rest) =
      (evalOn database onHead computation).bind fun value =>
        evalOn database onHead (rest value) :=
  Program.evalWith_bind _ computation rest

@[simp] theorem evalOn_withRLock (database : Database) (onHead : Bool)
    (index : RegistryIndex) (body : Request α) :
    evalOn database onHead (withRLock index body) = evalOn database onHead body := by
  have locked : evalOn database onHead (rLock index) = .ok () := rfl
  have unlocked : evalOn database onHead (rUnlock index) = .ok () := rfl
  have caught : evalOn database onHead body.attempt = .ok (evalOn database onHead body) :=
    Program.evalWith_attempt _ body
  simp only [withRLock, Program.bind_eq, evalOn_bind, locked, unlocked, caught, except_bind_ok]
  exact Program.evalWith_ofExcept _ _

end Request

namespace ZKCertificateRegistry

variable (poseidon : PoseidonHash) (reg : ZKCertificateRegistry)

/-- The loop of `CommitOperations`: queue the index entries and collect the leaves. -/
def queueOperations : List LeafOperation → Batch → List TreeLeaf →
    Except GoError (Batch × List TreeLeaf)
  | [], batch, leaves => .ok (batch, leaves)
  | operation :: operations, batch, leaves =>
      match operation.op with
      | .addition =>
          ((reg.leafView.setLeafIndex batch operation.leaf.value operation.leaf.index).mapError
              (.wrapf "set leaf index")).bind fun batch =>
            queueOperations operations batch (leaves ++ [operation.leaf])
      | .revocation =>
          ((reg.leafView.deleteLeafIndex batch operation.leaf.value).mapError
              (.wrapf "revoke leaf index")).bind fun batch =>
            queueOperations operations batch
              (leaves ++ [⟨operation.leaf.index, reg.metadata.emptyValue⟩])
      | .unknown code => .error (.message s!"unknown operation {code}")

/-- `CommitOperations`: it fills the batch and writes nothing. -/
def commitOperations (batch : Batch) (operations : List LeafOperation) : Read Batch := do
  let (batch, leaves) ← .ofExcept (reg.queueOperations operations batch [])
  let batchWithBuffer ← Read.wrapf "insert leaves"
    (reg.sparseTree.insertLeaves poseidon
      (newBatchWithLeavesBuffer batch reg.metadata.index) leaves)
  return batchWithBuffer.batch

/-- `CreateProof`.  The index is looked up before the read lock is taken. -/
def createProof (leaf : U256) : Request MerkleProof := do
  let leafIndex ← Request.ofRead
    (Read.wrapf "failed to get leaf index" (reg.leafView.getLeafIndex leaf))
  Request.withRLock reg.mutex (Request.ofRead
    (Read.wrapf "failed to create proof" (reg.sparseTree.createProof poseidon leafIndex)))

/-- `GetRandomEmptyLeafProof`.  The empty leaf is found before the read lock is taken. -/
def getRandomEmptyLeafProof (draws : Stream' UInt64) : Request MerkleProof := do
  let emptyIndex ← Request.ofRead
    (Read.wrapf "failed to get random empty leaf proof"
      (reg.sparseTree.getRandomEmptyLeafIndex draws))
  Request.withRLock reg.mutex (Request.ofRead
    (Read.wrapf "failed to create proof" (reg.sparseTree.createProof poseidon emptyIndex)))

end ZKCertificateRegistry

end MerkleProofService
