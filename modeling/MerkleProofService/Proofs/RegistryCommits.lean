/-
Module: MerkleProofService.Proofs.RegistryCommits
Layer: Proofs
Purpose: What `CommitOperations` does to a database once its batch is written: the leaves of the
  operations are inserted into the tree, the value-to-index entries follow the last operation
  on each value, and every key of another kind keeps what was queued for it before.
Imports: ZkRegistry.CertificateRegistry, Proofs.SimulationChain
Trusted boundary: ContractDepth and ContractMetadata, the constants of the registry contract
Main exports: InitializedRegistry, ContractMetadata, operationLeaves, lastEntry, CommitEffect,
  commitOperations_spec, commitOperations_total
-/
import MerkleProofService.ZkRegistry.CertificateRegistry
import MerkleProofService.Proofs.SimulationChain

namespace MerkleProofService

open Library
open LawfulBuffer (content Over)

/-! ### Registries -/

/-- A registry as `InitializeRegistry` builds it: its tree, its leaf view and its lock are those
of one registry index, which is also the index in the metadata. -/
structure InitializedRegistry (poseidon : PoseidonHash) (reg : ZKCertificateRegistry) :
    Prop where
  tree : TreeOf poseidon reg.metadata.depth reg.metadata.emptyValue
    reg.leafView.registryIndex reg.sparseTree
  index : reg.metadata.index = reg.leafView.registryIndex
  mutex : reg.mutex = reg.leafView.registryIndex

/-- The depth the registry contract, from which the metadata is fetched, gives its tree: at
least one level, and leaf indexes that fit 32 bits. -/
structure ContractDepth (metadata : Metadata) : Prop where
  positive : 1 ≤ metadata.depth.toNat
  shallow : metadata.depth.toNat ≤ 32

/-- All constants of the contract: its empty leaf is a field element. -/
structure ContractMetadata (metadata : Metadata) : Prop extends ContractDepth metadata where
  emptyField : InField metadata.emptyValue

theorem newZKCertificateRegistry_initialized (poseidon : PoseidonHash)
    {registryIndex : RegistryIndex} {metadata : Metadata}
    (sameIndex : metadata.index = registryIndex) :
    InitializedRegistry poseidon (newZKCertificateRegistry registryIndex metadata) where
  tree := TreeOf.created
  index := sameIndex
  mutex := rfl

section Registry

variable {poseidon : PoseidonHash} {reg : ZKCertificateRegistry} {database : Database}
variable {nodes : Nat → Nat → U256}

theorem InitializedRegistry.depth_eq (built : InitializedRegistry poseidon reg) :
    reg.sparseTree.depth = reg.metadata.depth :=
  built.tree.shape.1

theorem InitializedRegistry.emptyLeaf_eq (built : InitializedRegistry poseidon reg) :
    reg.sparseTree.emptyLeaf = reg.metadata.emptyValue :=
  built.tree.shape.2.1

theorem InitializedRegistry.shallow (built : InitializedRegistry poseidon reg)
    (contract : ContractMetadata reg.metadata) : reg.sparseTree.depth.toNat ≤ 32 := by
  rw [built.depth_eq]
  exact contract.shallow

/-- The empty tree of a registry can be read. -/
theorem InitializedRegistry.emptyBranches (built : InitializedRegistry poseidon reg)
    (spec : PoseidonSpec poseidon) (contract : ContractMetadata reg.metadata) :
    ∃ empty, EmptyBranches poseidon reg.sparseTree empty := by
  have positive := contract.positive
  have emptyField := contract.emptyField
  rw [← built.depth_eq] at positive
  rw [← built.emptyLeaf_eq] at emptyField
  obtain ⟨empty, table, _⟩ := emptyBranches_exist spec.closed emptyField positive
    (Nat.lt_of_le_of_lt (built.shallow contract) (by decide)) built.tree.cacheSound
  exact ⟨empty, table⟩

/-- The empty database holds the registry's tree with every leaf empty. -/
theorem InitializedRegistry.soundNodes (built : InitializedRegistry poseidon reg)
    (spec : PoseidonSpec poseidon) (contract : ContractMetadata reg.metadata) :
    ∃ nodes, SoundNodes poseidon reg.sparseTree ∅ nodes ∧
      ∀ index, nodes 0 index = reg.metadata.emptyValue := by
  have positive := contract.positive
  have emptyField := contract.emptyField
  rw [← built.depth_eq] at positive
  rw [← built.emptyLeaf_eq] at emptyField
  obtain ⟨nodes, sound, ground⟩ := soundNodes_empty spec built.tree positive
    (Nat.lt_of_le_of_lt (built.shallow contract) (by decide)) emptyField
  exact ⟨nodes, sound, fun index => (ground index).trans built.emptyLeaf_eq⟩

/-! ### The queue of index entries -/

/-- The leaves the operations insert, in their order. -/
def operationLeaves (emptyValue : U256) (operations : List LeafOperation) : List TreeLeaf :=
  operations.map fun op => ⟨op.leaf.index, newLeaf emptyValue op⟩

/-- What the operations do to the entry of a value: nothing, or what the last one says. -/
def lastEntry : List LeafOperation → U256 → Option (Option TreeLeafIndex)
  | [], _ => none
  | op :: operations, value =>
      (lastEntry operations value).or
        (if op.leaf.value = value then
          some (if op.op = .addition then some op.leaf.index else none)
        else none)

/-- The key belongs neither to a node nor to a value-to-index entry of the registry. -/
def NoRegistryKey (registryIndex : RegistryIndex) (key : Bytes) : Prop :=
  NoNodeKey registryIndex key ∧ ∀ value, key ≠ makeLeafIndexKey registryIndex value

/-- The operation is one `CommitOperations` knows. -/
def Known (op : LeafOperation) : Prop :=
  op.op = .addition ∨ op.op = .revocation

instance (op : LeafOperation) : Decidable (Known op) :=
  inferInstanceAs (Decidable (_ ∨ _))

/-- The queued entries, as effects on the database. -/
structure Queued (reg : ZKCertificateRegistry) (operations : List LeafOperation)
    (batch : Batch) (leaves : List TreeLeaf) (batch' : Batch) (leaves' : List TreeLeaf) :
    Prop where
  known : ∀ op ∈ operations, Known op
  leaves_eq : leaves' = leaves ++ operationLeaves reg.metadata.emptyValue operations
  entries : ∀ value,
    lastEffect batch' (makeLeafIndexKey reg.leafView.registryIndex value) =
      ((lastEntry operations value).map (Option.map LeafView.leafIndexBytes)).or
        (lastEffect batch (makeLeafIndexKey reg.leafView.registryIndex value))
  frame : ∀ key, (∀ value, key ≠ makeLeafIndexKey reg.leafView.registryIndex value) →
    lastEffect batch' key = lastEffect batch key

/-- One queued operation. -/
theorem Queued.cons {op : LeafOperation} {operations : List LeafOperation}
    {batch batch' : Batch} {leaves leaves' : List TreeLeaf}
    {write : WriteOp Bytes Bytes} (known : Known op)
    (key : write.key = makeLeafIndexKey reg.leafView.registryIndex op.leaf.value)
    (left : write.left =
      (if op.op = .addition then some op.leaf.index else none).map LeafView.leafIndexBytes)
    (rest : Queued reg operations (batch ++ [write])
      (leaves ++ [⟨op.leaf.index, newLeaf reg.metadata.emptyValue op⟩]) batch' leaves') :
    Queued reg (op :: operations) batch leaves batch' leaves' where
  known := fun other member => by
    cases member with
    | head => exact known
    | tail _ later => exact rest.known other later
  leaves_eq := by rw [rest.leaves_eq, List.append_assoc]; rfl
  entries := fun value => by
    rw [rest.entries, lastEffect_append, lastEffect_singleton, key, left, lastEntry]
    by_cases same : op.leaf.value = value
    · subst same
      cases lastEntry operations op.leaf.value <;> simp
    · simp [same]
  frame := fun other away => by
    rw [rest.frame other away, lastEffect_append, lastEffect_singleton, key,
      if_neg (Ne.symm (away op.leaf.value)), Option.none_or]

theorem queueOperations_spec {operations : List LeafOperation} {batch batch' : Batch}
    {leaves leaves' : List TreeLeaf}
    (run : reg.queueOperations operations batch leaves = .ok (batch', leaves')) :
    Queued reg operations batch leaves batch' leaves' := by
  induction operations generalizing batch leaves with
  | nil =>
      obtain ⟨rfl, rfl⟩ := Prod.mk.inj (Except.ok.inj run)
      exact
        { known := fun op member => by cases member
          leaves_eq := (List.append_nil _).symm
          entries := fun _ => rfl
          frame := fun _ _ => rfl }
  | cons op operations ih =>
      rw [ZKCertificateRegistry.queueOperations] at run
      cases kind : op.op with
      | addition =>
          simp only [kind, LeafView.setLeafIndex, Batch.set, makeLeafIndexKey_ne_nil, if_false,
            except_mapError_ok, except_bind_ok] at run
          have new : newLeaf reg.metadata.emptyValue op = op.leaf.value := by
            rw [newLeaf, kind]
          apply Queued.cons (Or.inl kind) _ _ (by rw [new]; exact ih run)
          · rfl
          · rw [if_pos kind]
            rfl
      | revocation =>
          simp only [kind, LeafView.deleteLeafIndex, Batch.delete, makeLeafIndexKey_ne_nil,
            if_false, except_mapError_ok, except_bind_ok] at run
          have new : newLeaf reg.metadata.emptyValue op = reg.metadata.emptyValue := by
            rw [newLeaf, kind]
          apply Queued.cons (Or.inr kind) _ _ (by rw [new]; exact ih run)
          · rfl
          · rw [if_neg (by rw [kind]; decide)]
            rfl
      | unknown code =>
          rw [kind] at run
          cases run

/-- Known operations are queued without an error. -/
theorem queueOperations_total {operations : List LeafOperation}
    (known : ∀ op ∈ operations, Known op) (batch : Batch) (leaves : List TreeLeaf) :
    ∃ batch' leaves', reg.queueOperations operations batch leaves = .ok (batch', leaves') := by
  induction operations generalizing batch leaves with
  | nil => exact ⟨batch, leaves, rfl⟩
  | cons op operations ih =>
      have rest := ih fun other member => known other (List.mem_cons_of_mem op member)
      rw [ZKCertificateRegistry.queueOperations]
      rcases known op List.mem_cons_self with addition | revocation
      · simp only [addition, LeafView.setLeafIndex, Batch.set, makeLeafIndexKey_ne_nil, if_false,
          except_mapError_ok, except_bind_ok]
        exact rest _ _
      · simp only [revocation, LeafView.deleteLeafIndex, Batch.delete, makeLeafIndexKey_ne_nil,
          if_false, except_mapError_ok, except_bind_ok]
        exact rest _ _

/-! ### The whole commit -/

/-- The operation's leaf lies in the tree, and the storage can give its new value back. -/
def Committable (metadata : Metadata) (op : LeafOperation) : Prop :=
  op.leaf.index.toNat < 2 ^ metadata.depth.toNat ∧
    (newLeaf metadata.emptyValue op ≠ 0 ∨
      newLeaf metadata.emptyValue op = metadata.emptyValue)

instance (metadata : Metadata) (op : LeafOperation) : Decidable (Committable metadata op) :=
  inferInstanceAs (Decidable (_ ∧ _))

theorem makeLeafIndexKey_noNodeKey (registryIndex other : RegistryIndex) (value : U256) :
    NoNodeKey registryIndex (makeLeafIndexKey other value) :=
  fun level index same =>
    makeLeafKey_ne_makeLeafIndexKey registryIndex other level index value same.symm

/-- What a commit of `operations`, on top of the queued operations `before`, does to a database
that shows `nodes`. -/
structure CommitEffect (poseidon : PoseidonHash) (reg : ZKCertificateRegistry)
    (database : Database) (nodes : Nat → Nat → U256) (operations : List LeafOperation)
    (before batch : Batch) (nodes' : Nat → Nat → U256) : Prop where
  known : ∀ op ∈ operations, Known op
  reads : ReadsNodes poseidon reg.sparseTree (Store.write database batch) nodes'
  recomputed : Recomputed (calculateHash poseidon) 32 reg.sparseTree.depth.toNat
    (dirtyLeaves (operationLeaves reg.metadata.emptyValue operations)) nodes nodes'
  leaves : ∀ index, nodes' 0 index =
    (lastWrite (operationLeaves reg.metadata.emptyValue operations) (UInt32.ofNat index)).getD
      (nodes 0 index)
  entries : ∀ value,
    lastEffect batch (makeLeafIndexKey reg.leafView.registryIndex value) =
      ((lastEntry operations value).map (Option.map LeafView.leafIndexBytes)).or
        (lastEffect before (makeLeafIndexKey reg.leafView.registryIndex value))
  stored : ∀ (level : TreeLevel) (index : TreeLeafIndex),
    level.toNat ≤ reg.sparseTree.depth.toNat →
    Above (dirtyLeaves (operationLeaves reg.metadata.emptyValue operations)) level.toNat
      index.toNat →
    lastEffect batch (makeLeafKey reg.leafView.registryIndex level index) =
      some (some (nodes' level.toNat index.toNat).bytes)
  untouched : ∀ (level : TreeLevel) (index : TreeLeafIndex),
    ¬ (level.toNat ≤ reg.sparseTree.depth.toNat ∧
      Above (dirtyLeaves (operationLeaves reg.metadata.emptyValue operations)) level.toNat
        index.toNat) →
    lastEffect batch (makeLeafKey reg.leafView.registryIndex level index) = none
  frame : ∀ key, NoRegistryKey reg.leafView.registryIndex key →
    lastEffect batch key = lastEffect before key

theorem operationLeaves_inRange {operations : List LeafOperation}
    (built : InitializedRegistry poseidon reg)
    (committable : ∀ op ∈ operations, Committable reg.metadata op) :
    ∀ leaf ∈ operationLeaves reg.metadata.emptyValue operations,
      leaf.index.toNat < 2 ^ reg.sparseTree.depth.toNat := by
  intro leaf member
  rcases List.mem_map.mp member with ⟨op, opMember, rfl⟩
  rw [built.depth_eq]
  exact (committable op opMember).1

/-- The two parts of a commit that succeeds: the queued entries, and over them the buffer the
leaves were inserted into. -/
theorem commitOperations_parts (built : InitializedRegistry poseidon reg)
    {before batch : Batch}
    (noNodes : ∀ level index,
      lastEffect before (makeLeafKey reg.leafView.registryIndex level index) = none)
    {operations : List LeafOperation}
    (run : Read.evalOn database (reg.commitOperations poseidon before operations) =
      .ok batch) :
    ∃ queue filled,
      Queued reg operations before [] queue
        (operationLeaves reg.metadata.emptyValue operations) ∧
      Read.evalOn database (reg.sparseTree.insertLeaves poseidon
        (newBatchWithLeavesBuffer queue reg.metadata.index)
        (operationLeaves reg.metadata.emptyValue operations)) = .ok filled ∧
      Pending reg.leafView.registryIndex queue filled ∧ filled.batch = batch := by
  simp only [ZKCertificateRegistry.commitOperations, Program.bind_eq, Read.evalOn_bind,
    Read.evalOn_ofExcept, except_bind_eq_ok, Read.evalOn_wrapf, except_mapError_eq_ok] at run
  rcases run with ⟨⟨queue, leaves⟩, queuedRun, filled, inserts, run⟩
  have queued := queueOperations_spec queuedRun
  obtain rfl : leaves = operationLeaves reg.metadata.emptyValue operations :=
    queued.leaves_eq
  -- the entries queued first are no nodes, so the buffer starts in step with the batch
  have start : Pending reg.leafView.registryIndex queue
      (newBatchWithLeavesBuffer queue reg.metadata.index) := by
    rw [built.index]
    apply Pending.new
    intro level index
    rw [queued.frame _ fun value => makeLeafKey_ne_makeLeafIndexKey _ _ _ _ _]
    exact noNodes level index
  exact ⟨queue, filled, queued, inserts,
    insertLeaves_preserves Pending.setLeaf trivial start inserts, by simpa using run⟩

/-- A commit touches no key of another kind. -/
theorem commitOperations_frame (built : InitializedRegistry poseidon reg) {batch : Batch}
    {operations : List LeafOperation}
    (run : Read.evalOn database (reg.commitOperations poseidon [] operations) = .ok batch)
    {key : Bytes} (outside : NoRegistryKey reg.leafView.registryIndex key) :
    lastEffect batch key = none := by
  obtain ⟨queue, filled, queued, _, pending, rfl⟩ :=
    commitOperations_parts built (fun _ _ => rfl) run
  rw [pending.frame key outside.1, queued.frame key outside.2]
  rfl

/-- A commit that succeeds inserts the leaves and sets the entries. -/
theorem commitOperations_spec (spec : PoseidonSpec poseidon)
    (built : InitializedRegistry poseidon reg)
    (zeroEmpty : reg.sparseTree.emptyLeaf = 0 →
      ∃ empty, EmptyBranches poseidon reg.sparseTree empty)
    (reads : ReadsNodes poseidon reg.sparseTree database nodes) {before batch : Batch}
    (noNodes : ∀ level index,
      lastEffect before (makeLeafKey reg.leafView.registryIndex level index) = none)
    {operations : List LeafOperation}
    (committable : ∀ op ∈ operations, Committable reg.metadata op)
    (run : Read.evalOn database (reg.commitOperations poseidon before operations) =
      .ok batch) :
    ∃ nodes', CommitEffect poseidon reg database nodes operations before batch nodes' := by
  obtain ⟨queue, filled, queued, inserts, pending, rfl⟩ :=
    commitOperations_parts built noNodes run
  have inserted := insertLeaves_spec reads trivial
    (operationLeaves_inRange built committable) inserts
  have values : ∀ leaf ∈ operationLeaves reg.metadata.emptyValue operations,
      leaf.value ≠ 0 ∨ leaf.value = reg.sparseTree.emptyLeaf := by
    intro leaf member
    rcases List.mem_map.mp member with ⟨op, opMember, rfl⟩
    rw [built.emptyLeaf_eq]
    exact (committable op opMember).2
  refine ⟨overlay filled nodes, ?_⟩
  exact
    { known := queued.known
      reads := pending.readsNodes built.tree.getter reads
        (inserted.storable spec values storable_new) zeroEmpty
      recomputed := inserted.recomputed
      leaves := inserted.overlay_leaf
      entries := fun value => by
        rw [pending.frame _ (makeLeafIndexKey_noNodeKey _ _ _), queued.entries]
      stored := fun level index within above => by
        obtain ⟨value, shown⟩ :=
          Option.isSome_iff_exists.mp (inserted.shown level index within above)
        rw [pending.nodes, overlay_toNat, shown]
        rfl
      untouched := fun level index beside => by
        rw [pending.nodes, inserted.beside level index beside]
        rfl
      frame := fun key outside => by
        rw [pending.frame key outside.1, queued.frame key outside.2] }

/-- Known operations are committed if their leaves can be inserted. -/
theorem commitOperations_of_inserts {operations : List LeafOperation} {before : Batch}
    (known : ∀ op ∈ operations, Known op)
    (inserts : ∀ queue, ∃ filled, Read.evalOn database (reg.sparseTree.insertLeaves poseidon
      (newBatchWithLeavesBuffer queue reg.metadata.index)
      (operationLeaves reg.metadata.emptyValue operations)) = .ok filled) :
    ∃ batch, Read.evalOn database (reg.commitOperations poseidon before operations) =
      .ok batch := by
  obtain ⟨queue, leaves, queuedRun⟩ := queueOperations_total known before []
  obtain rfl : leaves = operationLeaves reg.metadata.emptyValue operations :=
    (queueOperations_spec queuedRun).leaves_eq
  obtain ⟨filled, inserted⟩ := inserts queue
  refine ⟨filled.batch, ?_⟩
  simp only [ZKCertificateRegistry.commitOperations, Program.bind_eq, Read.evalOn_bind,
    Read.evalOn_ofExcept, queuedRun, except_bind_ok, Read.evalOn_wrapf, inserted,
    except_mapError_ok]
  rfl

/-- Known operations with field values commit without an error to a tree of field elements. -/
theorem commitOperations_total (spec : PoseidonSpec poseidon)
    (built : InitializedRegistry poseidon reg)
    (reads : ReadsNodes poseidon reg.sparseTree database nodes)
    (field : ∀ level index, InTree 32 reg.sparseTree.depth.toNat level index →
      InField (nodes level index))
    {operations : List LeafOperation} (known : ∀ op ∈ operations, Known op)
    (committable : ∀ op ∈ operations, Committable reg.metadata op)
    (values : ∀ op ∈ operations, InField (newLeaf reg.metadata.emptyValue op))
    (before : Batch) :
    ∃ batch, Read.evalOn database (reg.commitOperations poseidon before operations) =
      .ok batch := by
  refine commitOperations_of_inserts known fun queue => ?_
  have accepted : ∀ leaf ∈ operationLeaves reg.metadata.emptyValue operations,
      InField leaf.value := by
    intro leaf member
    rcases List.mem_map.mp member with ⟨op, opMember, rfl⟩
    exact values op opMember
  have shows : ShowsAccepted reg.sparseTree nodes InField
      (newBatchWithLeavesBuffer queue reg.metadata.index) := field
  obtain ⟨filled, inserts, _⟩ := insertLeaves_total reads spec.closed trivial
    (operationLeaves_inRange built committable) accepted shows
  exact ⟨filled, inserts⟩

end Registry

end MerkleProofService
