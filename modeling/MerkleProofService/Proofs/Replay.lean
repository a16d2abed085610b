/-
Module: MerkleProofService.Proofs.Replay
Layer: Proofs
Purpose: The registry entries that a list of operations leaves behind, byte for byte.  They depend
  only on the last operation on every slot and on every value, so they do not depend on how the
  list was cut into commits, and committing its tail once more changes nothing.
Imports: Proofs.JobCommits
Trusted boundary: none
Main exports: SameEffect, SameEffect.replay, SameRegistry, Replayed, Replayed.commit,
  Replayed.congr, Replayed.unique, Replayed.commitEach, AppliedOnce, Replayed.appliedOnce
-/
import MerkleProofService.Proofs.JobCommits

namespace MerkleProofService

open Library

/-! ### Operations with the same effect -/

/-- The last operation on every slot leaves the same leaf, and the last operation on every value
the same entry. -/
structure SameEffect (emptyValue : U256) (first second : List LeafOperation) : Prop where
  leaves : ∀ index, lastWrite (operationLeaves emptyValue first) index =
    lastWrite (operationLeaves emptyValue second) index
  entries : ∀ value, lastEntry first value = lastEntry second value

theorem operationLeaves_append (emptyValue : U256) (first second : List LeafOperation) :
    operationLeaves emptyValue (first ++ second) =
      operationLeaves emptyValue first ++ operationLeaves emptyValue second :=
  List.map_append

/-- Operations that have just been committed may be committed again with those that follow. -/
theorem SameEffect.replay (emptyValue : U256) (before replayed after : List LeafOperation) :
    SameEffect emptyValue ((before ++ replayed) ++ (replayed ++ after))
      ((before ++ replayed) ++ after) where
  leaves := fun index => by
    simp only [operationLeaves_append, lastWrite_append]
    cases lastWrite (operationLeaves emptyValue after) index with
    | some value => rfl
    | none => cases lastWrite (operationLeaves emptyValue replayed) index <;> rfl
  entries := fun value => by
    simp only [lastEntry_append]
    cases lastEntry after value with
    | some entry => rfl
    | none => cases lastEntry replayed value <;> rfl

theorem mem_dirtyLeaves_iff {leaves : List TreeLeaf} {number : Nat} :
    number ∈ dirtyLeaves leaves ↔
      ∃ index : TreeLeafIndex, index.toNat = number ∧ (lastWrite leaves index).isSome := by
  constructor
  · intro member
    obtain ⟨leaf, _, rfl⟩ := id member
    exact ⟨leaf.index, rfl, lastWrite_isSome.mpr member⟩
  · rintro ⟨index, rfl, written⟩
    exact lastWrite_isSome.mp written

theorem SameEffect.dirtyLeaves_eq {emptyValue : U256} {first second : List LeafOperation}
    (same : SameEffect emptyValue first second) :
    dirtyLeaves (operationLeaves emptyValue first) =
      dirtyLeaves (operationLeaves emptyValue second) := by
  ext number
  simp only [mem_dirtyLeaves_iff, same.leaves]

/-! ### The entries of a registry -/

/-- The two databases have the same node and value-to-index entries of the registry. -/
structure SameRegistry (registryIndex : RegistryIndex) (first second : Database) : Prop where
  nodes : ∀ level index, first.lookup (makeLeafKey registryIndex level index) =
    second.lookup (makeLeafKey registryIndex level index)
  entries : ∀ value, first.lookup (makeLeafIndexKey registryIndex value) =
    second.lookup (makeLeafIndexKey registryIndex value)

/-- The entries of the registry are those the operations leave in an empty registry. -/
structure Replayed (poseidon : PoseidonHash) (reg : ZKCertificateRegistry) (database : Database)
    (operations : List LeafOperation) (nodes : Nat → Nat → U256) : Prop where
  inRange : ∀ op ∈ operations, op.leaf.index.toNat < 2 ^ reg.sparseTree.depth.toNat
  reads : ReadsNodes poseidon reg.sparseTree database nodes
  consistent : Consistent (calculateHash poseidon) 32 reg.sparseTree.depth.toNat nodes
  leaves : ∀ index : TreeLeafIndex, nodes 0 index.toNat =
    (lastWrite (operationLeaves reg.metadata.emptyValue operations) index).getD
      reg.metadata.emptyValue
  entries : ∀ value, database.lookup (makeLeafIndexKey reg.leafView.registryIndex value) =
    ((lastEntry operations value).getD none).map LeafView.leafIndexBytes
  stored : ∀ (level : TreeLevel) (index : TreeLeafIndex),
    level.toNat ≤ reg.sparseTree.depth.toNat →
    Above (dirtyLeaves (operationLeaves reg.metadata.emptyValue operations)) level.toNat
      index.toNat →
    database.lookup (makeLeafKey reg.leafView.registryIndex level index) =
      some (nodes level.toNat index.toNat).bytes
  absent : ∀ (level : TreeLevel) (index : TreeLeafIndex),
    ¬ (level.toNat ≤ reg.sparseTree.depth.toNat ∧
      Above (dirtyLeaves (operationLeaves reg.metadata.emptyValue operations)) level.toNat
        index.toNat) →
    database.lookup (makeLeafKey reg.leafView.registryIndex level index) = none

section Replayed

variable {poseidon : PoseidonHash} {reg : ZKCertificateRegistry} {database : Database}
variable {operations : List LeafOperation} {nodes : Nat → Nat → U256}

/-- A registry without entries is what no operations leave. -/
theorem replayed_empty (spec : PoseidonSpec poseidon)
    (built : InitializedRegistry poseidon reg) (contract : ContractMetadata reg.metadata)
    (empty : SameRegistry reg.leafView.registryIndex database ∅) :
    ∃ nodes, Replayed poseidon reg database [] nodes := by
  obtain ⟨nodes, sound, ground⟩ := built.soundNodes spec contract
  refine ⟨nodes, ?_⟩
  exact
    { inRange := fun _ member => (nomatch member)
      reads := sound.reads.congr built.tree.getter fun level index => by
        rw [storedLeaf, storedLeaf, empty.nodes]
      consistent := sound.consistent
      leaves := fun index => ground index.toNat
      entries := fun value => (empty.entries value).trans (Finmap.lookup_empty _)
      stored := fun level index _ above => by
        rcases above with ⟨leaf, ⟨_, member, _⟩, _⟩
        cases member
      absent := fun level index _ => (empty.nodes level index).trans (Finmap.lookup_empty _) }

/-- Operations with the same effect leave the same entries. -/
theorem Replayed.congr {other : List LeafOperation}
    (replayed : Replayed poseidon reg database operations nodes)
    (same : SameEffect reg.metadata.emptyValue operations other)
    (inRange : ∀ op ∈ other, op.leaf.index.toNat < 2 ^ reg.sparseTree.depth.toNat) :
    Replayed poseidon reg database other nodes where
  inRange := inRange
  reads := replayed.reads
  consistent := replayed.consistent
  leaves := fun index => by rw [← same.leaves, replayed.leaves]
  entries := fun value => by rw [← same.entries, replayed.entries]
  stored := by
    rw [← same.dirtyLeaves_eq]
    exact replayed.stored
  absent := by
    rw [← same.dirtyLeaves_eq]
    exact replayed.absent

/-- Other keys may be written. -/
theorem Replayed.foreign (built : InitializedRegistry poseidon reg)
    (replayed : Replayed poseidon reg database operations nodes) {rest : Batch}
    (foreign : ∀ key, ¬ NoRegistryKey reg.leafView.registryIndex key →
      lastEffect rest key = none) :
    Replayed poseidon reg (Store.write database rest) operations nodes := by
  have nodeKept : ∀ level index,
      (Store.write database rest).lookup
          (makeLeafKey reg.leafView.registryIndex level index) =
        database.lookup (makeLeafKey reg.leafView.registryIndex level index) :=
    fun level index => Store.lookup_write_of_none
      (foreign _ fun outside => outside.1 level index rfl)
  exact
    { inRange := replayed.inRange
      reads := replayed.reads.congr built.tree.getter fun level index => by
        rw [storedLeaf, storedLeaf, nodeKept]
      consistent := replayed.consistent
      leaves := replayed.leaves
      entries := fun value => by
        rw [Store.lookup_write_of_none (foreign _ fun outside => outside.2 value rfl)]
        exact replayed.entries value
      stored := fun level index within above => by
        rw [nodeKept]
        exact replayed.stored level index within above
      absent := fun level index beside => by
        rw [nodeKept]
        exact replayed.absent level index beside }

/-- A commit adds its operations to those whose entries the database holds. -/
theorem Replayed.commit (spec : PoseidonSpec poseidon)
    (built : InitializedRegistry poseidon reg) (contract : ContractMetadata reg.metadata)
    (replayed : Replayed poseidon reg database operations nodes)
    {committed : List LeafOperation}
    (committable : ∀ op ∈ committed, Committable reg.metadata op) {batch : Batch}
    (run : Read.evalOn database (reg.commitOperations poseidon [] committed) = .ok batch) :
    ∃ nodes', Replayed poseidon reg (Store.write database batch) (operations ++ committed)
      nodes' := by
  obtain ⟨nodes', effect⟩ := commitOperations_spec spec built
    (fun _ => built.emptyBranches spec contract) replayed.reads (fun _ _ => rfl) committable run
  have dirty : dirtyLeaves (operationLeaves reg.metadata.emptyValue (operations ++ committed)) =
      dirtyLeaves (operationLeaves reg.metadata.emptyValue operations) ∪
        dirtyLeaves (operationLeaves reg.metadata.emptyValue committed) := by
    rw [operationLeaves_append, dirtyLeaves_append]
  refine ⟨nodes', ?_⟩
  exact
    { inRange := fun op member => by
        rcases List.mem_append.mp member with old | new
        · exact replayed.inRange op old
        · rw [built.depth_eq]
          exact (committable op new).1
      reads := effect.reads
      consistent := effect.recomputed.consistent replayed.consistent
      leaves := fun index => by
        rw [effect.leaves, UInt32.ofNat_toNat, replayed.leaves, operationLeaves_append,
          lastWrite_append]
        cases lastWrite (operationLeaves reg.metadata.emptyValue committed) index <;> rfl
      entries := fun value => by
        rw [Store.lookup_write, effect.entries, replayed.entries, lastEntry_append,
          lastEffect_nil, Option.or_none]
        cases lastEntry committed value <;> rfl
      stored := fun level index within above => by
        rw [Store.lookup_write]
        by_cases new : Above (dirtyLeaves (operationLeaves reg.metadata.emptyValue committed))
            level.toNat index.toNat
        · rw [effect.stored level index within new]
          rfl
        · -- the node was stored before and is not above a leaf of this commit
          rw [dirty, above_union] at above
          have old := above.resolve_right new
          obtain ⟨number, ⟨leaf, member, rfl⟩, position⟩ := id old
          rcases List.mem_map.mp member with ⟨op, opMember, rfl⟩
          have inside := (leaf_inTree (replayed.inRange op opMember)).above within
          rw [position] at inside
          rw [effect.untouched level index fun both => new both.2, Option.getD_none,
            replayed.stored level index within old, effect.recomputed.beside inside new]
      absent := fun level index beside => by
        rw [dirty, above_union] at beside
        rw [Store.lookup_write,
          effect.untouched level index fun both => beside ⟨both.1, Or.inr both.2⟩]
        exact replayed.absent level index fun both => beside ⟨both.1, Or.inl both.2⟩ }

/-- The operations determine the entries of the registry. -/
theorem Replayed.unique {other : Database} {nodes' : Nat → Nat → U256}
    (shallow : reg.sparseTree.depth.toNat ≤ 32)
    (first : Replayed poseidon reg database operations nodes)
    (second : Replayed poseidon reg other operations nodes') :
    SameRegistry reg.leafView.registryIndex database other where
  entries := fun value => (first.entries value).trans (second.entries value).symm
  nodes := fun level index => by
    by_cases both : level.toNat ≤ reg.sparseTree.depth.toNat ∧
        Above (dirtyLeaves (operationLeaves reg.metadata.emptyValue operations)) level.toNat
          index.toNat
    · have inside : InTree 32 reg.sparseTree.depth.toNat level.toNat index.toNat := by
        rcases both.2 with ⟨number, ⟨leaf, member, rfl⟩, position⟩
        rcases List.mem_map.mp member with ⟨op, opMember, rfl⟩
        rw [← position]
        exact (leaf_inTree (first.inRange op opMember)).above both.1
      have leaves : ∀ number, number < 2 ^ reg.sparseTree.depth.toNat →
          nodes 0 number = nodes' 0 number := by
        intro number bound
        have fits : number < 2 ^ 32 :=
          Nat.lt_of_lt_of_le bound (Nat.pow_le_pow_right (by decide) shallow)
        have leaf := (first.leaves (UInt32.ofNat number)).trans
          (second.leaves (UInt32.ofNat number)).symm
        rw [UInt32.toNat_ofNat_of_lt' fits] at leaf
        exact leaf
      have reference : referenceNode (calculateHash poseidon) (nodes 0) level.toNat index.toNat =
          referenceNode (calculateHash poseidon) (nodes' 0) level.toNat index.toNat :=
        referenceNode_congr shallow leaves inside
      rw [first.consistent.eq_referenceNode shallow inside,
        second.consistent.eq_referenceNode shallow inside] at reference
      rw [first.stored level index both.1 both.2, second.stored level index both.1 both.2,
        Except.ok.inj reference]
    · rw [first.absent level index both, second.absent level index both]

/-- Operations with field values leave a tree of field elements. -/
theorem Replayed.field (spec : PoseidonSpec poseidon)
    (built : InitializedRegistry poseidon reg) (contract : ContractMetadata reg.metadata)
    (replayed : Replayed poseidon reg database operations nodes)
    (values : ∀ op ∈ operations, InField (newLeaf reg.metadata.emptyValue op)) {level index : Nat}
    (inside : InTree 32 reg.sparseTree.depth.toNat level index) :
    InField (nodes level index) := by
  refine replayed.consistent.forall_nodes (built.shallow contract) ?_ ?_ inside
  · intro left right value leftField rightField hashed
    obtain ⟨other, again, field⟩ := spec.closed left right leftField rightField
    rw [hashed] at again
    exact Except.ok.inj again ▸ field
  · intro number leaf
    have fits : number < 2 ^ 32 :=
      Nat.lt_of_lt_of_le leaf.2 (Nat.pow_le_pow_right (by decide) (Nat.min_le_left _ _))
    have shown := replayed.leaves (UInt32.ofNat number)
    rw [UInt32.toNat_ofNat_of_lt' fits] at shown
    rw [shown]
    cases written : lastWrite (operationLeaves reg.metadata.emptyValue operations)
        (UInt32.ofNat number) with
    | none => exact contract.emptyField
    | some value =>
        obtain ⟨leaf, member, _, rfl⟩ := lastWrite_mem written
        rcases List.mem_map.mp member with ⟨op, opMember, rfl⟩
        exact values op opMember

/-- Operations committed one after the other: each commit succeeds. -/
theorem Replayed.commitEach (spec : PoseidonSpec poseidon)
    (built : InitializedRegistry poseidon reg) (contract : ContractMetadata reg.metadata)
    (replayed : Replayed poseidon reg database operations nodes) {more : List LeafOperation}
    (known : ∀ op ∈ more, Known op)
    (committable : ∀ op ∈ more, Committable reg.metadata op)
    (values : ∀ op ∈ operations ++ more, InField (newLeaf reg.metadata.emptyValue op)) :
    ∃ reached nodes',
      commitAllOperations poseidon reg (more.map fun op => [op]) database = .ok reached ∧
      Replayed poseidon reg reached (operations ++ more) nodes' := by
  induction more generalizing database operations nodes with
  | nil =>
      rw [List.append_nil]
      exact ⟨database, nodes, rfl, replayed⟩
  | cons op more ih =>
      have alone : ∀ other ∈ [op], Committable reg.metadata other := by
        intro other member
        exact List.mem_singleton.mp member ▸ committable op List.mem_cons_self
      obtain ⟨batch, run⟩ := commitOperations_total spec built replayed.reads
        (fun _ _ => replayed.field spec built contract fun other member =>
          values other (List.mem_append_left _ member))
        (fun other member => List.mem_singleton.mp member ▸ known op List.mem_cons_self) alone
        (fun other member => values other (List.mem_append_right _
          (List.mem_singleton.mp member ▸ List.mem_cons_self))) []
      obtain ⟨_, next⟩ := replayed.commit spec built contract alone run
      have cut : operations ++ op :: more = (operations ++ [op]) ++ more := by
        rw [List.append_assoc]
        rfl
      rw [cut] at values ⊢
      obtain ⟨reached, nodes', rest, last⟩ := ih next
        (fun other member => known other (List.mem_cons_of_mem op member))
        (fun other member => committable other (List.mem_cons_of_mem op member)) values
      refine ⟨reached, nodes', ?_, last⟩
      rw [List.map_cons, commitAllOperations, run, except_bind_ok]
      exact rest

/-- The entries of the registry are those of the operations committed one by one, in order and
once each, to an empty database. -/
def AppliedOnce (poseidon : PoseidonHash) (reg : ZKCertificateRegistry)
    (operations : List LeafOperation) (database : Database) : Prop :=
  ∃ reached,
    commitAllOperations poseidon reg (operations.map fun op => [op]) ∅ = .ok reached ∧
    SameRegistry reg.leafView.registryIndex database reached

theorem Replayed.appliedOnce (spec : PoseidonSpec poseidon)
    (built : InitializedRegistry poseidon reg) (contract : ContractMetadata reg.metadata)
    (replayed : Replayed poseidon reg database operations nodes)
    (known : ∀ op ∈ operations, Known op)
    (committable : ∀ op ∈ operations, Committable reg.metadata op)
    (values : ∀ op ∈ operations, InField (newLeaf reg.metadata.emptyValue op)) :
    AppliedOnce poseidon reg operations database := by
  obtain ⟨empty, none⟩ :=
    replayed_empty spec built contract (⟨fun _ _ => rfl, fun _ => rfl⟩ : SameRegistry _ ∅ ∅)
  obtain ⟨reached, _, run, once⟩ := none.commitEach spec built contract known committable values
  exact ⟨reached, run, replayed.unique (built.shallow contract) once⟩

end Replayed

end MerkleProofService
