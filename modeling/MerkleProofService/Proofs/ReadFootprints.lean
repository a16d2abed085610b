/-
Module: MerkleProofService.Proofs.ReadFootprints
Layer: Proofs
Purpose: Which entries a computation reads, whatever it is answered.  Reading a node, the root or a
  proof of a tree asks for node entries of its registry only.
Imports: ZkRegistry.SparseTree
Trusted boundary: none
Main exports: OnTree, getLeafFromStorage_asks, createProof_asks
-/
import MerkleProofService.ZkRegistry.SparseTree

namespace MerkleProofService

open Library

/-- A query for a tree node of the registry, or for the state of the context. -/
def OnTree (registryIndex : RegistryIndex) (query : ReadQuery) : Prop :=
  query = .ctxDone ∨ ∃ level index, query = .get (makeLeafKey registryIndex level index)

section Reads

variable {poseidon : PoseidonHash} {tree : SparseMerkleTree} {registryIndex : RegistryIndex}
variable {α : Type} {allowed : ReadQuery → Prop} {post : α → Prop}

theorem ctxDone_asks : Read.ctxDone.Asks (OnTree registryIndex) fun _ => True := by
  refine ⟨Or.inl rfl, fun answer => ?_⟩
  cases answer with
  | none => exact trivial
  | some err => exact trivial

theorem tryRun_asks {computation : Read α} (asks : computation.Asks allowed post) :
    computation.tryRun.Asks allowed fun outcome => ∀ value, outcome = .ok value → post value := by
  apply asks.attempt.bind
  intro outcome holds
  cases outcome with
  | ok value => exact holds
  | error err =>
      cases err with
      | panic reason => exact trivial
      | notFound => exact holds
      | message text => exact holds
      | wrap text cause => exact holds

theorem getLeaf_asks (level : TreeLevel) (index : TreeLeafIndex) :
    ((LeafView.getter ⟨registryIndex⟩).getLeaf level index).Asks (OnTree registryIndex)
      fun _ => True := by
  refine ⟨Or.inr ⟨level, index, rfl⟩, fun answer => ?_⟩
  cases answer with
  | error err => exact trivial
  | ok leafBytes =>
      cases leafBytes with
      | nil => exact trivial
      | cons byte rest => exact trivial

theorem getLeafFromStorage_asks
    (getter : tree.storageLeafGetter = LeafView.getter ⟨registryIndex⟩) (level : TreeLevel)
    (index : TreeLeafIndex) :
    (tree.getLeafFromStorage poseidon level index).Asks (OnTree registryIndex)
      fun _ => True := by
  unfold SparseMerkleTree.getLeafFromStorage
  split
  · exact trivial
  · rw [getter]
    apply (tryRun_asks (getLeaf_asks level index)).bind
    intro outcome _
    cases outcome with
    | ok leaf => exact trivial
    | error err =>
        change Program.Asks _ _ (if !err.isNotFound then _ else _)
        split
        · exact trivial
        · exact Program.asks_ofExcept fun _ _ => trivial

theorem createProofPath_asks
    (getter : tree.storageLeafGetter = LeafView.getter ⟨registryIndex⟩) (count : Nat)
    (level : TreeLevel) (index : TreeLeafIndex) :
    (tree.createProofPath poseidon count level index).Asks (OnTree registryIndex)
      fun _ => True := by
  induction count generalizing level index with
  | zero => exact trivial
  | succ count ih =>
      apply ctxDone_asks.bind
      intro _ _
      have rest : ∀ element : U256, Program.Asks (OnTree registryIndex) (fun _ => True)
          ((tree.createProofPath poseidon count (level + 1) (index / 2)).bind fun path =>
            .done (element :: path)) :=
        fun element => (ih (level + 1) (index / 2)).bind fun _ _ => trivial
      by_cases even : index % 2 = 0
      · simp only [if_pos even]
        exact (getLeafFromStorage_asks getter level _).mapFail.bind fun element _ => rest element
      · simp only [if_neg even]
        exact (getLeafFromStorage_asks getter level _).mapFail.bind fun element _ => rest element

theorem createProof_asks
    (getter : tree.storageLeafGetter = LeafView.getter ⟨registryIndex⟩) (index : TreeLeafIndex) :
    (tree.createProof poseidon index).Asks (OnTree registryIndex) fun _ => True := by
  apply (getLeafFromStorage_asks getter 0 index).mapFail.bind
  intro leaf _
  apply (createProofPath_asks getter tree.depth.toNat 0 index).bind
  intro path _
  apply (getLeafFromStorage_asks getter tree.depth 0).mapFail.bind
  intro root _
  exact trivial

end Reads

end MerkleProofService
