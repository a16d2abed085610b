/-
Module: MerkleProofService.Proofs.ProofPaths
Layer: Proofs
Purpose: The proofs the tree hands out.  `CreateProof` reads the storage with a parity test and
  index arithmetic, `createProofWithBatch` reads an overlay with an exclusive or; over a table of
  nodes both return the leaf, its siblings up to the root, and the root.
Imports: Proofs.EmptyBranches, Mathlib bitwise operations
Trusted boundary: none
Main exports: proofOf, evalOn_createProof, evalOn_createProofWithBatch, VerifiesAgainst,
  proofOf_verifies
-/
import MerkleProofService.Proofs.EmptyBranches
import Mathlib.Data.Nat.Bitwise

namespace MerkleProofService

open Library
open LawfulBuffer (content Over)

/-- The proof a table of nodes gives for a leaf. -/
def proofOf (depth : Nat) (nodes : Nat → Nat → U256) (index : TreeLeafIndex) : MerkleProof where
  leaf := nodes 0 index.toNat
  path := siblings nodes depth 0 index.toNat
  index := index
  root := nodes depth 0

/-- Folding the leaf with the path of the proof, from the leaf up, yields the root. -/
def VerifiesAgainst (poseidon : PoseidonHash) (leaf : U256) (path : List U256)
    (index : TreeLeafIndex) (root : U256) : Prop :=
  foldPath (calculateHash poseidon) leaf path index.toNat = .ok root

instance (poseidon : PoseidonHash) (leaf : U256) (path : List U256) (index : TreeLeafIndex)
    (root : U256) : Decidable (VerifiesAgainst poseidon leaf path index root) :=
  inferInstanceAs (Decidable (foldPath (calculateHash poseidon) leaf path index.toNat =
    .ok root))

section Paths

variable {poseidon : PoseidonHash} {tree : SparseMerkleTree} {database : Database}
variable {nodes : Nat → Nat → U256}

/-- Every proof read off a consistent table verifies. -/
theorem proofOf_verifies {depth : TreeLevel}
    (consistent : Consistent (calculateHash poseidon) 32 depth.toNat nodes)
    {index : TreeLeafIndex} (inRange : index.toNat < 2 ^ depth.toNat) :
    VerifiesAgainst poseidon (proofOf depth.toNat nodes index).leaf
      (proofOf depth.toNat nodes index).path index (proofOf depth.toNat nodes index).root :=
  consistent.foldPath_siblings (by decide) (leaf_inTree inRange)

/-! ### Proofs from the storage -/

theorem toNat_add_one_of_even {index : TreeLeafIndex} (even : index.toNat % 2 = 0) :
    (index + 1).toNat = siblingIndex index.toNat := by
  have bound := index.toNat_lt
  rw [siblingIndex, if_pos even, UInt32.toNat_add]
  simp
  omega

theorem toNat_sub_one_of_odd {index : TreeLeafIndex} (odd : index.toNat % 2 ≠ 0) :
    (index - 1).toNat = siblingIndex index.toNat := by
  rw [siblingIndex, if_neg odd,
    UInt32.toNat_sub_of_le _ _ (by rw [UInt32.le_iff_toNat_le]; simp; omega)]
  simp

theorem toNat_xor_one (index : TreeLeafIndex) :
    (index ^^^ 1).toNat = siblingIndex index.toNat := by
  rw [UInt32.toNat_xor, siblingIndex]
  by_cases even : index.toNat % 2 = 0
  · rw [if_pos even]
    exact Nat.xor_one_of_even (Nat.even_iff.mpr even)
  · rw [if_neg even]
    exact Nat.xor_one_of_odd (Nat.odd_iff.mpr (by omega))

/-- On every level below the root the storage shows what the table says of the node above the leaf
and of its sibling. -/
def ReadsUp (poseidon : PoseidonHash) (tree : SparseMerkleTree) (database : Database)
    (nodes : Nat → Nat → U256) (leaf : TreeLeafIndex) : Prop :=
  ∀ (level : TreeLevel) (index : TreeLeafIndex), level.toNat < tree.depth.toNat →
    index.toNat / 2 = leaf.toNat / 2 ^ (level.toNat + 1) →
    Read.evalOn database (tree.getLeafFromStorage poseidon level index) =
      .ok (nodes level.toNat index.toNat)

theorem ReadsNodes.readsUp (reads : ReadsNodes poseidon tree database nodes)
    {leaf : TreeLeafIndex} (inRange : leaf.toNat < 2 ^ tree.depth.toNat) :
    ReadsUp poseidon tree database nodes leaf := by
  intro level index below half
  refine reads level index ⟨below.le, ?_⟩
  have fits : index.toNat < 2 ^ 32 := index.toNat_lt
  have size : 2 ^ tree.depth.toNat =
      2 ^ (level.toNat + 1) * 2 ^ (tree.depth.toNat - (level.toNat + 1)) := by
    rw [← pow_add, Nat.add_sub_cancel' below]
  have parent : index.toNat / 2 < 2 ^ (tree.depth.toNat - (level.toNat + 1)) := by
    rw [half]
    exact Nat.div_lt_of_lt_mul (size ▸ inRange)
  have double : 2 ^ (tree.depth.toNat - level.toNat) =
      2 ^ (tree.depth.toNat - (level.toNat + 1)) * 2 := by
    rw [← pow_succ]
    congr 1
    omega
  have within : index.toNat < 2 ^ (tree.depth.toNat - level.toNat) := by omega
  rcases Nat.le_total 32 (tree.depth.toNat - level.toNat) with wide | narrow
  · rwa [Nat.min_eq_left wide]
  · rwa [Nat.min_eq_right narrow]

theorem evalOn_createProofPath {leaf : TreeLeafIndex}
    (reads : ReadsUp poseidon tree database nodes leaf) :
    ∀ {count : Nat} {level : TreeLevel} {index : TreeLeafIndex},
      level.toNat + count = tree.depth.toNat → index.toNat = leaf.toNat / 2 ^ level.toNat →
      Read.evalOn database (tree.createProofPath poseidon count level index) =
        .ok (siblings nodes count level.toNat index.toNat)
  | 0, _, _, _, _ => rfl
  | count + 1, level, index, reach, upon => by
      have below : level.toNat < tree.depth.toNat := by omega
      have up := toNat_succ_level below
      have half := uint32_div_two index
      have above : index.toNat / 2 = leaf.toNat / 2 ^ (level.toNat + 1) := by
        rw [upon, Nat.div_div_eq_div_mul, pow_succ]
      have rest := @evalOn_createProofPath leaf reads count (level + 1) (index / 2) (by omega)
        (by rw [up, half, above])
      rw [up, half] at rest
      have beside : siblingIndex index.toNat / 2 = index.toNat / 2 := by
        unfold siblingIndex
        split <;> omega
      rw [SparseMerkleTree.createProofPath, siblings]
      simp only [Program.bind_eq, Read.evalOn_bind, Read.evalOn_ctxDone, except_bind_ok]
      by_cases even : index % 2 = 0
      · have sibling := toNat_add_one_of_even ((uint32_mod_two_eq_zero index).mp even)
        rw [if_pos even, Read.evalOn_bind, Read.evalOn_wrapf,
          reads level (index + 1) below (by rw [sibling, beside, above]),
          sibling, except_mapError_ok, except_bind_ok, Read.evalOn_bind, rest]
        rfl
      · have sibling := toNat_sub_one_of_odd fun parity =>
          even ((uint32_mod_two_eq_zero index).mpr parity)
        rw [if_neg even, Read.evalOn_bind, Read.evalOn_wrapf,
          reads level (index - 1) below (by rw [sibling, beside, above]),
          sibling, except_mapError_ok, except_bind_ok, Read.evalOn_bind, rest]
        rfl

theorem evalOn_getRoot (reads : ReadsNodes poseidon tree database nodes) :
    Read.evalOn database (tree.getRoot poseidon) = .ok (nodes tree.depth.toNat 0) :=
  reads tree.depth 0 InTree.root

/-- A proof only reads the leaf, the root and the nodes beside the way between them. -/
theorem evalOn_createProof_of_reads {leaf : TreeLeafIndex}
    (reads : ReadsUp poseidon tree database nodes leaf)
    (leafRead : Read.evalOn database (tree.getLeafFromStorage poseidon 0 leaf) =
      .ok (nodes 0 leaf.toNat))
    (rootRead : Read.evalOn database (tree.getRoot poseidon) =
      .ok (nodes tree.depth.toNat 0)) :
    Read.evalOn database (tree.createProof poseidon leaf) =
      .ok (proofOf tree.depth.toNat nodes leaf) := by
  have ground : leaf.toNat = leaf.toNat / 2 ^ (0 : TreeLevel).toNat := by simp
  rw [SparseMerkleTree.createProof]
  simp only [Program.bind_eq, Read.evalOn_bind, Read.evalOn_wrapf]
  rw [leafRead, except_mapError_ok, except_bind_ok,
    evalOn_createProofPath reads (Nat.zero_add _) ground, except_bind_ok, rootRead,
    except_mapError_ok, except_bind_ok]
  rfl

/-- `CreateProof` returns the proof of the table the storage holds. -/
theorem evalOn_createProof (reads : ReadsNodes poseidon tree database nodes)
    {index : TreeLeafIndex} (inRange : index.toNat < 2 ^ tree.depth.toNat) :
    Read.evalOn database (tree.createProof poseidon index) =
      .ok (proofOf tree.depth.toNat nodes index) :=
  evalOn_createProof_of_reads (reads.readsUp inRange) (reads 0 index (leaf_inTree inRange))
    (evalOn_getRoot reads)

/-! ### Proofs from an overlay -/

variable {Buffer : Type} [TreeLeafGetterSetter Buffer] [LawfulBuffer Buffer] {batch : Buffer}

theorem evalOn_createProofWithBatchPath (reads : ReadsNodes poseidon tree database nodes)
    (backed : Over batch tree.storageLeafGetter) :
    ∀ {count : Nat} {level : TreeLevel} {index : TreeLeafIndex},
      level.toNat + count = tree.depth.toNat →
      InTree 32 tree.depth.toNat level.toNat index.toNat →
      Read.evalOn database (tree.createProofWithBatchPath poseidon batch count level index) =
        .ok (siblings (overlay batch nodes) count level.toNat index.toNat)
  | 0, _, _, _, _ => rfl
  | count + 1, level, index, reach, inside => by
      have below : level.toNat < tree.depth.toNat := by omega
      have up := toNat_succ_level below
      have half := uint32_div_two index
      have rest := @evalOn_createProofWithBatchPath reads backed count (level + 1) (index / 2)
        (by omega) (by rw [up, half]; exact inside.parent below)
      rw [up, half] at rest
      have sibling := toNat_xor_one index
      rw [SparseMerkleTree.createProofWithBatchPath, siblings]
      simp only [Program.bind_eq, Read.evalOn_bind, Read.evalOn_ctxDone, except_bind_ok,
        Read.evalOn_wrapf]
      rw [evalOn_getLeafFromBatchOrStorage reads backed
        (by rw [sibling]; exact inside.sibling (by decide) below), sibling, except_mapError_ok,
        except_bind_ok, rest]
      rfl

/-- `createProofWithBatch` returns the proof of the overlay. -/
theorem evalOn_createProofWithBatch (reads : ReadsNodes poseidon tree database nodes)
    (backed : Over batch tree.storageLeafGetter) {index : TreeLeafIndex}
    (inRange : index.toNat < 2 ^ tree.depth.toNat) :
    Read.evalOn database (tree.createProofWithBatch poseidon batch index) =
      .ok (proofOf tree.depth.toNat (overlay batch nodes) index) := by
  have inside : InTree 32 tree.depth.toNat (0 : TreeLevel).toNat index.toNat := leaf_inTree inRange
  rw [SparseMerkleTree.createProofWithBatch]
  simp only [Program.bind_eq, Read.evalOn_bind, Read.evalOn_wrapf]
  rw [evalOn_getLeafFromBatchOrStorage reads backed inside, except_mapError_ok, except_bind_ok,
    evalOn_createProofWithBatchPath reads backed (Nat.zero_add _) inside, except_bind_ok,
    evalOn_getLeafFromBatchOrStorage reads backed InTree.root, except_mapError_ok,
    except_bind_ok]
  rfl

end Paths

end MerkleProofService
