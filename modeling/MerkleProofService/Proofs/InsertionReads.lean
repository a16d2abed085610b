/-
Module: MerkleProofService.Proofs.InsertionReads
Layer: Proofs
Purpose: What an insertion that succeeds has read: both children of every node it hashed were set
  in the buffer or could be read from the storage.
Imports: Proofs.Insertion
Trusted boundary: none
Main exports: insertLeaves_reads
-/
import MerkleProofService.Proofs.Insertion

namespace MerkleProofService

open Library
open TreeLeafGetterSetter (setLeaf)
open LawfulBuffer (content Over)

section Reads

variable {Buffer : Type} [TreeLeafGetterSetter Buffer] [LawfulBuffer Buffer]
variable {poseidon : PoseidonHash} {tree : SparseMerkleTree} {database : Database}

/-- A pass over one level reads the children of every parent it hashes. -/
theorem insertLevel_reads {level : TreeLevel} (below : level.toNat < tree.depth.toNat)
    {next' : List TreeLeaf} {batch' : Buffer} :
    ∀ {leaves : List TreeLeaf} {updated : Finset TreeLeafIndex} {next : List TreeLeaf}
      {batch : Buffer}, Over batch tree.storageLeafGetter →
      Read.evalOn database (tree.insertLevel poseidon level leaves updated next batch) =
        .ok (next', batch') →
      ∀ leaf ∈ leaves, leaf.index / 2 ∉ updated →
        ∀ child : TreeLeafIndex, child / 2 = leaf.index / 2 →
          (content batch level child).isSome ∨ Readable poseidon tree database level child
  | [], _, _, _, _, _, leaf, member, _, _, _ => absurd member List.not_mem_nil
  | first :: leaves, updated, next, batch, backed, run, leaf, member, fresh, child, sibling => by
      rw [SparseMerkleTree.insertLevel] at run
      by_cases seen : first.index / 2 ∈ updated
      · rw [if_pos seen] at run
        have later : leaf ∈ leaves := by
          rcases List.mem_cons.mp member with rfl | later
          · exact absurd seen fresh
          · exact later
        exact insertLevel_reads below backed run leaf later fresh child sibling
      · rw [if_neg seen, Program.bind_eq, Read.evalOn_bind, Read.evalOn_wrapf,
          except_bind_eq_ok] at run
        rcases run with ⟨hash, hashed, run⟩
        by_cases here : leaf.index / 2 = first.index / 2
        · exact children_shown_or_readable backed below (except_mapError_eq_ok.mp hashed)
            (sibling.trans here)
        · have later : leaf ∈ leaves := by
            rcases List.mem_cons.mp member with rfl | later
            · exact absurd rfl here
            · exact later
          obtain ⟨batch₁, isSet⟩ :=
            LawfulBuffer.setLeaf_ok batch (level + 1) (first.index / 2) hash
          rw [Program.bind_eq, Read.evalOn_bind, Read.evalOn_wrapf, Read.evalOn_ofExcept,
            isSet] at run
          have rest := insertLevel_reads below (LawfulBuffer.over_setLeaf isSet backed) run leaf
            later (by simp [here, fresh]) child sibling
          rwa [LawfulBuffer.content_setLeaf isSet, if_neg (by simp)] at rest

/-- The loop over the levels reads the children of every node above its leaves. -/
theorem insertLevels_reads {batch' : Buffer} :
    ∀ {count : Nat} {level : TreeLevel} {leaves : List TreeLeaf} {batch : Buffer},
      level.toNat + count = tree.depth.toNat → Over batch tree.storageLeafGetter →
      Read.evalOn database (tree.insertLevels poseidon count level leaves batch) =
        .ok batch' →
      ∀ (level' : TreeLevel) (child : TreeLeafIndex), level.toNat ≤ level'.toNat →
        level'.toNat < tree.depth.toNat →
        AboveLeaves leaves (level'.toNat + 1 - level.toNat) (child.toNat / 2) →
        (content batch' level' child).isSome ∨ Readable poseidon tree database level' child
  | 0, level, leaves, batch, reach, _, _, level', child, low, below, _ => by omega
  | count + 1, level, leaves, batch, reach, backed, run, level', child, low, below, above => by
      have under : level.toNat < tree.depth.toNat := by omega
      have up := toNat_succ_level under
      rw [SparseMerkleTree.insertLevels, Program.bind_eq, Read.evalOn_bind,
        except_bind_eq_ok] at run
      rcases run with ⟨⟨next, batch₁⟩, first, run⟩
      have pass := insertLevel_spec under backed first
      by_cases here : level' = level
      · -- the nodes of the lowest level are not set again
        subst here
        have rest := insertLevels_spec (by omega) pass.backed run
        have kept : content batch' level' child = content batch level' child := by
          rw [rest.beside level' child fun away => by omega,
            pass.beside level' child fun away => by simp at away]
        rw [Nat.add_sub_cancel_left, ← uint32_div_two] at above
        rcases above with ⟨leaf, member, half⟩
        rw [pow_one, ← uint32_div_two, UInt32.toNat_inj] at half
        rw [kept]
        exact insertLevel_reads under backed first leaf member (Finset.notMem_empty _) child
          half.symm
      · have higher : level.toNat ≠ level'.toNat := fun same =>
          here (UInt8.toNat_inj.mp same).symm
        refine insertLevels_reads (by omega) pass.backed run level' child (by omega) below ?_
        rw [aboveLeaves_parents pass.parents,
          show level'.toNat + 1 - (level + 1).toNat + 1 = level'.toNat + 1 - level.toNat by omega]
        exact above

/-- An insertion reads the children of every node above its leaves. -/
theorem insertLeaves_reads {leaves : List TreeLeaf} {batch batch' : Buffer}
    (backed : Over batch tree.storageLeafGetter)
    (run : Read.evalOn database (tree.insertLeaves poseidon batch leaves) = .ok batch')
    {level : TreeLevel} (below : level.toNat < tree.depth.toNat) {child : TreeLeafIndex}
    (above : Above (dirtyLeaves leaves) (level.toNat + 1) (child.toNat / 2)) :
    (content batch' level child).isSome ∨ Readable poseidon tree database level child := by
  rw [SparseMerkleTree.insertLeaves, Program.bind_eq, Read.evalOn_bind,
    except_bind_eq_ok] at run
  rcases run with ⟨batch₁, first, run⟩
  have zero : (0 : TreeLevel).toNat = 0 := rfl
  refine insertLevels_reads (by omega) (setLeaves_spec backed first).1 run level child
    (Nat.zero_le _) below ?_
  rw [zero, Nat.sub_zero]
  exact above_dirtyLeaves.mp above

end Reads

end MerkleProofService
