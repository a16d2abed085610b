/-
Module: MerkleProofService.Proofs.SlotSearch
Layer: Proofs
Purpose: How the service finds a slot: a value by scanning the leaves or by its index entry, an
  empty slot by a missing entry or by the value read there.  The scan and the entries agree in
  every state the contract can lead to.  The two tests for an empty slot do not: a revocation
  stores the empty value, which is no missing entry.
Imports: Proofs.EventLeaves, Proofs.OverlayProofs
Trusted boundary: none
Main exports: findLeafByValueLoop_spec, HoldsLeaves.commitAll, scan_agrees_with_index,
  SparseMerkleTree.emptyInStorage, SparseMerkleTree.emptyInSimulation, EmptyTestsAgree,
  tellsEmptySlot_iff, empty_tests_agree_iff
-/
import MerkleProofService.Proofs.EventLeaves
import MerkleProofService.Proofs.OverlayProofs

namespace MerkleProofService

open Library
open LawfulBuffer (content Over)

/-! ### What the commits left in the slots -/

section Slots

variable {poseidon : PoseidonHash} {reg : ZKCertificateRegistry} {database database' : Database}
variable {operations : List LeafOperation}

/-- Any number of commits leaves the slots and the entries of all their operations. -/
theorem HoldsLeaves.commitAll (built : InitializedRegistry poseidon reg)
    {commits : List (List LeafOperation)} (holds : HoldsLeaves reg operations database)
    (run : commitAllOperations poseidon reg commits database = .ok database') :
    HoldsLeaves reg (operations ++ commits.flatten) database' := by
  induction commits generalizing operations database with
  | nil =>
      obtain rfl := Except.ok.inj run
      rw [List.flatten_nil, List.append_nil]
      exact holds
  | cons first commits ih =>
      rw [commitAllOperations, except_bind_eq_ok] at run
      obtain ⟨batch, committed, run⟩ := run
      obtain ⟨queue, filled, buffer, rfl⟩ := filledBuffer_of_commit built committed
      rw [List.flatten_cons, ← List.append_assoc]
      exact ih (buffer.holdsLeaves holds) run

/-- A value other than the empty one is read exactly where the operations left it. -/
theorem HoldsLeaves.evalOn_leaf_iff (built : InitializedRegistry poseidon reg)
    (holds : HoldsLeaves reg operations database)
    (committable : ∀ op ∈ operations, Committable reg.metadata op) {value : U256}
    (different : value ≠ reg.metadata.emptyValue) (index : TreeLeafIndex) :
    Read.evalOn database (reg.sparseTree.getLeafFromStorage poseidon 0 index) = .ok value ↔
      applyOperations reg.metadata.emptyValue (emptySlots reg.metadata) operations index =
        value := by
  have unwritten : (reg.sparseTree.getEmptyBranchValue poseidon 0).map Prod.fst ≠ .ok value :=
    fun answer => different ((getEmptyBranchValue_ground built.tree.cacheSound answer).trans
      built.emptyLeaf_eq)
  rw [evalOn_getLeafFromStorage_stored built.tree.getter (Nat.zero_le _), holds.leaves,
    applyOperations_eq_lastWrite]
  cases written : lastWrite (operationLeaves reg.metadata.emptyValue operations) index with
  | none => exact ⟨fun answer => absurd answer unwritten, fun same => absurd same.symm different⟩
  | some left =>
      by_cases zero : left = 0
      · -- a zero that was written is the empty value, and the storage does not keep it
        obtain ⟨leaf, member, _, rfl⟩ := lastWrite_mem written
        obtain ⟨op, opMember, rfl⟩ := List.mem_map.mp member
        have empty := (committable op opMember).2.resolve_left fun nonzero => nonzero zero
        simp only [Option.bind_some, if_pos zero]
        exact ⟨fun answer => absurd answer unwritten,
          fun same => absurd (same.symm.trans empty) different⟩
      · simp only [Option.bind_some, if_neg zero, Except.ok.injEq, Option.getD_some]

end Slots

/-! ### The scan -/

section Scan

variable {poseidon : PoseidonHash} {tree : SparseMerkleTree} {database : Database}
variable {Buffer : Type} [TreeLeafGetterSetter Buffer]

theorem ofNat_toUInt32 (number : Nat) : (UInt64.ofNat number).toUInt32 = UInt32.ofNat number := by
  apply UInt32.toNat_inj.mp
  rw [UInt64.toNat_toUInt32, UInt64.toNat_ofNat', UInt32.toNat_ofNat']
  exact Nat.mod_mod_of_dvd _ (by decide)

/-- The scan stops at the first leaf that reads `value`, or ends without one. -/
theorem findLeafByValueLoop_spec {batch : Buffer} (value : U256)
    (calm : ∀ index, NoPanic
      (Read.evalOn database (tree.getLeafFromBatchOrStorage poseidon batch 0 index)))
    (count start : Nat) :
    (∃ number, start ≤ number ∧ number < start + count ∧
      Read.evalOn database (tree.getLeafFromBatchOrStorage poseidon batch 0
        (UInt32.ofNat number)) = .ok value ∧
      Read.evalOn database (tree.findLeafByValueLoop poseidon batch value count
        (UInt64.ofNat start)) = .ok (UInt32.ofNat number)) ∨
    ((∀ number, start ≤ number → number < start + count →
      Read.evalOn database (tree.getLeafFromBatchOrStorage poseidon batch 0
        (UInt32.ofNat number)) ≠ .ok value) ∧
      Read.evalOn database (tree.findLeafByValueLoop poseidon batch value count
        (UInt64.ofNat start)) = .error (.message "leaf with value not found")) := by
  induction count generalizing start with
  | zero => exact Or.inr ⟨fun number low high => absurd high (by omega), rfl⟩
  | succ count ih =>
      have next : UInt64.ofNat start + 1 = UInt64.ofNat (start + 1) := UInt64.ofNat_add _ _ |>.symm
      have looked := Read.evalOn_tryRun database rfl (calm (UInt32.ofNat start))
      have first : Read.evalOn database (tree.findLeafByValueLoop poseidon batch value (count + 1)
          (UInt64.ofNat start)) =
          if Read.evalOn database (tree.getLeafFromBatchOrStorage poseidon batch 0
              (UInt32.ofNat start)) = .ok value then .ok (UInt32.ofNat start)
          else Read.evalOn database (tree.findLeafByValueLoop poseidon batch value count
            (UInt64.ofNat (start + 1))) := by
        rw [SparseMerkleTree.findLeafByValueLoop]
        simp only [Program.bind_eq, Read.evalOn_bind, Read.evalOn_ctxDone, except_bind_ok,
          ofNat_toUInt32, looked, next]
        cases Read.evalOn database (tree.getLeafFromBatchOrStorage poseidon batch 0
            (UInt32.ofNat start)) with
        | error err => rfl
        | ok leaf =>
            by_cases here : leaf = value
            · simp [here]
            · simp [here]
      rw [first]
      by_cases here : Read.evalOn database (tree.getLeafFromBatchOrStorage poseidon batch 0
          (UInt32.ofNat start)) = .ok value
      · exact Or.inl ⟨start, Nat.le_refl _, by omega, here, if_pos here⟩
      · rw [if_neg here]
        rcases ih (start + 1) with ⟨number, low, high, read, found⟩ | ⟨none, missed⟩
        · exact Or.inl ⟨number, by omega, by omega, read, found⟩
        · refine Or.inr ⟨fun number low high => ?_, missed⟩
          rcases Nat.eq_or_lt_of_le low with rfl | later
          · exact here
          · exact none number later (by omega)

/-- An untouched simulation shows the leaves of the storage. -/
theorem untouched_leaf_iff (index : TreeLeafIndex) (value : U256) :
    Read.evalOn database (tree.getLeafFromBatchOrStorage poseidon
        (newSimulationBatch tree.storageLeafGetter) 0 index) = .ok value ↔
      Read.evalOn database (tree.getLeafFromStorage poseidon 0 index) = .ok value := by
  rw [← except_toOption_eq_some, ← except_toOption_eq_some,
    toOption_getLeafFromBatchOrStorage rfl (Nat.zero_le _) (Finmap.lookup_empty _)]

/-- Reading through a simulation never panics. -/
theorem simulation_noPanic {registryIndex : RegistryIndex} (calm : NeverPanics poseidon)
    (getter : tree.storageLeafGetter = LeafView.getter ⟨registryIndex⟩)
    (cache : CacheSound poseidon tree) (shallow : tree.depth.toNat < 255) {batch : SimulationBatch}
    (backed : batch.storage = tree.storageLeafGetter) (level : TreeLevel) (index : TreeLeafIndex) :
    NoPanic (Read.evalOn database (tree.getLeafFromBatchOrStorage poseidon batch level index)) := by
  rw [SparseMerkleTree.getLeafFromBatchOrStorage, Program.bind_eq, Read.evalOn_bind]
  cases shown : batch.buffer.lookup (makeSimKey level index) with
  | some value =>
      have same : TreeLeafGetterSetter.getLeaf batch level index = .done value := by
        simp only [TreeLeafGetterSetter.getLeaf, SimulationBatch.getLeaf, shown]
      rw [same]
      exact NoPanic.ok value
  | none =>
      have same : TreeLeafGetterSetter.getLeaf batch level index =
          LeafView.getLeaf ⟨registryIndex⟩ level index := by
        simp only [TreeLeafGetterSetter.getLeaf, SimulationBatch.getLeaf, shown, backed, getter,
          LeafView.getter]
      rw [same, LeafView.evalOn_tryRun_getLeaf]
      cases storedLeaf database registryIndex level index with
      | some value => exact NoPanic.ok value
      | none =>
          simp only [leafOutcome, except_bind_ok, GoError.isNotFound, if_true, Read.evalOn_wrapf]
          exact (evalOn_getLeafFromStorage_noPanic calm getter cache shallow level
            index).mapError_wrapf _

end Scan

theorem toNat_maxLeaves {tree : SparseMerkleTree} (shallow : tree.depth.toNat ≤ 32) :
    tree.maxLeaves.toNat = 2 ^ tree.depth.toNat := by
  have fits : 2 ^ tree.depth.toNat ≤ 2 ^ 32 := Nat.pow_le_pow_right (by decide) shallow
  rw [SparseMerkleTree.maxLeaves, UInt64.toNat_ofNat_of_lt' (Nat.lt_of_le_of_lt fits (by decide))]

/-- The empty table of slots, with no entries. -/
theorem bijective_emptySlots (metadata : Metadata) :
    Bijective metadata.emptyValue (emptySlots metadata) fun _ => none where
  finds := fun value different index => by
    constructor
    · intro found
      cases found
    · intro same
      exact absurd same.symm different
  empty := rfl

section Agreement

variable {poseidon : PoseidonHash} {reg : ZKCertificateRegistry} {database : Database}
variable {operations : List LeafOperation}

/-- The scan of an untouched simulation ends where the entries say the value is. -/
theorem HoldsLeaves.evalOn_findLeafByValue (calm : NeverPanics poseidon)
    (built : InitializedRegistry poseidon reg) (depth : ContractDepth reg.metadata)
    (holds : HoldsLeaves reg operations database)
    (wellFormed : WellFormed reg.metadata (emptySlots reg.metadata) operations) {value : U256}
    (different : value ≠ reg.metadata.emptyValue) :
    Read.evalOn database (reg.sparseTree.findLeafByValueInSimulation poseidon
        (newSimulationBatch reg.sparseTree.storageLeafGetter) value) =
      match applyEntries (fun _ => none) operations value with
      | some index => .ok index
      | none => .error (.message "leaf with value not found") := by
  have shallow : reg.sparseTree.depth.toNat ≤ 32 := by
    rw [built.depth_eq]
    exact depth.shallow
  have finds := ((bijective_emptySlots reg.metadata).applyAll wellFormed).finds value different
  -- a leaf of the simulation reads the value exactly if its slot holds it
  have reads : ∀ index : TreeLeafIndex,
      Read.evalOn database (reg.sparseTree.getLeafFromBatchOrStorage poseidon
        (newSimulationBatch reg.sparseTree.storageLeafGetter) 0 index) = .ok value ↔
          applyEntries (fun _ => none) operations value = some index := by
    intro index
    rw [finds, untouched_leaf_iff,
      holds.evalOn_leaf_iff built wellFormed.committable different]
  have calmReads : ∀ index, NoPanic
      (Read.evalOn database (reg.sparseTree.getLeafFromBatchOrStorage poseidon
        (newSimulationBatch reg.sparseTree.storageLeafGetter) 0 index)) := fun index =>
    simulation_noPanic calm built.tree.getter built.tree.cacheSound (by omega) rfl 0 index
  have scanned := findLeafByValueLoop_spec value calmReads reg.sparseTree.maxLeaves.toNat 0
  rw [SparseMerkleTree.findLeafByValueInSimulation]
  rcases scanned with ⟨number, _, _, read, found⟩ | ⟨none, missed⟩
  · rw [(reads _).mp read]
    exact found
  · cases entry : applyEntries (fun _ => Option.none) operations value with
    | none => exact missed
    | some index =>
        have slot := (finds index).mp entry
        have inRange : index.toNat < 2 ^ reg.metadata.depth.toNat := by
          by_contra beyond
          rw [applyOperations_outside wellFormed.committable (Nat.le_of_not_lt beyond)] at slot
          exact different slot.symm
        have scan := none index.toNat (Nat.zero_le _) (by
          rw [toNat_maxLeaves shallow, built.depth_eq]
          omega)
        rw [UInt32.ofNat_toNat] at scan
        exact absurd ((reads index).mpr entry) scan

end Agreement

/-- In every state reached by operations the contract can emit, scanning for a value and looking
up its entry find the same slot, and miss the same values. -/
theorem scan_agrees_with_index {poseidon : PoseidonHash} {reg : ZKCertificateRegistry}
    (calm : NeverPanics poseidon) (built : InitializedRegistry poseidon reg)
    (depth : ContractDepth reg.metadata) {commits : List (List LeafOperation)}
    {database : Database}
    (wellFormed : WellFormed reg.metadata (emptySlots reg.metadata) commits.flatten)
    (run : commitAllOperations poseidon reg commits ∅ = .ok database) (value : U256)
    (different : value ≠ reg.metadata.emptyValue) :
    (∀ index : TreeLeafIndex,
      Read.evalOn database (reg.sparseTree.findLeafByValueInSimulation poseidon
          (newSimulationBatch reg.sparseTree.storageLeafGetter) value) = .ok index ↔
        Read.evalOn database (reg.leafView.getLeafIndex value) = .ok index) ∧
    (Read.evalOn database (reg.sparseTree.findLeafByValueInSimulation poseidon
          (newSimulationBatch reg.sparseTree.storageLeafGetter) value) =
        .error (.message "leaf with value not found") ↔
      Read.evalOn database (reg.leafView.getLeafIndex value) = .error .notFound) := by
  have holds := holdsLeaves_empty.commitAll built run
  rw [List.nil_append] at holds
  have entries : database.lookup (makeLeafIndexKey reg.leafView.registryIndex value) =
      (applyEntries (fun _ => none) commits.flatten value).map LeafView.leafIndexBytes := by
    rw [holds.entries, applyEntries]
    cases lastEntry commits.flatten value <;> rfl
  rw [holds.evalOn_findLeafByValue calm built depth wellFormed different,
    LeafView.evalOn_getLeafIndex entries]
  cases applyEntries (fun _ => none) commits.flatten value with
  | some index => simp [indexOutcome]
  | none => simp [indexOutcome]

/-- The value that came back to another slot is found there both ways, one that was never added
neither way. -/
theorem scan_agrees_with_index_reuseRun :
    ∃ database, commitAllOperations fieldHash smallRegistry reuseRun ∅ = .ok database ∧
      Read.evalOn database (smallRegistry.leafView.getLeafIndex 7) = .ok 3 ∧
      Read.evalOn database (smallRegistry.sparseTree.findLeafByValueInSimulation fieldHash
        (newSimulationBatch smallRegistry.sparseTree.storageLeafGetter) 7) = .ok 3 ∧
      Read.evalOn database (smallRegistry.leafView.getLeafIndex 9) = .error .notFound ∧
      Read.evalOn database (smallRegistry.sparseTree.findLeafByValueInSimulation fieldHash
        (newSimulationBatch smallRegistry.sparseTree.storageLeafGetter) 9) =
          .error (.message "leaf with value not found") := by
  have entries : (commitAllOperations fieldHash smallRegistry reuseRun ∅).map (fun database =>
      (Read.evalOn database (smallRegistry.leafView.getLeafIndex 7),
        Read.evalOn database (smallRegistry.leafView.getLeafIndex 9))) =
      .ok (.ok 3, .error .notFound) := by decide
  obtain ⟨database, run, both⟩ := except_map_eq_ok.mp entries
  obtain ⟨held, missing⟩ := Prod.mk.inj both
  have agree := scan_agrees_with_index fieldHash_calm smallRegistry_built
    smallRegistry_contract.toContractDepth reuseRun_wellFormed run
  exact ⟨database, run, held, ((agree 7 (by decide)).1 3).mpr held, missing,
    (agree 9 (by decide)).2.mpr missing⟩

/-! ### The two tests for an empty slot -/

namespace SparseMerkleTree

variable (poseidon : PoseidonHash) (tree : SparseMerkleTree)

/-- The test of `GetRandomEmptyLeafIndex`: the storage has no leaf there. -/
def emptyInStorage (index : TreeLeafIndex) : Read Bool := do
  match ← (tree.storageLeafGetter.getLeaf 0 index).tryRun with
  | .error err => return err.isNotFound
  | .ok _ => return false

/-- The test of `findEmptyLeafIndexInSimulation`: the leaf read there is the empty one. -/
def emptyInSimulation {Buffer : Type} [TreeLeafGetterSetter Buffer] (batch : Buffer)
    (index : TreeLeafIndex) : Read Bool := do
  let leaf ← Read.wrapf "get leaf" (tree.getLeafFromBatchOrStorage poseidon batch 0 index)
  return leaf = tree.emptyLeaf

/-- A round of `GetRandomEmptyLeafIndex` is a draw and its test. -/
theorem getRandomEmptyLeafIndexLoop_succ (maxIterations : Nat) (draws : Stream' UInt64) :
    tree.getRandomEmptyLeafIndexLoop (maxIterations + 1) draws = (do
      Read.ctxDone
      let index ← .ofExcept (tree.leafIndexOfDraw draws.head)
      if ← tree.emptyInStorage index then return index
      else tree.getRandomEmptyLeafIndexLoop maxIterations draws.tail) := by
  rw [getRandomEmptyLeafIndexLoop]
  simp only [emptyInStorage, Program.bind_eq, Program.bind_assoc]
  congr 1
  funext _
  congr 1
  funext index
  congr 1
  funext outcome
  cases outcome with
  | error err => rfl
  | ok leaf => rfl

/-- A round of `findEmptyLeafIndexInSimulation` is a draw and its test. -/
theorem findEmptyLeafIndexLoop_succ {Buffer : Type} [TreeLeafGetterSetter Buffer]
    (batch : Buffer) (maxIterations : Nat) (draws : Stream' UInt64) :
    tree.findEmptyLeafIndexLoop poseidon batch (maxIterations + 1) draws = (do
      Read.ctxDone
      let index ← .ofExcept (tree.leafIndexOfDraw draws.head)
      if ← tree.emptyInSimulation poseidon batch index then return (index, draws.tail)
      else tree.findEmptyLeafIndexLoop poseidon batch maxIterations draws.tail) := by
  rw [findEmptyLeafIndexLoop]
  simp only [emptyInSimulation, Program.bind_eq, Program.bind_assoc]
  congr 1
  funext _
  congr 1
  funext index
  congr 1
  funext leaf
  by_cases empty : leaf = tree.emptyLeaf <;> simp [empty, Program.bind]

end SparseMerkleTree

section EmptyTests

variable {poseidon : PoseidonHash} {tree : SparseMerkleTree} {database : Database}
variable {registryIndex : RegistryIndex}

theorem evalOn_emptyInStorage
    (getter : tree.storageLeafGetter = LeafView.getter ⟨registryIndex⟩) (index : TreeLeafIndex) :
    Read.evalOn database (tree.emptyInStorage index) =
      .ok (storedLeaf database registryIndex 0 index).isNone := by
  rw [SparseMerkleTree.emptyInStorage, Program.bind_eq, Read.evalOn_bind, getter]
  change (Read.evalOn database ((LeafView.getLeaf ⟨registryIndex⟩ 0 index).tryRun)).bind _ = _
  rw [LeafView.evalOn_tryRun_getLeaf]
  cases storedLeaf database registryIndex 0 index with
  | some value => rfl
  | none => rfl

/-- Over an untouched simulation the test asks whether the storage shows the empty leaf. -/
theorem evalOn_emptyInSimulation_iff (index : TreeLeafIndex) :
    Read.evalOn database (tree.emptyInSimulation poseidon
        (newSimulationBatch tree.storageLeafGetter) index) = .ok true ↔
      Read.evalOn database (tree.getLeafFromStorage poseidon 0 index) = .ok tree.emptyLeaf := by
  rw [SparseMerkleTree.emptyInSimulation, Program.bind_eq, Read.evalOn_bind, Read.evalOn_wrapf,
    except_bind_eq_ok, ← untouched_leaf_iff]
  simp [except_mapError_eq_ok]

/-- Both tests accept the slot exactly if it is empty. -/
structure EmptyTestsAgree (poseidon : PoseidonHash) (reg : ZKCertificateRegistry)
    (database : Database) (slots : Slots) (index : TreeLeafIndex) : Prop where
  storage : Read.evalOn database (reg.sparseTree.emptyInStorage index) = .ok true ↔
    slots index = reg.metadata.emptyValue
  simulation : Read.evalOn database (reg.sparseTree.emptyInSimulation poseidon
      (newSimulationBatch reg.sparseTree.storageLeafGetter) index) = .ok true ↔
    slots index = reg.metadata.emptyValue

/-- The slot holds another value than the empty one; or the storage has nothing there, because
nothing was written or the empty value is stored as nothing, and empty branches have a hash. -/
def TellsEmptySlot (poseidon : PoseidonHash) (reg : ZKCertificateRegistry)
    (operations : List LeafOperation) (index : TreeLeafIndex) : Prop :=
  (∃ value, lastWrite (operationLeaves reg.metadata.emptyValue operations) index = some value ∧
    value ≠ reg.metadata.emptyValue) ∨
  ((lastWrite (operationLeaves reg.metadata.emptyValue operations) index = none ∨
      reg.metadata.emptyValue = 0) ∧
    ∃ branch, (reg.sparseTree.getEmptyBranchValue poseidon 0).map Prod.fst = .ok branch)

variable {reg : ZKCertificateRegistry} {slots : Slots} {index : TreeLeafIndex}

/-- With a hash that refuses what is not in the field, empty branches have a hash exactly at the
depths between 1 and 254 and for an empty value in the field. -/
theorem tellsEmptySlot_iff (strict : StrictPoseidonSpec poseidon)
    (built : InitializedRegistry poseidon reg) {operations : List LeafOperation} :
    TellsEmptySlot poseidon reg operations index ↔
      (∃ value, lastWrite (operationLeaves reg.metadata.emptyValue operations) index = some value ∧
        value ≠ reg.metadata.emptyValue) ∨
      ((lastWrite (operationLeaves reg.metadata.emptyValue operations) index = none ∨
          reg.metadata.emptyValue = 0) ∧
        InField reg.metadata.emptyValue ∧ 1 ≤ reg.metadata.depth.toNat ∧
          reg.metadata.depth.toNat < 255) := by
  rw [TellsEmptySlot, getEmptyBranchValue_answered_iff strict built.tree]

/-- An empty slot of which nothing is stored passes the test of the storage, and that of the
simulation if its leaf can be read. -/
theorem emptyTestsAgree_of_absent (built : InitializedRegistry poseidon reg)
    (absent : storedLeaf database reg.leafView.registryIndex 0 index = none)
    (slot : slots index = reg.metadata.emptyValue) :
    EmptyTestsAgree poseidon reg database slots index ↔
      ∃ branch, (reg.sparseTree.getEmptyBranchValue poseidon 0).map Prod.fst = .ok branch := by
  have shown : Read.evalOn database (reg.sparseTree.getLeafFromStorage poseidon 0 index) =
      (reg.sparseTree.getEmptyBranchValue poseidon 0).map Prod.fst := by
    rw [evalOn_getLeafFromStorage_stored built.tree.getter (Nat.zero_le _), absent]
  constructor
  · intro agree
    have read := (evalOn_emptyInSimulation_iff index).mp (agree.simulation.mpr slot)
    exact ⟨_, shown.symm.trans read⟩
  · rintro ⟨branch, answer⟩
    obtain rfl := getEmptyBranchValue_ground built.tree.cacheSound answer
    refine ⟨?_, ?_⟩
    · rw [evalOn_emptyInStorage built.tree.getter, absent]
      exact iff_of_true rfl slot
    · exact iff_of_true ((evalOn_emptyInSimulation_iff index).mpr (shown.trans answer)) slot

/-- A stored slot never passes the test of the storage, so the tests agree if it is not empty. -/
theorem emptyTestsAgree_of_stored (built : InitializedRegistry poseidon reg)
    (stored : storedLeaf database reg.leafView.registryIndex 0 index = some (slots index)) :
    EmptyTestsAgree poseidon reg database slots index ↔
      slots index ≠ reg.metadata.emptyValue := by
  have refused : Read.evalOn database (reg.sparseTree.emptyInStorage index) ≠ .ok true := by
    rw [evalOn_emptyInStorage built.tree.getter, stored]
    simp
  have read : Read.evalOn database (reg.sparseTree.getLeafFromStorage poseidon 0 index) =
      .ok (slots index) := by
    rw [evalOn_getLeafFromStorage_stored built.tree.getter (Nat.zero_le _), stored]
  constructor
  · intro agree empty
    exact refused (agree.storage.mpr empty)
  · intro taken
    refine ⟨iff_of_false refused taken, ?_⟩
    rw [evalOn_emptyInSimulation_iff, read, built.emptyLeaf_eq, Except.ok.injEq]

end EmptyTests

/-- After any run of commits of nonzero values the two tests for an empty slot agree, and accept
exactly an empty one, if and only if the storage does not hold the empty value there. -/
theorem empty_tests_agree_iff {poseidon : PoseidonHash} {reg : ZKCertificateRegistry}
    (built : InitializedRegistry poseidon reg) {commits : List (List LeafOperation)}
    {database : Database} (nonzero : ∀ op ∈ commits.flatten, op.leaf.value ≠ 0)
    (run : commitAllOperations poseidon reg commits ∅ = .ok database) (index : TreeLeafIndex) :
    EmptyTestsAgree poseidon reg database
        (applyOperations reg.metadata.emptyValue (emptySlots reg.metadata) commits.flatten)
        index ↔
      TellsEmptySlot poseidon reg commits.flatten index := by
  have holds := holdsLeaves_empty.commitAll built run
  rw [List.nil_append] at holds
  have leaf := holds.leaves index
  have slot := applyOperations_eq_lastWrite reg.metadata.emptyValue (emptySlots reg.metadata)
    commits.flatten index
  unfold TellsEmptySlot
  cases written : lastWrite (operationLeaves reg.metadata.emptyValue commits.flatten) index with
  | none =>
      rw [written] at leaf slot
      rw [emptyTestsAgree_of_absent built leaf slot]
      simp
  | some value =>
      rw [written] at leaf slot
      by_cases empty : value = reg.metadata.emptyValue
      · by_cases zero : reg.metadata.emptyValue = 0
        · rw [Option.bind_some, if_pos (empty.trans zero)] at leaf
          rw [emptyTestsAgree_of_absent built leaf (slot.trans empty)]
          simp [empty, zero]
        · rw [Option.bind_some, if_neg fun none => zero (empty.symm.trans none)] at leaf
          rw [emptyTestsAgree_of_stored built (leaf.trans (congrArg some slot.symm)), slot]
          simp [empty, show reg.metadata.emptyValue ≠ 0#256 from zero]
      · -- only an addition writes another value than the empty one
        have other : value ≠ 0 := by
          obtain ⟨_, member, _, rfl⟩ := lastWrite_mem written
          obtain ⟨op, opMember, rfl⟩ := List.mem_map.mp member
          cases kind : op.op with
          | addition =>
              simp only [newLeaf, kind]
              exact nonzero op opMember
          | revocation => exact absurd (by simp [newLeaf, kind]) empty
          | unknown code => exact absurd (by simp [newLeaf, kind]) empty
        rw [Option.bind_some, if_neg other] at leaf
        rw [emptyTestsAgree_of_stored built (leaf.trans (congrArg some slot.symm)), slot]
        simp [empty]

/-- The slot that was reused and one never written: both tests tell them apart. -/
theorem empty_tests_agree_iff_reuseRun :
    ∃ database, commitAllOperations fieldHash smallRegistry reuseRun ∅ = .ok database ∧
      ∀ index ∈ [1, 2], EmptyTestsAgree fieldHash smallRegistry database
        (applyOperations 5 (emptySlots smallRegistry.metadata) reuseRun.flatten) index := by
  have returns : (commitAllOperations fieldHash smallRegistry reuseRun ∅).isOk = true := by decide
  cases run : commitAllOperations fieldHash smallRegistry reuseRun ∅ with
  | error err =>
      rw [run] at returns
      cases returns
  | ok database =>
      have agree := empty_tests_agree_iff smallRegistry_built (by decide) run
      refine ⟨database, rfl, fun index member => (agree index).mpr
        ((tellsEmptySlot_iff fieldHash_strict smallRegistry_built).mpr ?_)⟩
      rcases List.mem_pair.mp member with rfl | rfl
      · exact Or.inl ⟨8, by decide, by decide⟩
      · exact Or.inr ⟨Or.inl (by decide), by decide, by decide, by decide⟩

/-- A value is added and revoked.  Its slot shows the empty value and is offered by the simulation,
but the service's own search for an empty leaf passes it by. -/
theorem revoked_slot_not_offered :
    ∃ database,
      commitAllOperations fieldHash smallRegistry
        [[⟨⟨1, 7⟩, .addition⟩], [⟨⟨1, 7⟩, .revocation⟩]] ∅ = .ok database ∧
      Read.evalOn database (smallRegistry.sparseTree.getLeafFromStorage fieldHash 0 1) = .ok 5 ∧
      Read.evalOn database (smallRegistry.sparseTree.emptyInStorage 1) = .ok false ∧
      Read.evalOn database (smallRegistry.sparseTree.emptyInSimulation fieldHash
        (newSimulationBatch smallRegistry.sparseTree.storageLeafGetter) 1) = .ok true ∧
      Read.evalOn database (smallRegistry.sparseTree.getRandomEmptyLeafIndex (Stream'.const 1)) =
        .error (.message "could not find an empty leaf index") ∧
      (Read.evalOn database (smallRegistry.sparseTree.findEmptyLeafIndexInSimulation fieldHash
        (newSimulationBatch smallRegistry.sparseTree.storageLeafGetter) (Stream'.const 1))).map
          Prod.fst = .ok 1 :=
  ⟨_, rfl, by decide, by decide, by decide, by decide, by decide⟩

end MerkleProofService
