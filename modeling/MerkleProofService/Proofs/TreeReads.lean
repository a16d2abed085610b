/-
Module: MerkleProofService.Proofs.TreeReads
Layer: Proofs
Purpose: What the tree reads.  A node is read through up to three layers: a buffer of nodes set
  but not written, the storage, and the table of empty branches.  The module gives the law a
  buffer has to satisfy, shows that both buffers of the code satisfy it, and reduces every read
  of a node of the tree to one lookup in an overlay of a table of nodes.
Imports: ZkRegistry.BatchWithLeaves, ZkRegistry.Simulation, Library.HashTree
Trusted boundary: none
Main exports: LawfulBuffer, overlay, ReadsNodes, readNodes, evalOn_getLeafFromBatchOrStorage,
  Readable, evalOn_calculateHashForNode, calculateHashForNode_eq_ok, makeSimKey_inj
-/
import MerkleProofService.ZkRegistry.BatchWithLeaves
import MerkleProofService.ZkRegistry.Simulation
import MerkleProofService.Library.HashTree
import Mathlib.Data.List.Basic

namespace MerkleProofService

open Library
open TreeLeafGetterSetter (getLeaf setLeaf)

/-! ### Lawful buffers -/

/-- A buffer that shows the last value set at a position and, elsewhere, either reports that it
has nothing or asks the storage it lies over. -/
class LawfulBuffer (Buffer : Type) [TreeLeafGetterSetter Buffer] where
  content : Buffer → TreeLevel → TreeLeafIndex → Option U256
  Over : Buffer → TreeLeafGetter → Prop
  setLeaf_ok : ∀ batch level index value, ∃ batch' : Buffer,
    setLeaf batch level index value = .ok batch'
  over_setLeaf : ∀ {batch batch' : Buffer} {level index value storage},
    setLeaf batch level index value = .ok batch' → Over batch storage → Over batch' storage
  content_setLeaf : ∀ {batch batch' : Buffer} {level index value},
    setLeaf batch level index value = .ok batch' → ∀ level' index',
      content batch' level' index' =
        if level' = level ∧ index' = index then some value else content batch level' index'
  getLeaf_some : ∀ {batch : Buffer} {level index value},
    content batch level index = some value → getLeaf batch level index = .done value
  getLeaf_none : ∀ {batch : Buffer} {level index storage}, Over batch storage →
    content batch level index = none →
      getLeaf batch level index = .fail .notFound ∨
        getLeaf batch level index = storage.getLeaf level index

open LawfulBuffer (content Over)

instance : LawfulBuffer BatchWithLeavesBuffer where
  content batch level index := batch.buffer.lookup (makeLeafKey batch.index level index)
  Over _ _ := True
  setLeaf_ok batch level index value :=
    ⟨_, by simp [setLeaf, BatchWithLeavesBuffer.setLeaf, Batch.set]; rfl⟩
  over_setLeaf _ _ := trivial
  content_setLeaf := by
    intro batch batch' level index value isSet level' index'
    simp only [setLeaf, BatchWithLeavesBuffer.setLeaf, Batch.set, makeLeafKey_ne_nil, if_false,
      except_bind_ok, Except.ok.injEq] at isSet
    subst isSet
    by_cases same : level' = level ∧ index' = index
    · rcases same with ⟨rfl, rfl⟩
      simp
    · rw [if_neg same]
      refine Finmap.lookup_insert_of_ne _ ?_
      simpa using same
  getLeaf_some := by
    intro batch level index value found
    simp only [getLeaf, BatchWithLeavesBuffer.getLeaf, found]
  getLeaf_none := by
    intro batch level index storage _ missing
    left
    simp only [getLeaf, BatchWithLeavesBuffer.getLeaf, missing]

/-! ### Keys of the simulation buffer -/

theorem toList_makeSimKey (level : TreeLevel) (index : TreeLeafIndex) :
    (makeSimKey level index).toList =
      Nat.toDigits 10 level.toNat ++ ':' :: Nat.toDigits 10 index.toNat := by
  simp only [makeSimKey, String.toList_append, Nat.toString_eq_repr, Nat.toList_repr,
    List.append_assoc]
  rfl

theorem colon_notMem_toDigits (number : Nat) : ':' ∉ Nat.toDigits 10 number := by
  intro member
  have digit := Nat.isDigit_of_mem_toDigits (by decide) (by decide) member
  exact absurd digit (by decide)

theorem toDigits_ten_inj {first second : Nat}
    (same : Nat.toDigits 10 first = Nat.toDigits 10 second) : first = second := by
  rw [← @Nat.ofDigitChars_ten_toDigits first, same, Nat.ofDigitChars_ten_toDigits]

/-- The decimal text of a level and an index determines both. -/
@[simp] theorem makeSimKey_inj {level other : TreeLevel} {index otherIndex : TreeLeafIndex} :
    makeSimKey level index = makeSimKey other otherIndex ↔
      level = other ∧ index = otherIndex := by
  constructor
  · intro same
    have chars := congrArg String.toList same
    rw [toList_makeSimKey, toList_makeSimKey, List.append_cons_inj_of_notMem
      (colon_notMem_toDigits _) (colon_notMem_toDigits _)] at chars
    rcases chars with ⟨levels, _, indexes⟩
    exact ⟨UInt8.toNat_inj.mp (toDigits_ten_inj levels),
      UInt32.toNat_inj.mp (toDigits_ten_inj indexes)⟩
  · rintro ⟨rfl, rfl⟩
    rfl

instance : LawfulBuffer SimulationBatch where
  content batch level index := batch.buffer.lookup (makeSimKey level index)
  Over batch storage := batch.storage = storage
  setLeaf_ok batch level index value := ⟨_, rfl⟩
  over_setLeaf := by
    intro batch batch' level index value storage isSet backed
    simp only [setLeaf, SimulationBatch.setLeaf, Except.ok.injEq] at isSet
    subst isSet
    exact backed
  content_setLeaf := by
    intro batch batch' level index value isSet level' index'
    simp only [setLeaf, SimulationBatch.setLeaf, Except.ok.injEq] at isSet
    subst isSet
    by_cases same : level' = level ∧ index' = index
    · rcases same with ⟨rfl, rfl⟩
      simp
    · rw [if_neg same]
      refine Finmap.lookup_insert_of_ne _ ?_
      simpa using same
  getLeaf_some := by
    intro batch level index value found
    simp only [getLeaf, SimulationBatch.getLeaf, found]
  getLeaf_none := by
    intro batch level index storage backed missing
    right
    simp only [getLeaf, SimulationBatch.getLeaf, missing]
    rw [backed]

/-! ### Reads as lookups in a table of nodes -/

/-- Every node of the tree is read from the storage as the table has it. -/
def ReadsNodes (poseidon : PoseidonHash) (tree : SparseMerkleTree) (database : Database)
    (nodes : Nat → Nat → U256) : Prop :=
  ∀ level index, InTree 32 tree.depth.toNat level.toNat index.toNat →
    Read.evalOn database (tree.getLeafFromStorage poseidon level index) =
      .ok (nodes level.toNat index.toNat)

/-- The nodes the storage shows; zero stands for a node that cannot be read. -/
def readNodes (poseidon : PoseidonHash) (tree : SparseMerkleTree) (database : Database)
    (level index : Nat) : U256 :=
  (Read.evalOn database (tree.getLeafFromStorage poseidon (UInt8.ofNat level)
    (UInt32.ofNat index))).toOption.getD 0

/-- The nodes a buffer shows over a table. -/
def overlay {Buffer : Type} [TreeLeafGetterSetter Buffer] [LawfulBuffer Buffer]
    (batch : Buffer) (nodes : Nat → Nat → U256) (level index : Nat) : U256 :=
  (content batch (UInt8.ofNat level) (UInt32.ofNat index)).getD (nodes level index)

section Reads

variable {Buffer : Type} [TreeLeafGetterSetter Buffer] [LawfulBuffer Buffer]
variable {poseidon : PoseidonHash} {tree : SparseMerkleTree} {database : Database}
variable {nodes : Nat → Nat → U256} {batch : Buffer}

@[simp] theorem overlay_toNat (batch : Buffer) (nodes : Nat → Nat → U256)
    (level : TreeLevel) (index : TreeLeafIndex) :
    overlay batch nodes level.toNat index.toNat =
      (content batch level index).getD (nodes level.toNat index.toNat) := by
  simp [overlay]

theorem readNodes_of_ok {level : TreeLevel} {index : TreeLeafIndex} {value : U256}
    (read : Read.evalOn database (tree.getLeafFromStorage poseidon level index) = .ok value) :
    readNodes poseidon tree database level.toNat index.toNat = value := by
  rw [readNodes, UInt8.ofNat_toNat, UInt32.ofNat_toNat, read]
  rfl

/-- What the storage getter can answer when the node above it is read successfully. -/
theorem storage_outcome {level : TreeLevel} {index : TreeLeafIndex} {value : U256}
    (read : Read.evalOn database (tree.getLeafFromStorage poseidon level index) = .ok value) :
    Read.evalOn database (tree.storageLeafGetter.getLeaf level index) = .ok value ∨
      ∃ err, Read.evalOn database (tree.storageLeafGetter.getLeaf level index) = .error err ∧
        err.isNotFound = true ∧ ∀ reason, err ≠ .panic reason := by
  unfold SparseMerkleTree.getLeafFromStorage at read
  by_cases deep : level > tree.depth
  · rw [if_pos deep] at read
    cases read
  · rw [if_neg deep, Program.bind_eq, Read.evalOn_bind] at read
    cases outcome :
        Read.evalOn database (tree.storageLeafGetter.getLeaf level index) with
    | ok leaf =>
        rw [Read.evalOn_tryRun database outcome (by simp)] at read
        simpa using read
    | error err =>
        right
        cases err with
        | panic reason =>
            simp [Read.tryRun, outcome] at read
        | notFound => exact ⟨_, rfl, rfl, by simp⟩
        | message text =>
            rw [Read.evalOn_tryRun database outcome (by simp)] at read
            simp [GoError.isNotFound] at read
        | wrap text cause =>
            rw [Read.evalOn_tryRun database outcome (by simp)] at read
            cases found : (GoError.wrap text cause).isNotFound with
            | true => exact ⟨_, rfl, found, by simp⟩
            | false => simp [found] at read

theorem evalOn_getLeafFromBatchOrStorage_of_content {level : TreeLevel} {index : TreeLeafIndex}
    {value : U256} (shown : content batch level index = some value) :
    Read.evalOn database (tree.getLeafFromBatchOrStorage poseidon batch level index) =
      .ok value := by
  rw [SparseMerkleTree.getLeafFromBatchOrStorage, Program.bind_eq, Read.evalOn_bind,
    LawfulBuffer.getLeaf_some shown]
  rfl

/-- A read through the buffer shows what is set there, else what the storage shows. -/
theorem evalOn_getLeafFromBatchOrStorage_of_read (backed : Over batch tree.storageLeafGetter)
    {level : TreeLevel} {index : TreeLeafIndex} {value : U256}
    (stored : Read.evalOn database (tree.getLeafFromStorage poseidon level index) = .ok value) :
    Read.evalOn database (tree.getLeafFromBatchOrStorage poseidon batch level index) =
      .ok ((content batch level index).getD value) := by
  cases shown : content batch level index with
  | some value => exact evalOn_getLeafFromBatchOrStorage_of_content shown
  | none =>
      rw [SparseMerkleTree.getLeafFromBatchOrStorage, Program.bind_eq, Read.evalOn_bind]
      -- the buffer either has nothing or already asked the storage; both end in `stored`
      rcases LawfulBuffer.getLeaf_none backed shown with missing | falls
      · rw [missing]
        simp [Read.tryRun, GoError.isNotFound, stored]
      · rw [falls]
        rcases storage_outcome stored with found | ⟨err, failed, absent, noPanic⟩
        · rw [Read.evalOn_tryRun database found (by simp)]
          rfl
        · rw [Read.evalOn_tryRun database failed (by simpa using noPanic)]
          simp [absent, stored]

/-- In the tree it shows the overlay. -/
theorem evalOn_getLeafFromBatchOrStorage (reads : ReadsNodes poseidon tree database nodes)
    (backed : Over batch tree.storageLeafGetter) {level : TreeLevel} {index : TreeLeafIndex}
    (inside : InTree 32 tree.depth.toNat level.toNat index.toNat) :
    Read.evalOn database (tree.getLeafFromBatchOrStorage poseidon batch level index) =
      .ok (overlay batch nodes level.toNat index.toNat) := by
  rw [evalOn_getLeafFromBatchOrStorage_of_read backed (reads level index inside), overlay_toNat]

/-- What the storage getter finds, the tree reads. -/
theorem evalOn_getLeafFromStorage_of_getter {level : TreeLevel} {index : TreeLeafIndex}
    {value : U256} (within : level.toNat ≤ tree.depth.toNat)
    (found : Read.evalOn database (tree.storageLeafGetter.getLeaf level index) = .ok value) :
    Read.evalOn database (tree.getLeafFromStorage poseidon level index) = .ok value := by
  have low : ¬ level > tree.depth := by
    rw [gt_iff_lt, UInt8.lt_iff_toNat_lt]
    omega
  rw [SparseMerkleTree.getLeafFromStorage, if_neg low, Program.bind_eq, Read.evalOn_bind,
    Read.evalOn_tryRun database found (by simp)]
  rfl

/-- The storage answers for a node. -/
def Readable (poseidon : PoseidonHash) (tree : SparseMerkleTree) (database : Database)
    (level : TreeLevel) (index : TreeLeafIndex) : Prop :=
  ∃ value, Read.evalOn database (tree.getLeafFromStorage poseidon level index) = .ok value

/-- Where the buffer shows nothing, a read that succeeds has read the storage. -/
theorem getLeafFromStorage_of_buffer (backed : Over batch tree.storageLeafGetter)
    {level : TreeLevel} {index : TreeLeafIndex} {value : U256}
    (within : level.toNat ≤ tree.depth.toNat) (absent : content batch level index = none)
    (read : Read.evalOn database (tree.getLeafFromBatchOrStorage poseidon batch level index) =
      .ok value) :
    Read.evalOn database (tree.getLeafFromStorage poseidon level index) = .ok value := by
  rw [SparseMerkleTree.getLeafFromBatchOrStorage, Program.bind_eq, Read.evalOn_bind] at read
  rcases LawfulBuffer.getLeaf_none backed absent with missing | falls
  · rw [missing] at read
    simpa [Read.tryRun, GoError.isNotFound, except_mapError_eq_ok] using read
  · rw [falls] at read
    cases outcome : Read.evalOn database (tree.storageLeafGetter.getLeaf level index) with
    | ok found =>
        rw [Read.evalOn_tryRun database outcome (by simp)] at read
        obtain rfl := Except.ok.inj read
        exact evalOn_getLeafFromStorage_of_getter within outcome
    | error err =>
        -- only after "not found" the storage is asked again
        rcases Read.evalOn_tryRun_error database outcome with caught | panicked
        · rw [caught, except_bind_ok] at read
          by_cases absent : err.isNotFound = true
          · simpa [absent, except_mapError_eq_ok] using read
          · simp [absent] at read
        · rw [panicked] at read
          cases read

/-- A read through the buffer that succeeds shows the overlay over what the storage shows. -/
theorem getLeafFromBatchOrStorage_eq_ok (backed : Over batch tree.storageLeafGetter)
    {level : TreeLevel} {index : TreeLeafIndex} {value : U256}
    (within : level.toNat ≤ tree.depth.toNat)
    (read : Read.evalOn database (tree.getLeafFromBatchOrStorage poseidon batch level index) =
      .ok value) :
    overlay batch (readNodes poseidon tree database) level.toNat index.toNat = value := by
  rw [overlay_toNat]
  cases shown : content batch level index with
  | some other =>
      rw [evalOn_getLeafFromBatchOrStorage_of_content shown] at read
      exact Except.ok.inj read
  | none => exact readNodes_of_ok (getLeafFromStorage_of_buffer backed within shown read)

/-- It is set in the buffer or readable in the storage. -/
theorem shown_or_readable (backed : Over batch tree.storageLeafGetter)
    {level : TreeLevel} {index : TreeLeafIndex} {value : U256}
    (within : level.toNat ≤ tree.depth.toNat)
    (read : Read.evalOn database (tree.getLeafFromBatchOrStorage poseidon batch level index) =
      .ok value) :
    (content batch level index).isSome ∨ Readable poseidon tree database level index := by
  cases shown : content batch level index with
  | some other => exact Or.inl rfl
  | none => exact Or.inr ⟨value, getLeafFromStorage_of_buffer backed within shown read⟩

/-! ### Hashing the parent of a node -/

theorem uint32_mod_two_eq_zero (index : TreeLeafIndex) :
    index % 2 = 0 ↔ index.toNat % 2 = 0 := by
  rw [← UInt32.toNat_inj, UInt32.toNat_mod]
  rfl

theorem uint32_div_two (index : TreeLeafIndex) : (index / 2).toNat = index.toNat / 2 := by
  rw [UInt32.toNat_div]
  rfl

theorem toNat_leftOfParent (index : TreeLeafIndex) :
    (2 * (index / 2)).toNat = 2 * (index.toNat / 2) := by
  have bound := index.toNat_lt
  rw [UInt32.toNat_mul, uint32_div_two]
  simp
  omega

theorem toNat_rightOfParent (index : TreeLeafIndex) :
    (2 * (index / 2) + 1).toNat = 2 * (index.toNat / 2) + 1 := by
  have bound := index.toNat_lt
  rw [UInt32.toNat_add, toNat_leftOfParent]
  simp
  omega

omit [LawfulBuffer Buffer] in
/-- The two nodes read for the parent of `index` are its children, the left one first. -/
theorem getSiblingNodes_eq (batch : Buffer) (level : TreeLevel) (index : TreeLeafIndex) :
    tree.getSiblingNodes poseidon batch level index =
      (tree.getLeafFromBatchOrStorage poseidon batch level (2 * (index / 2))).bind fun left =>
        (tree.getLeafFromBatchOrStorage poseidon batch level (2 * (index / 2) + 1)).bind
          fun right => .done (left, right) := by
  have bound := index.toNat_lt
  unfold SparseMerkleTree.getSiblingNodes
  by_cases odd : index % 2 ≠ 0
  · have parity : index.toNat % 2 ≠ 0 := fun even => odd ((uint32_mod_two_eq_zero index).mpr even)
    have left : index - 1 = 2 * (index / 2) := by
      rw [← UInt32.toNat_inj, toNat_leftOfParent,
        UInt32.toNat_sub_of_le _ _ (by rw [UInt32.le_iff_toNat_le]; simp; omega)]
      simp
      omega
    have right : 2 * (index / 2) + 1 = index := by
      rw [← UInt32.toNat_inj, toNat_rightOfParent]
      omega
    simp only [if_pos odd, left, right]
    rfl
  · have parity : index.toNat % 2 = 0 := (uint32_mod_two_eq_zero index).mp (not_not.mp odd)
    have left : 2 * (index / 2) = index := by
      rw [← UInt32.toNat_inj, toNat_leftOfParent]
      omega
    simp only [if_neg odd, left]
    rfl

omit [LawfulBuffer Buffer] in
/-- Hashing for a node hashes the two children of its parent. -/
theorem evalOn_calculateHashForNode_of_reads {level : TreeLevel} {index : TreeLeafIndex}
    {left right : U256}
    (leftRead : Read.evalOn database
      (tree.getLeafFromBatchOrStorage poseidon batch level (2 * (index / 2))) = .ok left)
    (rightRead : Read.evalOn database
      (tree.getLeafFromBatchOrStorage poseidon batch level (2 * (index / 2) + 1)) = .ok right) :
    Read.evalOn database (tree.calculateHashForNode poseidon batch level index) =
      calculateHash poseidon left right := by
  simp [SparseMerkleTree.calculateHashForNode, Program.bind_eq, getSiblingNodes_eq, leftRead,
    rightRead]

theorem evalOn_calculateHashForNode (reads : ReadsNodes poseidon tree database nodes)
    (backed : Over batch tree.storageLeafGetter) {level : TreeLevel} {index : TreeLeafIndex}
    (inside : InTree 32 tree.depth.toNat level.toNat index.toNat)
    (below : level.toNat < tree.depth.toNat) :
    Read.evalOn database (tree.calculateHashForNode poseidon batch level index) =
      calculateHash poseidon (overlay batch nodes level.toNat (2 * (index.toNat / 2)))
        (overlay batch nodes level.toNat (2 * (index.toNat / 2) + 1)) := by
  have leftInside : InTree 32 tree.depth.toNat level.toNat (2 * (index / 2)).toNat := by
    rw [toNat_leftOfParent]
    exact inside.leftOfParent
  have rightInside : InTree 32 tree.depth.toNat level.toNat (2 * (index / 2) + 1).toNat := by
    rw [toNat_rightOfParent]
    exact inside.rightOfParent (by decide) below
  have left := evalOn_getLeafFromBatchOrStorage reads backed leftInside
  have right := evalOn_getLeafFromBatchOrStorage reads backed rightInside
  rw [toNat_leftOfParent] at left
  rw [toNat_rightOfParent] at right
  exact evalOn_calculateHashForNode_of_reads left right

omit [LawfulBuffer Buffer] in
/-- A hash that is calculated for a node has read both children. -/
theorem calculateHashForNode_reads {level : TreeLevel} {index : TreeLeafIndex} {hash : U256}
    (run : Read.evalOn database (tree.calculateHashForNode poseidon batch level index) =
      .ok hash) :
    ∃ left right,
      Read.evalOn database
        (tree.getLeafFromBatchOrStorage poseidon batch level (2 * (index / 2))) = .ok left ∧
      Read.evalOn database
        (tree.getLeafFromBatchOrStorage poseidon batch level (2 * (index / 2) + 1)) =
          .ok right ∧
      calculateHash poseidon left right = .ok hash := by
  simp only [SparseMerkleTree.calculateHashForNode, Program.bind_eq, Read.evalOn_bind,
    Read.evalOn_wrapf, getSiblingNodes_eq, except_bind_eq_ok, except_mapError_eq_ok,
    Read.evalOn_done, Except.ok.injEq, Read.evalOn_ofExcept] at run
  obtain ⟨_, ⟨left, leftRead, right, rightRead, rfl⟩, hashed⟩ := run
  exact ⟨left, right, leftRead, rightRead, hashed⟩

/-- It is that of the two children the overlay shows. -/
theorem calculateHashForNode_eq_ok (backed : Over batch tree.storageLeafGetter)
    {level : TreeLevel} {index : TreeLeafIndex} {hash : U256}
    (below : level.toNat < tree.depth.toNat)
    (run : Read.evalOn database (tree.calculateHashForNode poseidon batch level index) =
      .ok hash) :
    calculateHash poseidon
      (overlay batch (readNodes poseidon tree database) level.toNat (2 * (index.toNat / 2)))
      (overlay batch (readNodes poseidon tree database) level.toNat
        (2 * (index.toNat / 2) + 1)) = .ok hash := by
  obtain ⟨left, right, leftRead, rightRead, hashed⟩ := calculateHashForNode_reads run
  have leftShown := getLeafFromBatchOrStorage_eq_ok backed below.le leftRead
  have rightShown := getLeafFromBatchOrStorage_eq_ok backed below.le rightRead
  rw [toNat_leftOfParent] at leftShown
  rw [toNat_rightOfParent] at rightShown
  rw [leftShown, rightShown]
  exact hashed

theorem leftOfParent_div_two (index : TreeLeafIndex) : 2 * (index / 2) / 2 = index / 2 := by
  apply UInt32.toNat_inj.mp
  rw [uint32_div_two, toNat_leftOfParent, uint32_div_two]
  omega

theorem rightOfParent_div_two (index : TreeLeafIndex) :
    (2 * (index / 2) + 1) / 2 = index / 2 := by
  apply UInt32.toNat_inj.mp
  rw [uint32_div_two, toNat_rightOfParent, uint32_div_two]
  omega

/-- The two nodes below a parent. -/
theorem uint32_children {child index : TreeLeafIndex} (sibling : child / 2 = index / 2) :
    child = 2 * (index / 2) ∨ child = 2 * (index / 2) + 1 := by
  have halves : child.toNat / 2 = index.toNat / 2 := by
    rw [← uint32_div_two, sibling, uint32_div_two]
  rcases Nat.mod_two_eq_zero_or_one child.toNat with even | odd
  · left
    apply UInt32.toNat_inj.mp
    rw [toNat_leftOfParent]
    omega
  · right
    apply UInt32.toNat_inj.mp
    rw [toNat_rightOfParent]
    omega

/-- Both children were set in the buffer or readable in the storage. -/
theorem children_shown_or_readable (backed : Over batch tree.storageLeafGetter)
    {level : TreeLevel} {index : TreeLeafIndex} {hash : U256}
    (below : level.toNat < tree.depth.toNat)
    (run : Read.evalOn database (tree.calculateHashForNode poseidon batch level index) =
      .ok hash) {child : TreeLeafIndex} (sibling : child / 2 = index / 2) :
    (content batch level child).isSome ∨ Readable poseidon tree database level child := by
  obtain ⟨left, right, leftRead, rightRead, _⟩ := calculateHashForNode_reads run
  rcases uint32_children sibling with rfl | rfl
  · exact shown_or_readable backed below.le leftRead
  · exact shown_or_readable backed below.le rightRead

end Reads

/-- Through a batch that has nothing at the position the storage is read. -/
theorem evalOn_getLeafFromBatchOrStorage_missing {poseidon : PoseidonHash}
    {tree : SparseMerkleTree} {database : Database} {batch : BatchWithLeavesBuffer}
    {level : TreeLevel} {index : TreeLeafIndex} (missing : content batch level index = none) :
    Read.evalOn database (tree.getLeafFromBatchOrStorage poseidon batch level index) =
      (Read.evalOn database (tree.getLeafFromStorage poseidon level index)).mapError
        (GoError.wrapf "get leaf from storage") := by
  have absent : getLeaf batch level index = .fail .notFound := by
    have nothing : batch.buffer.lookup (makeLeafKey batch.index level index) = none := missing
    simp only [getLeaf, BatchWithLeavesBuffer.getLeaf, nothing]
  rw [SparseMerkleTree.getLeafFromBatchOrStorage, Program.bind_eq, Read.evalOn_bind, absent]
  simp [Read.tryRun, GoError.isNotFound]

end MerkleProofService
