/-
Module: MerkleProofService.Proofs.EmptyBranches
Layer: Proofs
Purpose: The table of empty branches.  Calculated once or read from the tree, it holds the hash of
  an empty subtree of every level, so a read of a node gives the stored node or that hash.  The
  module also states what is assumed of the Poseidon hash, and which trees a registry works with.
Imports: Proofs.Insertion
Trusted boundary: PoseidonSpec and StrictPoseidonSpec, the documented behaviour of the hash package
Main exports: PoseidonSpec, StrictPoseidonSpec, NeverZero, NeverPanics, CacheSound, TreeOf,
  EmptyBranches, emptyBranches_exist, evalOn_getLeafFromStorage, readsNodes_iff
-/
import MerkleProofService.Proofs.Insertion

namespace MerkleProofService

open Library

/-! ### What is assumed of the hash -/

/-- The order of the scalar field the hash works in. -/
def fieldModulus : Nat :=
  21888242871839275222246405745257275088548364400416034343698204186575808495617

/-- The value is a field element. -/
def InField (value : U256) : Prop :=
  value.toNat < fieldModulus

instance (value : U256) : Decidable (InField value) :=
  inferInstanceAs (Decidable (value.toNat < fieldModulus))

/-- Poseidon hashes any two field elements to a field element and never to zero. -/
structure PoseidonSpec (poseidon : PoseidonHash) : Prop where
  total : ∀ left right, left < fieldModulus → right < fieldModulus →
    ∃ hash, poseidon left right = .ok hash ∧ hash < fieldModulus
  nonzero : ∀ left right hash, poseidon left right = .ok hash → hash ≠ 0

/-- It refuses every other input. -/
structure StrictPoseidonSpec (poseidon : PoseidonHash) : Prop
    extends PoseidonSpec poseidon where
  refuses : ∀ left right hash, poseidon left right = .ok hash →
    left < fieldModulus ∧ right < fieldModulus

theorem PoseidonSpec.closed {poseidon : PoseidonHash} (spec : PoseidonSpec poseidon) :
    HashClosed poseidon InField := by
  intro left right leftField rightField
  obtain ⟨hash, hashed, field⟩ := spec.total _ _ leftField rightField
  have fits : hash < 2 ^ 256 := Nat.lt_trans field (by decide)
  refine ⟨BitVec.ofNat 256 hash, ?_, ?_⟩
  · rw [calculateHash, hashed]
    exact if_pos fits
  · rw [InField, BitVec.toNat_ofNat, Nat.mod_eq_of_lt fits]
    exact field

/-- The hash is never zero. -/
def NeverZero (poseidon : PoseidonHash) : Prop :=
  ∀ left right hash, poseidon left right = .ok hash → hash ≠ 0

theorem NeverZero.calculateHash_ne_zero {poseidon : PoseidonHash}
    (nonzero : NeverZero poseidon) {left right hash : U256}
    (hashed : calculateHash poseidon left right = .ok hash) : hash ≠ 0 := by
  unfold calculateHash at hashed
  cases outcome : poseidon left.toNat right.toNat with
  | error err =>
      rw [outcome] at hashed
      cases hashed
  | ok number =>
      rw [outcome] at hashed
      by_cases fits : number < 2 ^ 256
      · simp only [if_pos fits, Except.ok.injEq] at hashed
        rintro rfl
        have zero := congrArg BitVec.toNat hashed
        rw [BitVec.toNat_ofNat, Nat.mod_eq_of_lt fits] at zero
        exact nonzero _ _ _ outcome (by simpa using zero)
      · simp only [if_neg fits] at hashed
        cases hashed

/-- What is hashed is in the field, and so is the hash. -/
theorem StrictPoseidonSpec.calculateHash_field {poseidon : PoseidonHash}
    (spec : StrictPoseidonSpec poseidon) {left right hash : U256}
    (hashed : calculateHash poseidon left right = .ok hash) :
    InField left ∧ InField right ∧ InField hash := by
  have inputs : InField left ∧ InField right := by
    unfold calculateHash at hashed
    cases outcome : poseidon left.toNat right.toNat with
    | error err =>
        rw [outcome] at hashed
        cases hashed
    | ok number => exact spec.refuses _ _ _ outcome
  obtain ⟨other, again, field⟩ := spec.closed left right inputs.1 inputs.2
  rw [hashed] at again
  obtain rfl := Except.ok.inj again
  exact ⟨inputs.1, inputs.2, field⟩

/-- So is every node that was hashed with its sibling. -/
theorem StrictPoseidonSpec.child_field {poseidon : PoseidonHash}
    (spec : StrictPoseidonSpec poseidon) {nodes : Nat → Nat → U256} {level index : Nat}
    {hash : U256}
    (hashed : calculateHash poseidon (nodes level (2 * (index / 2)))
      (nodes level (2 * (index / 2) + 1)) = .ok hash) : InField (nodes level index) := by
  obtain ⟨left, right, _⟩ := spec.calculateHash_field hashed
  rcases Nat.mod_two_eq_zero_or_one index with even | odd
  · rwa [show 2 * (index / 2) = index by omega] at left
  · rwa [show 2 * (index / 2) + 1 = index by omega] at right

/-- A hash with the behaviour the specification asks for, simple enough to be evaluated. -/
def fieldHash : PoseidonHash := fun left right =>
  if left < fieldModulus ∧ right < fieldModulus then
    .ok (1 + (3 * left + 5 * right + 7) % (fieldModulus - 1))
  else .error (.message "inputs values not inside Finite Field")

theorem fieldHash_spec : PoseidonSpec fieldHash where
  total := by
    intro left right leftField rightField
    refine ⟨_, if_pos ⟨leftField, rightField⟩, ?_⟩
    have small := Nat.mod_lt (3 * left + 5 * right + 7)
      (show fieldModulus - 1 > 0 by decide)
    have size : fieldModulus - 1 + 1 = fieldModulus := by decide
    omega
  nonzero := by
    intro left right hash hashed
    unfold fieldHash at hashed
    by_cases inField : left < fieldModulus ∧ right < fieldModulus
    · rw [if_pos inField] at hashed
      obtain rfl := Except.ok.inj hashed
      exact Nat.add_one_ne_zero _ ∘ (Nat.add_comm _ _).trans
    · rw [if_neg inField] at hashed
      cases hashed

theorem fieldHash_strict : StrictPoseidonSpec fieldHash where
  toPoseidonSpec := fieldHash_spec
  refuses := by
    intro left right hash hashed
    unfold fieldHash at hashed
    by_cases inField : left < fieldModulus ∧ right < fieldModulus
    · exact inField
    · rw [if_neg inField] at hashed
      cases hashed

/-- The hash refuses its input with an error value, if it does. -/
def NeverPanics (poseidon : PoseidonHash) : Prop :=
  ∀ left right, NoPanic (poseidon left right)

theorem NeverPanics.calculateHash {poseidon : PoseidonHash} (calm : NeverPanics poseidon)
    (left right : U256) : NoPanic (calculateHash poseidon left right) := by
  unfold MerkleProofService.calculateHash
  cases hashed : poseidon left.toNat right.toNat with
  | error err =>
      have refused := calm left.toNat right.toNat
      rw [hashed] at refused
      exact refused.error_wrapf "compute hash"
  | ok hash =>
      by_cases fits : hash < 2 ^ 256
      · simp only [if_pos fits]
        exact NoPanic.ok _
      · simp only [if_neg fits]
        intro reason same
        cases same

theorem fieldHash_calm : NeverPanics fieldHash := by
  intro left right
  unfold fieldHash
  by_cases inField : left < fieldModulus ∧ right < fieldModulus
  · rw [if_pos inField]
    exact NoPanic.ok _
  · rw [if_neg inField]
    intro reason same
    cases same

/-! ### The table -/

/-- The table the tree keeps, if any, is the one it would calculate. -/
def CacheSound (poseidon : PoseidonHash) (tree : SparseMerkleTree) : Prop :=
  ∀ levels, tree.emptyBranchLevels = some levels →
    tree.calculateEmptyBranchHashes poseidon = .ok levels

/-- `empty level` is the hash of an empty subtree of that level, and the tree answers so. -/
structure EmptyBranches (poseidon : PoseidonHash) (tree : SparseMerkleTree)
    (empty : Nat → U256) : Prop where
  ground : empty 0 = tree.emptyLeaf
  hashed : ∀ level, level < tree.depth.toNat →
    calculateHash poseidon (empty level) (empty level) = .ok (empty (level + 1))
  answered : ∀ level : TreeLevel, level.toNat ≤ tree.depth.toNat →
    (tree.getEmptyBranchValue poseidon level).map Prod.fst = .ok (empty level.toNat)

section Table

variable {poseidon : PoseidonHash} {tree : SparseMerkleTree} {Accepts : U256 → Prop}

theorem fillEmptyBranches_total (closed : HashClosed poseidon Accepts) :
    ∀ {count : Nat} {prevHash : U256} (level : TreeLevel), Accepts prevHash →
      ∃ empty : Nat → U256, empty 0 = prevHash ∧ (∀ step, Accepts (empty step)) ∧
        (∀ step, step < count →
          calculateHash poseidon (empty step) (empty step) = .ok (empty (step + 1))) ∧
        SparseMerkleTree.fillEmptyBranches poseidon prevHash level count =
          .ok ((List.range (count + 1)).map empty)
  | 0, prevHash, level, accepted =>
      ⟨fun _ => prevHash, rfl, fun _ => accepted, by simp, rfl⟩
  | count + 1, prevHash, level, accepted => by
      obtain ⟨hash, hashes, hashAccepted⟩ := closed prevHash prevHash accepted accepted
      obtain ⟨above, ground, accepts, chain, filled⟩ :=
        @fillEmptyBranches_total closed count hash (level + 1) hashAccepted
      refine ⟨fun step => step.casesOn prevHash above, rfl, ?_, ?_, ?_⟩
      · intro step
        cases step with
        | zero => exact accepted
        | succ step => exact accepts step
      · intro step small
        cases step with
        | zero =>
            rw [← ground] at hashes
            exact hashes
        | succ step => exact chain step (by omega)
      · rw [SparseMerkleTree.fillEmptyBranches, hashes, except_mapError_ok, except_bind_ok,
          filled, except_bind_ok, List.range_succ_eq_map (n := count + 1)]
        simp

/-- A table that is filled is a chain of hashes. -/
theorem fillEmptyBranches_eq_ok {count : Nat} {prevHash : U256} {level : TreeLevel}
    {levels : List U256}
    (filled : SparseMerkleTree.fillEmptyBranches poseidon prevHash level count = .ok levels) :
    ∃ empty : Nat → U256, empty 0 = prevHash ∧
      (∀ step, step < count →
        calculateHash poseidon (empty step) (empty step) = .ok (empty (step + 1))) ∧
      levels = (List.range (count + 1)).map empty := by
  induction count generalizing prevHash level levels with
  | zero => exact ⟨fun _ => prevHash, rfl, by simp, (Except.ok.inj filled).symm⟩
  | succ count ih =>
      simp only [SparseMerkleTree.fillEmptyBranches, except_bind_eq_ok, except_mapError_eq_ok,
        Except.ok.injEq] at filled
      obtain ⟨hash, hashed, rest, filledRest, rfl⟩ := filled
      obtain ⟨above, ground, chain, rfl⟩ := ih filledRest
      refine ⟨fun step => step.casesOn prevHash above, rfl, fun step small => ?_, ?_⟩
      · cases step with
        | zero =>
            rw [← ground] at hashed
            exact hashed
        | succ step => exact chain step (by omega)
      · rw [List.range_succ_eq_map (n := count + 1)]
        simp

/-- The tree answers from a table it could calculate. -/
theorem emptyBranches_of_calculated {empty : Nat → U256} (cache : CacheSound poseidon tree)
    (ground : empty 0 = tree.emptyLeaf)
    (chain : ∀ level, level < tree.depth.toNat →
      calculateHash poseidon (empty level) (empty level) = .ok (empty (level + 1)))
    (calculated : tree.calculateEmptyBranchHashes poseidon =
      .ok ((List.range (tree.depth.toNat + 1)).map empty)) : EmptyBranches poseidon tree empty := by
  have table : tree.emptyBranchTable poseidon =
      .ok ((List.range (tree.depth.toNat + 1)).map empty) := by
    unfold SparseMerkleTree.emptyBranchTable
    cases kept : tree.emptyBranchLevels with
    | none => rw [calculated, except_mapError_ok]
    | some levels =>
        have same := cache levels kept
        rw [calculated] at same
        exact congrArg Except.ok (Except.ok.inj same).symm
  refine ⟨ground, chain, fun level within => ?_⟩
  have above : ¬ level > tree.depth := by
    rw [gt_iff_lt, UInt8.lt_iff_toNat_lt]
    omega
  rw [SparseMerkleTree.getEmptyBranchValue, if_neg above, table, except_bind_ok,
    List.getElem?_map, List.getElem?_range (by omega)]
  rfl

/-- The table can be calculated when the empty leaf is a value the hash accepts. -/
theorem emptyBranches_exist (closed : HashClosed poseidon Accepts)
    (accepted : Accepts tree.emptyLeaf) (positive : 1 ≤ tree.depth.toNat)
    (shallow : tree.depth.toNat < 255) (cache : CacheSound poseidon tree) :
    ∃ empty, EmptyBranches poseidon tree empty ∧ ∀ level, Accepts (empty level) := by
  obtain ⟨empty, ground, accepts, chain, filled⟩ :=
    @fillEmptyBranches_total poseidon Accepts closed tree.depth.toNat tree.emptyLeaf 1 accepted
  have deep : ¬ tree.depth < 1 := by
    rw [UInt8.lt_iff_toNat_lt]
    simp
    omega
  have noWrap : tree.depth + 1 ≠ 0 := by
    intro wrapped
    have numbers := congrArg UInt8.toNat wrapped
    rw [UInt8.toNat_add] at numbers
    simp at numbers
    omega
  have calculated : tree.calculateEmptyBranchHashes poseidon =
      .ok ((List.range (tree.depth.toNat + 1)).map empty) := by
    rw [SparseMerkleTree.calculateEmptyBranchHashes, if_neg deep, if_neg noWrap, filled]
  exact ⟨empty, emptyBranches_of_calculated cache ground chain calculated, accepts⟩

/-- A tree with a right table answers from the table it would calculate. -/
theorem emptyBranchTable_eq_ok (cache : CacheSound poseidon tree) {levels : List U256}
    (table : tree.emptyBranchTable poseidon = .ok levels) :
    tree.calculateEmptyBranchHashes poseidon = .ok levels := by
  unfold SparseMerkleTree.emptyBranchTable at table
  cases kept : tree.emptyBranchLevels with
  | none =>
      rw [kept] at table
      exact except_mapError_eq_ok.mp table
  | some other =>
      rw [kept] at table
      obtain rfl := Except.ok.inj table
      exact cache other kept

/-- A calculated table has one entry for each level. -/
theorem calculateEmptyBranchHashes_table {levels : List U256}
    (calculated : tree.calculateEmptyBranchHashes poseidon = .ok levels) :
    ∃ empty : Nat → U256, levels = (List.range (tree.depth.toNat + 1)).map empty := by
  unfold SparseMerkleTree.calculateEmptyBranchHashes at calculated
  split at calculated
  · cases calculated
  · split at calculated
    · cases calculated
    · obtain ⟨empty, _, _, rfl⟩ := fillEmptyBranches_eq_ok calculated
      exact ⟨empty, rfl⟩

/-- An empty branch that is answered stands in the table, which is kept. -/
theorem getEmptyBranchValue_eq_ok {level : TreeLevel} {value : U256} {filled : SparseMerkleTree}
    (answer : tree.getEmptyBranchValue poseidon level = .ok (value, filled)) :
    ∃ levels, tree.emptyBranchTable poseidon = .ok levels ∧ levels[level.toNat]? = some value ∧
      filled = { tree with emptyBranchLevels := some levels } := by
  unfold SparseMerkleTree.getEmptyBranchValue at answer
  by_cases deep : level > tree.depth
  · rw [if_pos deep] at answer
    cases answer
  · rw [if_neg deep, except_bind_eq_ok] at answer
    rcases answer with ⟨levels, table, answer⟩
    cases entry : levels[level.toNat]? with
    | none =>
        rw [entry] at answer
        cases answer
    | some hash =>
        rw [entry] at answer
        obtain ⟨rfl, rfl⟩ := Prod.mk.inj (Except.ok.inj answer)
        exact ⟨levels, table, entry, rfl⟩

/-! ### The table never panics -/

theorem fillEmptyBranches_noPanic (calm : NeverPanics poseidon) {count : Nat} {prevHash : U256}
    {level : TreeLevel} :
    NoPanic (SparseMerkleTree.fillEmptyBranches poseidon prevHash level count) := by
  induction count generalizing prevHash level with
  | zero => exact NoPanic.ok _
  | succ count ih =>
      refine NoPanic.bind ((calm.calculateHash prevHash prevHash).mapError_wrapf _) ?_
      intro hash _
      exact NoPanic.bind ih fun levels _ => NoPanic.ok _

/-- Below depth 255 the table has room for its first level. -/
theorem calculateEmptyBranchHashes_noPanic (calm : NeverPanics poseidon)
    (shallow : tree.depth.toNat < 255) : NoPanic (tree.calculateEmptyBranchHashes poseidon) := by
  unfold SparseMerkleTree.calculateEmptyBranchHashes
  by_cases none : tree.depth < 1
  · rw [if_pos none]
    intro reason same
    cases same
  · rw [if_neg none]
    by_cases wraps : tree.depth + 1 = 0
    · have numbers := congrArg UInt8.toNat wraps
      rw [UInt8.toNat_add] at numbers
      simp at numbers
      omega
    · rw [if_neg wraps]
      exact fillEmptyBranches_noPanic calm

/-- The table has an entry for every level of the tree. -/
theorem getEmptyBranchValue_noPanic (calm : NeverPanics poseidon)
    (cache : CacheSound poseidon tree) (shallow : tree.depth.toNat < 255) (level : TreeLevel) :
    NoPanic (tree.getEmptyBranchValue poseidon level) := by
  have calculates := calculateEmptyBranchHashes_noPanic calm shallow
  unfold SparseMerkleTree.getEmptyBranchValue
  by_cases deep : level > tree.depth
  · rw [if_pos deep]
    intro reason same
    cases same
  · rw [if_neg deep]
    refine NoPanic.bind ?_ fun levels table => ?_
    · unfold SparseMerkleTree.emptyBranchTable
      cases kept : tree.emptyBranchLevels with
      | some levels => exact NoPanic.ok _
      | none => exact calculates.mapError_wrapf _
    · obtain ⟨empty, rfl⟩ := calculateEmptyBranchHashes_table (emptyBranchTable_eq_ok cache table)
      have within : level.toNat < tree.depth.toNat + 1 := by
        rw [gt_iff_lt, UInt8.lt_iff_toNat_lt] at deep
        omega
      rw [List.getElem?_map, List.getElem?_range within]
      exact NoPanic.ok _

/-- Filling the table changes neither what the tree answers nor that its table is right. -/
theorem getEmptyBranchValue_table {level : TreeLevel} {value : U256}
    {filled : SparseMerkleTree} (cache : CacheSound poseidon tree)
    (answer : tree.getEmptyBranchValue poseidon level = .ok (value, filled)) :
    CacheSound poseidon filled ∧ ∀ level',
      (filled.getEmptyBranchValue poseidon level').map Prod.fst =
        (tree.getEmptyBranchValue poseidon level').map Prod.fst := by
  obtain ⟨levels, table, _, rfl⟩ := getEmptyBranchValue_eq_ok answer
  refine ⟨fun other kept => ?_, fun level' => ?_⟩
  · obtain rfl := Option.some.inj kept
    exact emptyBranchTable_eq_ok cache table
  · simp only [SparseMerkleTree.getEmptyBranchValue]
    have refilled : SparseMerkleTree.emptyBranchTable poseidon
        { tree with emptyBranchLevels := some levels } = .ok levels := rfl
    rw [refilled, table]

end Table

/-! ### The trees of a registry -/

/-- The states of a tree made by `NewSparseTree` for a registry: any read may fill its table. -/
inductive TreeOf (poseidon : PoseidonHash) (depth : TreeLevel) (emptyValue : U256)
    (registryIndex : RegistryIndex) : SparseMerkleTree → Prop
  | created : TreeOf poseidon depth emptyValue registryIndex
      (newSparseTree depth emptyValue (LeafView.getter ⟨registryIndex⟩))
  | filled {tree filled : SparseMerkleTree} {level : TreeLevel} {value : U256} :
      TreeOf poseidon depth emptyValue registryIndex tree →
      tree.getEmptyBranchValue poseidon level = .ok (value, filled) →
      TreeOf poseidon depth emptyValue registryIndex filled

namespace TreeOf

variable {poseidon : PoseidonHash} {depth : TreeLevel} {emptyValue : U256}
variable {registryIndex : RegistryIndex} {tree : SparseMerkleTree}

/-- Filling the table is all that happens to a tree. -/
theorem getEmptyBranchValue_frame {level : TreeLevel} {value : U256}
    {filled : SparseMerkleTree}
    (answer : tree.getEmptyBranchValue poseidon level = .ok (value, filled)) :
    filled.depth = tree.depth ∧ filled.emptyLeaf = tree.emptyLeaf ∧
      filled.storageLeafGetter = tree.storageLeafGetter := by
  obtain ⟨levels, _, _, rfl⟩ := getEmptyBranchValue_eq_ok answer
  exact ⟨rfl, rfl, rfl⟩

theorem shape (made : TreeOf poseidon depth emptyValue registryIndex tree) :
    tree.depth = depth ∧ tree.emptyLeaf = emptyValue ∧
      tree.storageLeafGetter = LeafView.getter ⟨registryIndex⟩ := by
  induction made with
  | created => exact ⟨rfl, rfl, rfl⟩
  | filled _ answer ih =>
      obtain ⟨sameDepth, sameEmpty, sameGetter⟩ := getEmptyBranchValue_frame answer
      rw [sameDepth, sameEmpty, sameGetter]
      exact ih

theorem getter (made : TreeOf poseidon depth emptyValue registryIndex tree) :
    tree.storageLeafGetter = LeafView.getter ⟨registryIndex⟩ :=
  made.shape.2.2

theorem cacheSound (made : TreeOf poseidon depth emptyValue registryIndex tree) :
    CacheSound poseidon tree := by
  induction made with
  | created =>
      intro levels kept
      cases kept
  | filled _ answer ih => exact (getEmptyBranchValue_table ih answer).1

end TreeOf

/-! ### Nodes of a registry's tree -/

section Storage

variable {poseidon : PoseidonHash} {tree : SparseMerkleTree} {database : Database}
variable {registryIndex : RegistryIndex} {empty : Nat → U256}

/-- A node is what is stored for it, or what the table of empty branches says. -/
theorem evalOn_getLeafFromStorage_stored
    (getter : tree.storageLeafGetter = LeafView.getter ⟨registryIndex⟩) {level : TreeLevel}
    (within : level.toNat ≤ tree.depth.toNat) (index : TreeLeafIndex) :
    Read.evalOn database (tree.getLeafFromStorage poseidon level index) =
      match storedLeaf database registryIndex level index with
      | some value => .ok value
      | none => (tree.getEmptyBranchValue poseidon level).map Prod.fst := by
  have low : ¬ level > tree.depth := by
    rw [gt_iff_lt, UInt8.lt_iff_toNat_lt]
    omega
  rw [SparseMerkleTree.getLeafFromStorage, if_neg low, Program.bind_eq, Read.evalOn_bind, getter]
  change (Read.evalOn database ((LeafView.getLeaf ⟨registryIndex⟩ level index).tryRun)).bind _ = _
  rw [LeafView.evalOn_tryRun_getLeaf]
  cases storedLeaf database registryIndex level index with
  | some value => rfl
  | none => simp [leafOutcome, GoError.isNotFound]

/-- Reading a node of the registry's storage never panics. -/
theorem evalOn_getLeafFromStorage_noPanic (calm : NeverPanics poseidon)
    (getter : tree.storageLeafGetter = LeafView.getter ⟨registryIndex⟩)
    (cache : CacheSound poseidon tree) (shallow : tree.depth.toNat < 255) (level : TreeLevel)
    (index : TreeLeafIndex) :
    NoPanic (Read.evalOn database (tree.getLeafFromStorage poseidon level index)) := by
  by_cases within : level.toNat ≤ tree.depth.toNat
  · rw [evalOn_getLeafFromStorage_stored getter within]
    cases storedLeaf database registryIndex level index with
    | some value => exact NoPanic.ok value
    | none => exact (getEmptyBranchValue_noPanic calm cache shallow level).map Prod.fst
  · have deep : level > tree.depth := by
      rw [gt_iff_lt, UInt8.lt_iff_toNat_lt]
      omega
    rw [SparseMerkleTree.getLeafFromStorage, if_pos deep]
    intro reason same
    cases same

/-- Databases that store the same nodes for a registry show the same tree. -/
theorem ReadsNodes.congr {database' : Database} {nodes : Nat → Nat → U256}
    (getter : tree.storageLeafGetter = LeafView.getter ⟨registryIndex⟩)
    (reads : ReadsNodes poseidon tree database nodes)
    (same : ∀ level index, storedLeaf database' registryIndex level index =
      storedLeaf database registryIndex level index) :
    ReadsNodes poseidon tree database' nodes := by
  intro level index inside
  rw [evalOn_getLeafFromStorage_stored getter inside.1, same,
    ← evalOn_getLeafFromStorage_stored getter inside.1]
  exact reads level index inside

theorem evalOn_getLeafFromStorage (branches : EmptyBranches poseidon tree empty)
    (getter : tree.storageLeafGetter = LeafView.getter ⟨registryIndex⟩) {level : TreeLevel}
    (within : level.toNat ≤ tree.depth.toNat) (index : TreeLeafIndex) :
    Read.evalOn database (tree.getLeafFromStorage poseidon level index) =
      .ok ((storedLeaf database registryIndex level index).getD (empty level.toNat)) := by
  rw [evalOn_getLeafFromStorage_stored getter within index]
  cases storedLeaf database registryIndex level index with
  | some value => rfl
  | none => exact branches.answered level within

/-- The nodes of a registry's tree, as a table. -/
theorem readsNodes_iff (branches : EmptyBranches poseidon tree empty)
    (getter : tree.storageLeafGetter = LeafView.getter ⟨registryIndex⟩)
    {nodes : Nat → Nat → U256} :
    ReadsNodes poseidon tree database nodes ↔
      ∀ (level : TreeLevel) (index : TreeLeafIndex),
        InTree 32 tree.depth.toNat level.toNat index.toNat →
        (storedLeaf database registryIndex level index).getD (empty level.toNat) =
          nodes level.toNat index.toNat := by
  constructor
  · intro reads level index inside
    have read := reads level index inside
    rw [evalOn_getLeafFromStorage branches getter inside.1] at read
    exact Except.ok.inj read
  · intro shown level index inside
    rw [evalOn_getLeafFromStorage branches getter inside.1, shown level index inside]

end Storage

end MerkleProofService
