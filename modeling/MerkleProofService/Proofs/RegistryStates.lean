/-
Module: MerkleProofService.Proofs.RegistryStates
Layer: Proofs
Purpose: The registry as the contract sees it, a table of slots, and the database as a
  representation of it.  Operations the contract can emit keep the value-to-index entries and
  the slots in bijection, however the operations are cut into commits.
Imports: Proofs.RegistryCommits
Trusted boundary: none
Main exports: applyOperations, Allowed, WellFormed, Bijective, RegistryState,
  RegistryState.commit, commitAllOperations, commits_keep_bijection
-/
import MerkleProofService.Proofs.RegistryCommits

namespace MerkleProofService

open Library

/-! ### The slots of the contract -/

/-- The slots of a registry; a slot that holds no certificate holds the empty value. -/
abbrev Slots := TreeLeafIndex → U256

def applyOperation (emptyValue : U256) (slots : Slots) (op : LeafOperation) : Slots :=
  Function.update slots op.leaf.index (newLeaf emptyValue op)

def applyOperations (emptyValue : U256) (slots : Slots) (operations : List LeafOperation) :
    Slots :=
  operations.foldl (applyOperation emptyValue) slots

/-- An operation the contract can emit: an addition of a new value to an empty slot, or a
revocation of the value a slot holds. -/
def Allowed (metadata : Metadata) (slots : Slots) (op : LeafOperation) : Prop :=
  op.leaf.index.toNat < 2 ^ metadata.depth.toNat ∧
    match op.op with
    | .addition =>
        slots op.leaf.index = metadata.emptyValue ∧ op.leaf.value ≠ 0 ∧
          op.leaf.value ≠ metadata.emptyValue ∧ ∀ index, slots index ≠ op.leaf.value
    | .revocation => slots op.leaf.index = op.leaf.value
    | .unknown _ => False

/-- Every operation of the list is allowed where its predecessors have led. -/
def WellFormed (metadata : Metadata) : Slots → List LeafOperation → Prop
  | _, [] => True
  | slots, op :: operations =>
      Allowed metadata slots op ∧
        WellFormed metadata (applyOperation metadata.emptyValue slots op) operations

/-- No certificate anywhere. -/
def emptySlots (metadata : Metadata) : Slots :=
  fun _ => metadata.emptyValue

/-- `position` finds exactly the values that stand in a slot, and finds their slot. -/
structure Bijective (emptyValue : U256) (slots : Slots)
    (position : U256 → Option TreeLeafIndex) : Prop where
  finds : ∀ value, value ≠ emptyValue → ∀ index,
    position value = some index ↔ slots index = value
  empty : position emptyValue = none

/-- The entries after some operations. -/
def applyEntries (position : U256 → Option TreeLeafIndex) (operations : List LeafOperation)
    (value : U256) : Option TreeLeafIndex :=
  (lastEntry operations value).getD (position value)

section Slots

variable {metadata : Metadata} {slots : Slots} {position : U256 → Option TreeLeafIndex}
variable {op : LeafOperation} {operations : List LeafOperation}

theorem wellFormed_append {first second : List LeafOperation} :
    WellFormed metadata slots (first ++ second) ↔
      WellFormed metadata slots first ∧
        WellFormed metadata (applyOperations metadata.emptyValue slots first) second := by
  induction first generalizing slots with
  | nil => simp [WellFormed, applyOperations]
  | cons op first ih =>
      rw [List.cons_append, WellFormed, WellFormed, ih, and_assoc]
      rfl

theorem applyOperations_eq_lastWrite (emptyValue : U256) (slots : Slots)
    (operations : List LeafOperation) (index : TreeLeafIndex) :
    applyOperations emptyValue slots operations index =
      (lastWrite (operationLeaves emptyValue operations) index).getD (slots index) := by
  induction operations generalizing slots with
  | nil => rfl
  | cons op operations ih =>
      have step : applyOperations emptyValue slots (op :: operations) =
          applyOperations emptyValue (applyOperation emptyValue slots op) operations := rfl
      have split : operationLeaves emptyValue (op :: operations) =
          ⟨op.leaf.index, newLeaf emptyValue op⟩ :: operationLeaves emptyValue operations := rfl
      rw [step, ih, split, lastWrite]
      cases lastWrite (operationLeaves emptyValue operations) index with
      | some value => rfl
      | none =>
          by_cases here : op.leaf.index = index
          · subst here
            simp [applyOperation]
          · simp [applyOperation, here, Function.update_of_ne (Ne.symm here)]

theorem Allowed.known (allowed : Allowed metadata slots op) : Known op := by
  unfold Allowed at allowed
  cases kind : op.op with
  | addition => exact Or.inl kind
  | revocation => exact Or.inr kind
  | unknown code =>
      rw [kind] at allowed
      exact absurd allowed.2 id

theorem Allowed.committable (allowed : Allowed metadata slots op) :
    Committable metadata op := by
  refine ⟨allowed.1, ?_⟩
  rcases allowed.known with addition | revocation
  · have rules := allowed.2
    rw [addition] at rules
    rw [newLeaf, addition]
    exact Or.inl rules.2.1
  · rw [newLeaf, revocation]
    exact Or.inr rfl

theorem WellFormed.committable (wellFormed : WellFormed metadata slots operations) :
    ∀ op ∈ operations, Committable metadata op := by
  induction operations generalizing slots with
  | nil =>
      intro op member
      cases member
  | cons first operations ih =>
      intro op member
      cases member with
      | head => exact wellFormed.1.committable
      | tail _ later => exact ih wellFormed.2 op later

/-- A new value in a free slot gets its entry. -/
theorem Bijective.add {emptyValue added : U256} {slot : TreeLeafIndex}
    (bijective : Bijective emptyValue slots position) (free : slots slot = emptyValue)
    (notEmpty : added ≠ emptyValue) (fresh : ∀ index, slots index ≠ added) :
    Bijective emptyValue (Function.update slots slot added)
      (Function.update position added (some slot)) := by
  refine ⟨fun value different index => ?_, ?_⟩
  · by_cases same : value = added
    · subst same
      rw [Function.update_self, Option.some.injEq]
      constructor
      · intro here
        rw [← here, Function.update_self]
      · intro holds
        by_cases here : index = slot
        · exact here.symm
        · rw [Function.update_of_ne here] at holds
          exact absurd holds (fresh index)
    · rw [Function.update_of_ne same, bijective.finds value different]
      by_cases here : index = slot
      · subst here
        rw [Function.update_self, free]
        exact ⟨fun empty => absurd empty.symm different, fun new => absurd new.symm same⟩
      · rw [Function.update_of_ne here]
  · rw [Function.update_of_ne (Ne.symm notEmpty)]
    exact bijective.empty

/-- A value that leaves its slot loses its entry. -/
theorem Bijective.revoke {emptyValue revoked : U256} {slot : TreeLeafIndex}
    (bijective : Bijective emptyValue slots position) (holds : slots slot = revoked) :
    Bijective emptyValue (Function.update slots slot emptyValue)
      (Function.update position revoked none) := by
  refine ⟨fun value different index => ?_, ?_⟩
  · by_cases same : value = revoked
    · -- the value stood in one slot only, which is now empty
      subst same
      rw [Function.update_self]
      constructor
      · intro found
        cases found
      · intro still
        by_cases here : index = slot
        · subst here
          rw [Function.update_self] at still
          exact absurd still.symm different
        · rw [Function.update_of_ne here] at still
          have first := (bijective.finds _ different index).mpr still
          rw [(bijective.finds _ different slot).mpr holds] at first
          exact absurd (Option.some.inj first).symm here
    · rw [Function.update_of_ne same, bijective.finds value different]
      by_cases here : index = slot
      · subst here
        rw [Function.update_self, holds]
        exact ⟨fun old => absurd old.symm same, fun empty => absurd empty.symm different⟩
      · rw [Function.update_of_ne here]
  · by_cases isEmpty : emptyValue = revoked
    · rw [isEmpty, Function.update_self]
    · rw [Function.update_of_ne isEmpty]
      exact bijective.empty

/-- One operation keeps the entries and the slots in bijection. -/
theorem Bijective.apply (bijective : Bijective metadata.emptyValue slots position)
    (allowed : Allowed metadata slots op) :
    Bijective metadata.emptyValue (applyOperation metadata.emptyValue slots op)
      (Function.update position op.leaf.value
        (if op.op = .addition then some op.leaf.index else none)) := by
  have rules := allowed.2
  rcases allowed.known with addition | revocation
  · rw [addition] at rules
    rcases rules with ⟨free, _, notEmpty, fresh⟩
    rw [if_pos addition, applyOperation, newLeaf, addition]
    exact bijective.add free notEmpty fresh
  · rw [revocation] at rules
    have kind : ¬ op.op = .addition := by
      rw [revocation]
      decide
    rw [if_neg kind, applyOperation, newLeaf, revocation]
    exact bijective.revoke rules

theorem applyEntries_cons (value : U256) :
    applyEntries position (op :: operations) value =
      applyEntries (Function.update position op.leaf.value
        (if op.op = .addition then some op.leaf.index else none)) operations value := by
  unfold applyEntries
  rw [lastEntry]
  cases lastEntry operations value with
  | some entry => rfl
  | none =>
      by_cases here : op.leaf.value = value
      · subst here
        simp
      · simp [here, Function.update_of_ne (Ne.symm here)]

theorem lastEntry_append (first second : List LeafOperation) (value : U256) :
    lastEntry (first ++ second) value =
      (lastEntry second value).or (lastEntry first value) := by
  induction first with
  | nil => simp [lastEntry]
  | cons op first ih => rw [List.cons_append, lastEntry, ih, lastEntry, Option.or_assoc]

theorem applyEntries_append (first second : List LeafOperation) :
    applyEntries position (first ++ second) =
      applyEntries (applyEntries position first) second := by
  funext value
  unfold applyEntries
  rw [lastEntry_append]
  cases lastEntry second value <;> rfl

/-- Any number of operations keep the bijection. -/
theorem Bijective.applyAll (bijective : Bijective metadata.emptyValue slots position)
    (wellFormed : WellFormed metadata slots operations) :
    Bijective metadata.emptyValue (applyOperations metadata.emptyValue slots operations)
      (applyEntries position operations) := by
  induction operations generalizing slots position with
  | nil => exact bijective
  | cons op operations ih =>
      have rest := ih (bijective.apply wellFormed.1) wellFormed.2
      have same : applyEntries position (op :: operations) = applyEntries _ operations :=
        funext applyEntries_cons
      rw [same]
      exact rest

end Slots

/-! ### The database as a representation -/

/-- The database represents a registry with these slots: a consistent tree over them, and one
value-to-index entry for every value that stands in a slot. -/
structure RegistryState (poseidon : PoseidonHash) (reg : ZKCertificateRegistry)
    (database : Database) (nodes : Nat → Nat → U256) (slots : Slots)
    (position : U256 → Option TreeLeafIndex) : Prop where
  reads : ReadsNodes poseidon reg.sparseTree database nodes
  consistent : Consistent (calculateHash poseidon) 32 reg.sparseTree.depth.toNat nodes
  leaves : ∀ index : TreeLeafIndex, index.toNat < 2 ^ reg.metadata.depth.toNat →
    nodes 0 index.toNat = slots index
  outside : ∀ index : TreeLeafIndex, 2 ^ reg.metadata.depth.toNat ≤ index.toNat →
    slots index = reg.metadata.emptyValue
  bijective : Bijective reg.metadata.emptyValue slots position
  entries : ∀ value,
    database.lookup (makeLeafIndexKey reg.leafView.registryIndex value) =
      (position value).map LeafView.leafIndexBytes

section States

variable {poseidon : PoseidonHash} {reg : ZKCertificateRegistry} {database : Database}
variable {nodes : Nat → Nat → U256} {slots : Slots} {position : U256 → Option TreeLeafIndex}

theorem applyOperations_outside {metadata : Metadata} {operations : List LeafOperation}
    (committable : ∀ op ∈ operations, Committable metadata op) {index : TreeLeafIndex}
    (beyond : 2 ^ metadata.depth.toNat ≤ index.toNat) :
    applyOperations metadata.emptyValue slots operations index = slots index := by
  rw [applyOperations_eq_lastWrite]
  cases written : lastWrite (operationLeaves metadata.emptyValue operations) index with
  | none => rfl
  | some value =>
      obtain ⟨leaf, member, rfl, _⟩ := lastWrite_mem written
      rcases List.mem_map.mp member with ⟨op, opMember, rfl⟩
      exact absurd (committable op opMember).1 (Nat.not_lt.mpr beyond)

/-- The empty database represents the registry without certificates. -/
theorem registryState_empty (spec : PoseidonSpec poseidon)
    (built : InitializedRegistry poseidon reg) (contract : ContractMetadata reg.metadata) :
    ∃ nodes, RegistryState poseidon reg ∅ nodes (emptySlots reg.metadata) fun _ => none := by
  obtain ⟨nodes, sound, empty⟩ := built.soundNodes spec contract
  refine ⟨nodes, ?_⟩
  exact
    { reads := sound.reads
      consistent := sound.consistent
      leaves := fun index _ => empty index.toNat
      outside := fun _ _ => rfl
      bijective :=
        { finds := fun value different index =>
            ⟨fun found => (nomatch found), fun same => absurd same.symm different⟩
          empty := rfl }
      entries := fun _ => Finmap.lookup_empty _ }

/-- Writing keys of other kinds leaves the represented state as it is. -/
theorem RegistryState.foreign (built : InitializedRegistry poseidon reg)
    (state : RegistryState poseidon reg database nodes slots position) {rest : Batch}
    (foreign : ∀ key, ¬ NoRegistryKey reg.leafView.registryIndex key →
      lastEffect rest key = none) :
    RegistryState poseidon reg (Store.write database rest) nodes slots position :=
  { state with
    reads := state.reads.congr built.tree.getter fun level index => by
      rw [storedLeaf, storedLeaf, Store.lookup_write_of_none]
      exact foreign _ fun outside => outside.1 level index rfl
    entries := fun value => by
      rw [Store.lookup_write_of_none]
      · exact state.entries value
      · exact foreign _ fun outside => outside.2 value rfl }

/-- A commit of operations the contract can emit leads from one represented state to the
next. -/
theorem RegistryState.commit (spec : PoseidonSpec poseidon)
    (built : InitializedRegistry poseidon reg) (contract : ContractMetadata reg.metadata)
    (state : RegistryState poseidon reg database nodes slots position)
    {operations : List LeafOperation}
    (wellFormed : WellFormed reg.metadata slots operations) {batch : Batch}
    (run : Read.evalOn database (reg.commitOperations poseidon [] operations) = .ok batch) :
    ∃ nodes', RegistryState poseidon reg (Store.write database batch) nodes'
      (applyOperations reg.metadata.emptyValue slots operations)
      (applyEntries position operations) := by
  have committable := wellFormed.committable
  obtain ⟨nodes', effect⟩ := commitOperations_spec spec built
    (fun _ => built.emptyBranches spec contract) state.reads (fun _ _ => rfl) committable run
  refine ⟨nodes', ?_⟩
  exact
    { reads := effect.reads
      consistent := effect.recomputed.consistent state.consistent
      leaves := fun index inRange => by
        rw [effect.leaves, UInt32.ofNat_toNat, state.leaves index inRange,
          applyOperations_eq_lastWrite]
      outside := fun index beyond => by
        rw [applyOperations_outside committable beyond, state.outside index beyond]
      bijective := state.bijective.applyAll wellFormed
      entries := fun value => by
        rw [Store.lookup_write, effect.entries, state.entries, applyEntries,
          lastEffect_nil, Option.or_none]
        cases lastEntry operations value <;> rfl }

/-! ### Runs of commits -/

/-- Commit each list of operations in a batch of its own. -/
def commitAllOperations (poseidon : PoseidonHash) (reg : ZKCertificateRegistry) :
    List (List LeafOperation) → Database → Except GoError Database
  | [], database => .ok database
  | operations :: commits, database =>
      (Read.evalOn database (reg.commitOperations poseidon [] operations)).bind fun batch =>
        commitAllOperations poseidon reg commits (Store.write database batch)

theorem RegistryState.commitAll (spec : PoseidonSpec poseidon)
    (built : InitializedRegistry poseidon reg) (contract : ContractMetadata reg.metadata)
    {commits : List (List LeafOperation)} {database' : Database}
    (state : RegistryState poseidon reg database nodes slots position)
    (wellFormed : WellFormed reg.metadata slots commits.flatten)
    (run : commitAllOperations poseidon reg commits database = .ok database') :
    ∃ nodes', RegistryState poseidon reg database' nodes'
      (applyOperations reg.metadata.emptyValue slots commits.flatten)
      (applyEntries position commits.flatten) := by
  induction commits generalizing database nodes slots position with
  | nil =>
      obtain rfl := Except.ok.inj run
      exact ⟨nodes, state⟩
  | cons operations commits ih =>
      rw [List.flatten_cons, wellFormed_append] at wellFormed
      rw [commitAllOperations, except_bind_eq_ok] at run
      rcases run with ⟨batch, committed, run⟩
      obtain ⟨nodes₁, state₁⟩ := state.commit spec built contract wellFormed.1 committed
      obtain ⟨nodes', state'⟩ := ih state₁ wellFormed.2 run
      refine ⟨nodes', ?_⟩
      rw [List.flatten_cons, applyOperations, List.foldl_append, applyEntries_append]
      exact state'

/-! ### What a represented state answers -/

/-- A value that is found stands in its slot, inside the tree. -/
theorem RegistryState.found (state : RegistryState poseidon reg database nodes slots position)
    {value : U256} {index : TreeLeafIndex} (found : position value = some index) :
    value ≠ reg.metadata.emptyValue ∧ slots index = value ∧
      index.toNat < 2 ^ reg.metadata.depth.toNat ∧ nodes 0 index.toNat = value := by
  have different : value ≠ reg.metadata.emptyValue := by
    rintro rfl
    rw [state.bijective.empty] at found
    cases found
  have holds := (state.bijective.finds value different index).mp found
  have inRange : index.toNat < 2 ^ reg.metadata.depth.toNat := by
    apply Nat.lt_of_not_le
    intro beyond
    exact different (holds.symm.trans (state.outside index beyond))
  exact ⟨different, holds, inRange, (state.leaves index inRange).trans holds⟩

theorem RegistryState.evalOn_getLeafIndex
    (state : RegistryState poseidon reg database nodes slots position) (value : U256) :
    Read.evalOn database (reg.leafView.getLeafIndex value) = indexOutcome (position value) :=
  LeafView.evalOn_getLeafIndex (state.entries value)

theorem RegistryState.evalOn_leaf (built : InitializedRegistry poseidon reg)
    (state : RegistryState poseidon reg database nodes slots position)
    {index : TreeLeafIndex} (inRange : index.toNat < 2 ^ reg.metadata.depth.toNat) :
    Read.evalOn database (reg.sparseTree.getLeafFromStorage poseidon 0 index) =
      .ok (slots index) := by
  rw [← built.depth_eq] at inRange
  have read := state.reads 0 index (leaf_inTree inRange)
  rw [read, ← state.leaves index (by rwa [← built.depth_eq])]
  rfl

/-- A proof is created for a value that is found. -/
theorem RegistryState.createProof_found (built : InitializedRegistry poseidon reg)
    (state : RegistryState poseidon reg database nodes slots position) (onHead : Bool)
    {value : U256} {index : TreeLeafIndex} (found : position value = some index) :
    Request.evalOn database onHead (reg.createProof poseidon value) =
      .ok (proofOf reg.sparseTree.depth.toNat nodes index) := by
  have inRange := (state.found found).2.2.1
  rw [← built.depth_eq] at inRange
  have lookup := state.evalOn_getLeafIndex value
  rw [found] at lookup
  simp only [ZKCertificateRegistry.createProof, Program.bind_eq, Request.evalOn_bind,
    Request.evalOn_ofRead, Read.evalOn_wrapf, lookup, indexOutcome, except_mapError_ok,
    except_bind_ok, Request.evalOn_withRLock, evalOn_createProof state.reads inRange]

/-- Any other value is reported as not found. -/
theorem RegistryState.createProof_missing
    (state : RegistryState poseidon reg database nodes slots position) (onHead : Bool)
    {value : U256} (missing : position value = none) :
    Request.evalOn database onHead (reg.createProof poseidon value) =
      .error (.wrap "failed to get leaf index" .notFound) := by
  have lookup := state.evalOn_getLeafIndex value
  rw [missing] at lookup
  simp only [ZKCertificateRegistry.createProof, Program.bind_eq, Request.evalOn_bind,
    Request.evalOn_ofRead, Read.evalOn_wrapf, lookup]
  rfl

end States

/-! ### The bijection in every committed state -/

/-- The value was added and not revoked since: the last operation on it is an addition. -/
def Held (operations : List LeafOperation) (value : U256) : Prop :=
  ∃ index, lastEntry operations value = some (some index)

/-- In every committed state the entries and the leaves are in bijection, and a proof exists
for exactly the values held. -/
theorem commits_keep_bijection {poseidon : PoseidonHash} {reg : ZKCertificateRegistry}
    (spec : PoseidonSpec poseidon) (built : InitializedRegistry poseidon reg)
    (contract : ContractMetadata reg.metadata) {commits : List (List LeafOperation)}
    {database : Database}
    (wellFormed : WellFormed reg.metadata (emptySlots reg.metadata) commits.flatten)
    (run : commitAllOperations poseidon reg commits ∅ = .ok database) :
    (∀ value, value ≠ reg.metadata.emptyValue → ∀ index : TreeLeafIndex,
      Read.evalOn database (reg.leafView.getLeafIndex value) = .ok index ↔
        index.toNat < 2 ^ reg.metadata.depth.toNat ∧
          Read.evalOn database (reg.sparseTree.getLeafFromStorage poseidon 0 index) =
            .ok value) ∧
    Read.evalOn database (reg.leafView.getLeafIndex reg.metadata.emptyValue) =
      .error .notFound ∧
    ∀ value onHead,
      (Held commits.flatten value → ∃ proof root,
        Request.evalOn database onHead (reg.createProof poseidon value) = .ok proof ∧
        proof.leaf = value ∧
        Read.evalOn database (reg.sparseTree.getRoot poseidon) = .ok root ∧
        proof.root = root ∧
        VerifiesAgainst poseidon value proof.path proof.index root) ∧
      (¬ Held commits.flatten value → ∃ err,
        Request.evalOn database onHead (reg.createProof poseidon value) = .error err ∧
        err.isNotFound = true) := by
  obtain ⟨start, empty⟩ := registryState_empty spec built contract
  obtain ⟨nodes, state⟩ := empty.commitAll spec built contract wellFormed run
  refine ⟨fun value different index => ?_, ?_, fun value onHead => ⟨?_, ?_⟩⟩
  · rw [state.evalOn_getLeafIndex]
    constructor
    · intro found
      cases lookup : applyEntries (fun _ => none) commits.flatten value with
      | none =>
          rw [lookup] at found
          cases found
      | some other =>
          rw [lookup] at found
          obtain rfl := Except.ok.inj found
          obtain ⟨_, holds, inRange, _⟩ := state.found lookup
          refine ⟨inRange, ?_⟩
          rw [state.evalOn_leaf built inRange, holds]
    · rintro ⟨inRange, leaf⟩
      rw [state.evalOn_leaf built inRange] at leaf
      rw [(state.bijective.finds value different index).mpr (Except.ok.inj leaf)]
      rfl
  · rw [state.evalOn_getLeafIndex, state.bijective.empty]
    rfl
  · rintro ⟨index, last⟩
    have found : applyEntries (fun _ => none) commits.flatten value = some index := by
      rw [applyEntries, last]
      rfl
    obtain ⟨_, _, inRange, leaf⟩ := state.found found
    rw [← built.depth_eq] at inRange
    have verifies := proofOf_verifies state.consistent inRange
    have same : (proofOf reg.sparseTree.depth.toNat nodes index).leaf = value := leaf
    rw [same] at verifies
    exact ⟨_, _, state.createProof_found built onHead found, same, evalOn_getRoot state.reads,
      rfl, verifies⟩
  · intro notHeld
    refine ⟨_, state.createProof_missing onHead ?_, rfl⟩
    unfold applyEntries
    cases last : lastEntry commits.flatten value with
    | none => rfl
    | some entry =>
        cases entry with
        | none => rfl
        | some index => exact absurd ⟨index, last⟩ notHeld

/-- A registry with a tree of depth 2 whose empty leaf is 5. -/
def smallRegistry : ZKCertificateRegistry :=
  newZKCertificateRegistry 0 ⟨2, 5, 0⟩

theorem smallRegistry_built : InitializedRegistry fieldHash smallRegistry :=
  newZKCertificateRegistry_initialized fieldHash rfl

theorem smallRegistry_contract : ContractMetadata smallRegistry.metadata :=
  ⟨⟨by decide, by decide⟩, by decide⟩

/-- A value is added, revoked and its slot reused in one batch; in the next it comes back at
another slot. -/
def reuseRun : List (List LeafOperation) :=
  [[⟨⟨1, 7⟩, .addition⟩, ⟨⟨1, 7⟩, .revocation⟩, ⟨⟨1, 8⟩, .addition⟩], [⟨⟨3, 7⟩, .addition⟩]]

theorem reuseRun_wellFormed :
    WellFormed smallRegistry.metadata (emptySlots smallRegistry.metadata) reuseRun.flatten := by
  refine ⟨⟨by decide, by decide, by decide, by decide, fun index => ?_⟩,
    ⟨by decide, by decide⟩,
    ⟨by decide, by decide, by decide, by decide, fun index => ?_⟩,
    ⟨by decide, by decide, by decide, by decide, fun index => ?_⟩, trivial⟩
  · change (5 : U256) ≠ 7
    decide
  · by_cases here : index = 1
    · subst here
      decide
    · rw [applyOperation, Function.update_of_ne here, applyOperation,
        Function.update_of_ne here]
      change (5 : U256) ≠ 8
      decide
  · by_cases here : index = 1
    · subst here
      decide
    · rw [applyOperation, Function.update_of_ne here, applyOperation,
        Function.update_of_ne here, applyOperation, Function.update_of_ne here]
      change (5 : U256) ≠ 7
      decide

/-- The value that came back has a proof; a value never added is not found. -/
theorem commits_keep_bijection_reuseRun :
    ∃ database proof root err,
      commitAllOperations fieldHash smallRegistry reuseRun ∅ = .ok database ∧
      Request.evalOn database true (smallRegistry.createProof fieldHash 7) = .ok proof ∧
      proof.leaf = 7 ∧ VerifiesAgainst fieldHash 7 proof.path proof.index root ∧
      Request.evalOn database true (smallRegistry.createProof fieldHash 9) = .error err ∧
      err.isNotFound = true := by
  cases run : commitAllOperations fieldHash smallRegistry reuseRun ∅ with
  | error err =>
      have returns : (commitAllOperations fieldHash smallRegistry reuseRun ∅).isOk = true := by
        decide
      rw [run] at returns
      cases returns
  | ok database =>
      obtain ⟨_, _, proofs⟩ := commits_keep_bijection fieldHash_spec smallRegistry_built
        smallRegistry_contract reuseRun_wellFormed run
      obtain ⟨proof, root, created, leaf, _, _, verifies⟩ := (proofs 7 true).1 ⟨3, by decide⟩
      have never : ¬ Held reuseRun.flatten 9 := by
        rintro ⟨index, last⟩
        have untouched : lastEntry reuseRun.flatten 9 = none := by decide
        rw [untouched] at last
        cases last
      obtain ⟨err, failed, notFound⟩ := (proofs 9 true).2 never
      exact ⟨database, proof, root, err, rfl, created, leaf, verifies, failed, notFound⟩

end MerkleProofService
