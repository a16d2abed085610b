/-
Module: MerkleProofService.Proofs.SimulationChain
Layer: Proofs
Purpose: The proofs a simulated batch returns form a chain.  Every operation's path proves the old
  leaf against the root before the operation and the new leaf against the root after it,
  although each path is read through an overlay that the operations before it have changed.
Imports: Proofs.CommitRuns
Trusted boundary: none
Main exports: oldLeaf, newLeaf, Chained, Simulated, simulateOperation_spec,
  simulateOperations_spec, simulateBatchOperations_chained
-/
import MerkleProofService.Proofs.CommitRuns

namespace MerkleProofService

open Library
open LawfulBuffer (content Over)

/-! ### Chains of proofs -/

/-- The leaf an operation replaces. -/
def oldLeaf (emptyValue : U256) (op : LeafOperation) : U256 :=
  match op.op with
  | .addition => emptyValue
  | _ => op.leaf.value

/-- The leaf an operation puts in its place. -/
def newLeaf (emptyValue : U256) (op : LeafOperation) : U256 :=
  match op.op with
  | .addition => op.leaf.value
  | _ => emptyValue

/-- One proof per operation, linked by the roots.  `leaves` are the leaves before the first
operation, `root` is their root; each operation replaces the leaf at the index of its proof. -/
inductive Chained (poseidon : PoseidonHash) (emptyValue : U256) :
    U256 → (TreeLeafIndex → U256) → List LeafOperation → List BatchProofResult →
    U256 → (TreeLeafIndex → U256) → Prop
  | done (root : U256) (leaves : TreeLeafIndex → U256) :
      Chained poseidon emptyValue root leaves [] [] root leaves
  | link {root next last : U256} {leaves final : TreeLeafIndex → U256} {op : LeafOperation}
      {operations : List LeafOperation} {proof : BatchProofResult}
      {proofs : List BatchProofResult}
      (known : op.op = .addition ∨ op.op = .revocation)
      (current : leaves proof.index = oldLeaf emptyValue op)
      (before : VerifiesAgainst poseidon (oldLeaf emptyValue op) proof.path proof.index root)
      (after : VerifiesAgainst poseidon (newLeaf emptyValue op) proof.path proof.index next)
      (rest : Chained poseidon emptyValue next
        (Function.update leaves proof.index (newLeaf emptyValue op)) operations proofs
        last final) :
      Chained poseidon emptyValue root leaves (op :: operations) (proof :: proofs) last final

theorem Chained.length_eq {poseidon : PoseidonHash} {emptyValue root last : U256}
    {leaves final : TreeLeafIndex → U256} {operations : List LeafOperation}
    {proofs : List BatchProofResult}
    (chained : Chained poseidon emptyValue root leaves operations proofs last final) :
    proofs.length = operations.length := by
  induction chained with
  | done root leaves => rfl
  | link known current before after rest ih => simp [ih]

/-! ### Indexes stay in range -/

section Simulation

variable {poseidon : PoseidonHash} {tree : SparseMerkleTree} {database : Database}
variable {nodes : Nat → Nat → U256}

/-- A number below `1 << depth` is a leaf index, also after it is cut to 32 bits. -/
theorem toUInt32_inRange {number : UInt64} (small : number.toNat < tree.maxLeaves.toNat) :
    number.toUInt32.toNat < 2 ^ tree.depth.toNat := by
  have cut : number.toUInt32.toNat ≤ number.toNat := by
    rw [UInt64.toNat_toUInt32]
    exact Nat.mod_le _ _
  have wrapped : tree.maxLeaves.toNat ≤ 2 ^ tree.depth.toNat := by
    rw [SparseMerkleTree.maxLeaves, UInt64.toNat_ofNat']
    exact Nat.mod_le _ _
  exact Nat.lt_of_le_of_lt cut (Nat.lt_of_lt_of_le small wrapped)

theorem leafIndexOfDraw_inRange {draw : UInt64} {index : TreeLeafIndex}
    (drawn : tree.leafIndexOfDraw draw = .ok index) : index.toNat < 2 ^ tree.depth.toNat := by
  unfold SparseMerkleTree.leafIndexOfDraw at drawn
  by_cases zero : tree.maxLeaves = 0
  · rw [if_pos zero] at drawn
    cases drawn
  · rw [if_neg zero] at drawn
    obtain rfl := Except.ok.inj drawn
    apply toUInt32_inRange
    rw [UInt64.toNat_mod]
    apply Nat.mod_lt
    exact Nat.pos_of_ne_zero fun none => zero (UInt64.toNat_inj.mp (by simpa using none))

theorem findEmptyLeafIndexLoop_inRange {batch : SimulationBatch} {index : TreeLeafIndex}
    {rest : Stream' UInt64} :
    ∀ {maxIterations : Nat} {draws : Stream' UInt64},
      Read.evalOn database (tree.findEmptyLeafIndexLoop poseidon batch maxIterations draws) =
        .ok (index, rest) → index.toNat < 2 ^ tree.depth.toNat
  | 0, draws, run => by cases run
  | maxIterations + 1, draws, run => by
      simp only [SparseMerkleTree.findEmptyLeafIndexLoop, Program.bind_eq, Read.evalOn_bind,
        Read.evalOn_ctxDone, except_bind_ok, Read.evalOn_ofExcept, except_bind_eq_ok] at run
      rcases run with ⟨found, drawn, leaf, _, run⟩
      by_cases empty : leaf = tree.emptyLeaf
      · rw [if_pos empty] at run
        obtain ⟨rfl, _⟩ := Prod.mk.inj (Except.ok.inj run)
        exact leafIndexOfDraw_inRange drawn
      · rw [if_neg empty] at run
        exact findEmptyLeafIndexLoop_inRange run

theorem findLeafByValueLoop_inRange {batch : SimulationBatch} {value : U256}
    {index : TreeLeafIndex} :
    ∀ {count : Nat} {i : UInt64}, i.toNat + count ≤ tree.maxLeaves.toNat →
      Read.evalOn database (tree.findLeafByValueLoop poseidon batch value count i) =
        .ok index → index.toNat < 2 ^ tree.depth.toNat
  | 0, i, _, run => by cases run
  | count + 1, i, reach, run => by
      have next : (i + 1).toNat = i.toNat + 1 := by
        have bound := tree.maxLeaves.toNat_lt
        rw [UInt64.toNat_add]
        simp
        omega
      simp only [SparseMerkleTree.findLeafByValueLoop, Program.bind_eq, Read.evalOn_bind,
        Read.evalOn_ctxDone, except_bind_ok, except_bind_eq_ok] at run
      rcases run with ⟨outcome, _, run⟩
      cases outcome with
      | error err => exact findLeafByValueLoop_inRange (by omega) run
      | ok leaf =>
          by_cases same : leaf = value
          · simp only [if_pos same] at run
            obtain rfl := Except.ok.inj run
            exact toUInt32_inRange (by omega)
          · simp only [if_neg same] at run
            exact findLeafByValueLoop_inRange (by omega) run

/-! ### One operation -/

/-- What a simulated operation returns and does to the overlay. -/
structure Simulated (poseidon : PoseidonHash) (tree : SparseMerkleTree)
    (nodes : Nat → Nat → U256) (op : LeafOperation) (batch : SimulationBatch)
    (proof : BatchProofResult) (batch' : SimulationBatch) : Prop where
  known : op.op = .addition ∨ op.op = .revocation
  inRange : proof.index.toNat < 2 ^ tree.depth.toNat
  path : proof.path = siblings (overlay batch nodes) tree.depth.toNat 0 proof.index.toNat
  current : overlay batch nodes 0 proof.index.toNat = oldLeaf tree.emptyLeaf op
  inserted : Inserted poseidon tree nodes [⟨proof.index, newLeaf tree.emptyLeaf op⟩] batch batch'

/-- A proof read through the overlay and the insertion that follows it. -/
theorem proof_then_insert (reads : ReadsNodes poseidon tree database nodes)
    {batch batch' : SimulationBatch} (backed : Over batch tree.storageLeafGetter)
    {index : TreeLeafIndex} (inRange : index.toNat < 2 ^ tree.depth.toNat)
    {value : U256} {proof : MerkleProof}
    (proved : Read.evalOn database (tree.createProofWithBatch poseidon batch index) = .ok proof)
    (run : Read.evalOn database (tree.insertLeaf poseidon batch index value) = .ok batch') :
    proof = proofOf tree.depth.toNat (overlay batch nodes) index ∧
      Inserted poseidon tree nodes [⟨index, value⟩] batch batch' := by
  rw [evalOn_createProofWithBatch reads backed inRange] at proved
  rw [insertLeaf_eq_insertLeaves] at run
  refine ⟨(Except.ok.inj proved).symm, insertLeaves_spec reads backed ?_ run⟩
  intro leaf member
  obtain rfl := List.mem_singleton.mp member
  exact inRange

theorem simulateOperation_spec (reads : ReadsNodes poseidon tree database nodes)
    {i : Nat} {op : LeafOperation} {batch batch' : SimulationBatch}
    {draws rest : Stream' UInt64} {result : BatchProofResult}
    (backed : Over batch tree.storageLeafGetter)
    (run : Read.evalOn database (tree.simulateOperation poseidon i op batch draws) =
      .ok (result, batch', rest)) :
    Simulated poseidon tree nodes op batch result batch' := by
  simp only [SparseMerkleTree.simulateOperation, Program.bind_eq, Read.evalOn_bind,
    Read.evalOn_ctxDone, except_bind_ok] at run
  cases kind : op.op with
  | addition =>
      simp only [kind, Read.evalOn_bind, Read.evalOn_wrapf, except_bind_eq_ok,
        except_mapError_eq_ok] at run
      rcases run with ⟨⟨index, left⟩, found, proof, proved, run⟩
      have inRange := findEmptyLeafIndexLoop_inRange found
      by_cases occupied : proof.leaf ≠ tree.emptyLeaf
      · rw [if_pos occupied] at run
        cases run
      · simp only [if_neg occupied, Read.evalOn_bind, Read.evalOn_wrapf, except_bind_eq_ok,
          except_mapError_eq_ok] at run
        rcases run with ⟨batch₁, inserted, run⟩
        obtain ⟨rfl, rfl, _⟩ : BatchProofResult.mk index proof.path = result ∧
            batch₁ = batch' ∧ left = rest := by simpa using run
        obtain ⟨rfl, written⟩ := proof_then_insert reads backed inRange proved inserted
        have old : oldLeaf tree.emptyLeaf op = tree.emptyLeaf := by rw [oldLeaf, kind]
        have new : newLeaf tree.emptyLeaf op = op.leaf.value := by rw [newLeaf, kind]
        exact
          { known := Or.inl kind
            inRange := inRange
            path := rfl
            current := by rw [old]; exact not_not.mp occupied
            inserted := by rw [new]; exact written }
  | revocation =>
      simp only [kind, Read.evalOn_bind, Read.evalOn_wrapf, except_bind_eq_ok,
        except_mapError_eq_ok] at run
      rcases run with ⟨index, found, proof, proved, run⟩
      have inRange := findLeafByValueLoop_inRange (Nat.le_of_eq (Nat.zero_add _)) found
      by_cases other : proof.leaf ≠ op.leaf.value
      · rw [if_pos other] at run
        cases run
      · simp only [if_neg other, Read.evalOn_bind, Read.evalOn_wrapf, except_bind_eq_ok,
          except_mapError_eq_ok] at run
        rcases run with ⟨batch₁, inserted, run⟩
        obtain ⟨rfl, rfl, _⟩ : BatchProofResult.mk index proof.path = result ∧
            batch₁ = batch' ∧ draws = rest := by simpa using run
        obtain ⟨rfl, written⟩ := proof_then_insert reads backed inRange proved inserted
        have old : oldLeaf tree.emptyLeaf op = op.leaf.value := by rw [oldLeaf, kind]
        have new : newLeaf tree.emptyLeaf op = tree.emptyLeaf := by rw [newLeaf, kind]
        exact
          { known := Or.inr kind
            inRange := inRange
            path := rfl
            current := by rw [old]; exact not_not.mp other
            inserted := by rw [new]; exact written }
  | unknown code =>
      simp only [kind] at run
      cases run

/-- The leaves an overlay shows. -/
def shownLeaves (nodes : Nat → Nat → U256) (batch : SimulationBatch)
    (index : TreeLeafIndex) : U256 :=
  overlay batch nodes 0 index.toNat

theorem Simulated.shownLeaves_eq {op : LeafOperation} {batch batch' : SimulationBatch}
    {proof : BatchProofResult}
    (simulated : Simulated poseidon tree nodes op batch proof batch') :
    shownLeaves nodes batch' = Function.update (shownLeaves nodes batch) proof.index
      (newLeaf tree.emptyLeaf op) := by
  funext index
  rw [shownLeaves, simulated.inserted.overlay_leaf, UInt32.ofNat_toNat]
  by_cases same : index = proof.index
  · subst same
    simp [lastWrite]
  · simp [lastWrite, Ne.symm same, Function.update_of_ne same, shownLeaves]

/-- The path of an operation proves the old leaf before it and the new leaf after it. -/
theorem Simulated.verifies {op : LeafOperation} {batch batch' : SimulationBatch}
    {proof : BatchProofResult}
    (simulated : Simulated poseidon tree nodes op batch proof batch')
    (consistent : Consistent (calculateHash poseidon) 32 tree.depth.toNat
      (overlay batch nodes)) :
    VerifiesAgainst poseidon (oldLeaf tree.emptyLeaf op) proof.path proof.index
        (overlay batch nodes tree.depth.toNat 0) ∧
      VerifiesAgainst poseidon (newLeaf tree.emptyLeaf op) proof.path proof.index
        (overlay batch' nodes tree.depth.toNat 0) := by
  have recomputed := simulated.inserted.recomputed
  rw [dirtyLeaves_singleton] at recomputed
  have inside := leaf_inTree simulated.inRange
  -- the two proofs share their path, because nothing beside it changed
  have samePath := recomputed.siblings_eq (by decide) inside
  have after : overlay batch' nodes 0 proof.index.toNat = newLeaf tree.emptyLeaf op := by
    have shown := congrFun simulated.shownLeaves_eq proof.index
    rwa [Function.update_self] at shown
  have oldProof := proofOf_verifies consistent simulated.inRange
  have newProof := proofOf_verifies (recomputed.consistent consistent) simulated.inRange
  rw [simulated.path, ← simulated.current]
  refine ⟨oldProof, ?_⟩
  rw [← samePath, ← after]
  exact newProof

/-! ### All operations -/

/-- What a successful simulation from `batch` returns and leaves. -/
structure SimulatedAll (poseidon : PoseidonHash) (tree : SparseMerkleTree)
    (nodes : Nat → Nat → U256) (operations : List LeafOperation) (batch : SimulationBatch)
    (proofs : List BatchProofResult) (batch' : SimulationBatch) : Prop where
  backed : Over batch' tree.storageLeafGetter
  consistent : Consistent (calculateHash poseidon) 32 tree.depth.toNat (overlay batch' nodes)
  paths : ∀ proof ∈ proofs, proof.path.length = tree.depth.toNat
  inRange : ∀ proof ∈ proofs, proof.index.toNat < 2 ^ tree.depth.toNat
  beside : ∀ level index, InTree 32 tree.depth.toNat level index →
    ¬ Above {leaf | ∃ proof ∈ proofs, proof.index.toNat = leaf} level index →
    overlay batch' nodes level index = overlay batch nodes level index
  chained : Chained poseidon tree.emptyLeaf (overlay batch nodes tree.depth.toNat 0)
    (shownLeaves nodes batch) operations proofs (overlay batch' nodes tree.depth.toNat 0)
    (shownLeaves nodes batch')

theorem simulateOperations_spec (reads : ReadsNodes poseidon tree database nodes)
    {batch' : SimulationBatch} :
    ∀ {operations : List LeafOperation} {i : Nat} {batch : SimulationBatch}
      {draws : Stream' UInt64} {proofs : List BatchProofResult},
      Over batch tree.storageLeafGetter →
      Consistent (calculateHash poseidon) 32 tree.depth.toNat (overlay batch nodes) →
      Read.evalOn database (tree.simulateOperations poseidon i operations batch draws) =
        .ok (proofs, batch') →
      SimulatedAll poseidon tree nodes operations batch proofs batch'
  | [], i, batch, draws, proofs, backed, consistent, run => by
      obtain ⟨rfl, rfl⟩ : [] = proofs ∧ batch = batch' := by
        simpa [SparseMerkleTree.simulateOperations] using run
      exact
        { backed := backed
          consistent := consistent
          paths := fun proof member => by cases member
          inRange := fun proof member => by cases member
          beside := fun _ _ _ _ => rfl
          chained := Chained.done _ _ }
  | op :: operations, i, batch, draws, proofs, backed, consistent, run => by
      simp only [SparseMerkleTree.simulateOperations, Program.bind_eq, Read.evalOn_bind,
        except_bind_eq_ok] at run
      rcases run with ⟨⟨proof, batch₁, left⟩, first, ⟨others, batch₂⟩, second, run⟩
      obtain ⟨rfl, rfl⟩ : proof :: others = proofs ∧ batch₂ = batch' := by simpa using run
      have simulated := simulateOperation_spec reads backed first
      have recomputed := simulated.inserted.recomputed
      have rest := simulateOperations_spec reads simulated.inserted.backed
        (recomputed.consistent consistent) second
      obtain ⟨before, after⟩ := simulated.verifies consistent
      refine
        { backed := rest.backed
          consistent := rest.consistent
          paths := fun other member => ?_
          inRange := fun other member => ?_
          beside := fun level index inside clean => ?_
          chained := Chained.link simulated.known simulated.current before after ?_ }
      · cases member with
        | head => rw [simulated.path, length_siblings]
        | tail _ later => exact rest.paths other later
      · cases member with
        | head => exact simulated.inRange
        | tail _ later => exact rest.inRange other later
      · rw [rest.beside level index inside, recomputed.beside inside]
        · rw [dirtyLeaves_singleton]
          rintro ⟨leaf, member, above⟩
          exact clean ⟨leaf, ⟨proof, List.mem_cons_self, (Set.mem_singleton_iff.mp member).symm⟩,
            above⟩
        · rintro ⟨leaf, ⟨other, member, same⟩, above⟩
          exact clean ⟨leaf, ⟨other, List.mem_cons_of_mem proof member, same⟩, above⟩
      · rw [← simulated.shownLeaves_eq]
        exact rest.chained

theorem simulateBatchOverlay_spec (reads : ReadsNodes poseidon tree database nodes)
    (consistent : Consistent (calculateHash poseidon) 32 tree.depth.toNat nodes)
    {operations : List LeafOperation} {draws : Stream' UInt64} {root : U256}
    {proofs : List BatchProofResult} {batch : SimulationBatch}
    (run : Read.evalOn database (tree.simulateBatchOverlay poseidon operations draws) =
      .ok (root, proofs, batch)) :
    root = nodes tree.depth.toNat 0 ∧
      SimulatedAll poseidon tree nodes operations (newSimulationBatch tree.storageLeafGetter)
        proofs batch := by
  simp only [SparseMerkleTree.simulateBatchOverlay, Program.bind_eq, Read.evalOn_bind,
    Read.evalOn_wrapf, evalOn_getRoot reads, except_mapError_ok, except_bind_ok,
    except_bind_eq_ok] at run
  rcases run with ⟨⟨others, batch₁⟩, simulated, run⟩
  obtain ⟨rfl, rfl, rfl⟩ : nodes tree.depth.toNat 0 = root ∧ others = proofs ∧
      batch₁ = batch := by simpa using run
  exact ⟨rfl, simulateOperations_spec reads rfl consistent simulated⟩

/-- `SimulateBatchOperations` is its version with the overlay, the overlay dropped. -/
theorem evalOn_simulateBatchOperations {operations : List LeafOperation}
    {draws : Stream' UInt64} {root : U256} {proofs : List BatchProofResult} :
    Read.evalOn database (tree.simulateBatchOperations poseidon operations draws) =
        .ok (root, proofs) ↔
      ∃ batch, Read.evalOn database (tree.simulateBatchOverlay poseidon operations draws) =
        .ok (root, proofs, batch) := by
  simp only [SparseMerkleTree.simulateBatchOperations, Program.bind_eq, Read.evalOn_bind,
    except_bind_eq_ok]
  constructor
  · rintro ⟨⟨root', proofs', batch⟩, run, same⟩
    obtain ⟨rfl, rfl⟩ : root' = root ∧ proofs' = proofs := by simpa using same
    exact ⟨batch, run⟩
  · rintro ⟨batch, run⟩
    exact ⟨_, run, rfl⟩

end Simulation

/-! ### Chained batch proofs -/

/-- The store holds a tree: every node is the hash of its two children, empty branches
included. -/
def NodeConsistent (poseidon : PoseidonHash) (tree : SparseMerkleTree) (database : Database) :
    Prop :=
  ∃ nodes, ReadsNodes poseidon tree database nodes ∧
    Consistent (calculateHash poseidon) 32 tree.depth.toNat nodes

/-- The leaves of the store. -/
def StoredLeaves (poseidon : PoseidonHash) (tree : SparseMerkleTree) (database : Database)
    (leaves : TreeLeafIndex → U256) : Prop :=
  ∀ index : TreeLeafIndex, index.toNat < 2 ^ tree.depth.toNat →
    Read.evalOn database (tree.getLeafFromStorage poseidon 0 index) = .ok (leaves index)

/-- A simulation that returns has returned the root of the store and one proof per operation,
each at a leaf of the tree and linked to the next, and has left the store alone. -/
theorem simulateBatchOperations_chained {poseidon : PoseidonHash} {tree : SparseMerkleTree}
    {database database' : Database} (holds : NodeConsistent poseidon tree database)
    {operations : List LeafOperation} {draws : Stream' UInt64} {root : U256}
    {proofs : List BatchProofResult}
    (run : Read.runOn database (tree.simulateBatchOperations poseidon operations draws) =
      (.ok (root, proofs), database')) :
    database' = database ∧
      Read.evalOn database (tree.getRoot poseidon) = .ok root ∧
      proofs.length = operations.length ∧
      (∀ proof ∈ proofs, proof.index.toNat < 2 ^ tree.depth.toNat) ∧
      ∃ leaves last final, StoredLeaves poseidon tree database leaves ∧
        Chained poseidon tree.emptyLeaf root leaves operations proofs last final := by
  rcases holds with ⟨nodes, reads, consistent⟩
  rw [Read.runOn_eq] at run
  obtain ⟨evaluated, rfl⟩ := Prod.mk.inj run
  rcases evalOn_simulateBatchOperations.mp evaluated with ⟨batch, overlaid⟩
  obtain ⟨rfl, simulated⟩ := simulateBatchOverlay_spec reads consistent overlaid
  exact ⟨rfl, evalOn_getRoot reads, simulated.chained.length_eq, simulated.inRange,
    fun index => nodes 0 index.toNat, _, _,
    fun index inRange => reads 0 index (leaf_inTree inRange), simulated.chained⟩

/-- Two additions and the revocation of the first, on the empty store. -/
def revokeInBatch : List LeafOperation :=
  [⟨⟨0, 7⟩, .addition⟩, ⟨⟨0, 9⟩, .addition⟩, ⟨⟨0, 7⟩, .revocation⟩]

/-- The draws 3, 1, 4, 1, 4, 1, ... -/
def someDraws : Stream' UInt64 :=
  Stream'.cons 3 fun position => if position % 2 = 0 then 1 else 4

theorem smallTree_nodeConsistent : NodeConsistent fieldHash smallTree ∅ := by
  obtain ⟨nodes, sound, _⟩ := soundNodes_empty fieldHash_spec smallTree_made (by decide)
    (by decide) (by decide)
  exact ⟨nodes, sound.reads, sound.consistent⟩

theorem simulateBatchOperations_chained_revokeInBatch :
    ∃ root proofs leaves last final,
      Read.evalOn ∅ (smallTree.simulateBatchOperations fieldHash revokeInBatch someDraws) =
        .ok (root, proofs) ∧ proofs.length = 3 ∧
      (∀ proof ∈ proofs, proof.index.toNat < 4) ∧
      StoredLeaves fieldHash smallTree ∅ leaves ∧
      Chained fieldHash 5 root leaves revokeInBatch proofs last final := by
  have returns : (Read.evalOn ∅
      (smallTree.simulateBatchOperations fieldHash revokeInBatch someDraws)).isOk = true := by
    decide
  cases outcome : Read.evalOn ∅
      (smallTree.simulateBatchOperations fieldHash revokeInBatch someDraws) with
  | error err =>
      rw [outcome] at returns
      cases returns
  | ok result =>
      rcases result with ⟨root, proofs⟩
      obtain ⟨_, _, length, inRange, leaves, last, final, stored, chained⟩ :=
        simulateBatchOperations_chained smallTree_nodeConsistent
          ((Read.runOn_eq ∅ _).trans (congrArg (·, ∅) outcome))
      exact ⟨root, proofs, leaves, last, final, rfl, length, inRange, stored, chained⟩

end MerkleProofService
