/-
Module: MerkleProofService.Proofs.CommitRuns
Layer: Proofs
Purpose: Whole runs of commits.  A commit fills a fresh batch with any mix of `InsertLeaf` and
  `InsertLeaves` calls and writes it.  After any number of commits every node of the storage is
  the reference hash of the leaves written last, and every proof the tree hands out verifies.
Imports: Proofs.BatchWrites
Trusted boundary: none
Main exports: InsertCall, commitCalls, commitAll, leafAssignment, SoundNodes, SoundNodes.commitAll,
  storage_eq_reference, createProof_verifies
-/
import MerkleProofService.Proofs.BatchWrites

namespace MerkleProofService

open Library
open LawfulBuffer (content Over)

/-! ### Commits -/

/-- A call that puts leaves into a batch. -/
inductive InsertCall where
  | insertLeaf (index : TreeLeafIndex) (value : U256)
  | insertLeaves (leaves : List TreeLeaf)
deriving DecidableEq

/-- The leaves a call inserts. -/
def InsertCall.leaves : InsertCall → List TreeLeaf
  | .insertLeaf index value => [⟨index, value⟩]
  | .insertLeaves leaves => leaves

def InsertCall.run (poseidon : PoseidonHash) (tree : SparseMerkleTree) :
    InsertCall → BatchWithLeavesBuffer → Read BatchWithLeavesBuffer
  | .insertLeaf index value, batch => tree.insertLeaf poseidon batch index value
  | .insertLeaves leaves, batch => tree.insertLeaves poseidon batch leaves

/-- Perform the calls on one batch, one after the other. -/
def fillBatch (poseidon : PoseidonHash) (tree : SparseMerkleTree) :
    List InsertCall → BatchWithLeavesBuffer → Read BatchWithLeavesBuffer
  | [], batch => return batch
  | call :: calls, batch => do
      let batch ← call.run poseidon tree batch
      fillBatch poseidon tree calls batch

/-- Fill a fresh batch and write it. -/
def commitCalls (poseidon : PoseidonHash) (tree : SparseMerkleTree)
    (registryIndex : RegistryIndex) (calls : List InsertCall) (database : Database) :
    Except GoError Database :=
  (Read.evalOn database
      (fillBatch poseidon tree calls (newBatchWithLeavesBuffer [] registryIndex))).bind
    fun batch => .ok (Store.write database batch.batch)

def commitAll (poseidon : PoseidonHash) (tree : SparseMerkleTree)
    (registryIndex : RegistryIndex) : List (List InsertCall) → Database →
    Except GoError Database
  | [], database => .ok database
  | calls :: commits, database =>
      (commitCalls poseidon tree registryIndex calls database).bind
        (commitAll poseidon tree registryIndex commits)

/-- All leaves of a run in the order they are inserted. -/
def insertedLeaves (commits : List (List InsertCall)) : List TreeLeaf :=
  commits.flatten.flatMap InsertCall.leaves

/-- The leaf at an index after a run: the value written last, else the empty leaf. -/
def leafAssignment (emptyValue : U256) (commits : List (List InsertCall)) (index : Nat) : U256 :=
  (lastWrite (insertedLeaves commits) (UInt32.ofNat index)).getD emptyValue

/-- A leaf the tree takes: in range, a field element, and not zero unless the empty leaf is. -/
def Insertable (depth : TreeLevel) (emptyValue : U256) (leaf : TreeLeaf) : Prop :=
  leaf.index.toNat < 2 ^ depth.toNat ∧ InField leaf.value ∧
    (leaf.value ≠ 0 ∨ leaf.value = emptyValue)

instance (depth : TreeLevel) (emptyValue : U256) (leaf : TreeLeaf) :
    Decidable (Insertable depth emptyValue leaf) :=
  inferInstanceAs (Decidable (_ ∧ _ ∧ _))

/-! ### The invariant -/

/-- The storage holds a consistent tree of field elements. -/
structure SoundNodes (poseidon : PoseidonHash) (tree : SparseMerkleTree) (database : Database)
    (nodes : Nat → Nat → U256) : Prop where
  reads : ReadsNodes poseidon tree database nodes
  consistent : Consistent (calculateHash poseidon) 32 tree.depth.toNat nodes
  field : ∀ level index, InTree 32 tree.depth.toNat level index → InField (nodes level index)

/-- The same for a batch that is being filled over such a storage. -/
structure SoundBatch (poseidon : PoseidonHash) (tree : SparseMerkleTree)
    (registryIndex : RegistryIndex) (nodes : Nat → Nat → U256)
    (batch : BatchWithLeavesBuffer) : Prop where
  pending : Pending registryIndex [] batch
  storable : Storable tree batch
  consistent : Consistent (calculateHash poseidon) 32 tree.depth.toNat (overlay batch nodes)
  field : ShowsAccepted tree nodes InField batch

section Runs

variable {poseidon : PoseidonHash} {depth : TreeLevel} {emptyValue : U256}
variable {registryIndex : RegistryIndex} {tree : SparseMerkleTree} {database : Database}
variable {nodes : Nat → Nat → U256}

theorem InsertCall.run_eq (call : InsertCall) (batch : BatchWithLeavesBuffer) :
    call.run poseidon tree batch = tree.insertLeaves poseidon batch call.leaves := by
  cases call with
  | insertLeaf index value => exact insertLeaf_eq_insertLeaves batch index value
  | insertLeaves leaves => rfl

/-- One call: it succeeds, keeps the batch sound and writes its leaves. -/
theorem SoundBatch.run_call (spec : PoseidonSpec poseidon)
    (sound : SoundNodes poseidon tree database nodes)
    {batch : BatchWithLeavesBuffer}
    (before : SoundBatch poseidon tree registryIndex nodes batch) (call : InsertCall)
    (insertable : ∀ leaf ∈ call.leaves, Insertable tree.depth tree.emptyLeaf leaf) :
    ∃ batch', Read.evalOn database (call.run poseidon tree batch) = .ok batch' ∧
      SoundBatch poseidon tree registryIndex nodes batch' ∧
      ∀ index, overlay batch' nodes 0 index =
        (lastWrite call.leaves (UInt32.ofNat index)).getD (overlay batch nodes 0 index) := by
  have inRange : ∀ leaf ∈ call.leaves, leaf.index.toNat < 2 ^ tree.depth.toNat :=
    fun leaf member => (insertable leaf member).1
  have backed : Over batch tree.storageLeafGetter := trivial
  rw [InsertCall.run_eq]
  obtain ⟨batch', run, field⟩ := insertLeaves_total sound.reads spec.closed backed inRange
    (fun leaf member => (insertable leaf member).2.1) before.field
  have inserted := insertLeaves_spec sound.reads backed inRange run
  refine ⟨batch', run, ?_, inserted.overlay_leaf⟩
  exact
    { pending := insertLeaves_preserves Pending.setLeaf trivial before.pending run
      storable := inserted.storable spec
        (fun leaf member => (insertable leaf member).2.2) before.storable
      consistent := inserted.recomputed.consistent before.consistent
      field := field }

/-- All calls of a commit. -/
theorem SoundBatch.run_calls (spec : PoseidonSpec poseidon)
    (sound : SoundNodes poseidon tree database nodes)
    {calls : List InsertCall} {batch : BatchWithLeavesBuffer}
    (before : SoundBatch poseidon tree registryIndex nodes batch)
    (insertable : ∀ leaf ∈ calls.flatMap InsertCall.leaves,
      Insertable tree.depth tree.emptyLeaf leaf) :
    ∃ batch', Read.evalOn database (fillBatch poseidon tree calls batch) = .ok batch' ∧
      SoundBatch poseidon tree registryIndex nodes batch' ∧
      ∀ index, overlay batch' nodes 0 index =
        (lastWrite (calls.flatMap InsertCall.leaves) (UInt32.ofNat index)).getD
          (overlay batch nodes 0 index) := by
  induction calls generalizing batch with
  | nil => exact ⟨batch, rfl, before, fun _ => rfl⟩
  | cons call calls ih =>
      obtain ⟨batch₁, first, sound₁, leaves₁⟩ := before.run_call spec sound call
        fun leaf member => insertable leaf (List.mem_append_left _ member)
      obtain ⟨batch', rest, sound', leaves'⟩ := ih sound₁
        fun leaf member => insertable leaf (List.mem_append_right _ member)
      refine ⟨batch', ?_, sound', fun index => ?_⟩
      · rw [fillBatch, Program.bind_eq, Read.evalOn_bind, first, except_bind_ok, rest]
      · rw [leaves', leaves₁, List.flatMap_cons, lastWrite_append]
        cases lastWrite (calls.flatMap InsertCall.leaves) (UInt32.ofNat index) <;> rfl

/-- A sound storage and a fresh batch over it. -/
theorem SoundNodes.newBatch (sound : SoundNodes poseidon tree database nodes) :
    SoundBatch poseidon tree registryIndex nodes
      (newBatchWithLeavesBuffer [] registryIndex) where
  pending := Pending.new fun _ _ => rfl
  storable := storable_new
  consistent := sound.consistent
  field := sound.field

/-- One commit: it succeeds and leaves a sound storage with the new leaves. -/
theorem SoundNodes.commitCalls (spec : PoseidonSpec poseidon)
    (made : TreeOf poseidon depth emptyValue registryIndex tree)
    (positive : 1 ≤ tree.depth.toNat) (shallow : tree.depth.toNat < 255)
    (emptyField : InField tree.emptyLeaf)
    (sound : SoundNodes poseidon tree database nodes) {calls : List InsertCall}
    (insertable : ∀ leaf ∈ calls.flatMap InsertCall.leaves,
      Insertable tree.depth tree.emptyLeaf leaf) :
    ∃ database' nodes',
      commitCalls poseidon tree registryIndex calls database = .ok database' ∧
      SoundNodes poseidon tree database' nodes' ∧
      ∀ index, nodes' 0 index =
        (lastWrite (calls.flatMap InsertCall.leaves) (UInt32.ofNat index)).getD
          (nodes 0 index) := by
  have fresh : SoundBatch poseidon tree registryIndex nodes
      (newBatchWithLeavesBuffer [] registryIndex) := sound.newBatch
  obtain ⟨batch, run, after, leaves⟩ := fresh.run_calls spec sound insertable
  have branches : ∃ empty, EmptyBranches poseidon tree empty := by
    obtain ⟨empty, table, _⟩ :=
      emptyBranches_exist spec.closed emptyField positive shallow made.cacheSound
    exact ⟨empty, table⟩
  refine ⟨Store.write database batch.batch, overlay batch nodes, ?_, ?_, leaves⟩
  · rw [MerkleProofService.commitCalls, run, except_bind_ok]
  · exact
      { reads := after.pending.readsNodes made.getter sound.reads after.storable
          fun _ => branches
        consistent := after.consistent
        field := after.field }

/-- The empty database holds the tree of empty branches. -/
theorem soundNodes_empty (spec : PoseidonSpec poseidon)
    (made : TreeOf poseidon depth emptyValue registryIndex tree)
    (positive : 1 ≤ tree.depth.toNat) (shallow : tree.depth.toNat < 255)
    (emptyField : InField tree.emptyLeaf) :
    ∃ nodes, SoundNodes poseidon tree ∅ nodes ∧ ∀ index, nodes 0 index = tree.emptyLeaf := by
  obtain ⟨empty, table, accepted⟩ :=
    emptyBranches_exist spec.closed emptyField positive shallow made.cacheSound
  refine ⟨fun level _ => empty level, ?_, fun _ => table.ground⟩
  refine ⟨(readsNodes_iff table made.getter).mpr fun level index _ => ?_, ?_, ?_⟩
  · rw [storedLeaf, Finmap.lookup_empty]
    rfl
  · intro level index below _
    exact table.hashed level below
  · intro level index _
    exact accepted level

/-- A whole run of commits. -/
theorem SoundNodes.commitAll (spec : PoseidonSpec poseidon)
    (made : TreeOf poseidon depth emptyValue registryIndex tree)
    (positive : 1 ≤ tree.depth.toNat) (shallow : tree.depth.toNat < 255)
    (emptyField : InField tree.emptyLeaf) {commits : List (List InsertCall)}
    (sound : SoundNodes poseidon tree database nodes)
    (insertable : ∀ leaf ∈ insertedLeaves commits,
      Insertable tree.depth tree.emptyLeaf leaf) :
    ∃ database' nodes',
      commitAll poseidon tree registryIndex commits database = .ok database' ∧
      SoundNodes poseidon tree database' nodes' ∧
      ∀ index, nodes' 0 index =
        (lastWrite (insertedLeaves commits) (UInt32.ofNat index)).getD (nodes 0 index) := by
  induction commits generalizing database nodes with
  | nil => exact ⟨database, nodes, rfl, sound, fun _ => rfl⟩
  | cons calls commits ih =>
      have split : insertedLeaves (calls :: commits) =
          calls.flatMap InsertCall.leaves ++ insertedLeaves commits := by
        simp [insertedLeaves]
      rw [split] at insertable
      obtain ⟨database₁, nodes₁, first, sound₁, leaves₁⟩ :=
        sound.commitCalls spec made positive shallow emptyField
          fun leaf member => insertable leaf (List.mem_append_left _ member)
      obtain ⟨database', nodes', rest, sound', leaves'⟩ :=
        ih sound₁ fun leaf member => insertable leaf (List.mem_append_right _ member)
      refine ⟨database', nodes', ?_, sound', fun index => ?_⟩
      · rw [MerkleProofService.commitAll, first, except_bind_ok, rest]
      · rw [leaves', leaves₁, split, lastWrite_append]
        cases lastWrite (insertedLeaves commits) (UInt32.ofNat index) <;> rfl

/-! ### The nodes and the proofs of a run -/

/-- Every node the storage shows is the reference hash of the leaves below it. -/
def StoresReference (poseidon : PoseidonHash) (tree : SparseMerkleTree) (database : Database)
    (leaf : Nat → U256) : Prop :=
  ∀ (level : TreeLevel) (index : TreeLeafIndex), level.toNat ≤ tree.depth.toNat →
    index.toNat < 2 ^ (tree.depth.toNat - level.toNat) →
    ∃ node, Read.evalOn database (tree.getLeafFromStorage poseidon level index) = .ok node ∧
      referenceNode (calculateHash poseidon) leaf level.toNat index.toNat = .ok node

/-- A sound storage shows reference hashes. -/
theorem SoundNodes.storesReference (sound : SoundNodes poseidon tree database nodes)
    (shallow : tree.depth.toNat ≤ 32) {leaf : Nat → U256}
    (leaves : ∀ index, index < 2 ^ tree.depth.toNat → nodes 0 index = leaf index) :
    StoresReference poseidon tree database leaf := by
  intro level index within bound
  have inside : InTree 32 tree.depth.toNat level.toNat index.toNat :=
    ⟨within, by rwa [Nat.min_eq_right (by omega)]⟩
  refine ⟨nodes level.toNat index.toNat, sound.reads level index inside, ?_⟩
  rw [← referenceNode_congr shallow leaves inside]
  exact sound.consistent.eq_referenceNode shallow inside

/-- A run from the empty database. -/
theorem run_from_empty (spec : PoseidonSpec poseidon)
    (made : TreeOf poseidon depth emptyValue registryIndex tree)
    (positive : 1 ≤ depth.toNat) (shallow : depth.toNat < 255) (emptyField : InField emptyValue)
    {commits : List (List InsertCall)}
    (insertable : ∀ leaf ∈ insertedLeaves commits, Insertable depth emptyValue leaf) :
    ∃ database nodes, commitAll poseidon tree registryIndex commits ∅ = .ok database ∧
      SoundNodes poseidon tree database nodes ∧
      ∀ index, nodes 0 index = leafAssignment emptyValue commits index := by
  rcases made.shape with ⟨rfl, rfl, _⟩
  obtain ⟨start, sound, empty⟩ := soundNodes_empty spec made positive shallow emptyField
  obtain ⟨database, nodes, run, after, leaves⟩ :=
    sound.commitAll spec made positive shallow emptyField insertable
  refine ⟨database, nodes, run, after, fun index => ?_⟩
  rw [leaves, empty]
  rfl

/-- A slot written twice, two siblings in one call, and a slot reset to the empty leaf. -/
def resetRun : List (List InsertCall) :=
  [[.insertLeaf 1 7, .insertLeaves [⟨2, 9⟩, ⟨3, 4⟩, ⟨2, 8⟩]], [.insertLeaf 1 5]]

/-- A tree of depth 2 with the empty leaf 5. -/
def smallTree : SparseMerkleTree :=
  newSparseTree 2 5 (LeafView.getter ⟨0⟩)

theorem smallTree_made : TreeOf fieldHash 2 5 0 smallTree := TreeOf.created

/-- After any run of commits every node is the reference hash of the current leaves, and runs
that lead to the same leaves have the same root. -/
theorem storage_eq_reference (spec : PoseidonSpec poseidon)
    (made : TreeOf poseidon depth emptyValue registryIndex tree)
    (positive : 1 ≤ depth.toNat) (shallow : depth.toNat ≤ 32) (emptyField : InField emptyValue)
    (commits : List (List InsertCall))
    (insertable : ∀ leaf ∈ insertedLeaves commits, Insertable depth emptyValue leaf) :
    ∃ database, commitAll poseidon tree registryIndex commits ∅ = .ok database ∧
      StoresReference poseidon tree database (leafAssignment emptyValue commits) ∧
      ∀ others : List (List InsertCall),
        (∀ leaf ∈ insertedLeaves others, Insertable depth emptyValue leaf) →
        (∀ index, index < 2 ^ depth.toNat →
          leafAssignment emptyValue others index = leafAssignment emptyValue commits index) →
        ∃ database', commitAll poseidon tree registryIndex others ∅ = .ok database' ∧
          Read.evalOn database' (tree.getRoot poseidon) =
            Read.evalOn database (tree.getRoot poseidon) := by
  obtain ⟨database, nodes, run, sound, leaves⟩ :=
    run_from_empty spec made positive (by omega) emptyField insertable
  have stores := sound.storesReference (by rwa [made.shape.1]) fun index _ => leaves index
  refine ⟨database, run, stores, fun others insertableOthers same => ?_⟩
  obtain ⟨database', nodes', run', sound', leaves'⟩ :=
    run_from_empty spec made positive (by omega) emptyField insertableOthers
  have stores' := sound'.storesReference (by rwa [made.shape.1]) fun index inRange =>
    (leaves' index).trans (same index (by rwa [made.shape.1] at inRange))
  refine ⟨database', run', ?_⟩
  -- both roots are the reference hash of the one assignment
  have atRoot : (0 : TreeLeafIndex).toNat < 2 ^ (tree.depth.toNat - tree.depth.toNat) := by simp
  obtain ⟨root, read, reference⟩ := stores tree.depth 0 (Nat.le_refl _) atRoot
  obtain ⟨root', read', reference'⟩ := stores' tree.depth 0 (Nat.le_refl _) atRoot
  have equal : root' = root := Except.ok.inj (reference'.symm.trans reference)
  rw [SparseMerkleTree.getRoot, read, read', equal]

theorem storage_eq_reference_resetRun :
    ∃ database, commitAll fieldHash smallTree 0 resetRun ∅ = .ok database ∧
      StoresReference fieldHash smallTree database (leafAssignment 5 resetRun) ∧
      ∃ database', commitAll fieldHash smallTree 0 [[.insertLeaves [⟨2, 8⟩, ⟨3, 4⟩]]] ∅ =
          .ok database' ∧
        Read.evalOn database' (smallTree.getRoot fieldHash) =
          Read.evalOn database (smallTree.getRoot fieldHash) := by
  obtain ⟨database, run, stores, onlyLeaves⟩ := storage_eq_reference fieldHash_spec
    smallTree_made (by decide) (by decide) (by decide) resetRun (by decide)
  exact ⟨database, run, stores, onlyLeaves _ (by decide) (by decide)⟩

/-- A tree whose empty leaf is the field modulus: its table cannot be calculated. -/
def outsideTree : SparseMerkleTree :=
  newSparseTree 1 (BitVec.ofNat 256 fieldModulus) (LeafView.getter ⟨0⟩)

/-- With an empty leaf outside the field not even the nodes of the empty database can be read,
although nothing was inserted. -/
theorem outsideTree_reads_nothing :
    PoseidonSpec fieldHash ∧ commitAll fieldHash outsideTree 0 [] ∅ = .ok ∅ ∧
      ¬ StoresReference fieldHash outsideTree ∅
        (leafAssignment (BitVec.ofNat 256 fieldModulus) []) := by
  refine ⟨fieldHash_spec, rfl, fun stores => ?_⟩
  obtain ⟨node, read, _⟩ := stores 0 0 (by decide) (by decide)
  have failed : (Read.evalOn ∅ (outsideTree.getLeafFromStorage fieldHash 0 0)).isOk = false := by
    decide
  rw [read] at failed
  cases failed

/-- After any run of commits a proof for any leaf of the tree exists and verifies. -/
theorem createProof_verifies (spec : PoseidonSpec poseidon)
    (made : TreeOf poseidon depth emptyValue registryIndex tree)
    (positive : 1 ≤ depth.toNat) (shallow : depth.toNat ≤ 32) (emptyField : InField emptyValue)
    (commits : List (List InsertCall))
    (insertable : ∀ leaf ∈ insertedLeaves commits, Insertable depth emptyValue leaf)
    (index : TreeLeafIndex) (inRange : index.toNat < 2 ^ depth.toNat) :
    ∃ database proof, commitAll poseidon tree registryIndex commits ∅ = .ok database ∧
      Read.evalOn database (tree.createProof poseidon index) = .ok proof ∧
      proof.path.length = depth.toNat ∧
      Read.evalOn database (tree.getLeafFromStorage poseidon 0 index) = .ok proof.leaf ∧
      proof.leaf = leafAssignment emptyValue commits index.toNat ∧
      proof.index = index ∧
      Read.evalOn database (tree.getRoot poseidon) = .ok proof.root ∧
      VerifiesAgainst poseidon proof.leaf proof.path proof.index proof.root := by
  obtain ⟨database, nodes, run, sound, leaves⟩ :=
    run_from_empty spec made positive (by omega) emptyField insertable
  rcases made.shape with ⟨rfl, rfl, _⟩
  exact ⟨database, proofOf tree.depth.toNat nodes index, run,
    evalOn_createProof sound.reads inRange, length_siblings _ _ _ _,
    sound.reads 0 index (leaf_inTree inRange), leaves index.toNat, rfl,
    evalOn_getRoot sound.reads, proofOf_verifies sound.consistent inRange⟩

theorem createProof_verifies_resetRun :
    ∃ database proof, commitAll fieldHash smallTree 0 resetRun ∅ = .ok database ∧
      Read.evalOn database (smallTree.createProof fieldHash 1) = .ok proof ∧
      proof.leaf = 5 ∧
      VerifiesAgainst fieldHash proof.leaf proof.path proof.index proof.root := by
  obtain ⟨database, proof, run, created, _, _, leaf, _, _, verifies⟩ :=
    createProof_verifies fieldHash_spec smallTree_made (by decide) (by decide) (by decide)
      resetRun (by decide) 1 (by decide)
  exact ⟨database, proof, run, created, leaf, verifies⟩

/-- With an empty leaf outside the field no proof can be created, although nothing was
inserted. -/
theorem outsideTree_proves_nothing :
    PoseidonSpec fieldHash ∧ commitAll fieldHash outsideTree 0 [] ∅ = .ok ∅ ∧
      ∀ proof, Read.evalOn ∅ (outsideTree.createProof fieldHash 0) ≠ .ok proof := by
  refine ⟨fieldHash_spec, rfl, fun proof created => ?_⟩
  have failed : (Read.evalOn ∅ (outsideTree.createProof fieldHash 0)).isOk = false := by
    decide
  rw [created] at failed
  cases failed

end Runs

end MerkleProofService
