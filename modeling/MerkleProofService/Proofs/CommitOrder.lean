/-
Module: MerkleProofService.Proofs.CommitOrder
Layer: Proofs
Purpose: How operations are cut into commits does not matter.  A commit is described by the
  databases before and after it alone: nodes above the slots of the operations are hashed again,
  entries follow the last operation on their value, all else stays.  Such changes compose, and the
  operations determine them.  Nothing is assumed of the database: it may hold any nodes.
Imports: Proofs.Replay, Proofs.InsertionOrder, Proofs.WrittenNodes
Trusted boundary: none
Main exports: Committed, committed_of_run, Committed.trans, Committed.unique, Committed.replay,
  commits_independent_of_cuts, replayed_tail_changes_nothing
-/
import MerkleProofService.Proofs.Replay
import MerkleProofService.Proofs.InsertionOrder
import MerkleProofService.Proofs.WrittenNodes

namespace MerkleProofService

open Library
open LawfulBuffer (content Over)

/-! ### Reading after a write -/

/-- Numbers that fit are positions. -/
theorem exists_position {depth : TreeLevel} {level index : Nat} (within : level ≤ depth.toNat)
    (fits : index < 2 ^ 32) :
    ∃ (position : TreeLevel) (leaf : TreeLeafIndex), position.toNat = level ∧ leaf.toNat = index :=
  ⟨UInt8.ofNat level, UInt32.ofNat index,
    UInt8.toNat_ofNat_of_lt' (Nat.lt_of_le_of_lt within depth.toNat_lt),
    UInt32.toNat_ofNat_of_lt' fits⟩

section Reads

variable {poseidon : PoseidonHash} {tree : SparseMerkleTree} {database : Database}
variable {registryIndex : RegistryIndex} {before : Batch} {batch : BatchWithLeavesBuffer}

/-- The empty branch of level 0, if it is answered at all, is the empty leaf. -/
theorem getEmptyBranchValue_ground (cache : CacheSound poseidon tree) {value : U256}
    (answer : (tree.getEmptyBranchValue poseidon 0).map Prod.fst = .ok value) :
    value = tree.emptyLeaf := by
  obtain ⟨⟨_, filled⟩, answered, rfl⟩ := except_map_eq_ok.mp answer
  obtain ⟨levels, table, entry, _⟩ := getEmptyBranchValue_eq_ok answered
  obtain ⟨_, _, calculated⟩ :=
    calculateEmptyBranchHashes_eq_ok (emptyBranchTable_eq_ok cache table)
  exact Option.some.inj (entry.symm.trans (fillEmptyBranches_ground calculated))

/-- After the write the storage shows what the buffer showed, also where it shows nothing. -/
theorem readNodes_write (pending : Pending registryIndex before batch)
    (getter : tree.storageLeafGetter = LeafView.getter ⟨registryIndex⟩)
    (cache : CacheSound poseidon tree) (storable : Storable tree batch) {level : TreeLevel}
    (within : level.toNat ≤ tree.depth.toNat) (index : TreeLeafIndex) :
    readNodes poseidon tree (Store.write database batch.batch) level.toNat index.toNat =
      overlay batch (readNodes poseidon tree database) level.toNat index.toNat := by
  rw [overlay_toNat]
  simp only [readNodes, UInt8.ofNat_toNat, UInt32.ofNat_toNat]
  rw [evalOn_getLeafFromStorage_stored getter within, storedLeaf_write pending]
  cases shown : content batch level index with
  | none =>
      rw [Option.getD_none, evalOn_getLeafFromStorage_stored getter within]
  | some value =>
      by_cases zero : value = 0
      · -- a zero is an empty leaf; where its branch cannot be looked up, zero stands for it too
        rcases storable level index value within shown with nonzero | ⟨rfl, empty⟩
        · exact absurd zero nonzero
        · subst zero
          cases answer : (tree.getEmptyBranchValue poseidon 0).map Prod.fst with
          | error err => rfl
          | ok other =>
              simp only [if_true]
              rw [getEmptyBranchValue_ground cache answer, ← empty]
              rfl
      · simp only [if_neg zero]
        rfl

end Reads

/-! ### What a commit does to a database -/

/-- `database'` is `database` after the operations were committed. -/
structure Committed (poseidon : PoseidonHash) (reg : ZKCertificateRegistry)
    (operations : List LeafOperation) (database database' : Database) : Prop where
  rehashed : Rehashed (calculateHash poseidon) 32 reg.sparseTree.depth.toNat
    (dirtyLeaves (operationLeaves reg.metadata.emptyValue operations))
    (readNodes poseidon reg.sparseTree database) (readNodes poseidon reg.sparseTree database')
  leaves : ∀ index : TreeLeafIndex,
    readNodes poseidon reg.sparseTree database' 0 index.toNat =
      (lastWrite (operationLeaves reg.metadata.emptyValue operations) index).getD
        (readNodes poseidon reg.sparseTree database 0 index.toNat)
  stored : ∀ (level : TreeLevel) (index : TreeLeafIndex),
    level.toNat ≤ reg.sparseTree.depth.toNat →
    Above (dirtyLeaves (operationLeaves reg.metadata.emptyValue operations)) level.toNat
      index.toNat →
    database'.lookup (makeLeafKey reg.leafView.registryIndex level index) =
      some (readNodes poseidon reg.sparseTree database' level.toNat index.toNat).bytes
  untouched : ∀ (level : TreeLevel) (index : TreeLeafIndex),
    ¬ (level.toNat ≤ reg.sparseTree.depth.toNat ∧
      Above (dirtyLeaves (operationLeaves reg.metadata.emptyValue operations)) level.toNat
        index.toNat) →
    database'.lookup (makeLeafKey reg.leafView.registryIndex level index) =
      database.lookup (makeLeafKey reg.leafView.registryIndex level index)
  entries : ∀ value, database'.lookup (makeLeafIndexKey reg.leafView.registryIndex value) =
    ((lastEntry operations value).map (Option.map LeafView.leafIndexBytes)).getD
      (database.lookup (makeLeafIndexKey reg.leafView.registryIndex value))
  frame : ∀ key, NoRegistryKey reg.leafView.registryIndex key →
    database'.lookup key = database.lookup key

section Commits

variable {poseidon : PoseidonHash} {reg : ZKCertificateRegistry}
variable {operations : List LeafOperation} {database database' : Database}

/-- The new leaf of every operation can be given back by the storage. -/
def Restorable (emptyValue : U256) (operations : List LeafOperation) : Prop :=
  ∀ op ∈ operations, newLeaf emptyValue op ≠ 0 ∨ newLeaf emptyValue op = emptyValue

theorem committed_of_run (spec : PoseidonSpec poseidon)
    (built : InitializedRegistry poseidon reg)
    (restorable : Restorable reg.metadata.emptyValue operations) {batch : Batch}
    (run : Read.evalOn database (reg.commitOperations poseidon [] operations) = .ok batch) :
    Committed poseidon reg operations database (Store.write database batch) := by
  obtain ⟨queue, filled, queued, inserts, pending, rfl⟩ :=
    commitOperations_parts built (fun _ _ => rfl) run
  have inserted := insertLeaves_inserted trivial inserts
  have values : ∀ leaf ∈ operationLeaves reg.metadata.emptyValue operations,
      leaf.value ≠ 0 ∨ leaf.value = reg.sparseTree.emptyLeaf := by
    intro leaf member
    rcases List.mem_map.mp member with ⟨op, opMember, rfl⟩
    rw [built.emptyLeaf_eq]
    exact restorable op opMember
  have storable := inserted.storable spec values storable_new
  have shows : ∀ (level : TreeLevel) (index : TreeLeafIndex),
      level.toNat ≤ reg.sparseTree.depth.toNat →
      readNodes poseidon reg.sparseTree (Store.write database filled.batch) level.toNat
          index.toNat =
        overlay filled (readNodes poseidon reg.sparseTree database) level.toNat index.toNat :=
    fun _ index within => readNodes_write pending built.tree.getter built.tree.cacheSound
      storable within index
  refine
    { rehashed := ?_
      leaves := fun index => ?_
      stored := fun level index within above => ?_
      untouched := fun level index beside => ?_
      entries := fun value => ?_
      frame := fun key outside => ?_ }
  · refine inserted.rehashed.congr_right (by decide) (dirtyLeaves_fit _) fun within fits => ?_
    obtain ⟨level, index, rfl, rfl⟩ := exists_position within fits
    exact (shows level index within).symm
  · have ground := shows 0 index (Nat.zero_le _)
    have zero : (0 : TreeLevel).toNat = 0 := rfl
    rw [zero] at ground
    rw [ground, inserted.overlay_leaf, UInt32.ofNat_toNat]
    rfl
  · obtain ⟨value, shown⟩ :=
      Option.isSome_iff_exists.mp (inserted.shown level index within above)
    rw [Store.lookup_write, pending.nodes, shows level index within, overlay_toNat, shown]
    rfl
  · rw [Store.lookup_write, pending.nodes, inserted.beside level index beside]
    rfl
  · rw [Store.lookup_write, pending.frame _ (makeLeafIndexKey_noNodeKey _ _ _), queued.entries,
      lastEffect_nil, Option.or_none]
  · rw [Store.lookup_write, pending.frame key outside.1, queued.frame key outside.2]
    rfl

/-- Committing one list and then another commits both. -/
theorem Committed.trans {more : List LeafOperation} {database'' : Database}
    (first : Committed poseidon reg operations database database')
    (second : Committed poseidon reg more database' database'') :
    Committed poseidon reg (operations ++ more) database database'' := by
  have dirty : dirtyLeaves (operationLeaves reg.metadata.emptyValue (operations ++ more)) =
      dirtyLeaves (operationLeaves reg.metadata.emptyValue operations) ∪
        dirtyLeaves (operationLeaves reg.metadata.emptyValue more) := by
    rw [operationLeaves_append, dirtyLeaves_append]
  refine
    { rehashed := ?_
      leaves := fun index => ?_
      stored := fun level index within above => ?_
      untouched := fun level index beside => ?_
      entries := fun value => ?_
      frame := fun key outside => ?_ }
  · rw [dirty]
    exact first.rehashed.trans (by decide) (dirtyLeaves_fit _) second.rehashed
  · rw [second.leaves, first.leaves, operationLeaves_append, lastWrite_append]
    cases lastWrite (operationLeaves reg.metadata.emptyValue more) index <;> rfl
  · rw [dirty, above_union] at above
    by_cases again : Above (dirtyLeaves (operationLeaves reg.metadata.emptyValue more))
        level.toNat index.toNat
    · exact second.stored level index within again
    · rw [second.untouched level index fun here => again here.2,
        first.stored level index within (above.resolve_right again),
        second.rehashed.beside within index.toNat_lt again]
  · rw [dirty, above_union] at beside
    rw [second.untouched level index fun here => beside ⟨here.1, Or.inr here.2⟩,
      first.untouched level index fun here => beside ⟨here.1, Or.inl here.2⟩]
  · rw [second.entries, first.entries, lastEntry_append]
    cases lastEntry more value <;> rfl
  · rw [second.frame key outside, first.frame key outside]

theorem committed_nil : Committed poseidon reg [] database database where
  rehashed :=
    { beside := fun _ _ _ => rfl
      above := fun _ above => by simp [Above, dirtyLeaves, operationLeaves] at above }
  leaves := fun _ => rfl
  stored := fun level index _ above => by simp [Above, dirtyLeaves, operationLeaves] at above
  untouched := fun _ _ _ => rfl
  entries := fun _ => rfl
  frame := fun _ _ => rfl

/-- The operations and the database before a commit determine the database after it. -/
theorem Committed.unique {other : Database}
    (one : Committed poseidon reg operations database database')
    (two : Committed poseidon reg operations database other) : database' = other := by
  have nodes : ∀ {level index : Nat}, level ≤ reg.sparseTree.depth.toNat → index < 2 ^ 32 →
      readNodes poseidon reg.sparseTree database' level index =
        readNodes poseidon reg.sparseTree other level index := by
    refine one.rehashed.unique (by decide) (dirtyLeaves_fit _) two.rehashed ?_
    intro leaf member
    obtain ⟨index, rfl⟩ : ∃ index : TreeLeafIndex, index.toNat = leaf :=
      ⟨UInt32.ofNat leaf, UInt32.toNat_ofNat_of_lt' (dirtyLeaves_fit _ leaf member)⟩
    rw [one.leaves, two.leaves]
  refine Finmap.ext_lookup fun key => ?_
  by_cases node : ∃ level index, key = makeLeafKey reg.leafView.registryIndex level index
  · obtain ⟨level, index, rfl⟩ := node
    by_cases here : level.toNat ≤ reg.sparseTree.depth.toNat ∧
        Above (dirtyLeaves (operationLeaves reg.metadata.emptyValue operations)) level.toNat
          index.toNat
    · rw [one.stored level index here.1 here.2, two.stored level index here.1 here.2,
        nodes here.1 index.toNat_lt]
    · rw [one.untouched level index here, two.untouched level index here]
  · by_cases entry : ∃ value, key = makeLeafIndexKey reg.leafView.registryIndex value
    · obtain ⟨value, rfl⟩ := entry
      rw [one.entries, two.entries]
    · have outside : NoRegistryKey reg.leafView.registryIndex key :=
        ⟨fun level index same => node ⟨level, index, same⟩, fun value same => entry ⟨value, same⟩⟩
      rw [one.frame key outside, two.frame key outside]

/-- A tail that has just been committed is in the database already. -/
theorem Committed.replay {tail : List LeafOperation}
    (committed : Committed poseidon reg (operations ++ tail) database database') :
    Committed poseidon reg tail database' database' := by
  have dirty : dirtyLeaves (operationLeaves reg.metadata.emptyValue tail) ⊆
      dirtyLeaves (operationLeaves reg.metadata.emptyValue (operations ++ tail)) := by
    rw [operationLeaves_append, dirtyLeaves_append]
    exact Set.subset_union_right
  refine
    { rehashed := committed.rehashed.again dirty
      leaves := fun index => ?_
      stored := fun level index within above =>
        committed.stored level index within (above.mono dirty)
      untouched := fun _ _ _ => rfl
      entries := fun value => ?_
      frame := fun _ _ => rfl }
  · have leaf := committed.leaves index
    rw [operationLeaves_append, lastWrite_append] at leaf
    cases written : lastWrite (operationLeaves reg.metadata.emptyValue tail) index with
    | none => rfl
    | some value =>
        rw [written] at leaf
        exact leaf
  · have entry := committed.entries value
    rw [lastEntry_append] at entry
    cases written : lastEntry tail value with
    | none => rfl
    | some left =>
        rw [written] at entry
        exact entry

/-! ### Commits that succeed -/

/-- Every node stored for the registry is a field element. -/
def FieldNodes (registryIndex : RegistryIndex) (database : Database) : Prop :=
  ∀ level index value, storedLeaf database registryIndex level index = some value → InField value

/-- Only the leaves left by the last operation on each slot have to be field elements. -/
def LeavesInField (emptyValue : U256) (operations : List LeafOperation) : Prop :=
  ∀ index value, lastWrite (operationLeaves emptyValue operations) index = some value →
    InField value

theorem ContractMetadata.depth_ne {metadata : Metadata} (contract : ContractMetadata metadata) :
    metadata.depth ≠ 255 := by
  intro same
  have bound := contract.shallow
  rw [same] at bound
  exact absurd bound (by decide)

/-- The buffer of a commit starts empty. -/
theorem holdsAccepted_new (Accepts : U256 → Prop) (batch : Batch) (index : RegistryIndex) :
    HoldsAccepted Accepts (newBatchWithLeavesBuffer batch index) := by
  intro level position value shown
  cases shown

/-- Known operations are committed at any indexes if they leave field elements. -/
theorem commitOperations_total_forest (spec : PoseidonSpec poseidon)
    (built : InitializedRegistry poseidon reg) (shallow : reg.metadata.depth ≠ 255)
    (emptyField : InField reg.metadata.emptyValue)
    (field : FieldNodes reg.leafView.registryIndex database)
    (known : ∀ op ∈ operations, Known op)
    (leaves : LeavesInField reg.metadata.emptyValue operations) :
    ∃ batch, Read.evalOn database (reg.commitOperations poseidon [] operations) = .ok batch := by
  refine commitOperations_of_inserts known fun queue => ?_
  obtain ⟨filled, inserts, _⟩ := insertLeaves_total_forest
    (readsAccepted_field spec built.tree shallow emptyField field) spec.closed trivial
    (holdsAccepted_new InField queue reg.metadata.index) leaves
  exact ⟨filled, inserts⟩

/-- A commit of field elements leaves field elements. -/
theorem FieldNodes.commit (spec : PoseidonSpec poseidon)
    (built : InitializedRegistry poseidon reg) (shallow : reg.metadata.depth ≠ 255)
    (emptyField : InField reg.metadata.emptyValue)
    (field : FieldNodes reg.leafView.registryIndex database)
    (leaves : LeavesInField reg.metadata.emptyValue operations) {batch : Batch}
    (run : Read.evalOn database (reg.commitOperations poseidon [] operations) = .ok batch) :
    FieldNodes reg.leafView.registryIndex (Store.write database batch) := by
  obtain ⟨queue, filled, _, inserts, pending, rfl⟩ :=
    commitOperations_parts built (fun _ _ => rfl) run
  obtain ⟨other, again, _, holds⟩ := insertLeaves_total_forest
    (readsAccepted_field spec built.tree shallow emptyField field) spec.closed trivial
    (holdsAccepted_new InField queue reg.metadata.index) leaves
  rw [inserts] at again
  obtain rfl := Except.ok.inj again
  intro level index value found
  rw [storedLeaf_write pending] at found
  cases shown : content filled level index with
  | none =>
      rw [shown] at found
      exact field level index value found
  | some left =>
      rw [shown] at found
      by_cases zero : left = 0
      · simp only [if_pos zero, reduceCtorEq] at found
      · simp only [if_neg zero, Option.some.injEq] at found
        exact found ▸ holds level index left shown

/-- Every node of a registry can be read. -/
theorem InitializedRegistry.readsAll (built : InitializedRegistry poseidon reg)
    (spec : PoseidonSpec poseidon) (contract : ContractMetadata reg.metadata) :
    ReadsAccepted poseidon reg.sparseTree database fun _ => True := by
  intro level index below
  obtain ⟨empty, branches⟩ := built.emptyBranches spec contract
  exact ⟨_, evalOn_getLeafFromStorage branches built.tree.getter below.le index, trivial⟩

/-- A change that a commit would make can be made by one. -/
theorem Committed.run (spec : PoseidonSpec poseidon)
    (built : InitializedRegistry poseidon reg) (contract : ContractMetadata reg.metadata)
    (known : ∀ op ∈ operations, Known op)
    (restorable : Restorable reg.metadata.emptyValue operations)
    (committed : Committed poseidon reg operations database database') :
    ∃ batch, Read.evalOn database (reg.commitOperations poseidon [] operations) = .ok batch ∧
      Store.write database batch = database' := by
  have inserts : ∀ queue, ∃ filled, Read.evalOn database (reg.sparseTree.insertLeaves poseidon
      (newBatchWithLeavesBuffer queue reg.metadata.index)
      (operationLeaves reg.metadata.emptyValue operations)) = .ok filled := fun queue =>
    insertLeaves_reach (built.readsAll spec contract) trivial committed.rehashed committed.leaves
  obtain ⟨batch, run⟩ := commitOperations_of_inserts known inserts
  exact ⟨batch, run, (committed_of_run spec built restorable run).unique committed⟩

/-! ### Runs of commits -/

/-- The operation carries a nonzero field element. -/
def ProperValue (op : LeafOperation) : Prop :=
  op.leaf.value ≠ 0 ∧ InField op.leaf.value

instance (op : LeafOperation) : Decidable (ProperValue op) :=
  inferInstanceAs (Decidable (_ ∧ _))

theorem restorable_of_proper (emptyValue : U256) (proper : ∀ op ∈ operations, ProperValue op) :
    Restorable emptyValue operations := by
  intro op member
  cases kind : op.op with
  | addition =>
      left
      rw [newLeaf, kind]
      exact (proper op member).1
  | revocation =>
      right
      rw [newLeaf, kind]
  | unknown code =>
      right
      rw [newLeaf, kind]

theorem leavesInField_of_proper {emptyValue : U256} (emptyField : InField emptyValue)
    (proper : ∀ op ∈ operations, ProperValue op) : LeavesInField emptyValue operations := by
  intro index value written
  obtain ⟨leaf, member, _, rfl⟩ := lastWrite_mem written
  rcases List.mem_map.mp member with ⟨op, opMember, rfl⟩
  cases kind : op.op with
  | addition =>
      rw [newLeaf, kind]
      exact (proper op opMember).2
  | revocation =>
      rw [newLeaf, kind]
      exact emptyField
  | unknown code =>
      rw [newLeaf, kind]
      exact emptyField

/-- A run of commits commits all operations. -/
theorem committed_of_runs (spec : PoseidonSpec poseidon)
    (built : InitializedRegistry poseidon reg) {commits : List (List LeafOperation)}
    (proper : ∀ op ∈ commits.flatten, ProperValue op)
    (run : commitAllOperations poseidon reg commits database = .ok database') :
    Committed poseidon reg commits.flatten database database' := by
  induction commits generalizing database with
  | nil =>
      obtain rfl := Except.ok.inj run
      exact committed_nil
  | cons operations commits ih =>
      rw [List.flatten_cons] at proper ⊢
      rcases except_bind_eq_ok.mp run with ⟨batch, first, rest⟩
      have restorable := restorable_of_proper reg.metadata.emptyValue fun op member =>
        proper op (List.mem_append_left _ member)
      exact (committed_of_run spec built restorable first).trans
        (ih (fun op member => proper op (List.mem_append_right _ member)) rest)

/-- Proper operations are committed one list after the other. -/
theorem commitAllOperations_total (spec : PoseidonSpec poseidon)
    (built : InitializedRegistry poseidon reg) (contract : ContractMetadata reg.metadata)
    {commits : List (List LeafOperation)} (known : ∀ op ∈ commits.flatten, Known op)
    (proper : ∀ op ∈ commits.flatten, ProperValue op)
    (field : FieldNodes reg.leafView.registryIndex database) :
    ∃ reached, commitAllOperations poseidon reg commits database = .ok reached := by
  induction commits generalizing database with
  | nil => exact ⟨database, rfl⟩
  | cons operations commits ih =>
      rw [List.flatten_cons] at known proper
      have leaves := leavesInField_of_proper contract.emptyField fun op member =>
        proper op (List.mem_append_left _ member)
      obtain ⟨batch, run⟩ := commitOperations_total_forest spec built contract.depth_ne
        contract.emptyField field
        (fun op member => known op (List.mem_append_left _ member)) leaves
      obtain ⟨reached, rest⟩ := ih (fun op member => known op (List.mem_append_right _ member))
        (fun op member => proper op (List.mem_append_right _ member))
        (field.commit spec built contract.depth_ne contract.emptyField leaves run)
      refine ⟨reached, ?_⟩
      rw [commitAllOperations, run]
      exact rest

/-- Runs of commits that cut the same operations differently, such as `[xs, ys]` and `[xs ++ ys]`,
leave the same database, whatever it held before.  Where one of them succeeds the operations can
also be committed at once, and on a database of field elements all of them succeed. -/
theorem commits_independent_of_cuts (spec : PoseidonSpec poseidon)
    (built : InitializedRegistry poseidon reg) {commits commits' : List (List LeafOperation)}
    (same : commits.flatten = commits'.flatten)
    (proper : ∀ op ∈ commits.flatten, ProperValue op) (database : Database) :
    (∀ first second, commitAllOperations poseidon reg commits database = .ok first →
      commitAllOperations poseidon reg commits' database = .ok second → first = second) ∧
    (ContractMetadata reg.metadata → (∀ op ∈ commits.flatten, Known op) →
      (∀ reached, commitAllOperations poseidon reg commits database = .ok reached →
        ∃ batch, Read.evalOn database (reg.commitOperations poseidon [] commits.flatten) =
          .ok batch ∧ Store.write database batch = reached) ∧
      (FieldNodes reg.leafView.registryIndex database →
        ∃ reached, commitAllOperations poseidon reg commits database = .ok reached ∧
          commitAllOperations poseidon reg commits' database = .ok reached)) := by
  have agree : ∀ first second, commitAllOperations poseidon reg commits database = .ok first →
      commitAllOperations poseidon reg commits' database = .ok second → first = second := by
    intro first second one two
    have firstCommitted := committed_of_runs spec built proper one
    have secondCommitted := committed_of_runs spec built (same ▸ proper) two
    exact firstCommitted.unique (same ▸ secondCommitted)
  refine ⟨agree, fun contract known => ⟨fun reached run => ?_, fun field => ?_⟩⟩
  · exact (committed_of_runs spec built proper run).run spec built contract known
      (restorable_of_proper _ proper)
  · obtain ⟨first, one⟩ := commitAllOperations_total spec built contract known proper field
    obtain ⟨second, two⟩ :=
      commitAllOperations_total spec built contract (same ▸ known) (same ▸ proper) field
    exact ⟨first, one, agree first second one two ▸ two⟩

end Commits

/-- Operations no contract would send: a slot written twice, a revocation of a value that was never
added, and a slot beyond the tree. -/
def oddOperations : List LeafOperation :=
  [⟨⟨1, 7⟩, .addition⟩, ⟨⟨1, 8⟩, .addition⟩, ⟨⟨0, 9⟩, .revocation⟩, ⟨⟨6, 7⟩, .addition⟩]

theorem fieldNodes_empty (registryIndex : RegistryIndex) : FieldNodes registryIndex ∅ := by
  intro level index value found
  cases found

theorem commits_independent_of_cuts_oddOperations :
    ∃ reached,
      commitAllOperations fieldHash smallRegistry [oddOperations, oddOperations] ∅ =
        .ok reached ∧
      commitAllOperations fieldHash smallRegistry [oddOperations ++ oddOperations] ∅ =
        .ok reached :=
  ((commits_independent_of_cuts fieldHash_spec smallRegistry_built (by simp) (by decide) ∅).2
    smallRegistry_contract (by decide)).2 (fieldNodes_empty _)

section Replays

variable {poseidon : PoseidonHash} {reg : ZKCertificateRegistry}
variable {operations : List LeafOperation}

/-- Once operations have been committed, committing a tail of them again changes nothing, whatever
the database held before; and it succeeds. -/
theorem replayed_tail_changes_nothing (spec : PoseidonSpec poseidon)
    (built : InitializedRegistry poseidon reg) {tail : List LeafOperation}
    (proper : ∀ op ∈ operations ++ tail, ProperValue op) (database : Database) :
    (∀ batch, Read.evalOn database (reg.commitOperations poseidon [] (operations ++ tail)) =
        .ok batch →
      (∀ again, Read.evalOn (Store.write database batch)
          (reg.commitOperations poseidon [] tail) = .ok again →
        Store.write (Store.write database batch) again = Store.write database batch) ∧
      (ContractMetadata reg.metadata → ∃ again, Read.evalOn (Store.write database batch)
        (reg.commitOperations poseidon [] tail) = .ok again)) ∧
    (ContractMetadata reg.metadata → FieldNodes reg.leafView.registryIndex database →
      (∀ op ∈ operations ++ tail, Known op) →
      ∃ batch, Read.evalOn database (reg.commitOperations poseidon [] (operations ++ tail)) =
        .ok batch) := by
  constructor
  · intro batch run
    have committed := committed_of_run spec built
      (restorable_of_proper reg.metadata.emptyValue proper) run
    have restorable := restorable_of_proper reg.metadata.emptyValue fun op member =>
      proper op (List.mem_append_right operations member)
    refine ⟨fun again replay => ?_, fun contract => ?_⟩
    · exact (committed_of_run spec built restorable replay).unique committed.replay
    · obtain ⟨_, _, queued, _⟩ := commitOperations_parts built (fun _ _ => rfl) run
      obtain ⟨again, replay, _⟩ := committed.replay.run spec built contract
        (fun op member => queued.known op (List.mem_append_right _ member)) restorable
      exact ⟨again, replay⟩
  · intro contract field known
    exact commitOperations_total_forest spec built contract.depth_ne contract.emptyField field known
      (leavesInField_of_proper contract.emptyField proper)

end Replays

theorem replayed_tail_changes_nothing_oddOperations :
    ∃ batch again,
      Read.evalOn ∅ (smallRegistry.commitOperations fieldHash []
        (oddOperations ++ oddOperations)) = .ok batch ∧
      Read.evalOn (Store.write ∅ batch) (smallRegistry.commitOperations fieldHash []
        oddOperations) = .ok again ∧
      Store.write (Store.write ∅ batch) again = Store.write ∅ batch := by
  have proper : ∀ op ∈ oddOperations ++ oddOperations, ProperValue op := by decide
  obtain ⟨replays, commits⟩ :=
    replayed_tail_changes_nothing fieldHash_spec smallRegistry_built proper ∅
  obtain ⟨batch, run⟩ := commits smallRegistry_contract (fieldNodes_empty _) (by decide)
  obtain ⟨again, replay⟩ := (replays batch run).2 smallRegistry_contract
  exact ⟨batch, again, run, replay, (replays batch run).1 again replay⟩

end MerkleProofService
