/-
Module: MerkleProofService.Proofs.EventLeaves
Layer: Proofs
Purpose: Where the events of accepted logs land.  A run of commits from the empty database keeps
  every node above a written slot hashed from what the storage shows, except the parents of slots
  that were last set to a zero the storage does not give back; so every addition that was not
  overwritten is provable at the index of its event, exactly if the index is one of the tree.
Imports: Proofs.AcceptedLogs, Proofs.ProofPaths
Trusted boundary: none
Main exports: HoldsOperations, HoldsOperations.commit, indexRanges, EachLands, events_land_iff
-/
import MerkleProofService.Proofs.AcceptedLogs
import MerkleProofService.Proofs.ProofPaths

namespace MerkleProofService

open Library
open LawfulBuffer (content Over)

/-! ### What a run of operations leaves -/

/-- The slot was last set to a zero, and the storage shows the empty leaf there. -/
def LostLeaf (emptyValue : U256) (leaves : List TreeLeaf) (index : TreeLeafIndex) : Prop :=
  lastWrite leaves index = some 0 ∧ emptyValue ≠ 0

/-- The database holds what the operations left: their leaves and entries, and above the leaves
hashes of what the storage shows. -/
structure HoldsOperations (poseidon : PoseidonHash) (reg : ZKCertificateRegistry)
    (operations : List LeafOperation) (database : Database) : Prop where
  leaves : ∀ index, storedLeaf database reg.leafView.registryIndex 0 index =
    (lastWrite (operationLeaves reg.metadata.emptyValue operations) index).bind fun value =>
      if value = 0 then none else some value
  entries : ∀ value, database.lookup (makeLeafIndexKey reg.leafView.registryIndex value) =
    (lastEntry operations value).join.map LeafView.leafIndexBytes
  shown : ∀ (level : TreeLevel) (index : TreeLeafIndex), level ≠ 0 →
    level.toNat ≤ reg.sparseTree.depth.toNat →
    Above (dirtyLeaves (operationLeaves reg.metadata.emptyValue operations)) level.toNat
      index.toNat →
    (storedLeaf database reg.leafView.registryIndex level index).isSome
  read : ∀ (level : TreeLevel) (index : TreeLeafIndex),
    level.toNat < reg.sparseTree.depth.toNat →
    Above (dirtyLeaves (operationLeaves reg.metadata.emptyValue operations)) (level.toNat + 1)
      (index.toNat / 2) →
    (level = 0 → ¬ LostLeaf reg.metadata.emptyValue
      (operationLeaves reg.metadata.emptyValue operations) index) →
    Readable poseidon reg.sparseTree database level index
  hashed : ∀ (level : TreeLevel) (index : TreeLeafIndex),
    level.toNat < reg.sparseTree.depth.toNat →
    Above (dirtyLeaves (operationLeaves reg.metadata.emptyValue operations)) (level.toNat + 1)
      (index.toNat / 2) →
    (level = 0 → ∀ child, child / 2 = index / 2 → ¬ LostLeaf reg.metadata.emptyValue
      (operationLeaves reg.metadata.emptyValue operations) child) →
    calculateHash poseidon
      (readNodes poseidon reg.sparseTree database level.toNat (2 * (index.toNat / 2)))
      (readNodes poseidon reg.sparseTree database level.toNat (2 * (index.toNat / 2) + 1)) =
        .ok (readNodes poseidon reg.sparseTree database (level.toNat + 1) (index.toNat / 2))

section Step

variable {poseidon : PoseidonHash} {reg : ZKCertificateRegistry} {database : Database}
variable {operations more : List LeafOperation} {batch : Batch}

/-- A slot that later leaves do not touch is lost with them if it was before. -/
theorem lostLeaf_append {emptyValue : U256} {first second : List TreeLeaf}
    {index : TreeLeafIndex} (clean : index.toNat ∉ dirtyLeaves second) :
    LostLeaf emptyValue (first ++ second) index ↔ LostLeaf emptyValue first index := by
  have none : lastWrite second index = none :=
    Option.not_isSome_iff_eq_none.mp fun written => clean (lastWrite_isSome.mp written)
  rw [LostLeaf, LostLeaf, lastWrite_append, none, Option.none_or]

/-- A leaf lies below its parent. -/
theorem above_parent_of_dirty {dirty : Set Nat} {index : Nat} (member : index ∈ dirty) :
    Above dirty 1 (index / 2) :=
  ⟨index, member, by rw [pow_one]⟩

theorem holdsOperations_empty : HoldsOperations poseidon reg [] ∅ where
  leaves := fun _ => rfl
  entries := fun _ => rfl
  shown := fun _ _ _ _ above => by simp [Above, dirtyLeaves, operationLeaves] at above
  read := fun _ _ _ above => by simp [Above, dirtyLeaves, operationLeaves] at above
  hashed := fun _ _ _ above => by simp [Above, dirtyLeaves, operationLeaves] at above

/-- A zero empty leaf is a field element, so its branches can be calculated. -/
theorem InitializedRegistry.zeroBranches (built : InitializedRegistry poseidon reg)
    (spec : PoseidonSpec poseidon) (depth : ContractDepth reg.metadata)
    (zero : reg.sparseTree.emptyLeaf = 0) :
    ∃ empty, EmptyBranches poseidon reg.sparseTree empty := by
  refine built.emptyBranches spec ⟨depth, ?_⟩
  rw [← built.emptyLeaf_eq, zero]
  decide

/-- The buffer a commit of `more` fills over `database`, before it is written. -/
structure FilledBuffer (poseidon : PoseidonHash) (reg : ZKCertificateRegistry)
    (database : Database) (more : List LeafOperation) (queue : Batch)
    (filled : BatchWithLeavesBuffer) : Prop extends
    Filled poseidon reg.sparseTree reg.leafView.registryIndex database
      (operationLeaves reg.metadata.emptyValue more) queue filled where
  entries : ∀ value, lastEffect filled.batch (makeLeafIndexKey reg.leafView.registryIndex value) =
    (lastEntry more value).map (Option.map LeafView.leafIndexBytes)

theorem filledBuffer_of_commit (built : InitializedRegistry poseidon reg)
    (run : Read.evalOn database (reg.commitOperations poseidon [] more) = .ok batch) :
    ∃ queue filled, FilledBuffer poseidon reg database more queue filled ∧
      filled.batch = batch := by
  obtain ⟨queue, filled, queued, inserts, pending, same⟩ :=
    commitOperations_parts built (fun _ _ => rfl) run
  rw [built.index] at inserts
  refine ⟨queue, filled, ?_, same⟩
  exact
    { pending := pending
      inserted := insertLeaves_inserted trivial inserts
      reads := fun level index below above => insertLeaves_reads trivial inserts below above
      entries := fun value => by
        rw [pending.frame _ (makeLeafIndexKey_noNodeKey _ _ _), queued.entries, lastEffect_nil,
          Option.or_none] }

namespace FilledBuffer

variable {queue : Batch} {filled : BatchWithLeavesBuffer}
variable (buffer : FilledBuffer poseidon reg database more queue filled)

include buffer

/-- A zero it shows, if it is no lost leaf, is what an empty branch shows. -/
theorem zeroShown (spec : PoseidonSpec poseidon) (built : InitializedRegistry poseidon reg)
    (depth : ContractDepth reg.metadata) (first : List TreeLeaf) {level : TreeLevel}
    {index : TreeLeafIndex} (within : level.toNat ≤ reg.sparseTree.depth.toNat)
    (kept : level = 0 → ¬ LostLeaf reg.metadata.emptyValue
      (first ++ operationLeaves reg.metadata.emptyValue more) index)
    (shown : content filled level index = some 0) :
    (reg.sparseTree.getEmptyBranchValue poseidon level).map Prod.fst = .ok 0 := by
  obtain ⟨rfl, written⟩ := buffer.zero_shown spec.nonzero within shown
  have zero : reg.metadata.emptyValue = 0 := by
    by_contra other
    refine kept rfl ⟨?_, other⟩
    rw [lastWrite_append, written]
    rfl
  have empty : reg.sparseTree.emptyLeaf = 0 := built.emptyLeaf_eq.trans zero
  rw [readsEmptyLeaf (built.zeroBranches spec depth empty), empty]

/-- A node read for a hash before the commit or by it can be read through the buffer. -/
theorem available (holds : HoldsOperations poseidon reg operations database)
    {level : TreeLevel} {index : TreeLeafIndex} (below : level.toNat < reg.sparseTree.depth.toNat)
    (above : Above (dirtyLeaves (operationLeaves reg.metadata.emptyValue operations ++
      operationLeaves reg.metadata.emptyValue more)) (level.toNat + 1) (index.toNat / 2))
    (kept : level = 0 → ¬ LostLeaf reg.metadata.emptyValue
      (operationLeaves reg.metadata.emptyValue operations ++
        operationLeaves reg.metadata.emptyValue more) index) :
    (content filled level index).isSome ∨
      Readable poseidon reg.sparseTree database level index := by
  rw [dirtyLeaves_append, above_union] at above
  by_cases new : Above (dirtyLeaves (operationLeaves reg.metadata.emptyValue more))
      (level.toNat + 1) (index.toNat / 2)
  · exact buffer.reads level index below new
  · refine Or.inr (holds.read level index below (above.resolve_right new) fun ground => ?_)
    subst ground
    rw [← lostLeaf_append fun dirty => new (above_parent_of_dirty dirty)]
    exact kept rfl

/-- After the write it is read as the buffer showed it. -/
theorem read_written (spec : PoseidonSpec poseidon) (built : InitializedRegistry poseidon reg)
    (depth : ContractDepth reg.metadata)
    (holds : HoldsOperations poseidon reg operations database)
    {level : TreeLevel} {index : TreeLeafIndex} (below : level.toNat < reg.sparseTree.depth.toNat)
    (above : Above (dirtyLeaves (operationLeaves reg.metadata.emptyValue operations ++
      operationLeaves reg.metadata.emptyValue more)) (level.toNat + 1) (index.toNat / 2))
    (kept : level = 0 → ¬ LostLeaf reg.metadata.emptyValue
      (operationLeaves reg.metadata.emptyValue operations ++
        operationLeaves reg.metadata.emptyValue more) index) :
    Read.evalOn (Store.write database filled.batch)
        (reg.sparseTree.getLeafFromStorage poseidon level index) =
      .ok (overlay filled (readNodes poseidon reg.sparseTree database) level.toNat
        index.toNat) :=
  buffer.pending.read_overlay built.tree.getter below.le
    (buffer.zeroShown spec built depth _ below.le kept)
    (buffer.available holds below above kept)

/-- The new hashes are those of what the storage shows after the write. -/
theorem hashed_new (spec : PoseidonSpec poseidon) (built : InitializedRegistry poseidon reg)
    (depth : ContractDepth reg.metadata)
    (holds : HoldsOperations poseidon reg operations database)
    {level : TreeLevel} {index : TreeLeafIndex} (below : level.toNat < reg.sparseTree.depth.toNat)
    (new : Above (dirtyLeaves (operationLeaves reg.metadata.emptyValue more)) (level.toNat + 1)
      (index.toNat / 2))
    (kept : level = 0 → ∀ child, child / 2 = index / 2 → ¬ LostLeaf reg.metadata.emptyValue
      (operationLeaves reg.metadata.emptyValue operations ++
        operationLeaves reg.metadata.emptyValue more) child) :
    calculateHash poseidon
      (readNodes poseidon reg.sparseTree (Store.write database filled.batch) level.toNat
        (2 * (index.toNat / 2)))
      (readNodes poseidon reg.sparseTree (Store.write database filled.batch) level.toNat
        (2 * (index.toNat / 2) + 1)) =
      .ok (readNodes poseidon reg.sparseTree (Store.write database filled.batch)
        (level.toNat + 1) (index.toNat / 2)) := by
  have up := toNat_succ_level below
  have half := uint32_div_two index
  have children : ∀ child : TreeLeafIndex, child / 2 = index / 2 →
      readNodes poseidon reg.sparseTree (Store.write database filled.batch) level.toNat
          child.toNat =
        overlay filled (readNodes poseidon reg.sparseTree database) level.toNat child.toNat := by
    intro child sibling
    refine readNodes_of_ok (buffer.read_written spec built depth holds below ?_ fun ground =>
      kept ground child sibling)
    rw [dirtyLeaves_append, above_union, ← uint32_div_two, sibling, half]
    exact Or.inr new
  have left := children (2 * (index / 2)) (leftOfParent_div_two index)
  have right := children (2 * (index / 2) + 1) (rightOfParent_div_two index)
  rw [toNat_leftOfParent] at left
  rw [toNat_rightOfParent] at right
  have parent : readNodes poseidon reg.sparseTree (Store.write database filled.batch)
      (level + 1).toNat (index / 2).toNat =
        overlay filled (readNodes poseidon reg.sparseTree database) (level + 1).toNat
          (index / 2).toNat := by
    refine readNodes_of_ok (buffer.pending.read_overlay built.tree.getter (by omega)
      (buffer.zeroShown spec built depth [] (by omega) fun ground => ?_)
      (Or.inl (buffer.inserted.shown (level + 1) (index / 2) (by omega) (by rwa [up, half]))))
    rw [ground] at up
    cases up
  rw [up, half] at parent
  rw [left, right, parent]
  exact buffer.inserted.hashed level.toNat (index.toNat / 2) below new

/-- Beside the new leaves neither a hash nor what was hashed changes. -/
theorem hashed_old (built : InitializedRegistry poseidon reg)
    (holds : HoldsOperations poseidon reg operations database)
    {level : TreeLevel} {index : TreeLeafIndex} (below : level.toNat < reg.sparseTree.depth.toNat)
    (above : Above (dirtyLeaves (operationLeaves reg.metadata.emptyValue operations))
      (level.toNat + 1) (index.toNat / 2))
    (old : ¬ Above (dirtyLeaves (operationLeaves reg.metadata.emptyValue more))
      (level.toNat + 1) (index.toNat / 2))
    (kept : level = 0 → ∀ child, child / 2 = index / 2 → ¬ LostLeaf reg.metadata.emptyValue
      (operationLeaves reg.metadata.emptyValue operations ++
        operationLeaves reg.metadata.emptyValue more) child) :
    calculateHash poseidon
      (readNodes poseidon reg.sparseTree (Store.write database filled.batch) level.toNat
        (2 * (index.toNat / 2)))
      (readNodes poseidon reg.sparseTree (Store.write database filled.batch) level.toNat
        (2 * (index.toNat / 2) + 1)) =
      .ok (readNodes poseidon reg.sparseTree (Store.write database filled.batch)
        (level.toNat + 1) (index.toNat / 2)) := by
  have up := toNat_succ_level below
  have half := uint32_div_two index
  have clean : ∀ child : TreeLeafIndex, child.toNat / 2 = index.toNat / 2 →
      ¬ Above (dirtyLeaves (operationLeaves reg.metadata.emptyValue more)) level.toNat
        child.toNat :=
    fun child sibling here => old (sibling ▸ here.parent)
  have left := buffer.readNodes_eq built.tree.getter below.le (clean (2 * (index / 2)) (by
    rw [toNat_leftOfParent]
    omega))
  have right := buffer.readNodes_eq built.tree.getter below.le (clean (2 * (index / 2) + 1) (by
    rw [toNat_rightOfParent]
    omega))
  have cleanParent : ¬ Above (dirtyLeaves (operationLeaves reg.metadata.emptyValue more))
      (level + 1).toNat (index / 2).toNat := by
    rwa [up, half]
  have parent := buffer.readNodes_eq built.tree.getter (by omega) cleanParent
  rw [toNat_leftOfParent] at left
  rw [toNat_rightOfParent] at right
  rw [up, half] at parent
  rw [left, right, parent]
  refine holds.hashed level index below above fun ground child sibling => ?_
  have halves : child.toNat / 2 = index.toNat / 2 := by
    rw [← uint32_div_two, sibling, half]
  subst ground
  rw [← lostLeaf_append fun dirty => clean child halves (above_zero.mpr dirty)]
  exact kept rfl child sibling

end FilledBuffer

/-- The slots and the entries alone, which no hash has a part in. -/
structure HoldsLeaves (reg : ZKCertificateRegistry) (operations : List LeafOperation)
    (database : Database) : Prop where
  leaves : ∀ index, storedLeaf database reg.leafView.registryIndex 0 index =
    (lastWrite (operationLeaves reg.metadata.emptyValue operations) index).bind fun value =>
      if value = 0 then none else some value
  entries : ∀ value, database.lookup (makeLeafIndexKey reg.leafView.registryIndex value) =
    (lastEntry operations value).join.map LeafView.leafIndexBytes

theorem holdsLeaves_empty : HoldsLeaves reg [] ∅ where
  leaves := fun _ => rfl
  entries := fun _ => rfl

theorem FilledBuffer.holdsLeaves {queue : Batch} {filled : BatchWithLeavesBuffer}
    (buffer : FilledBuffer poseidon reg database more queue filled)
    (holds : HoldsLeaves reg operations database) :
    HoldsLeaves reg (operations ++ more) (Store.write database filled.batch) := by
  constructor
  · intro index
    rw [operationLeaves_append, storedLeaf_write buffer.pending, buffer.inserted.ground,
      lastWrite_append]
    cases lastWrite (operationLeaves reg.metadata.emptyValue more) index with
    | some value => rfl
    | none => exact holds.leaves index
  · intro value
    rw [Store.lookup_write, buffer.entries, lastEntry_append]
    cases lastEntry more value with
    | some left => rfl
    | none => exact holds.entries value

/-- One more commit. -/
theorem HoldsOperations.commit (holds : HoldsOperations poseidon reg operations database)
    (spec : PoseidonSpec poseidon) (built : InitializedRegistry poseidon reg)
    (depth : ContractDepth reg.metadata)
    (run : Read.evalOn database (reg.commitOperations poseidon [] more) = .ok batch) :
    HoldsOperations poseidon reg (operations ++ more) (Store.write database batch) := by
  obtain ⟨queue, filled, buffer, rfl⟩ := filledBuffer_of_commit built run
  obtain ⟨leaves, entries⟩ := buffer.holdsLeaves ⟨holds.leaves, holds.entries⟩
  refine ⟨leaves, entries, ?_, ?_, ?_⟩
  · intro level index inner within above
    rw [operationLeaves_append, dirtyLeaves_append, above_union] at above
    by_cases new : Above (dirtyLeaves (operationLeaves reg.metadata.emptyValue more))
        level.toNat index.toNat
    · obtain ⟨value, _, stored⟩ := buffer.storedLeaf_above spec.nonzero inner within new
      rw [stored]
      rfl
    · rw [buffer.storedLeaf_beside new]
      exact holds.shown level index inner within (above.resolve_right new)
  · intro level index below above kept
    rw [operationLeaves_append] at above kept
    exact ⟨_, buffer.read_written spec built depth holds below above kept⟩
  · intro level index below above kept
    rw [operationLeaves_append] at above kept
    by_cases new : Above (dirtyLeaves (operationLeaves reg.metadata.emptyValue more))
        (level.toNat + 1) (index.toNat / 2)
    · exact buffer.hashed_new spec built depth holds below new kept
    · rw [dirtyLeaves_append, above_union] at above
      exact buffer.hashed_old built holds below (above.resolve_right new) new kept

/-- Writes beside the registry's keys change nothing. -/
theorem HoldsOperations.foreign (holds : HoldsOperations poseidon reg operations database)
    (built : InitializedRegistry poseidon reg)
    (outside : ∀ key, ¬ NoRegistryKey reg.leafView.registryIndex key →
      lastEffect batch key = none) :
    HoldsOperations poseidon reg operations (Store.write database batch) := by
  have node : ∀ level index,
      lastEffect batch (makeLeafKey reg.leafView.registryIndex level index) = none :=
    fun level index => outside _ fun away => away.1 level index rfl
  have stored : ∀ level index,
      storedLeaf (Store.write database batch) reg.leafView.registryIndex level index =
        storedLeaf database reg.leafView.registryIndex level index :=
    fun level index => storedLeaf_foreign (node level index)
  have read : ∀ (level : TreeLevel) (index : TreeLeafIndex),
      level.toNat ≤ reg.sparseTree.depth.toNat →
      Read.evalOn (Store.write database batch)
          (reg.sparseTree.getLeafFromStorage poseidon level index) =
        Read.evalOn database (reg.sparseTree.getLeafFromStorage poseidon level index) := by
    intro level index within
    rw [evalOn_getLeafFromStorage_stored built.tree.getter within, stored,
      evalOn_getLeafFromStorage_stored built.tree.getter within]
  have nodes : ∀ (level index : Nat), level ≤ reg.sparseTree.depth.toNat →
      readNodes poseidon reg.sparseTree (Store.write database batch) level index =
        readNodes poseidon reg.sparseTree database level index := by
    intro level index within
    rw [readNodes, readNodes, read]
    rwa [UInt8.toNat_ofNat_of_lt' (Nat.lt_of_le_of_lt within reg.sparseTree.depth.toNat_lt)]
  refine
    { leaves := fun index => (stored 0 index).trans (holds.leaves index)
      entries := fun value => ?_
      shown := fun level index inner within above => ?_
      read := fun level index below above kept => ?_
      hashed := fun level index below above kept => ?_ }
  · rw [Store.lookup_write_of_none (outside _ fun away => away.2 value rfl)]
    exact holds.entries value
  · rw [stored]
    exact holds.shown level index inner within above
  · rw [Readable, read level index below.le]
    exact holds.read level index below above kept
  · rw [nodes _ _ below.le, nodes _ _ below.le, nodes _ _ below]
    exact holds.hashed level index below above kept

end Step

/-! ### Ranges of logs -/

/-- `handleLogs` on one range of logs after the other, each batch written before the next. -/
def indexRanges (poseidon : PoseidonHash) (job : ZkCertificateRegistryJob) :
    List (List EvmLog × UInt64) → Database → Except GoError Database
  | [], database => .ok database
  | (logs, progressBlock) :: ranges, database =>
      (Read.evalOn database (job.handleLogs poseidon logs progressBlock)).bind fun batch =>
        indexRanges poseidon job ranges (Store.write database batch)

/-- The events of all ranges, in their order. -/
def rangeEvents (job : ZkCertificateRegistryJob) (ranges : List (List EvmLog × UInt64)) :
    List CertificateProcessed :=
  handledEvents job (ranges.flatMap Prod.fst)

section Ranges

variable {poseidon : PoseidonHash} {job : ZkCertificateRegistryJob}
variable {operations : List LeafOperation} {database database' : Database}

theorem rangeEvents_cons (logs : List EvmLog) (block : UInt64)
    (ranges : List (List EvmLog × UInt64)) :
    rangeEvents job ((logs, block) :: ranges) =
      handledEvents job logs ++ rangeEvents job ranges := by
  rw [rangeEvents, List.flatMap_cons, handledEvents_append]
  rfl

/-- A range commits the operations of its events. -/
theorem HoldsOperations.handleLogs
    (holds : HoldsOperations poseidon job.registry operations database)
    (spec : PoseidonSpec poseidon) (built : InitializedRegistry poseidon job.registry)
    (depth : ContractDepth job.registry.metadata) {logs : List EvmLog} {block : UInt64}
    {batch : Batch}
    (run : Read.evalOn database (job.handleLogs poseidon logs block) = .ok batch) :
    HoldsOperations poseidon job.registry
      (operations ++ (handledEvents job logs).map eventOperation)
      (Store.write database batch) := by
  simp only [ZkCertificateRegistryJob.handleLogs, Program.bind_eq, Read.evalOn_bind,
    Read.evalOn_ofExcept, except_bind_eq_ok, Read.evalOn_wrapf, except_mapError_eq_ok] at run
  obtain ⟨accepted, handled, committed⟩ := run
  obtain ⟨rfl, _⟩ := handleAll_eq_ok handled
  obtain ⟨queued, record, inserted, _, rfl⟩ := commitBatch_spec committed
  rw [Store.write_append]
  exact (holds.commit spec built depth inserted).foreign built fun key inside =>
    lastEffect_record _ _ record key inside

theorem HoldsOperations.indexRanges
    (spec : PoseidonSpec poseidon) (built : InitializedRegistry poseidon job.registry)
    (depth : ContractDepth job.registry.metadata) {ranges : List (List EvmLog × UInt64)}
    (holds : HoldsOperations poseidon job.registry operations database)
    (run : indexRanges poseidon job ranges database = .ok database') :
    HoldsOperations poseidon job.registry
      (operations ++ (rangeEvents job ranges).map eventOperation) database' := by
  induction ranges generalizing operations database with
  | nil =>
      obtain rfl := Except.ok.inj run
      rw [rangeEvents, List.flatMap_nil]
      simpa [handledEvents] using holds
  | cons range ranges ih =>
      obtain ⟨logs, block⟩ := range
      rw [MerkleProofService.indexRanges, except_bind_eq_ok] at run
      obtain ⟨batch, first, rest⟩ := run
      rw [rangeEvents_cons, List.map_append, ← List.append_assoc]
      exact ih (holds.handleLogs spec built depth first) rest

end Ranges

/-! ### Where the events land -/

open ZkCertificateRegistryJob (leafIndexOf)

/-- The event's leaf is provable at the index the event carries. -/
def LandsAt (poseidon : PoseidonHash) (reg : ZKCertificateRegistry) (database : Database)
    (event : CertificateProcessed) : Prop :=
  ∃ proof,
    Read.evalOn database
      (reg.sparseTree.createProof poseidon (leafIndexOf event.leafIndex)) = .ok proof ∧
    proof.index.toNat = event.leafIndex.toNat ∧
    proof.leaf = event.zkCertificateLeafHash ∧
    Read.evalOn database (reg.sparseTree.getRoot poseidon) = .ok proof.root ∧
    VerifiesAgainst poseidon proof.leaf proof.path proof.index proof.root

/-- An addition of `events`, with the events after it, none of which revokes it. -/
def Standing (events : List CertificateProcessed) (event : CertificateProcessed)
    (later : List CertificateProcessed) : Prop :=
  (∃ earlier, events = earlier ++ event :: later) ∧ event.operation = 0 ∧
    ∀ other ∈ later, ¬ (other.operation = 1 ∧ other.leafIndex = event.leafIndex ∧
      other.zkCertificateLeafHash = event.zkCertificateLeafHash)

/-- Only events of the tree were committed, each standing addition landed at its own leaf, and the
entry of its value, unless a later event carries the value too, names that leaf. -/
def EachLands (poseidon : PoseidonHash) (reg : ZKCertificateRegistry) (database : Database)
    (events : List CertificateProcessed) : Prop :=
  (∀ event ∈ events, event.leafIndex.toNat < 2 ^ reg.metadata.depth.toNat) ∧
    ∀ event later, Standing events event later →
      LandsAt poseidon reg database event ∧
      ((∀ other ∈ later, other.zkCertificateLeafHash ≠ event.zkCertificateLeafHash) →
        ∃ index, Read.evalOn database
          (reg.leafView.getLeafIndex event.zkCertificateLeafHash) = .ok index ∧
          index.toNat = event.leafIndex.toNat)

/-- What an event leaves at its leaf. -/
def leafLeftBy (emptyValue : U256) (event : CertificateProcessed) : U256 :=
  if event.operation = 0 then event.zkCertificateLeafHash else emptyValue

/-- What the last event with a leaf index leaves there. -/
def leafLeft (emptyValue : U256) : List CertificateProcessed → U256 → Option U256
  | [], _ => none
  | event :: events, leafIndex =>
      (leafLeft emptyValue events leafIndex).or
        (if event.leafIndex = leafIndex then some (leafLeftBy emptyValue event) else none)

/-- The events are of the tree, no other event takes the leaf of a standing addition, and its value
is not a zero beside another empty leaf. -/
def KeepLeaves (metadata : Metadata) (events : List CertificateProcessed) : Prop :=
  (∀ event ∈ events, event.leafIndex.toNat < 2 ^ metadata.depth.toNat) ∧
    ∀ event later, Standing events event later →
      leafLeft metadata.emptyValue events event.leafIndex = some event.zkCertificateLeafHash ∧
      (event.zkCertificateLeafHash ≠ 0 ∨ event.zkCertificateLeafHash = metadata.emptyValue)

section Events

variable {emptyValue : U256} {events : List CertificateProcessed}

theorem leafLeft_eq_none {leafIndex : U256} :
    leafLeft emptyValue events leafIndex = none ↔
      ∀ event ∈ events, event.leafIndex ≠ leafIndex := by
  induction events with
  | nil => simp [leafLeft]
  | cons event events ih =>
      rw [leafLeft, Option.or_eq_none_iff, ih, List.forall_mem_cons, and_comm]
      simp

/-- What is left at a leaf is left by the last event with its index. -/
theorem leafLeft_last {leafIndex value : U256}
    (left : leafLeft emptyValue events leafIndex = some value) :
    ∃ earlier event later, events = earlier ++ event :: later ∧ event.leafIndex = leafIndex ∧
      (∀ other ∈ later, other.leafIndex ≠ leafIndex) ∧ leafLeftBy emptyValue event = value := by
  induction events with
  | nil => cases left
  | cons event events ih =>
      rw [leafLeft] at left
      cases rest : leafLeft emptyValue events leafIndex with
      | some other =>
          rw [rest, Option.some_or] at left
          obtain ⟨earlier, last, later, rfl, same, fresh, value⟩ := ih (rest.trans left)
          exact ⟨event :: earlier, last, later, rfl, same, fresh, value⟩
      | none =>
          rw [rest, Option.none_or] at left
          by_cases here : event.leafIndex = leafIndex
          · rw [if_pos here] at left
            exact ⟨[], event, events, rfl, here, leafLeft_eq_none.mp rest, Option.some.inj left⟩
          · rw [if_neg here] at left
            cases left

/-- The events of a tree write its slots as they leave its leaves. -/
theorem lastWrite_eq_leafLeft (emptyValue : U256) {bits : Nat} (narrow : bits ≤ 32)
    (inRange : ∀ event ∈ events, event.leafIndex.toNat < 2 ^ bits) {leafIndex : U256}
    (here : leafIndex.toNat < 2 ^ bits) :
    lastWrite (eventLeaves emptyValue events) (leafIndexOf leafIndex) =
      leafLeft emptyValue events leafIndex := by
  have fits : ∀ {index : U256}, index.toNat < 2 ^ bits → index.toNat < 2 ^ 32 :=
    fun small => Nat.lt_of_lt_of_le small (Nat.pow_le_pow_right (by decide) narrow)
  induction events with
  | nil => rfl
  | cons event events ih =>
      rw [List.forall_mem_cons] at inRange
      have same : leafIndexOf event.leafIndex = leafIndexOf leafIndex ↔
          event.leafIndex = leafIndex := by
        rw [← UInt32.toNat_inj, toNat_leafIndexOf_of_lt (fits inRange.1),
          toNat_leafIndexOf_of_lt (fits here), BitVec.toNat_inj]
      rw [lastWrite_eventLeaves_cons, ih inRange.2, leafLeft, leafLeftBy]
      simp only [same]

/-- Events that do not carry a value leave its entry alone. -/
theorem lastEntry_events_eq_none {value : U256}
    (away : ∀ event ∈ events, event.zkCertificateLeafHash ≠ value) :
    lastEntry (events.map eventOperation) value = none := by
  induction events with
  | nil => rfl
  | cons event events ih =>
      rw [List.forall_mem_cons] at away
      rw [List.map_cons, lastEntry, ih away.2, Option.none_or]
      exact if_neg away.1

/-- If standing additions of zero need a zero empty leaf, every zero that is left does. -/
theorem emptyValue_of_zero_left {leafIndex : U256}
    (zeros : ∀ event later, Standing events event later → event.zkCertificateLeafHash = 0 →
      emptyValue = 0)
    (left : leafLeft emptyValue events leafIndex = some 0) : emptyValue = 0 := by
  obtain ⟨earlier, event, later, rfl, rfl, fresh, value⟩ := leafLeft_last left
  rw [leafLeftBy] at value
  by_cases addition : event.operation = 0
  · rw [if_pos addition] at value
    exact zeros event later ⟨⟨earlier, rfl⟩, addition, fun other member revokes =>
      fresh other member revokes.2.1⟩ value
  · rwa [if_neg addition] at value

end Events

section Lands

variable {poseidon : PoseidonHash} {reg : ZKCertificateRegistry} {database : Database}
variable {operations : List LeafOperation}

/-- The leaf of a proof is the leaf the storage shows. -/
theorem createProof_leaf {tree : SparseMerkleTree} {index : TreeLeafIndex} {proof : MerkleProof}
    (created : Read.evalOn database (tree.createProof poseidon index) = .ok proof) :
    Read.evalOn database (tree.getLeafFromStorage poseidon 0 index) = .ok proof.leaf := by
  simp only [SparseMerkleTree.createProof, Program.bind_eq, Read.evalOn_bind, Read.evalOn_wrapf,
    except_bind_eq_ok, except_mapError_eq_ok] at created
  obtain ⟨leaf, read, path, _, root, _, returned⟩ := created
  obtain rfl := Except.ok.inj returned
  exact read

/-- A slot shows the last value written, or the empty leaf where that is a zero. -/
theorem HoldsOperations.read_leaf (holds : HoldsOperations poseidon reg operations database)
    (built : InitializedRegistry poseidon reg)
    {index : TreeLeafIndex} {value shown : U256}
    (written : lastWrite (operationLeaves reg.metadata.emptyValue operations) index = some value)
    (read : Read.evalOn database (reg.sparseTree.getLeafFromStorage poseidon 0 index) =
      .ok shown) :
    shown = if value = 0 then reg.metadata.emptyValue else value := by
  rw [evalOn_getLeafFromStorage_stored built.tree.getter (Nat.zero_le _), holds.leaves,
    written] at read
  by_cases zero : value = 0
  · simp only [Option.bind_some, if_pos zero] at read ⊢
    rw [getEmptyBranchValue_ground built.tree.cacheSound read, built.emptyLeaf_eq]
  · simp only [Option.bind_some, if_neg zero] at read ⊢
    exact (Except.ok.inj read).symm

/-- If no slot was lost, the last value written to a slot of the tree is provable there. -/
theorem HoldsOperations.provable (holds : HoldsOperations poseidon reg operations database)
    (built : InitializedRegistry poseidon reg)
    (positive : 1 ≤ reg.metadata.depth.toNat) {leaf : TreeLeafIndex}
    (inRange : leaf.toNat < 2 ^ reg.metadata.depth.toNat) {value : U256}
    (written : lastWrite (operationLeaves reg.metadata.emptyValue operations) leaf = some value)
    (kept : ∀ index, ¬ LostLeaf reg.metadata.emptyValue
      (operationLeaves reg.metadata.emptyValue operations) index) :
    ∃ proof,
      Read.evalOn database (reg.sparseTree.createProof poseidon leaf) = .ok proof ∧
      proof.index = leaf ∧ proof.leaf = value ∧
      Read.evalOn database (reg.sparseTree.getRoot poseidon) = .ok proof.root ∧
      VerifiesAgainst poseidon proof.leaf proof.path proof.index proof.root := by
  rw [← built.depth_eq] at positive inRange
  have dirty : leaf.toNat ∈
      dirtyLeaves (operationLeaves reg.metadata.emptyValue operations) :=
    lastWrite_isSome.mp (Option.isSome_of_eq_some written)
  have reads : ReadsUp poseidon reg.sparseTree database
      (readNodes poseidon reg.sparseTree database) leaf := by
    intro level index below half
    obtain ⟨node, read⟩ := holds.read level index below ⟨leaf.toNat, dirty, half.symm⟩
      fun _ => kept index
    rw [readNodes_of_ok read]
    exact read
  have leafRead := reads 0 leaf positive (by rw [show (0 : TreeLevel).toNat = 0 from rfl]; simp)
  have rootRead : Read.evalOn database (reg.sparseTree.getRoot poseidon) =
      .ok (readNodes poseidon reg.sparseTree database reg.sparseTree.depth.toNat 0) := by
    have inner : reg.sparseTree.depth ≠ 0 := by
      intro zero
      rw [zero] at positive
      cases positive
    obtain ⟨root, stored⟩ := Option.isSome_iff_exists.mp (holds.shown reg.sparseTree.depth 0 inner
      (Nat.le_refl _) ⟨leaf.toNat, dirty, Nat.div_eq_of_lt inRange⟩)
    have read : Read.evalOn database (reg.sparseTree.getRoot poseidon) = .ok root := by
      rw [SparseMerkleTree.getRoot, evalOn_getLeafFromStorage_stored built.tree.getter
        (Nat.le_refl _), stored]
    have node := readNodes_of_ok read
    rw [show (0 : TreeLeafIndex).toNat = 0 from rfl] at node
    rw [node]
    exact read
  refine ⟨_, evalOn_createProof_of_reads reads leafRead rootRead, rfl, ?_, rootRead, ?_⟩
  · have shown := holds.read_leaf built written leafRead
    refine Eq.trans shown ?_
    by_cases zero : value = 0
    · subst zero
      rw [if_pos rfl]
      by_contra other
      exact kept leaf ⟨written, other⟩
    · rw [if_neg zero]
  · have hashed : HashedUp (calculateHash poseidon) (readNodes poseidon reg.sparseTree database)
        reg.sparseTree.depth.toNat 0 leaf.toNat := by
      intro step small
      obtain ⟨level, index, sameLevel, sameIndex⟩ := exists_position small.le
        (Nat.lt_of_le_of_lt (Nat.div_le_self _ (2 ^ step)) leaf.toNat_lt)
      have half : index.toNat / 2 = leaf.toNat / 2 ^ (step + 1) := by
        rw [sameIndex, Nat.div_div_eq_div_mul, pow_succ]
      have node := holds.hashed level index (by omega)
        ⟨leaf.toNat, dirty, by rw [half, sameLevel]⟩ fun _ child _ => kept child
      rw [half, sameLevel] at node
      rw [zero_add]
      exact node
    have folded := hashed.foldPath_siblings
    rw [zero_add, Nat.div_eq_of_lt inRange] at folded
    exact folded

/-- The value of a standing addition that landed is what the slot shows. -/
theorem LandsAt.leaf_eq {events : List CertificateProcessed} {event : CertificateProcessed}
    {later : List CertificateProcessed}
    (holds : HoldsOperations poseidon reg (events.map eventOperation) database)
    (built : InitializedRegistry poseidon reg)
    (shallow : reg.metadata.depth.toNat ≤ 32)
    (inRange : ∀ event ∈ events, event.leafIndex.toNat < 2 ^ reg.metadata.depth.toNat)
    (standing : Standing events event later) (lands : LandsAt poseidon reg database event) :
    ∃ value, leafLeft reg.metadata.emptyValue events event.leafIndex = some value ∧
      event.zkCertificateLeafHash = if value = 0 then reg.metadata.emptyValue else value := by
  obtain ⟨earlier, rfl⟩ := standing.1
  have member : event ∈ earlier ++ event :: later :=
    List.mem_append_right _ List.mem_cons_self
  obtain ⟨proof, created, _, leaf, _, _⟩ := lands
  cases left : leafLeft reg.metadata.emptyValue (earlier ++ event :: later) event.leafIndex with
  | none => exact absurd rfl (leafLeft_eq_none.mp left event member)
  | some value =>
      have written := lastWrite_eq_leafLeft reg.metadata.emptyValue shallow inRange
        (inRange event member)
      rw [left] at written
      exact ⟨value, rfl, leaf ▸ holds.read_leaf built written (createProof_leaf created)⟩

/-- What landed was kept by the events. -/
theorem EachLands.keepLeaves {events : List CertificateProcessed}
    (each : EachLands poseidon reg database events)
    (holds : HoldsOperations poseidon reg (events.map eventOperation) database)
    (built : InitializedRegistry poseidon reg)
    (shallow : reg.metadata.depth.toNat ≤ 32) : KeepLeaves reg.metadata events := by
  obtain ⟨inRange, lands⟩ := each
  have zeros : ∀ event later, Standing events event later → event.zkCertificateLeafHash = 0 →
      reg.metadata.emptyValue = 0 := by
    intro event later standing zero
    obtain ⟨value, _, leaf⟩ :=
      (lands event later standing).1.leaf_eq holds built shallow inRange standing
    rw [zero] at leaf
    by_cases empty : value = 0
    · rw [if_pos empty] at leaf
      exact leaf.symm
    · rw [if_neg empty] at leaf
      exact absurd leaf.symm empty
  refine ⟨inRange, fun event later standing => ?_⟩
  obtain ⟨value, left, leaf⟩ :=
    (lands event later standing).1.leaf_eq holds built shallow inRange standing
  by_cases zero : value = 0
  · subst zero
    rw [if_pos rfl] at leaf
    have empty := emptyValue_of_zero_left zeros left
    exact ⟨by rw [left, leaf, empty], Or.inr leaf⟩
  · rw [if_neg zero] at leaf
    exact ⟨by rw [left, leaf], Or.inl (leaf ▸ zero)⟩

/-- Events that keep the leaves of a tree lose no slot. -/
theorem KeepLeaves.notLost {events : List CertificateProcessed}
    (keep : KeepLeaves reg.metadata events) (shallow : reg.metadata.depth.toNat ≤ 32)
    (index : TreeLeafIndex) :
    ¬ LostLeaf reg.metadata.emptyValue (eventLeaves reg.metadata.emptyValue events) index := by
  obtain ⟨inRange, keeps⟩ := keep
  have zeros : ∀ event later, Standing events event later → event.zkCertificateLeafHash = 0 →
      reg.metadata.emptyValue = 0 := fun event later standing zero =>
    ((keeps event later standing).2.resolve_left fun nonzero => nonzero zero).symm.trans zero
  rintro ⟨written, nonzero⟩
  have somewhere : ¬ ∀ event ∈ events, leafIndexOf event.leafIndex ≠ index := fun away => by
    rw [lastWrite_eventLeaves_eq_none.mpr away] at written
    cases written
  push Not at somewhere
  obtain ⟨event, member, rfl⟩ := somewhere
  rw [lastWrite_eq_leafLeft _ shallow inRange (inRange event member)] at written
  exact nonzero (emptyValue_of_zero_left zeros written)

/-- Events that keep the leaves of a tree land. -/
theorem KeepLeaves.eachLands {events : List CertificateProcessed}
    (keep : KeepLeaves reg.metadata events)
    (holds : HoldsOperations poseidon reg (events.map eventOperation) database)
    (built : InitializedRegistry poseidon reg)
    (depth : ContractDepth reg.metadata) : EachLands poseidon reg database events := by
  have kept := keep.notLost depth.shallow
  obtain ⟨inRange, keeps⟩ := keep
  refine ⟨inRange, fun event later standing => ?_⟩
  obtain ⟨earlier, same⟩ := standing.1
  have member : event ∈ events := same ▸ List.mem_append_right _ List.mem_cons_self
  have cut : (leafIndexOf event.leafIndex).toNat = event.leafIndex.toNat :=
    toNat_leafIndexOf_of_lt (Nat.lt_of_lt_of_le (inRange event member)
      (Nat.pow_le_pow_right (by decide) depth.shallow))
  have written := lastWrite_eq_leafLeft reg.metadata.emptyValue depth.shallow inRange
    (inRange event member)
  rw [(keeps event later standing).1] at written
  refine ⟨?_, fun fresh => ?_⟩
  · obtain ⟨proof, created, sameIndex, leaf, root, verifies⟩ := holds.provable built
      depth.positive (cut ▸ inRange event member) written kept
    exact ⟨proof, created, by rw [sameIndex, cut], leaf, root, verifies⟩
  · refine ⟨leafIndexOf event.leafIndex, ?_, cut⟩
    have entry : database.lookup (makeLeafIndexKey reg.leafView.registryIndex
        event.zkCertificateLeafHash) =
          (some (leafIndexOf event.leafIndex)).map LeafView.leafIndexBytes := by
      rw [holds.entries, same, List.map_append, lastEntry_append, List.map_cons, lastEntry,
        lastEntry_events_eq_none fresh]
      simp [eventOperation, standing.2.1]
    exact LeafView.evalOn_getLeafIndex entry

end Lands

/-- After any run of commits from the empty database each standing addition is provable at the
index of its event, and events beside the tree were refused, exactly if the events keep the leaves
of a tree. -/
theorem events_land_iff {poseidon : PoseidonHash} {job : ZkCertificateRegistryJob}
    (spec : PoseidonSpec poseidon) (built : InitializedRegistry poseidon job.registry)
    (depth : ContractDepth job.registry.metadata) {ranges : List (List EvmLog × UInt64)}
    {database : Database} (run : indexRanges poseidon job ranges ∅ = .ok database) :
    EachLands poseidon job.registry database (rangeEvents job ranges) ↔
      KeepLeaves job.registry.metadata (rangeEvents job ranges) := by
  have holds := HoldsOperations.indexRanges spec built depth holdsOperations_empty run
  rw [List.nil_append] at holds
  exact ⟨fun each => each.keepLeaves holds built depth.shallow,
    fun keep => keep.eachLands holds built depth⟩

/-- Two additions, then one of them is revoked by the next range. -/
def revokingRanges : List (List EvmLog × UInt64) :=
  [([contractLog 0 7 1, contractLog 0 9 2], 1), ([contractLog 1 7 1], 2)]

theorem rangeEvents_revoking : rangeEvents contractJob revokingRanges =
    [⟨7, 1, 0⟩, ⟨9, 2, 0⟩, ⟨7, 1, 1⟩] := by decide

theorem keepLeaves_revoking :
    KeepLeaves smallRegistry.metadata [⟨7, 1, 0⟩, ⟨9, 2, 0⟩, ⟨7, 1, 1⟩] := by
  refine ⟨by decide, ?_⟩
  rintro event later ⟨⟨earlier, same⟩, addition, standing⟩
  rcases earlier with _ | ⟨_, _ | ⟨_, _ | ⟨_, rest⟩⟩⟩
  · obtain ⟨rfl, rfl⟩ := List.cons.inj same
    exact absurd (standing ⟨7, 1, 1⟩ (by simp)) (by decide)
  · obtain ⟨_, same⟩ := List.cons.inj same
    obtain ⟨rfl, rfl⟩ := List.cons.inj same
    exact ⟨by decide, by decide⟩
  · obtain ⟨_, same⟩ := List.cons.inj same
    obtain ⟨_, same⟩ := List.cons.inj same
    obtain ⟨rfl, rfl⟩ := List.cons.inj same
    exact absurd addition (by decide)
  · simp at same

theorem events_land_iff_revoking :
    ∃ database, indexRanges fieldHash contractJob revokingRanges ∅ = .ok database ∧
      EachLands fieldHash smallRegistry database (rangeEvents contractJob revokingRanges) := by
  have returns : (indexRanges fieldHash contractJob revokingRanges ∅).isOk = true := by decide
  cases run : indexRanges fieldHash contractJob revokingRanges ∅ with
  | error err =>
      rw [run] at returns
      cases returns
  | ok database =>
      refine ⟨database, rfl, (events_land_iff fieldHash_spec smallRegistry_built
        smallRegistry_contract.toContractDepth run).mpr ?_⟩
      rw [rangeEvents_revoking]
      exact keepLeaves_revoking

/-- The index `2^32 + 1` is cut to 1: its event is accepted by a tree of four leaves and takes the
leaf of the value 7, which was never revoked. -/
theorem cut_index_takes_leaf :
    ∃ database proof,
      indexRanges fieldHash contractJob
        [([contractLog 0 7 1, contractLog 0 8 (2 ^ 32 + 1)], 1)] ∅ = .ok database ∧
      Read.evalOn database (smallRegistry.leafView.getLeafIndex 7) = .ok 1 ∧
      Read.evalOn database (smallRegistry.leafView.getLeafIndex 8) = .ok 1 ∧
      Read.evalOn database (smallRegistry.sparseTree.createProof fieldHash 1) = .ok proof ∧
      proof.leaf = 8 :=
  ⟨_, _, rfl, by decide, by decide, rfl, by decide⟩

end MerkleProofService
