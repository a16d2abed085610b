/-
Module: MerkleProofService.Proofs.AcceptedLogs
Layer: Proofs
Purpose: The commit after a list of accepted logs.  Acceptance looks at one log at a time, while
  the commit hashes what all of them leave in the tree; the module says exactly when it succeeds.
Imports: Proofs.ChainLogs, Proofs.CommitOrder, Proofs.InsertionReads
Trusted boundary: none
Main exports: handledEvents, handleAll_eq_ok, ReachableStore, EndsInField, accepted_commits_iff
-/
import MerkleProofService.Proofs.ChainLogs
import MerkleProofService.Proofs.CommitOrder
import MerkleProofService.Proofs.InsertionReads

namespace MerkleProofService

open Library
open LawfulBuffer (content Over)

/-! ### The events of accepted logs -/

/-- The event of a log the job handles; a removed log has none. -/
def handledEvent (job : ZkCertificateRegistryJob) (log : EvmLog) : Option CertificateProcessed :=
  if log.removed then none else (job.parseCertificateProcessed log).toOption

def handledEvents (job : ZkCertificateRegistryJob) (logs : List EvmLog) :
    List CertificateProcessed :=
  logs.filterMap (handledEvent job)

section Events

variable {job : ZkCertificateRegistryJob} {log : EvmLog} {logs : List EvmLog}

theorem handledEvents_cons (log : EvmLog) (logs : List EvmLog) :
    handledEvents job (log :: logs) = (handledEvent job log).toList ++ handledEvents job logs := by
  rw [handledEvents, List.filterMap_cons]
  cases handledEvent job log <;> rfl

theorem handledEvents_append (first second : List EvmLog) :
    handledEvents job (first ++ second) = handledEvents job first ++ handledEvents job second :=
  List.filterMap_append

/-- An accepted log appends the operation of its event, an addition or a revocation. -/
theorem handleEVMLog_eq_ok {buffer buffer' : OperationsBuffer}
    (accepted : job.handleEVMLog buffer log = .ok buffer') :
    buffer' = buffer ++ (handledEvent job log).toList.map eventOperation ∧
      ∀ event, handledEvent job log = some event → event.operation = 0 ∨ event.operation = 1 := by
  rw [ZkCertificateRegistryJob.handleEVMLog] at accepted
  rw [handledEvent]
  by_cases removed : log.removed = true
  · rw [if_pos removed] at accepted ⊢
    obtain rfl := Except.ok.inj accepted
    exact ⟨(List.append_nil buffer).symm, fun event none => by cases none⟩
  rw [if_neg removed] at accepted ⊢
  cases topics : log.topics with
  | nil =>
      rw [topics] at accepted
      cases accepted
  | cons topic rest =>
      rw [topics] at accepted
      dsimp only at accepted
      by_cases known : topic = job.eventCertificateProcessed
      · rw [if_pos known, except_mapError_eq_ok,
          ZkCertificateRegistryJob.handleCertificateProcessedLog, except_bind_eq_ok] at accepted
        rcases accepted with ⟨event, parsed, appended⟩
        rw [except_mapError_eq_ok] at parsed
        rw [parsed]
        by_cases addition : event.operation = 0
        · rw [if_pos addition] at appended
          obtain rfl := Except.ok.inj appended
          refine ⟨?_, fun other same => Or.inl (Option.some.inj same ▸ addition)⟩
          simp [Except.toOption, OperationsBuffer.appendAddition, eventOperation, addition]
        · by_cases revocation : event.operation = 1
          · rw [if_neg addition, if_pos revocation] at appended
            obtain rfl := Except.ok.inj appended
            refine ⟨?_, fun other same => Or.inr (Option.some.inj same ▸ revocation)⟩
            simp [Except.toOption, OperationsBuffer.appendRevocation, eventOperation, revocation]
          · rw [if_neg addition, if_neg revocation] at appended
            cases appended
      · rw [if_neg known] at accepted
        cases accepted

/-- Accepted logs leave the operations of their events in the buffer. -/
theorem handleAll_eq_ok {buffer operations : OperationsBuffer}
    (accepted : job.handleAll logs buffer = .ok operations) :
    operations = buffer ++ (handledEvents job logs).map eventOperation ∧
      ∀ event ∈ handledEvents job logs, event.operation = 0 ∨ event.operation = 1 := by
  induction logs generalizing buffer with
  | nil =>
      obtain rfl := Except.ok.inj accepted
      exact ⟨(List.append_nil buffer).symm, fun event member => by cases member⟩
  | cons log logs ih =>
      rw [ZkCertificateRegistryJob.handleAll, except_bind_eq_ok] at accepted
      rcases accepted with ⟨between, first, rest⟩
      obtain ⟨rfl, kind⟩ := handleEVMLog_eq_ok (except_mapError_eq_ok.mp first)
      obtain ⟨rfl, kinds⟩ := ih rest
      rw [handledEvents_cons, List.map_append, ← List.append_assoc]
      refine ⟨rfl, fun event member => ?_⟩
      rcases List.mem_append.mp member with here | later
      · exact kind event (Option.mem_toList.mp here)
      · exact kinds event later

theorem known_eventOperation (event : CertificateProcessed) : Known (eventOperation event) := by
  by_cases addition : event.operation = 0
  · exact Or.inl (if_pos addition)
  · exact Or.inr (if_neg addition)

theorem newLeaf_eventOperation (emptyValue : U256) (event : CertificateProcessed) :
    newLeaf emptyValue (eventOperation event) =
      if event.operation = 0 then event.zkCertificateLeafHash else emptyValue := by
  by_cases addition : event.operation = 0
  · rw [newLeaf, eventOperation, if_pos addition, if_pos addition]
  · rw [newLeaf, eventOperation, if_neg addition, if_neg addition]

end Events

/-! ### What the events leave -/

open ZkCertificateRegistryJob (leafIndexOf)

/-- Every addition of a value outside the field is followed by another event on its slot. -/
def EndsInField : List CertificateProcessed → Prop
  | [] => True
  | event :: later =>
      (event.operation = 0 → InField event.zkCertificateLeafHash ∨
        ∃ other ∈ later, leafIndexOf other.leafIndex = leafIndexOf event.leafIndex) ∧
      EndsInField later

instance decidableEndsInField : (events : List CertificateProcessed) →
    Decidable (EndsInField events)
  | [] => inferInstanceAs (Decidable True)
  | event :: later =>
      have := decidableEndsInField later
      inferInstanceAs (Decidable ((event.operation = 0 → _ ∨ _) ∧ EndsInField later))

/-- The leaves of events, in their order. -/
def eventLeaves (emptyValue : U256) (events : List CertificateProcessed) : List TreeLeaf :=
  operationLeaves emptyValue (events.map eventOperation)

section Leaves

variable {emptyValue : U256} {event : CertificateProcessed} {events : List CertificateProcessed}

theorem lastWrite_eventLeaves_cons (index : TreeLeafIndex) :
    lastWrite (eventLeaves emptyValue (event :: events)) index =
      (lastWrite (eventLeaves emptyValue events) index).or
        (if leafIndexOf event.leafIndex = index then
          some (if event.operation = 0 then event.zkCertificateLeafHash else emptyValue)
        else none) := by
  rw [← newLeaf_eventOperation]
  rfl

/-- A slot is written exactly by the events on it. -/
theorem lastWrite_eventLeaves_eq_none {index : TreeLeafIndex} :
    lastWrite (eventLeaves emptyValue events) index = none ↔
      ∀ event ∈ events, leafIndexOf event.leafIndex ≠ index := by
  induction events with
  | nil => simp [eventLeaves, operationLeaves, lastWrite]
  | cons event events ih =>
      rw [lastWrite_eventLeaves_cons, Option.or_eq_none_iff, ih, List.forall_mem_cons, and_comm]
      simp

theorem leavesInField_events (emptyField : InField emptyValue) :
    LeavesInField emptyValue (events.map eventOperation) ↔ EndsInField events := by
  change (∀ index value, lastWrite (eventLeaves emptyValue events) index = some value →
    InField value) ↔ _
  induction events with
  | nil => simp [eventLeaves, operationLeaves, lastWrite, EndsInField]
  | cons event events ih =>
      rw [EndsInField, ← ih]
      constructor
      · intro left
        refine ⟨fun addition => ?_, fun index value written => left index value ?_⟩
        · -- the value is left unless a later event is on the slot
          by_cases later : ∃ other ∈ events,
              leafIndexOf other.leafIndex = leafIndexOf event.leafIndex
          · exact Or.inr later
          · refine Or.inl (left (leafIndexOf event.leafIndex) _ ?_)
            have last : lastWrite (eventLeaves emptyValue events) (leafIndexOf event.leafIndex) =
                none := lastWrite_eventLeaves_eq_none.mpr fun other member same =>
              later ⟨other, member, same⟩
            rw [lastWrite_eventLeaves_cons, last, if_pos rfl, if_pos addition]
            rfl
        · rw [lastWrite_eventLeaves_cons, written]
          rfl
      · rintro ⟨first, rest⟩ index value written
        rw [lastWrite_eventLeaves_cons] at written
        cases last : lastWrite (eventLeaves emptyValue events) index with
        | some other =>
            rw [last] at written
            exact rest index value (last.trans written)
        | none =>
            rw [last, Option.none_or] at written
            by_cases here : leafIndexOf event.leafIndex = index
            · rw [if_pos here, Option.some.injEq] at written
              by_cases addition : event.operation = 0
              · rw [if_pos addition] at written
                rcases first addition with field | ⟨other, member, same⟩
                · exact written ▸ field
                · exact absurd (same.trans here)
                    (lastWrite_eventLeaves_eq_none.mp last other member)
              · rw [if_neg addition] at written
                exact written ▸ emptyField
            · rw [if_neg here] at written
              cases written

end Leaves

/-! ### Reachable databases -/

/-- The databases the job can find: it commits any operations, and in between others write what is
no node of its registry. -/
inductive ReachableStore (poseidon : PoseidonHash) (job : ZkCertificateRegistryJob) :
    Database → Prop where
  | empty : ReachableStore poseidon job ∅
  | commit {database : Database} {operations : List LeafOperation} {block : UInt64}
      {batch : Batch} : ReachableStore poseidon job database →
      Read.evalOn database (job.commitBatch poseidon operations block) = .ok batch →
      ReachableStore poseidon job (Store.write database batch)
  | foreign {database : Database} {batch : Batch} : ReachableStore poseidon job database →
      (∀ level index,
        lastEffect batch (makeLeafKey job.registry.leafView.registryIndex level index) = none) →
      ReachableStore poseidon job (Store.write database batch)

section Commits

variable {poseidon : PoseidonHash} {reg : ZKCertificateRegistry} {database : Database}
variable {operations : List LeafOperation} {batch : Batch}

/-- A strict hash lets a commit pass only if it leaves field elements. -/
theorem leavesInField_of_commit (strict : StrictPoseidonSpec poseidon)
    (built : InitializedRegistry poseidon reg) (positive : 1 ≤ reg.metadata.depth.toNat)
    (run : Read.evalOn database (reg.commitOperations poseidon [] operations) = .ok batch) :
    LeavesInField reg.metadata.emptyValue operations := by
  obtain ⟨queue, filled, _, inserts, _, _⟩ := commitOperations_parts built (fun _ _ => rfl) run
  have inserted := insertLeaves_inserted trivial inserts
  intro index value written
  have shown : overlay filled (readNodes poseidon reg.sparseTree database) 0 index.toNat =
      value := by
    rw [inserted.overlay_leaf, UInt32.ofNat_toNat, written]
    rfl
  have dirty : index.toNat ∈
      dirtyLeaves (operationLeaves reg.metadata.emptyValue operations) :=
    lastWrite_isSome.mp (Option.isSome_of_eq_some written)
  have hashed := inserted.hashed 0 (index.toNat / 2) (by rw [built.depth_eq]; omega)
    ⟨index.toNat, dirty, by rw [zero_add, pow_one]⟩
  rw [← shown]
  exact strict.child_field hashed

/-- Beside the nodes above its leaves a commit touches no node. -/
theorem commitOperations_untouched (built : InitializedRegistry poseidon reg)
    (run : Read.evalOn database (reg.commitOperations poseidon [] operations) = .ok batch)
    {level : TreeLevel} {index : TreeLeafIndex}
    (clean : ¬ Above (dirtyLeaves (operationLeaves reg.metadata.emptyValue operations))
      level.toNat index.toNat) :
    lastEffect batch (makeLeafKey reg.leafView.registryIndex level index) = none := by
  obtain ⟨queue, filled, _, inserts, pending, rfl⟩ :=
    commitOperations_parts built (fun _ _ => rfl) run
  have inserted := insertLeaves_inserted trivial inserts
  rw [pending.nodes, inserted.beside level index fun here => clean here.2]
  rfl

/-- What lies beside all leaf indexes of 32 bits. -/
theorem not_above_outer (leaves : List TreeLeaf) : ¬ Above (dirtyLeaves leaves) 32 1 := by
  rintro ⟨leaf, member, half⟩
  have bound := dirtyLeaves_fit leaves leaf member
  rw [Nat.div_eq_of_lt bound] at half
  cases half

/-- The table of empty branches exists for depths 1 to 254 only. -/
theorem depth_of_emptyBranch {tree : SparseMerkleTree} (cache : CacheSound poseidon tree)
    {level : TreeLevel} {value : U256}
    (answer : (tree.getEmptyBranchValue poseidon level).map Prod.fst = .ok value) :
    tree.depth.toNat < 255 := by
  obtain ⟨⟨_, filled⟩, answered, rfl⟩ := except_map_eq_ok.mp answer
  obtain ⟨levels, table, _, _⟩ := getEmptyBranchValue_eq_ok answered
  exact (calculateEmptyBranchHashes_eq_ok (emptyBranchTable_eq_ok cache table)).2.1

/-- At depth 255 only nothing can be committed: the walk to the root leaves the 32 bits of the
indexes, and beside it there is neither a node nor an empty branch. -/
theorem eq_nil_of_deep_commit (built : InitializedRegistry poseidon reg)
    (deep : reg.metadata.depth = 255)
    (unstored : storedLeaf database reg.leafView.registryIndex 32 1 = none)
    (run : Read.evalOn database (reg.commitOperations poseidon [] operations) = .ok batch) :
    operations = [] := by
  obtain ⟨queue, filled, _, inserts, _, _⟩ := commitOperations_parts built (fun _ _ => rfl) run
  have depth : reg.sparseTree.depth.toNat = 255 := by
    rw [built.depth_eq, deep]
    rfl
  have below : (32 : TreeLevel).toNat < reg.sparseTree.depth.toNat := by
    rw [depth]
    decide
  cases operations with
  | nil => rfl
  | cons op operations =>
      exfalso
      have above : Above (dirtyLeaves (operationLeaves reg.metadata.emptyValue
          (op :: operations))) ((32 : TreeLevel).toNat + 1) ((1 : TreeLeafIndex).toNat / 2) := by
        refine ⟨op.leaf.index.toNat, ⟨_, List.mem_cons_self, rfl⟩, ?_⟩
        exact Nat.div_eq_of_lt (Nat.lt_trans op.leaf.index.toNat_lt (by decide))
      have inserted := insertLeaves_inserted trivial inserts
      rcases insertLeaves_reads trivial inserts below above with shown | ⟨value, read⟩
      · rw [inserted.beside 32 1 fun here => not_above_outer _ here.2] at shown
        cases shown
      · rw [evalOn_getLeafFromStorage_stored built.tree.getter below.le, unstored] at read
        have shallow := depth_of_emptyBranch built.tree.cacheSound read
        omega

end Commits

/-! ### Commits of accepted logs -/

section Jobs

variable {poseidon : PoseidonHash} {job : ZkCertificateRegistryJob} {database : Database}
variable {operations : List LeafOperation} {batch : Batch} {block : UInt64}

/-- A batch without nodes of the registry leaves its nodes as they are. -/
theorem storedLeaf_foreign {registryIndex : RegistryIndex} {level : TreeLevel}
    {index : TreeLeafIndex}
    (foreign : lastEffect batch (makeLeafKey registryIndex level index) = none) :
    storedLeaf (Store.write database batch) registryIndex level index =
      storedLeaf database registryIndex level index := by
  rw [storedLeaf, storedLeaf, Store.lookup_write_of_none foreign]

/-- The record a job appends is no node. -/
theorem storedLeaf_commitBatch
    (run : Read.evalOn database (job.commitBatch poseidon operations block) = .ok batch) :
    ∃ queued,
      Read.evalOn database (job.registry.commitOperations poseidon [] operations) = .ok queued ∧
      ∀ registryIndex level index,
        storedLeaf (Store.write database batch) registryIndex level index =
          storedLeaf (Store.write database queued) registryIndex level index := by
  obtain ⟨queued, record, committed, _, rfl⟩ := commitBatch_spec run
  refine ⟨queued, committed, fun registryIndex level index => ?_⟩
  rw [Store.write_append]
  exact storedLeaf_foreign
    (lastEffect_record registryIndex _ record _ fun outside => outside.1 level index rfl)

/-- With a strict hash every reachable database holds field elements. -/
theorem ReachableStore.fieldNodes (reachable : ReachableStore poseidon job database)
    (strict : StrictPoseidonSpec poseidon) (built : InitializedRegistry poseidon job.registry)
    (positive : 1 ≤ job.registry.metadata.depth.toNat)
    (shallow : job.registry.metadata.depth ≠ 255)
    (emptyField : InField job.registry.metadata.emptyValue) :
    FieldNodes job.registry.leafView.registryIndex database := by
  induction reachable with
  | empty => exact fieldNodes_empty _
  | commit _ run ih =>
      obtain ⟨queued, committed, same⟩ := storedLeaf_commitBatch run
      have field := ih.commit strict.toPoseidonSpec built shallow emptyField
        (leavesInField_of_commit strict built positive committed) committed
      intro level index value found
      rw [same] at found
      exact field level index value found
  | foreign _ outside ih =>
      intro level index value found
      rw [storedLeaf_foreign (outside level index)] at found
      exact ih level index value found

/-- No reachable database holds a node beside all leaf indexes. -/
theorem ReachableStore.noOuterNode (reachable : ReachableStore poseidon job database)
    (built : InitializedRegistry poseidon job.registry) :
    storedLeaf database job.registry.leafView.registryIndex 32 1 = none := by
  induction reachable with
  | empty => rfl
  | commit _ run ih =>
      obtain ⟨queued, committed, same⟩ := storedLeaf_commitBatch run
      rw [same, storedLeaf_foreign
        (commitOperations_untouched built committed (not_above_outer _)), ih]
  | foreign _ outside ih => rw [storedLeaf_foreign (outside 32 1), ih]

/-- A tree without levels takes any leaves. -/
theorem commitOperations_flat {reg : ZKCertificateRegistry}
    (built : InitializedRegistry poseidon reg) (flat : reg.metadata.depth = 0)
    (known : ∀ op ∈ operations, Known op) :
    ∃ queued, Read.evalOn database (reg.commitOperations poseidon [] operations) = .ok queued := by
  refine commitOperations_of_inserts known fun queue => ?_
  obtain ⟨filled, first⟩ := setLeaves_ok (operationLeaves reg.metadata.emptyValue operations)
    (newBatchWithLeavesBuffer queue reg.metadata.index) database
  refine ⟨filled, ?_⟩
  have depth : reg.sparseTree.depth.toNat = 0 := by
    rw [built.depth_eq, flat]
    rfl
  rw [SparseMerkleTree.insertLeaves, Program.bind_eq, Read.evalOn_bind, first, except_bind_ok,
    depth]
  rfl

/-- The commit after accepted logs succeeds exactly if every addition of a value outside the field
was overwritten; a tree without levels hashes nothing, and one of depth 255 takes no event. -/
theorem accepted_commits_iff (strict : StrictPoseidonSpec poseidon)
    (codec : job.jobCodec.RoundTrips) (built : InitializedRegistry poseidon job.registry)
    (emptyField : InField job.registry.metadata.emptyValue)
    (reachable : ReachableStore poseidon job database) {logs : List EvmLog}
    (accepted : job.handleAll logs [] = .ok operations) (block : UInt64) :
    (∃ batch, Read.evalOn database (job.commitBatch poseidon operations block) = .ok batch) ↔
      handledEvents job logs = [] ∨ job.registry.metadata.depth = 0 ∨
        job.registry.metadata.depth ≠ 255 ∧ EndsInField (handledEvents job logs) := by
  obtain ⟨rfl, _⟩ := handleAll_eq_ok accepted
  rw [List.nil_append]
  have known : ∀ op ∈ (handledEvents job logs).map eventOperation, Known op := by
    intro op member
    obtain ⟨event, _, rfl⟩ := List.mem_map.mp member
    exact known_eventOperation event
  constructor
  · rintro ⟨batch, run⟩
    obtain ⟨queued, _, committed, _⟩ := commitBatch_spec run
    by_cases deep : job.registry.metadata.depth = 255
    · left
      exact List.map_eq_nil_iff.mp
        (eq_nil_of_deep_commit built deep (reachable.noOuterNode built) committed)
    by_cases flat : job.registry.metadata.depth = 0
    · exact Or.inr (Or.inl flat)
    have positive : 1 ≤ job.registry.metadata.depth.toNat := Nat.one_le_iff_ne_zero.mpr fun zero =>
      flat (UInt8.toNat_inj.mp zero)
    exact Or.inr (Or.inr ⟨deep, (leavesInField_events emptyField).mp
      (leavesInField_of_commit strict built positive committed)⟩)
  · intro condition
    suffices commits : ∃ queued, Read.evalOn database (job.registry.commitOperations poseidon []
        ((handledEvents job logs).map eventOperation)) = .ok queued by
      obtain ⟨queued, committed⟩ := commits
      exact commitBatch_of_operations codec committed block
    rcases condition with none | flat | ⟨shallow, ends⟩
    · rw [none]
      exact ⟨[], evalOn_commitOperations_nil job.registry []⟩
    · exact commitOperations_flat built flat known
    · by_cases flat : job.registry.metadata.depth = 0
      · exact commitOperations_flat built flat known
      have positive : 1 ≤ job.registry.metadata.depth.toNat :=
        Nat.one_le_iff_ne_zero.mpr fun zero => flat (UInt8.toNat_inj.mp zero)
      exact commitOperations_total_forest strict.toPoseidonSpec built shallow emptyField
        (reachable.fieldNodes strict built positive shallow emptyField) known
        ((leavesInField_events emptyField).mpr ends)

end Jobs

/-! ### A log that blocks -/

/-- The layout of the contract's event: the leaf hash and the guardian are topics, the words of the
data are the operation, the queue index and the leaf index. -/
def parseContractLog (log : EvmLog) : Except GoError CertificateProcessed :=
  match log.topics with
  | [_, leafHash, _] =>
      if log.data.length = 96 then
        .ok ⟨leafHash, BitVec.ofNat 256 (decodeBigEndian (log.data.drop 64)),
          UInt8.ofNat (decodeBigEndian (log.data.take 32))⟩
      else .error (.message "abi: cannot marshal in to go type")
  | _ => .error (.message "topic/field count mismatch")

def contractLog (operation : UInt8) (leafHash leafIndex : Nat) : EvmLog where
  topics := [1, BitVec.ofNat 256 leafHash, 0]
  data := bigEndian 32 operation.toNat ++ bigEndian 32 0 ++ bigEndian 32 leafIndex
  blockNumber := 1
  removed := false

/-- A small job that reads logs of the contract. -/
def contractJob : ZkCertificateRegistryJob :=
  { smallJob with parseCertificateProcessed := parseContractLog }

/-- The field modulus is added to slot 1, which is revoked later. -/
def overwrittenLogs : List EvmLog :=
  [contractLog 0 fieldModulus 1, contractLog 0 7 3, contractLog 1 9 1]

/-- A value outside the field that is overwritten in the same commit does no harm. -/
theorem accepted_commits_iff_overwritten :
    ∃ operations batch, contractJob.handleAll overwrittenLogs [] = .ok operations ∧
      Read.evalOn ∅ (contractJob.commitBatch fieldHash operations 1) = .ok batch := by
  have accepted : contractJob.handleAll overwrittenLogs [] =
      .ok ((handledEvents contractJob overwrittenLogs).map eventOperation) := by decide
  have ends : EndsInField (handledEvents contractJob overwrittenLogs) := by decide
  have shallow : contractJob.registry.metadata.depth ≠ 255 := by decide
  obtain ⟨batch, run⟩ := (accepted_commits_iff fieldHash_strict fixedCodec_roundTrips
    smallRegistry_built (by decide) ReachableStore.empty accepted 1).mpr
    (Or.inr (Or.inr ⟨shallow, ends⟩))
  exact ⟨_, batch, accepted, run⟩

/-- The job accepts an addition of the field modulus, and the commit after it fails. -/
theorem unhashable_log_blocks :
    ∃ operations, contractJob.handleAll [contractLog 0 fieldModulus 1] [] = .ok operations ∧
      (Read.evalOn ∅ (contractJob.commitBatch fieldHash operations 1)).isOk = false :=
  ⟨_, rfl, by decide⟩

end MerkleProofService
