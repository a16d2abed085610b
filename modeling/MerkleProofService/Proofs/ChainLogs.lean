/-
Module: MerkleProofService.Proofs.ChainLogs
Layer: Proofs
Purpose: The chain the indexer follows: the logs of every block, what a filter for a range returns,
  the ranges the loop asks for, and the operations the job makes of the logs of a certificate
  registry.
Imports: Indexer.IndexLogs, Proofs.Replay
Trusted boundary: Chain.logs, the documented behaviour of FilterLogs; CertificateLog, the logs the
  registry contract emits
Main exports: Chain, Chain.span, Chain.logs, Chain.span_append, RangeFits, rangeFits_iff,
  RangeFits.forward, CertificateLog, CertificateChain, logOperations, handleAll_eq, handleLogs_spec,
  smallChain
-/
import MerkleProofService.Indexer.IndexLogs
import MerkleProofService.Proofs.Replay

namespace MerkleProofService

open Library

/-! ### The chain -/

/-- The logs of the contract in every block of the chain. -/
abbrev Chain := Nat → List EvmLog

/-- The logs of the blocks from `first` on and before `stop`, in order. -/
def Chain.span (chain : Chain) (first stop : Nat) : List EvmLog :=
  (List.range' first (stop - first)).flatMap chain

/-- What `FilterLogs` returns for a range: the logs of its blocks in order, none for a range that
is turned around. -/
def Chain.logs (chain : Chain) (fromBlock toBlock : Nat) : List EvmLog :=
  chain.span fromBlock (toBlock + 1)

namespace Chain

variable {chain : Chain} {first middle stop : Nat}

theorem span_append (low : first ≤ middle) (high : middle ≤ stop) :
    chain.span first stop = chain.span first middle ++ chain.span middle stop := by
  have cut : stop - first = (middle - first) + (stop - middle) := by omega
  have joint : first + (middle - first) = middle := Nat.add_sub_cancel' low
  unfold span
  rw [cut, ← List.range'_append_1, joint, List.flatMap_append]

theorem span_self (block : Nat) : chain.span block block = [] := by
  rw [span, Nat.sub_self]
  rfl

theorem span_succ (low : first ≤ stop) :
    chain.span first (stop + 1) = chain.span first stop ++ chain stop := by
  rw [span_append low (Nat.le_succ stop)]
  congr 1
  simp [span]

theorem mem_span {log : EvmLog} (member : log ∈ chain.span first stop) :
    ∃ block, first ≤ block ∧ block < stop ∧ log ∈ chain block := by
  rcases List.mem_flatMap.mp member with ⟨block, inRange, here⟩
  rw [List.mem_range'_1] at inRange
  exact ⟨block, inRange.1, by omega, here⟩

end Chain

/-! ### Ranges of the loop -/

/-- Neither `fromBlock+MaxBlocksDistance-1` wraps nor the block after the range, which is the
smaller one of `fromBlock+MaxBlocksDistance` and `currentBlock+1`. -/
def RangeFits (config : Config) (loop : Loop) : Prop :=
  loop.fromBlock.toNat + config.maxBlocksDistance.toNat ≤ 2 ^ 64 ∧
    min (loop.fromBlock.toNat + config.maxBlocksDistance.toNat) (loop.currentBlock.toNat + 1) <
      2 ^ 64

instance (config : Config) (loop : Loop) : Decidable (RangeFits config loop) :=
  inferInstanceAs (Decidable (_ ∧ _))

section Ranges

variable {config : Config} {loop : Loop}

theorem toNat_min (first second : UInt64) :
    (min first second).toNat = min first.toNat second.toNat := by
  change (if first ≤ second then first else second).toNat = _
  rw [min_def, apply_ite UInt64.toNat]
  exact if_congr UInt64.le_iff_toNat_le rfl rfl

theorem toBlock_le_currentBlock (config : Config) (loop : Loop) :
    (loop.toBlock config).toNat ≤ loop.currentBlock.toNat := by
  rw [Loop.toBlock, toNat_min]
  exact Nat.min_le_right _ _

theorem toNat_ne_zero {number : UInt64} (nonzero : number ≠ 0) : number.toNat ≠ 0 :=
  fun zero => nonzero (UInt64.toNat_inj.mp zero)

theorem toNat_toBlock (sum : loop.fromBlock.toNat + config.maxBlocksDistance.toNat ≤ 2 ^ 64)
    (positive : config.maxBlocksDistance ≠ 0) :
    (loop.toBlock config).toNat =
      min (loop.fromBlock.toNat + config.maxBlocksDistance.toNat - 1) loop.currentBlock.toNat := by
  have nonzero := toNat_ne_zero positive
  have last : (loop.fromBlock + config.maxBlocksDistance - 1).toNat =
      loop.fromBlock.toNat + config.maxBlocksDistance.toNat - 1 := by
    rw [UInt64.toNat_sub, UInt64.toNat_add]
    change (2 ^ 64 - 1 + _) % 2 ^ 64 = _
    omega
  rw [Loop.toBlock, toNat_min, last]

/-- The block after the range, in terms of the range. -/
theorem rangeFits_iff (positive : config.maxBlocksDistance ≠ 0) :
    RangeFits config loop ↔
      loop.fromBlock.toNat + config.maxBlocksDistance.toNat ≤ 2 ^ 64 ∧
        (loop.toBlock config).toNat + 1 < 2 ^ 64 := by
  have nonzero := toNat_ne_zero positive
  refine and_congr_right fun sum => ?_
  rw [toNat_toBlock sum positive]
  omega

/-- A range that fits runs forward to at most the head, and the next one starts after it. -/
theorem RangeFits.forward (fits : RangeFits config loop)
    (positive : config.maxBlocksDistance ≠ 0) (within : loop.fromBlock ≤ loop.currentBlock) :
    loop.fromBlock.toNat ≤ (loop.toBlock config).toNat ∧
      (loop.toBlock config).toNat ≤ loop.currentBlock.toNat ∧
      (loop.toBlock config + 1).toNat = (loop.toBlock config).toNat + 1 := by
  have nonzero := toNat_ne_zero positive
  have low := UInt64.le_iff_toNat_le.mp within
  have reached := toNat_toBlock fits.1 positive
  obtain ⟨_, room⟩ := (rangeFits_iff positive).mp fits
  refine ⟨by omega, by omega, ?_⟩
  rw [UInt64.toNat_add]
  change (_ + 1) % 2 ^ 64 = _
  omega

/-- The head a range reaches is within the distance from its first block. -/
theorem RangeFits.last (fits : RangeFits config loop)
    (positive : config.maxBlocksDistance ≠ 0)
    (reached : (loop.toBlock config).toNat = loop.currentBlock.toNat) :
    loop.currentBlock.toNat < loop.fromBlock.toNat + config.maxBlocksDistance.toNat := by
  have nonzero := toNat_ne_zero positive
  have toBlock := toNat_toBlock fits.1 positive
  omega

theorem newEVMIndexer_positive (config : Config) :
    (newEVMIndexer config).maxBlocksDistance ≠ 0 := by
  change (if config.maxBlocksDistance = 0 then 10000 else config.maxBlocksDistance) ≠ 0
  by_cases zero : config.maxBlocksDistance = 0
  · rw [if_pos zero]
    decide
  · rw [if_neg zero]
    exact zero

end Ranges

/-! ### Logs of the registry contract -/

/-- The operation an event stands for. -/
def eventOperation (event : CertificateProcessed) : LeafOperation :=
  ⟨⟨ZkCertificateRegistryJob.leafIndexOf event.leafIndex, event.zkCertificateLeafHash⟩,
    if event.operation = 0 then .addition else .revocation⟩

/-- A `CertificateProcessed` log the contract emits: a leaf of the tree, a nonzero field element,
added or revoked. -/
structure CertificateLog (job : ZkCertificateRegistryJob) (log : EvmLog)
    (event : CertificateProcessed) : Prop where
  kept : log.removed = false
  topic : log.topics.head? = some job.eventCertificateProcessed
  parsed : job.parseCertificateProcessed log = .ok event
  index : event.leafIndex.toNat < 2 ^ job.registry.metadata.depth.toNat
  nonzero : event.zkCertificateLeafHash ≠ 0
  field : InField event.zkCertificateLeafHash
  operation : event.operation = 0 ∨ event.operation = 1

/-- Every log of the chain is one of the contract. -/
def CertificateChain (job : ZkCertificateRegistryJob) (chain : Chain) : Prop :=
  ∀ block, ∀ log ∈ chain block, ∃ event, CertificateLog job log event

theorem CertificateChain.span {job : ZkCertificateRegistryJob} {chain : Chain}
    (certificates : CertificateChain job chain) (first stop : Nat) :
    ∀ log ∈ chain.span first stop, ∃ event, CertificateLog job log event := by
  intro log member
  obtain ⟨block, _, _, here⟩ := Chain.mem_span member
  exact certificates block log here

/-- The operations of a list of logs, in order. -/
def logOperations (job : ZkCertificateRegistryJob) (logs : List EvmLog) : List LeafOperation :=
  logs.filterMap fun log => (job.parseCertificateProcessed log).toOption.map eventOperation

section Logs

variable {job : ZkCertificateRegistryJob} {log : EvmLog} {event : CertificateProcessed}
variable {logs : List EvmLog}

theorem logOperations_append (first second : List EvmLog) :
    logOperations job (first ++ second) = logOperations job first ++ logOperations job second :=
  List.filterMap_append

theorem handleEVMLog_eq (certificate : CertificateLog job log event)
    (buffer : OperationsBuffer) :
    job.handleEVMLog buffer log = .ok (buffer ++ [eventOperation event]) := by
  rcases certificate with ⟨kept, topic, parsed, _, _, _, operation⟩
  cases shape : log.topics with
  | nil =>
      rw [shape] at topic
      cases topic
  | cons first rest =>
      rw [shape] at topic
      have same : first = job.eventCertificateProcessed := Option.some.inj topic
      rw [ZkCertificateRegistryJob.handleEVMLog, kept, shape]
      simp only [Bool.false_eq_true, if_false, if_pos same,
        ZkCertificateRegistryJob.handleCertificateProcessedLog, parsed, except_mapError_ok,
        except_bind_ok]
      rcases operation with addition | revocation
      · rw [if_pos addition, eventOperation, if_pos addition]
        rfl
      · have different : ¬ event.operation = 0 := by
          rw [revocation]
          decide
        rw [if_neg different, if_pos revocation, eventOperation, if_neg different]
        rfl

/-- The job turns the logs of the contract into their operations. -/
theorem handleAll_eq (certificates : ∀ log ∈ logs, ∃ event, CertificateLog job log event)
    (buffer : OperationsBuffer) :
    job.handleAll logs buffer = .ok (buffer ++ logOperations job logs) := by
  induction logs generalizing buffer with
  | nil => exact congrArg Except.ok (List.append_nil buffer).symm
  | cons log logs ih =>
      obtain ⟨event, certificate⟩ := certificates log List.mem_cons_self
      have rest := ih fun other member => certificates other (List.mem_cons_of_mem log member)
      have head : logOperations job (log :: logs) =
          eventOperation event :: logOperations job logs := by
        rw [logOperations, List.filterMap_cons, certificate.parsed]
        rfl
      rw [ZkCertificateRegistryJob.handleAll, handleEVMLog_eq certificate, except_mapError_ok,
        except_bind_ok, rest, head, List.append_assoc]
      rfl

theorem mem_logOperations (certificates : ∀ log ∈ logs, ∃ event, CertificateLog job log event)
    {op : LeafOperation} (member : op ∈ logOperations job logs) :
    ∃ log event, CertificateLog job log event ∧ op = eventOperation event := by
  rcases List.mem_filterMap.mp member with ⟨log, here, made⟩
  obtain ⟨event, certificate⟩ := certificates log here
  rw [certificate.parsed] at made
  exact ⟨log, event, certificate, (Option.some.inj made).symm⟩

/-! ### The operations of certificate logs -/

/-- An index of 32 bits survives the cut. -/
theorem toNat_leafIndexOf_of_lt {leafIndex : U256} (fits : leafIndex.toNat < 2 ^ 32) :
    (ZkCertificateRegistryJob.leafIndexOf leafIndex).toNat = leafIndex.toNat := by
  rw [ZkCertificateRegistryJob.leafIndexOf, UInt64.toNat_toUInt32,
    UInt64.toNat_ofNat_of_lt' (Nat.lt_trans fits (by decide)), Nat.mod_eq_of_lt fits]

namespace CertificateLog

variable (certificate : CertificateLog job log event)

include certificate

theorem known : Known (eventOperation event) := by
  rcases certificate.operation with addition | revocation
  · exact Or.inl (if_pos addition)
  · exact Or.inr (if_neg (by rw [revocation]; decide))

/-- The leaf an operation leaves is the certificate or the empty leaf. -/
theorem newLeaf_eq (emptyValue : U256) :
    newLeaf emptyValue (eventOperation event) = event.zkCertificateLeafHash ∨
      newLeaf emptyValue (eventOperation event) = emptyValue := by
  rcases certificate.known with addition | revocation
  · left
    rw [newLeaf, addition]
    rfl
  · right
    rw [newLeaf, revocation]

/-- An index below `2^depth` survives the cut to 32 bits. -/
theorem toNat_leafIndexOf (shallow : job.registry.metadata.depth.toNat ≤ 32) :
    (ZkCertificateRegistryJob.leafIndexOf event.leafIndex).toNat = event.leafIndex.toNat :=
  toNat_leafIndexOf_of_lt
    (Nat.lt_of_lt_of_le certificate.index (Nat.pow_le_pow_right (by decide) shallow))

theorem committable (shallow : job.registry.metadata.depth.toNat ≤ 32) :
    Committable job.registry.metadata (eventOperation event) := by
  refine ⟨?_, ?_⟩
  · exact certificate.toNat_leafIndexOf shallow ▸ certificate.index
  · rcases certificate.newLeaf_eq job.registry.metadata.emptyValue with leaf | empty
    · exact Or.inl (leaf ▸ certificate.nonzero)
    · exact Or.inr empty

theorem inField (contract : ContractMetadata job.registry.metadata) :
    InField (newLeaf job.registry.metadata.emptyValue (eventOperation event)) := by
  rcases certificate.newLeaf_eq job.registry.metadata.emptyValue with leaf | empty
  · rw [leaf]
    exact certificate.field
  · rw [empty]
    exact contract.emptyField

end CertificateLog

theorem CertificateChain.committable {chain : Chain} (certificates : CertificateChain job chain)
    (shallow : job.registry.metadata.depth.toNat ≤ 32) {first stop : Nat} :
    ∀ op ∈ logOperations job (chain.span first stop), Committable job.registry.metadata op := by
  intro op member
  obtain ⟨log, event, certificate, rfl⟩ := mem_logOperations (certificates.span _ _) member
  exact certificate.committable shallow

/-- `handleLogs` on certificate logs commits their operations. -/
theorem handleLogs_spec {poseidon : PoseidonHash} {database : Database} {block : UInt64}
    {batch : Batch} (certificates : ∀ log ∈ logs, ∃ event, CertificateLog job log event)
    (run : Read.evalOn database (job.handleLogs poseidon logs block) = .ok batch) :
    ∃ queued record,
      Read.evalOn database
        (job.registry.commitOperations poseidon [] (logOperations job logs)) = .ok queued ∧
      job.jobCodec.encode ⟨job.jobDescriptor, block⟩ = .ok record ∧
      batch = queued ++ [.set (makeJobKey job.jobDescriptor) record] := by
  simp only [ZkCertificateRegistryJob.handleLogs, Program.bind_eq, Read.evalOn_bind,
    Read.evalOn_ofExcept, handleAll_eq certificates, except_bind_ok, Read.evalOn_wrapf,
    except_mapError_eq_ok] at run
  exact commitBatch_spec run

end Logs

/-! ### A small chain -/

/-- Certificates in blocks 1 and 2. -/
def smallChain : Chain
  | 1 => [⟨[1], [0, 1, 7], 1, false⟩, ⟨[1], [0, 3, 4], 1, false⟩]
  | 2 => [⟨[1], [1, 1, 7], 2, false⟩, ⟨[1], [0, 2, 9], 2, false⟩]
  | _ => []

/-- A small job whatever block it starts at. -/
def smallJobAt (startBlock : UInt64) : ZkCertificateRegistryJob :=
  { smallJob with jobDescriptor := ⟨0, contractZkCertificateRegistry, startBlock⟩ }

theorem certificateLog_small {startBlock : UInt64} {operation leafIndex leaf : UInt8}
    {blockNumber : UInt64} (known : operation = 0 ∨ operation = 1) (index : leafIndex.toNat < 4)
    (nonzero : BitVec.ofNat 256 leaf.toNat ≠ 0) :
    CertificateLog (smallJobAt startBlock) ⟨[1], [operation, leafIndex, leaf], blockNumber, false⟩
      ⟨BitVec.ofNat 256 leaf.toNat, BitVec.ofNat 256 leafIndex.toNat, operation⟩ where
  kept := rfl
  topic := rfl
  parsed := rfl
  index := by
    rw [BitVec.toNat_ofNat]
    exact Nat.lt_of_le_of_lt (Nat.mod_le _ _) index
  nonzero := nonzero
  field := by
    have small : leaf.toNat < fieldModulus := Nat.lt_trans leaf.toNat_lt (by decide)
    rw [InField, BitVec.toNat_ofNat]
    exact Nat.lt_of_le_of_lt (Nat.mod_le _ _) small
  operation := known

theorem smallChain_certificates (startBlock : UInt64) :
    CertificateChain (smallJobAt startBlock) smallChain := by
  intro block log member
  unfold smallChain at member
  split at member
  · rcases List.mem_pair.mp member with rfl | rfl
    · exact ⟨_, certificateLog_small (Or.inl rfl) (by decide) (by decide)⟩
    · exact ⟨_, certificateLog_small (Or.inl rfl) (by decide) (by decide)⟩
  · rcases List.mem_pair.mp member with rfl | rfl
    · exact ⟨_, certificateLog_small (Or.inr rfl) (by decide) (by decide)⟩
    · exact ⟨_, certificateLog_small (Or.inl rfl) (by decide) (by decide)⟩
  · cases member

end MerkleProofService
