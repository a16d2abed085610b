/-
Module: MerkleProofService.Proofs.ServedAnswers
Layer: Proofs
Purpose: From the chain to the client.  The jobs of all registries index their chains on one
  database, interleaved, with failures and crashes; the query server answers from that database.
  Whatever has happened, a request is answered for the slots of the contract at the block the job
  has recorded: a value that stands in a slot gets a proof of that slot, any other value none.
Imports: Query.Handlers, Proofs.FleetRuns, Proofs.ConcurrentRequests, Proofs.SlotSearch
Trusted boundary: ContractChain, the operations the registry contract can emit
Main exports: ContractChain, contractSlots, SlotsAt, RegistryState.answers_proof,
  ServiceSetting, fleet_serves_contract, fleet_serves_empty_slots
-/
import MerkleProofService.Query.Handlers
import MerkleProofService.Proofs.FleetRuns
import MerkleProofService.Proofs.ConcurrentRequests
import MerkleProofService.Proofs.SlotSearch

namespace MerkleProofService

open Library

/-! ### The slots of the contract -/

/-- The logs of the chain are those of a contract that adds new values to empty slots and revokes
the value a slot holds, from no value at the start block on. -/
structure ContractChain (job : ZkCertificateRegistryJob) (chain : Chain) : Prop where
  certificates : CertificateChain job chain
  wellFormed : ∀ stop, WellFormed job.registry.metadata (emptySlots job.registry.metadata)
    (logOperations job (chain.span job.jobDescriptor.startBlock.toNat stop))

/-- The slots after a block. -/
def contractSlots (job : ZkCertificateRegistryJob) (chain : Chain) (block : Nat) : Slots :=
  applyOperations job.registry.metadata.emptyValue (emptySlots job.registry.metadata)
    (logOperations job (chain.logs job.jobDescriptor.startBlock.toNat block))

/-- The slots of the contract as far as the job has indexed: those after the recorded block, or no
value before anything is recorded. -/
def SlotsAt (job : ZkCertificateRegistryJob) (chain : Chain) (database : Database)
    (slots : Slots) : Prop :=
  (database.lookup (makeJobKey job.jobDescriptor) = none ∧
      slots = emptySlots job.registry.metadata) ∨
    ∃ block, RecordedAt job database block ∧ slots = contractSlots job chain block.toNat

section Represented

variable {poseidon : PoseidonHash} {job : ZkCertificateRegistryJob} {chain : Chain}
variable {database : Database} {operations : List LeafOperation} {nodes : Nat → Nat → U256}

/-- What operations of the contract have left represents their slots. -/
theorem Replayed.registryState
    (replayed : Replayed poseidon job.registry database operations nodes)
    (wellFormed : WellFormed job.registry.metadata (emptySlots job.registry.metadata)
      operations) :
    RegistryState poseidon job.registry database nodes
      (applyOperations job.registry.metadata.emptyValue (emptySlots job.registry.metadata)
        operations)
      (applyEntries (fun _ => none) operations) where
  reads := replayed.reads
  consistent := replayed.consistent
  leaves index _ := by
    rw [replayed.leaves, applyOperations_eq_lastWrite]
    rfl
  outside index beyond := applyOperations_outside wellFormed.committable beyond
  bijective := by
    refine Bijective.applyAll ⟨fun value different index => ?_, rfl⟩ wellFormed
    exact ⟨fun found => (nomatch found), fun same => absurd same.symm different⟩
  entries := replayed.entries

/-- A settled job represents the slots of the contract. -/
theorem SettledJob.represents (spec : PoseidonSpec poseidon)
    (built : InitializedRegistry poseidon job.registry)
    (contract : ContractMetadata job.registry.metadata) (history : ContractChain job chain)
    (settled : SettledJob poseidon job chain database) :
    ∃ nodes slots position, SlotsAt job chain database slots ∧
      RegistryState poseidon job.registry database nodes slots position := by
  rcases settled with empty | ⟨block, indexed⟩
  · obtain ⟨nodes, replayed⟩ := replayed_empty spec built contract empty.registry
    exact ⟨nodes, _, _, Or.inl ⟨empty.record, rfl⟩, replayed.registryState trivial⟩
  · obtain ⟨nodes, replayed⟩ := indexed.registry
    exact ⟨nodes, _, _, Or.inr ⟨block, indexed.record, rfl⟩,
      replayed.registryState (history.wellFormed _)⟩

end Represented

/-! ### Requests -/

namespace Request

variable {α : Type} {database : Database} {onHead : Bool}

/-- The outcome of the computation is returned as a value, unless it is a panic. -/
theorem evalOn_tryRun (computation : Request α) :
    evalOn database onHead computation.tryRun =
      match evalOn database onHead computation with
      | .error (.panic reason) => .error (.panic reason)
      | outcome => .ok outcome := by
  have caught : evalOn database onHead computation.attempt =
      .ok (evalOn database onHead computation) := Program.evalWith_attempt _ computation
  rw [tryRun, evalOn_bind, caught, except_bind_ok]
  cases evalOn database onHead computation with
  | ok value => rfl
  | error err => cases err <;> rfl

end Request

section Server

variable {poseidon : PoseidonHash} {server : Server} {database : Database}
variable {reg : ZKCertificateRegistry} {nodes : Nat → Nat → U256} {slots : Slots}
variable {position : U256 → Option TreeLeafIndex}

/-- The opening of all handlers once the indexer is on the head. -/
theorem evalOn_registryOnHead {requested unknown : String}
    (hex : server.isHexAddress requested = true)
    (found : Read.evalOn database (server.registryService.zkCertificateRegistry
      (server.hexToAddress requested)) = .ok reg) :
    Request.evalOn database true (server.registryOnHead requested unknown) = .ok reg := by
  rw [Server.registryOnHead, hex]
  simp only [Bool.not_true, Bool.false_eq_true, if_false, Program.bind_eq, Request.evalOn_bind,
    Request.evalOn_tryRun, Request.evalOn_ofRead, found, except_bind_ok]
  rfl

/-- A proof request for a value that stands in a slot. -/
theorem evalOn_proof_found (built : InitializedRegistry poseidon reg)
    (state : RegistryState poseidon reg database nodes slots position)
    {req : QueryProofRequest} {leaf : U256} {index : TreeLeafIndex}
    (hex : server.isHexAddress req.registry = true)
    (registered : Read.evalOn database (server.registryService.zkCertificateRegistry
      (server.hexToAddress req.registry)) = .ok reg)
    (parsed : server.fromDecimal req.leaf = .ok leaf) (found : position leaf = some index) :
    Request.evalOn database true (server.proof poseidon req) =
      .ok ⟨req.leaf, (proofOf reg.sparseTree.depth.toNat nodes index).path.map server.string,
        index, server.string (proofOf reg.sparseTree.depth.toNat nodes index).root⟩ := by
  rw [Server.proof, Program.bind_eq, Request.evalOn_bind,
    evalOn_registryOnHead hex registered, except_bind_ok]
  simp only [parsed, Program.bind_eq, Request.evalOn_bind, Request.evalOn_tryRun,
    state.createProof_found built true found, except_bind_ok]
  rfl

/-- A proof request for any other value. -/
theorem evalOn_proof_missing
    (state : RegistryState poseidon reg database nodes slots position)
    {req : QueryProofRequest} {leaf : U256} (hex : server.isHexAddress req.registry = true)
    (registered : Read.evalOn database (server.registryService.zkCertificateRegistry
      (server.hexToAddress req.registry)) = .ok reg)
    (parsed : server.fromDecimal req.leaf = .ok leaf) (missing : position leaf = none) :
    Request.evalOn database true (server.proof poseidon req) =
      .error (statusErrorf .notFound s!"leaf not found: {req.leaf}") := by
  rw [Server.proof, Program.bind_eq, Request.evalOn_bind,
    evalOn_registryOnHead hex registered, except_bind_ok]
  simp only [parsed, Program.bind_eq, Request.evalOn_bind, Request.evalOn_tryRun,
    state.createProof_missing true missing, except_bind_ok]
  rfl

/-- The answer to a proof request, by the slots: a value that stands in one gets a proof of it that
verifies against the stored root, any other value is not found. -/
theorem RegistryState.answers_proof (built : InitializedRegistry poseidon reg)
    (state : RegistryState poseidon reg database nodes slots position)
    {req : QueryProofRequest} {leaf : U256} (hex : server.isHexAddress req.registry = true)
    (registered : Read.evalOn database (server.registryService.zkCertificateRegistry
      (server.hexToAddress req.registry)) = .ok reg)
    (parsed : server.fromDecimal req.leaf = .ok leaf) :
    (∀ index, leaf ≠ reg.metadata.emptyValue → slots index = leaf →
      ∃ path root, Request.evalOn database true (server.proof poseidon req) =
          .ok ⟨req.leaf, path.map server.string, index, server.string root⟩ ∧
        Read.evalOn database (reg.sparseTree.getRoot poseidon) = .ok root ∧
        VerifiesAgainst poseidon leaf path index root) ∧
    ((leaf = reg.metadata.emptyValue ∨ ∀ index, slots index ≠ leaf) →
      Request.evalOn database true (server.proof poseidon req) =
        .error (statusErrorf .notFound s!"leaf not found: {req.leaf}")) := by
  refine ⟨fun index different holds => ?_, fun absent => ?_⟩
  · have found := (state.bijective.finds leaf different index).mpr holds
    obtain ⟨_, _, inRange, shown⟩ := state.found found
    rw [← built.depth_eq] at inRange
    have verifies := proofOf_verifies state.consistent inRange
    have same : (proofOf reg.sparseTree.depth.toNat nodes index).leaf = leaf := shown
    rw [same] at verifies
    exact ⟨_, _, evalOn_proof_found built state hex registered parsed found,
      evalOn_getRoot state.reads, verifies⟩
  · refine evalOn_proof_missing state hex registered parsed ?_
    cases found : position leaf with
    | none => rfl
    | some index =>
        obtain ⟨different, holds, _, _⟩ := state.found found
        rcases absent with empty | nowhere
        · exact absurd empty different
        · exact absurd holds (nowhere index)

end Server

/-! ### Empty slots -/

section EmptySlots

variable {poseidon : PoseidonHash} {reg : ZKCertificateRegistry} {database : Database}
variable {nodes : Nat → Nat → U256} {slots : Slots} {position : U256 → Option TreeLeafIndex}

/-- The draws of `GetRandomEmptyLeafIndex` end with a slot of which nothing is stored. -/
theorem evalOn_getRandomEmptyLeafIndexLoop (built : InitializedRegistry poseidon reg)
    {count : Nat} {draws : Stream' UInt64} {index : TreeLeafIndex}
    (drawn : Read.evalOn database (reg.sparseTree.getRandomEmptyLeafIndexLoop count draws) =
      .ok index) :
    index.toNat < 2 ^ reg.sparseTree.depth.toNat ∧
      storedLeaf database reg.leafView.registryIndex 0 index = none := by
  induction count generalizing draws with
  | zero => cases drawn
  | succ count ih =>
      have alive : Read.evalOn database Read.ctxDone = .ok () := rfl
      rw [SparseMerkleTree.getRandomEmptyLeafIndexLoop_succ] at drawn
      simp only [Program.bind_eq, Read.evalOn_bind, alive, except_bind_ok, Read.evalOn_ofExcept,
        except_bind_eq_ok, evalOn_emptyInStorage built.tree.getter] at drawn
      obtain ⟨candidate, chosen, rest⟩ := drawn
      cases stored : storedLeaf database reg.leafView.registryIndex 0 candidate with
      | none =>
          rw [stored] at rest
          obtain rfl : candidate = index := Except.ok.inj rest
          exact ⟨leafIndexOfDraw_inRange chosen, stored⟩
      | some value =>
          rw [stored] at rest
          exact ih rest

/-- A slot of which nothing is stored is empty. -/
theorem RegistryState.empty_of_absent (spec : PoseidonSpec poseidon)
    (built : InitializedRegistry poseidon reg) (contract : ContractMetadata reg.metadata)
    (state : RegistryState poseidon reg database nodes slots position) {index : TreeLeafIndex}
    (inRange : index.toNat < 2 ^ reg.sparseTree.depth.toNat)
    (absent : storedLeaf database reg.leafView.registryIndex 0 index = none) :
    slots index = reg.metadata.emptyValue := by
  obtain ⟨_, branches⟩ := built.emptyBranches spec contract
  have leaf := state.evalOn_leaf built (built.depth_eq ▸ inRange)
  rw [evalOn_getLeafFromStorage branches built.tree.getter (Nat.zero_le _), absent] at leaf
  have ground := branches.ground
  rw [built.emptyLeaf_eq] at ground
  exact (Except.ok.inj leaf).symm.trans ground

/-- An empty-leaf request that succeeds has found an empty slot and proves it. -/
theorem evalOn_getEmptyLeafProof_spec (spec : PoseidonSpec poseidon)
    (built : InitializedRegistry poseidon reg) (contract : ContractMetadata reg.metadata)
    (state : RegistryState poseidon reg database nodes slots position) {server : Server}
    {req : GetEmptyLeafProofRequest} {draws : Stream' UInt64} {response : ProofMessage}
    (hex : server.isHexAddress req.registry = true)
    (registered : Read.evalOn database (server.registryService.zkCertificateRegistry
      (server.hexToAddress req.registry)) = .ok reg)
    (returned : Request.evalOn database true (server.getEmptyLeafProof poseidon draws req) =
      .ok response) :
    ∃ index path root, index.toNat < 2 ^ reg.sparseTree.depth.toNat ∧
      slots index = reg.metadata.emptyValue ∧
      response = ⟨server.string reg.metadata.emptyValue, path.map server.string, index,
        server.string root⟩ ∧
      Read.evalOn database (reg.sparseTree.getRoot poseidon) = .ok root ∧
      VerifiesAgainst poseidon reg.metadata.emptyValue path index root := by
  rw [Server.getEmptyLeafProof, Program.bind_eq, Request.evalOn_bind,
    evalOn_registryOnHead hex registered, except_bind_ok] at returned
  simp only [Program.bind_eq, Request.evalOn_bind, Request.evalOn_tryRun] at returned
  cases ended : Request.evalOn database true (reg.getRandomEmptyLeafProof poseidon draws) with
  | error err =>
      rw [ended] at returned
      cases err <;> cases returned
  | ok proof =>
      rw [ended] at returned
      obtain rfl := Except.ok.inj returned
      simp only [ZKCertificateRegistry.getRandomEmptyLeafProof, Program.bind_eq,
        Request.evalOn_bind, Request.evalOn_ofRead, Read.evalOn_wrapf, Request.evalOn_withRLock,
        except_bind_eq_ok, except_mapError_eq_ok] at ended
      obtain ⟨index, drawn, created⟩ := ended
      obtain ⟨inRange, absent⟩ := evalOn_getRandomEmptyLeafIndexLoop built drawn
      have empty := state.empty_of_absent spec built contract inRange absent
      rw [evalOn_createProof state.reads inRange] at created
      obtain rfl := Except.ok.inj created
      have shown : nodes 0 index.toNat = reg.metadata.emptyValue :=
        (state.leaves index (built.depth_eq ▸ inRange)).trans empty
      have verifies := proofOf_verifies state.consistent inRange
      have leaf : (proofOf reg.sparseTree.depth.toNat nodes index).leaf =
          reg.metadata.emptyValue := shown
      rw [leaf] at verifies
      exact ⟨index, _, _, inRange, empty, by rw [leaf]; rfl, evalOn_getRoot state.reads, verifies⟩

end EmptySlots

/-! ### Every run of the service -/

/-- What is assumed of the jobs, their registries and their chains, and of the database on which
the service was first started. -/
structure ServiceSetting {Id : Type} (poseidon : PoseidonHash)
    (jobs : Id → ZkCertificateRegistryJob) (chains : Id → Chain) (database : Database) :
    Prop where
  spec : PoseidonSpec poseidon
  built : ∀ id, InitializedRegistry poseidon (jobs id).registry
  separate : JobsApart jobs
  contract : ∀ id, ContractMetadata (jobs id).registry.metadata
  codec : ∀ id, (jobs id).jobCodec.RoundTrips
  history : ∀ id, ContractChain (jobs id) (chains id)
  empty : ∀ id, EmptyForJob (jobs id) database

section Served

variable {Id : Type} [DecidableEq Id] {poseidon : PoseidonHash}
variable {jobs : Id → ZkCertificateRegistryJob} {chains : Id → Chain}
variable {database : Database} {s : Fleet Id} {server : Server}

/-- Each registry represents the slots of its contract. -/
theorem ServiceSetting.represents (setting : ServiceSetting poseidon jobs chains database)
    (run : FleetRun poseidon jobs chains (Fleet.stopped database) s) (id : Id) :
    ∃ nodes slots position, SlotsAt (jobs id) (chains id) s.store slots ∧
      RegistryState poseidon (jobs id).registry s.store nodes slots position :=
  (fleet_settled setting.spec setting.built setting.separate run (setting.contract id)
    (setting.codec id) (setting.history id).certificates (setting.empty id)).represents
    setting.spec (setting.built id) (setting.contract id) (setting.history id)

/-- A registry that was registered at the start still is. -/
theorem ServiceSetting.registered (setting : ServiceSetting poseidon jobs chains database)
    (run : FleetRun poseidon jobs chains (Fleet.stopped database) s) {address : Address}
    {reg : ZKCertificateRegistry}
    (before : Read.evalOn database (server.registryService.zkCertificateRegistry address) =
      .ok reg) :
    Read.evalOn s.store (server.registryService.zkCertificateRegistry address) = .ok reg := by
  have outside : ∀ id, StoreKey.addressIndex address ∉ jobKeys (jobs id) := by
    intro id
    simp [jobKeys, registryKeys]
  have kept := fleet_lookup_other setting.built setting.separate run outside
  rw [← before]
  refine (zkCertificateRegistry_asks server.registryService address).evalWith_congr ?_
  rintro query rfl
  change Except.ok _ = Except.ok _
  exact congrArg (fun entry => Except.ok (entry.getD [])) kept

end Served

/-! ### A service of two registries -/

/-- The certificates of the small chain: 7 is added and revoked, 4 and 9 are added. -/
def smallOperations : List LeafOperation :=
  [⟨⟨1, 7⟩, .addition⟩, ⟨⟨3, 4⟩, .addition⟩, ⟨⟨1, 7⟩, .revocation⟩, ⟨⟨2, 9⟩, .addition⟩]

theorem smallOperations_wellFormed (id : Bool) :
    WellFormed (twoJobs id).registry.metadata (emptySlots (twoJobs id).registry.metadata)
      smallOperations := by
  have unseen : ∀ value : U256, value ≠ 5 → ∀ index : TreeLeafIndex,
      emptySlots (twoJobs id).registry.metadata index ≠ value := by
    intro value different index
    cases id <;> exact different.symm
  cases id <;>
  · refine ⟨⟨by decide, rfl, by decide, by decide, unseen 7 (by decide)⟩,
      ⟨by decide, rfl, by decide, by decide, fun slot => ?_⟩, ⟨by decide, rfl⟩,
      ⟨by decide, rfl, by decide, by decide, fun slot => ?_⟩, trivial⟩
    · rw [applyOperation, Function.update_apply]
      split_ifs
      · decide
      · exact unseen 4 (by decide) slot
    · simp only [applyOperation, Function.update_apply]
      split_ifs
      · decide
      · decide
      · exact unseen 9 (by decide) slot

/-- Nothing happens after block 2. -/
theorem smallChain_span (more : Nat) : smallChain.span 0 (3 + more) = smallChain.span 0 3 := by
  induction more with
  | zero => rfl
  | succ more ih =>
      rw [← Nat.add_assoc, Chain.span_succ (Nat.zero_le _), ih, Nat.add_comm 3 more]
      exact List.append_nil _

theorem smallChain_prefix (stop : Nat) : smallChain.span 0 stop <+: smallChain.span 0 3 := by
  rcases Nat.le_total stop 3 with early | late
  · rw [Chain.span_append (Nat.zero_le stop) early]
    exact List.prefix_append _ _
  · obtain ⟨more, rfl⟩ := Nat.exists_eq_add_of_le late
    rw [smallChain_span]

theorem twoJobs_history (id : Bool) : ContractChain (twoJobs id) smallChain where
  certificates := twoJobs_certificates id
  wellFormed stop := by
    obtain ⟨rest, split⟩ := smallChain_prefix stop
    have whole : logOperations (twoJobs id) (smallChain.span 0 3) = smallOperations := by
      cases id <;> decide
    rw [← split, logOperations_append] at whole
    have start : (twoJobs id).jobDescriptor.startBlock.toNat = 0 := by cases id <;> rfl
    rw [start]
    exact (wellFormed_append.mp (whole ▸ smallOperations_wellFormed id)).1

theorem registeredDatabase_empty (job : ZkCertificateRegistryJob) :
    EmptyForJob job registeredDatabase where
  record := Store.lookup_write_of_none <| by
    rw [lastEffect_singleton]
    exact if_neg (makeJobKey_ne_makeRegistryIndexKey job.jobDescriptor 0).symm
  registry := by
    have other := makeRegistryIndexKey_noRegistryKey job.registry.leafView.registryIndex 0
    refine ⟨fun level index => Store.lookup_write_of_none ?_,
      fun value => Store.lookup_write_of_none ?_⟩
    · rw [lastEffect_singleton]
      exact if_neg (other.1 level index)
    · rw [lastEffect_singleton]
      exact if_neg (other.2 value)

theorem twoJobs_setting :
    ServiceSetting fieldHash twoJobs (fun _ => smallChain) registeredDatabase where
  spec := fieldHash_spec
  built := twoJobs_built
  separate := twoJobs_apart
  contract := twoJobs_contract
  codec := twoJobs_codec
  history := twoJobs_history
  empty id := registeredDatabase_empty (twoJobs id)

/-- The interleaving of before, with the first registry registered. -/
def servedReached : Fleet Bool :=
  played (fun _ _ => True) (Fleet.move fieldHash twoJobs fun _ => smallChain) twoJobsMoves
    (Fleet.stopped registeredDatabase)

theorem served_run : FleetRun fieldHash twoJobs (fun _ => smallChain)
    (Fleet.stopped registeredDatabase) servedReached := by
  have made : (play (fun _ _ => True) (Fleet.move fieldHash twoJobs fun _ => smallChain)
      twoJobsMoves (Fleet.stopped registeredDatabase)).isSome = true := by decide +kernel
  exact GuardedRun.steps (run_of_played made fun _ _ _ moved => Fleet.move_step moved)

theorem smallRegistry_registered :
    Read.evalOn registeredDatabase (smallServer.registryService.zkCertificateRegistry
      (smallServer.hexToAddress "0x00")) = .ok smallRegistry :=
  rfl

/-! ### Every run is served -/

section Answers

variable {Id : Type} [DecidableEq Id] {poseidon : PoseidonHash}
variable {jobs : Id → ZkCertificateRegistryJob} {chains : Id → Chain}
variable {database : Database} {s : Fleet Id} {server : Server}

/-- Whatever all jobs have done, interleaved and with failures and crashes, a proof request to a
registry on its head is answered for the slots of the contract at the block its job has recorded: a
value that stands in a slot gets a proof of this slot that verifies against the stored root, any
other value is not found. -/
theorem fleet_serves_contract (setting : ServiceSetting poseidon jobs chains database)
    (run : FleetRun poseidon jobs chains (Fleet.stopped database) s) (id : Id)
    {req : QueryProofRequest} {leaf : U256} (hex : server.isHexAddress req.registry = true)
    (registered : Read.evalOn database (server.registryService.zkCertificateRegistry
      (server.hexToAddress req.registry)) = .ok (jobs id).registry)
    (parsed : server.fromDecimal req.leaf = .ok leaf) :
    ∃ slots, SlotsAt (jobs id) (chains id) s.store slots ∧
      (∀ index, leaf ≠ (jobs id).registry.metadata.emptyValue → slots index = leaf →
        ∃ path root, Request.evalOn s.store true (server.proof poseidon req) =
            .ok ⟨req.leaf, path.map server.string, index, server.string root⟩ ∧
          Read.evalOn s.store ((jobs id).registry.sparseTree.getRoot poseidon) = .ok root ∧
          VerifiesAgainst poseidon leaf path index root) ∧
      ((leaf = (jobs id).registry.metadata.emptyValue ∨ ∀ index, slots index ≠ leaf) →
        Request.evalOn s.store true (server.proof poseidon req) =
          .error (statusErrorf .notFound s!"leaf not found: {req.leaf}")) := by
  obtain ⟨nodes, slots, position, reached, state⟩ := setting.represents run id
  have still := setting.registered run registered
  exact ⟨slots, reached, state.answers_proof (setting.built id) hex still parsed⟩

/-- The first job has recorded block 1 when it crashes, and 7 is served from slot 1. -/
theorem fleet_serves_contract_twoJobs :
    Request.evalOn servedReached.store true (smallServer.proof fieldHash ⟨"0x00", "7"⟩) =
        .ok ⟨"7", ["5", "43"], 1, "397"⟩ ∧
    ∃ slots, SlotsAt (twoJobs false) smallChain servedReached.store slots ∧
      (∀ index, (7 : U256) ≠ smallRegistry.metadata.emptyValue → slots index = 7 →
        ∃ path root, Request.evalOn servedReached.store true
            (smallServer.proof fieldHash ⟨"0x00", "7"⟩) =
            .ok ⟨"7", path.map smallServer.string, index, smallServer.string root⟩ ∧
          Read.evalOn servedReached.store (smallRegistry.sparseTree.getRoot fieldHash) =
            .ok root ∧
          VerifiesAgainst fieldHash 7 path index root) ∧
      ((7 = smallRegistry.metadata.emptyValue ∨ ∀ index, slots index ≠ 7) →
        Request.evalOn servedReached.store true (smallServer.proof fieldHash ⟨"0x00", "7"⟩) =
          .error (statusErrorf .notFound "leaf not found: 7")) :=
  ⟨by decide +kernel,
    fleet_serves_contract twoJobs_setting served_run false rfl smallRegistry_registered rfl⟩

/-- Likewise an empty-leaf request that is answered has been given a slot of the tree that is empty
in the contract, with a proof that verifies against the stored root. -/
theorem fleet_serves_empty_slots (setting : ServiceSetting poseidon jobs chains database)
    (run : FleetRun poseidon jobs chains (Fleet.stopped database) s) (id : Id)
    {req : GetEmptyLeafProofRequest} {draws : Stream' UInt64} {response : ProofMessage}
    (hex : server.isHexAddress req.registry = true)
    (registered : Read.evalOn database (server.registryService.zkCertificateRegistry
      (server.hexToAddress req.registry)) = .ok (jobs id).registry)
    (returned : Request.evalOn s.store true (server.getEmptyLeafProof poseidon draws req) =
      .ok response) :
    ∃ slots index path root, SlotsAt (jobs id) (chains id) s.store slots ∧
      index.toNat < 2 ^ (jobs id).registry.sparseTree.depth.toNat ∧
      slots index = (jobs id).registry.metadata.emptyValue ∧
      response = ⟨server.string (jobs id).registry.metadata.emptyValue, path.map server.string,
        index, server.string root⟩ ∧
      Read.evalOn s.store ((jobs id).registry.sparseTree.getRoot poseidon) = .ok root ∧
      VerifiesAgainst poseidon (jobs id).registry.metadata.emptyValue path index root := by
  obtain ⟨nodes, slots, position, reached, state⟩ := setting.represents run id
  obtain ⟨index, path, root, inRange, empty, shown, stored, verifies⟩ :=
    evalOn_getEmptyLeafProof_spec setting.spec (setting.built id) (setting.contract id) state hex
      (setting.registered run registered) returned
  exact ⟨slots, index, path, root, reached, inRange, empty, shown, stored, verifies⟩

theorem fleet_serves_empty_slots_twoJobs :
    ∃ slots index path root, SlotsAt (twoJobs false) smallChain servedReached.store slots ∧
      index.toNat < 2 ^ smallRegistry.sparseTree.depth.toNat ∧
      slots index = smallRegistry.metadata.emptyValue ∧
      (⟨"5", ["4", "58"], 2, "397"⟩ : ProofMessage) =
        ⟨smallServer.string smallRegistry.metadata.emptyValue, path.map smallServer.string, index,
          smallServer.string root⟩ ∧
      Read.evalOn servedReached.store (smallRegistry.sparseTree.getRoot fieldHash) = .ok root ∧
      VerifiesAgainst fieldHash smallRegistry.metadata.emptyValue path index root := by
  have answered : Request.evalOn servedReached.store true
      (smallServer.getEmptyLeafProof fieldHash (Stream'.const 2) ⟨"0x00"⟩) =
      .ok ⟨"5", ["4", "58"], 2, "397"⟩ := by decide +kernel
  exact fleet_serves_empty_slots twoJobs_setting served_run false rfl smallRegistry_registered
    answered

end Answers

end MerkleProofService
