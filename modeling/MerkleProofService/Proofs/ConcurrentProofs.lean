/-
Module: MerkleProofService.Proofs.ConcurrentProofs
Layer: Proofs
Purpose: Proof requests next to commits.  A proof request looks up the index of its leaf before it
  takes the read lock.  The proof is right when the index is still current as the lock is granted;
  when a revocation slips in between, the server answers with a proof that does not verify.
Imports: Proofs.ConcurrentRequests
Trusted boundary: none
Main exports: ResponseVerifies, ContractEmits, ensures_proof, proof_response_verifies,
  proof_of_revoked_leaf
-/
import MerkleProofService.Proofs.ConcurrentRequests

namespace MerkleProofService

open Library

/-! ### Proofs of a leaf -/

/-- Folding the leaf of the response with its path and index yields its root, which is `root`. -/
def ResponseVerifies (poseidon : PoseidonHash) (server : Server) (response : ProofMessage)
    (root : U256) : Prop :=
  ∃ leaf path, server.fromDecimal response.leaf = .ok leaf ∧
    response.path = path.map server.string ∧ response.root = server.string root ∧
    VerifiesAgainst poseidon leaf path response.index root

/-- The contract emits operations that are well formed where the database stands. -/
def ContractEmits (poseidon : PoseidonHash) (reg : ZKCertificateRegistry) (database : Database)
    (operations : List LeafOperation) : Prop :=
  ∃ nodes slots position, RegistryState poseidon reg database nodes slots position ∧
    WellFormed reg.metadata slots operations

section Leaf

variable {poseidon : PoseidonHash} {lock : RegistryIndex} {inv : Database → Prop}
variable {lastRead : Option (Σ query, RequestAnswer query)}

/-- The index of a leaf is read once, and any database that would give the same answer leads to
the same index. -/
theorem ensures_getLeafIndex {view : LeafView} {leaf : U256}
    {post : ReaderMode Database RequestQuery RequestAnswer →
      Except GoError TreeLeafIndex → Prop}
    (errors : ∀ mode err, post mode (.error err))
    (outcome : ∀ asked index,
      (∀ database, StillAnswered (some asked) database →
        Read.evalOn database (view.getLeafIndex leaf) = .ok index) →
      post (.free (some asked)) (.ok index)) :
    (Request.ofRead (view.getLeafIndex leaf)).Ensures (requestInterface lock) inv StillAnswered
      post (.free lastRead) := by
  intro contents _ answer _
  cases answer with
  | error err => exact errors _ _
  | ok leafIndexBytes =>
      change Program.Ensures _ _ _ _ _
        (Request.ofRead (.ofExcept (LeafView.leafIndexOfEntry leafIndexBytes)))
      cases decoded : LeafView.leafIndexOfEntry leafIndexBytes with
      | error err => exact errors _ _
      | ok index =>
          apply outcome
          intro database still
          have same : Except.ok leafIndexBytes = Read.answersOf database
              (.get (makeLeafIndexKey view.registryIndex leaf)) := still _ _ rfl
          rw [← decoded, Except.ok.inj same, LeafView.getLeafIndex, Program.bind_eq,
            Read.evalOn_bind, Read.evalOn_get, except_bind_ok, Read.evalOn_ofExcept]

/-- A value that is looked up with success stands where the lookup says. -/
theorem RegistryState.position_of_evalOn {reg : ZKCertificateRegistry} {database : Database}
    {nodes : Nat → Nat → U256} {slots : Slots} {position : U256 → Option TreeLeafIndex}
    (state : RegistryState poseidon reg database nodes slots position) {value : U256}
    {index : TreeLeafIndex}
    (found : Read.evalOn database (reg.leafView.getLeafIndex value) = .ok index) :
    position value = some index := by
  rw [state.evalOn_getLeafIndex] at found
  cases here : position value with
  | none =>
      rw [here] at found
      cases found
  | some other =>
      rw [here] at found
      cases found
      rfl

/-- `CreateProof` ensures a proof of the leaf against the database under the lock. -/
theorem ensures_createProof {reg : ZKCertificateRegistry} {leaf : U256}
    {post : ReaderMode Database RequestQuery RequestAnswer → Except GoError MerkleProof → Prop}
    (built : InitializedRegistry poseidon reg)
    (states : ∀ database, inv database → ∃ nodes slots position,
      RegistryState poseidon reg database nodes slots position)
    (errors : ∀ mode err, post mode (.error err))
    (outcome : ∀ database proof,
      Read.evalOn database (reg.sparseTree.getRoot poseidon) = .ok proof.root →
      VerifiesAgainst poseidon leaf proof.path proof.index proof.root →
      post (.released database) (.ok proof)) :
    (reg.createProof poseidon leaf).Ensures (requestInterface reg.mutex) inv StillAnswered post
      (.free lastRead) := by
  unfold ZKCertificateRegistry.createProof
  apply Program.Ensures.bind
  rw [Request.ofRead_wrapf]
  apply Program.Ensures.mapFail
  apply ensures_getLeafIndex (fun mode err => errors mode _)
  intro asked index again
  apply ensures_withRLock
  intro database holds still
  obtain ⟨nodes, slots, position, state⟩ := states database holds
  have found := state.position_of_evalOn (again database still)
  obtain ⟨_, _, inRange, here⟩ := state.found found
  rw [← built.depth_eq] at inRange
  rw [Read.evalOn_wrapf, evalOn_createProof state.reads inRange, except_mapError_ok]
  apply outcome
  · exact evalOn_getRoot state.reads
  · have verifies := proofOf_verifies state.consistent inRange
    have same : (proofOf reg.sparseTree.depth.toNat nodes index).leaf = leaf := here
    rw [same] at verifies
    exact verifies

end Leaf

/-- What a proof request ensures. -/
theorem ensures_proof {poseidon : PoseidonHash} {reg : ZKCertificateRegistry} {server : Server}
    {req : QueryProofRequest} {database : Database} {inv : Database → Prop}
    (built : InitializedRegistry poseidon reg)
    (states : ∀ database, inv database → ∃ nodes slots position,
      RegistryState poseidon reg database nodes slots position)
    (found : Read.evalOn database (server.registryService.zkCertificateRegistry
      (server.hexToAddress req.registry)) = .ok reg)
    (stable : ∀ contents, inv contents →
      contents.lookup (makeRegistryIndexKey (server.hexToAddress req.registry)) =
        database.lookup (makeRegistryIndexKey (server.hexToAddress req.registry))) :
    (server.proof poseidon req).Ensures (requestInterface reg.mutex) inv StillAnswered
      (fun mode outcome => ∀ response, outcome = .ok response →
        ∃ committed root, mode = .released committed ∧
          Read.evalOn committed (reg.sparseTree.getRoot poseidon) = .ok root ∧
          response.leaf = req.leaf ∧ ResponseVerifies poseidon server response root)
      (.free none) := by
  unfold Server.proof
  apply Program.Ensures.bind
  apply ensures_registryOnHead found stable
  · intro mode err response returned
    cases returned
  · intro lastRead
    cases parsed : server.fromDecimal req.leaf with
    | error err =>
        intro response returned
        cases returned
    | ok leaf =>
        apply Program.Ensures.bind
        apply ensures_tryRun
        · intro mode reason response returned
          cases returned
        · apply ensures_createProof built states
          · intro mode err
            change Program.Ensures _ _ _ _ _ (if err.isNotFound then _ else _)
            split
            · intro response returned
              cases returned
            · intro response returned
              cases returned
          · intro committed proof root verifies response returned
            cases returned
            exact ⟨committed, proof.root, rfl, root, rfl, leaf, proof.path, parsed, rfl, rfl,
              verifies⟩

/-- The database represents the registry, and the registry's index entry is the one of `before`. -/
structure RegistryOf (poseidon : PoseidonHash) (reg : ZKCertificateRegistry) (address : Address)
    (before contents : Database) : Prop where
  state : ∃ nodes slots position,
    RegistryState poseidon reg contents nodes slots position
  registered : contents.lookup (makeRegistryIndexKey address) =
    before.lookup (makeRegistryIndexKey address)

theorem RegistryOf.commit {poseidon : PoseidonHash} {job : ZkCertificateRegistryJob}
    {address : Address} {before contents : Database} {batch : Batch}
    (spec : PoseidonSpec poseidon) (built : InitializedRegistry poseidon job.registry)
    (contract : ContractMetadata job.registry.metadata)
    (holds : RegistryOf poseidon job.registry address before contents)
    (computed : JobCommits poseidon job (ContractEmits poseidon job.registry) contents batch) :
    RegistryOf poseidon job.registry address before (Store.write contents batch) where
  state := by
    rcases computed with ⟨operations, block, ⟨nodes, slots, position, state, wellFormed⟩, run⟩
    obtain ⟨nodes', state'⟩ := state.jobCommit spec built contract wellFormed run
    exact ⟨nodes', _, _, state'⟩
  registered := (computed.lookup_registryIndexKey built address).trans holds.registered

/-! #### A request overtaken by a commit -/

/-- The small registry holds the leaf 7 in slot 1. -/
def heldDatabase : Database :=
  Store.write registeredDatabase
    (batchOf fieldHash smallJob registeredDatabase [⟨⟨1, 7⟩, .addition⟩] 1)

/-- The slots of that registry. -/
def heldSlots : Slots :=
  applyOperations smallRegistry.metadata.emptyValue (emptySlots smallRegistry.metadata)
    [⟨⟨1, 7⟩, .addition⟩]

theorem heldDatabase_state : ∃ nodes position,
    RegistryState fieldHash smallRegistry heldDatabase nodes heldSlots position := by
  rcases registeredDatabase_state with ⟨nodes, state⟩
  have wellFormed : WellFormed smallRegistry.metadata (emptySlots smallRegistry.metadata)
      [⟨⟨1, 7⟩, .addition⟩] := by
    refine ⟨⟨by decide, by decide, by decide, by decide, fun index => ?_⟩, trivial⟩
    change (5 : U256) ≠ 7
    decide
  have committed := @evalOn_commitBatch_eq_batchOf fieldHash smallJob registeredDatabase
    [⟨⟨1, 7⟩, .addition⟩] 1 (by decide)
  obtain ⟨nodes', state'⟩ := RegistryState.jobCommit fieldHash_spec smallRegistry_built
    smallRegistry_contract state wellFormed committed
  exact ⟨nodes', _, state'⟩

/-- A request for leaf 7 that has read the index of its leaf. -/
def lookedUp : Serving ProofMessage :=
  Shared.serve (requestInterface smallJob.registry.mutex) headAnswers 3
    (Shared.start Batch heldDatabase (smallServer.proof fieldHash ⟨"0x00", "7"⟩))

/-- The operations are committed at that moment. -/
def overtaken (operations : List LeafOperation) : Serving ProofMessage :=
  Shared.commit Store.write (batchOf fieldHash smallJob heldDatabase operations 2) lookedUp

/-- The request goes on to its end. -/
def servedAcross (operations : List LeafOperation) : Serving ProofMessage :=
  Shared.serve (requestInterface smallJob.registry.mutex) headAnswers 20 (overtaken operations)

theorem lookedUp_frame : lookedUp.contents = heldDatabase ∧ lookedUp.writer = .idle ∧
    lookedUp.seen = [heldDatabase] :=
  Shared.serve_frame 3

theorem overtaken_run {operations : List LeafOperation}
    (wellFormed : WellFormed smallRegistry.metadata heldSlots operations)
    (returns : (Read.evalOn heldDatabase
      (smallJob.commitBatch fieldHash operations 2)).isOk = true) :
    Relation.ReflTransGen
      (fun a b => ServingStep fieldHash smallJob (ContractEmits fieldHash smallJob.registry) a b ∧
        LockedInTime smallJob a b)
      (Shared.start Batch heldDatabase (smallServer.proof fieldHash ⟨"0x00", "7"⟩))
      (overtaken operations) := by
  have first := @Shared.serve_run_inTime _ _ _ _ _ _ (requestInterface smallJob.registry.mutex)
    (JobCommits fieldHash smallJob (ContractEmits fieldHash smallJob.registry)) Store.write
    headAnswers (Shared.start Batch heldDatabase (smallServer.proof fieldHash ⟨"0x00", "7"⟩))
    (headAnswers_honest _) 3 rfl (fun _ _ none => nomatch none)
  apply first.trans
  rcases lookedUp_frame with ⟨contents, idle, _⟩
  apply Shared.commit_run (fun a b _ same _ => Shared.inTime_of_reading_eq same) idle (by decide)
  rw [contents]
  rcases heldDatabase_state with ⟨nodes, position, state⟩
  exact ⟨operations, 2, ⟨nodes, heldSlots, position, state, wellFormed⟩,
    evalOn_commitBatch_eq_batchOf returns⟩

/-- In every interleaving of a proof request with commits, in which the read lock is granted while
the index the request has read is still current, a response is about the requested leaf and
verifies against the root of a database that was committed during the request. -/
theorem proof_response_verifies {poseidon : PoseidonHash} {job : ZkCertificateRegistryJob}
    {server : Server} {req : QueryProofRequest} {database : Database}
    {nodes : Nat → Nat → U256} {slots : Slots} {position : U256 → Option TreeLeafIndex}
    (spec : PoseidonSpec poseidon) (built : InitializedRegistry poseidon job.registry)
    (contract : ContractMetadata job.registry.metadata)
    (state : RegistryState poseidon job.registry database nodes slots position)
    (found : Read.evalOn database (server.registryService.zkCertificateRegistry
      (server.hexToAddress req.registry)) = .ok job.registry)
    {s : Serving ProofMessage}
    (run : Relation.ReflTransGen
      (fun a b => ServingStep poseidon job (ContractEmits poseidon job.registry) a b ∧
        LockedInTime job a b)
      (Shared.start Batch database (server.proof poseidon req)) s)
    {response : ProofMessage} (returned : s.reader = .done response) :
    ∃ committed ∈ s.seen, ∃ root,
      Read.evalOn committed (job.registry.sparseTree.getRoot poseidon) = .ok root ∧
      response.leaf = req.leaf ∧ ResponseVerifies poseidon server response root := by
  have start : RegistryOf poseidon job.registry (server.hexToAddress req.registry) database
      database := ⟨⟨nodes, slots, position, state⟩, rfl⟩
  obtain ⟨mode, tracks, ended⟩ := served_in_time (fun _ _ response none => nomatch none)
    (fun contents batch holds computed => holds.commit spec built contract computed) start
    (ensures_proof built (fun _ holds => holds.state) found fun _ holds => holds.registered)
    run returned
  obtain ⟨committed, root, rfl, isRoot, requested, verifies⟩ := ended response rfl
  exact ⟨committed, tracks.2.1, root, isRoot, requested, verifies⟩

/-- Another leaf is added between the lookup and the lock; the response verifies. -/
theorem proof_response_verifies_overtaken :
    ∃ committed ∈ (servedAcross [⟨⟨2, 9⟩, .addition⟩]).seen, ∃ root,
      (servedAcross [⟨⟨2, 9⟩, .addition⟩]).reader = .done ⟨"7", ["5", "60"], 1, "482"⟩ ∧
      Read.evalOn committed (smallRegistry.sparseTree.getRoot fieldHash) = .ok root ∧
      ResponseVerifies fieldHash smallServer ⟨"7", ["5", "60"], 1, "482"⟩ root := by
  rcases heldDatabase_state with ⟨nodes, position, state⟩
  have wellFormed : WellFormed smallRegistry.metadata heldSlots [⟨⟨2, 9⟩, .addition⟩] := by
    refine ⟨⟨by decide, by decide, by decide, by decide, fun index => ?_⟩, trivial⟩
    by_cases here : index = 1
    · subst here
      decide
    · change Function.update (emptySlots smallRegistry.metadata) 1 _ index ≠ 9
      rw [Function.update_of_ne here]
      change (5 : U256) ≠ 9
      decide
  have current : (overtaken [⟨⟨2, 9⟩, .addition⟩]).LastAnswered
      (requestInterface smallJob.registry.mutex) := by
    intro query answer same
    cases same
    rfl
  have run := (overtaken_run wellFormed (by decide)).trans
    (Shared.serve_run_inTime (headAnswers_honest _) 20 lookedUp_frame.2.1 current)
  have returned : (servedAcross [⟨⟨2, 9⟩, .addition⟩]).reader =
      .done ⟨"7", ["5", "60"], 1, "482"⟩ := by
    apply Shared.reader_of_outcome
    decide
  obtain ⟨committed, seen, root, isRoot, _, verifies⟩ := proof_response_verifies fieldHash_spec
    smallRegistry_built smallRegistry_contract state rfl run returned
  exact ⟨committed, seen, root, returned, isRoot, verifies⟩

/-- The leaf is revoked after its index was read and before the lock is taken: the response
repeats the leaf with a proof of the empty slot, which no root verifies. -/
theorem proof_of_revoked_leaf :
    ∃ nodes slots position s response,
      RegistryState fieldHash smallRegistry heldDatabase nodes slots position ∧
      Read.evalOn heldDatabase (smallServer.registryService.zkCertificateRegistry
        (smallServer.hexToAddress "0x00")) = .ok smallJob.registry ∧
      Relation.ReflTransGen
        (ServingStep fieldHash smallJob (ContractEmits fieldHash smallJob.registry))
        (Shared.start Batch heldDatabase (smallServer.proof fieldHash ⟨"0x00", "7"⟩)) s ∧
      s.reader = .done response ∧
      ∀ root, ¬ ResponseVerifies fieldHash smallServer response root := by
  rcases heldDatabase_state with ⟨nodes, position, state⟩
  refine ⟨nodes, heldSlots, position, servedAcross [⟨⟨1, 7⟩, .revocation⟩],
    ⟨"7", ["5", "48"], 1, "392"⟩, state, rfl, ?_, ?_, ?_⟩
  · have overtakes := @overtaken_run [⟨⟨1, 7⟩, .revocation⟩] ⟨⟨by decide, by decide⟩, trivial⟩
      (by decide)
    have ends := @Shared.serve_run_of_answer _ _ _ _ _ _
      (requestInterface smallJob.registry.mutex)
      (JobCommits fieldHash smallJob (ContractEmits fieldHash smallJob.registry)) Store.write
      headAnswers (overtaken [⟨⟨1, 7⟩, .revocation⟩]) (fun _ _ => True) (headAnswers_honest _)
      (fun _ => trivial) 20 lookedUp_frame.2.1
    exact (GuardedRun.steps overtakes).trans (GuardedRun.steps ends)
  · apply Shared.reader_of_outcome
    decide
  · rintro root ⟨leaf, path, parsed, paths, roots, verifies⟩
    cases parsed
    have samePath : path = [5, 48] :=
      showDecimal_injective.list_map (paths.symm.trans (by decide))
    have sameRoot : root = 392 := showDecimal_injective (roots.symm.trans (by decide))
    rw [samePath, sameRoot] at verifies
    exact absurd verifies (by decide)

end MerkleProofService
