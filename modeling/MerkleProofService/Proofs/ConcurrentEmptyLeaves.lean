/-
Module: MerkleProofService.Proofs.ConcurrentEmptyLeaves
Layer: Proofs
Purpose: Requests for the proof of an empty leaf next to commits.  The slot is tested before the
  read lock is taken and not again.  The proof is one of emptiness when the test still holds as the
  lock is granted; when an addition slips in between, the proof is one of the leaf just added.
Imports: Proofs.ConcurrentRequests
Trusted boundary: none
Main exports: ensures_getRandomEmptyLeafProof, emptyLeafProof_of_empty_leaf,
  emptyLeafProof_of_filled_leaf
-/
import MerkleProofService.Proofs.ConcurrentRequests

namespace MerkleProofService

open Library

section EmptyLeaf

variable {poseidon : PoseidonHash} {lock : RegistryIndex} {inv : Database → Prop}
variable {lastRead : Option (Σ query, RequestAnswer query)}

/-- A node is read once, and any database that would give the same answer holds the same node. -/
theorem ensures_getLeaf {view : LeafView} {level : TreeLevel} {index : TreeLeafIndex}
    {post : ReaderMode Database RequestQuery RequestAnswer →
      Except GoError (Except GoError U256) → Prop}
    (outcome : ∀ asked stored,
      (∀ database, StillAnswered (some asked) database →
        storedLeaf database view.registryIndex level index = stored) →
      post (.free (some asked)) (.ok (leafOutcome stored))) :
    (Request.ofRead (view.getLeaf level index).tryRun).Ensures (requestInterface lock) inv
      StillAnswered post (.free lastRead) := by
  intro contents _ answer answered
  obtain rfl : answer = Read.answersOf contents (.get _) := answered
  have again : ∀ database,
      StillAnswered (some ⟨.read (.get (makeLeafKey view.registryIndex level index)),
        Read.answersOf contents (.get (makeLeafKey view.registryIndex level index))⟩) database →
      storedLeaf database view.registryIndex level index =
        storedLeaf contents view.registryIndex level index := by
    intro database still
    have same : (contents.lookup (makeLeafKey view.registryIndex level index)).getD [] =
        (database.lookup (makeLeafKey view.registryIndex level index)).getD [] :=
      Except.ok.inj (still _ _ rfl)
    rw [storedLeaf, ← nodeOfEntry_getD, ← same, nodeOfEntry_getD, storedLeaf]
  have ended := outcome _ _ again
  change Program.Ensures _ _ _ _ _ (Request.ofRead (Read.tryRun
    (if ((contents.lookup (makeLeafKey view.registryIndex level index)).getD []).length = 0 then
      .fail .notFound
    else .done (U256.setBytes
      ((contents.lookup (makeLeafKey view.registryIndex level index)).getD [])))))
  unfold storedLeaf at ended
  cases entry : contents.lookup (makeLeafKey view.registryIndex level index) with
  | none =>
      rw [entry] at ended
      exact ended
  | some leafBytes =>
      rw [entry] at ended
      cases leafBytes with
      | nil => exact ended
      | cons byte rest => exact ended

/-- The draws end with a slot of the tree that is empty in every database that would still give
the last answer. -/
theorem ensures_getRandomEmptyLeafIndex {tree : SparseMerkleTree} {registryIndex : RegistryIndex}
    {post : ReaderMode Database RequestQuery RequestAnswer →
      Except GoError TreeLeafIndex → Prop}
    (getter : tree.storageLeafGetter = LeafView.getter ⟨registryIndex⟩)
    (errors : ∀ mode err, post mode (.error err))
    (outcome : ∀ asked index, index.toNat < 2 ^ tree.depth.toNat →
      (∀ database, StillAnswered (some asked) database →
        storedLeaf database registryIndex 0 index = none) →
      post (.free (some asked)) (.ok index)) (count : Nat) (draws : Stream' UInt64) :
    (Request.ofRead (tree.getRandomEmptyLeafIndexLoop count draws)).Ensures
      (requestInterface lock) inv StillAnswered post (.free lastRead) := by
  induction count generalizing draws lastRead with
  | zero => exact errors _ _
  | succ count ih =>
      -- the context is alive: a request that is cancelled aborts
      intro contents _ alive answered
      obtain rfl : alive = none := answered
      change Program.Ensures _ _ _ _ _ (Request.ofRead
        ((Program.ofExcept (tree.leafIndexOfDraw draws.head)).bind _))
      cases drawn : tree.leafIndexOfDraw draws.head with
      | error err => exact errors _ _
      | ok index =>
          simp only [Program.ofExcept, Program.bind, Program.bind_eq]
          rw [Request.ofRead_bind, getter]
          apply Program.Ensures.bind
          apply ensures_getLeaf
          intro asked stored again
          cases stored with
          | none => exact outcome asked index (leafIndexOfDraw_inRange drawn) again
          | some value => exact ih draws.tail

/-- `GetRandomEmptyLeafProof` ensures a proof of the empty leaf against the database under the
lock. -/
theorem ensures_getRandomEmptyLeafProof {reg : ZKCertificateRegistry} (draws : Stream' UInt64)
    (spec : PoseidonSpec poseidon) (built : InitializedRegistry poseidon reg)
    (contract : ContractMetadata reg.metadata)
    (consistent : ∀ database, inv database →
      NodeConsistent poseidon reg.sparseTree database) :
    (reg.getRandomEmptyLeafProof poseidon draws).Ensures (requestInterface reg.mutex) inv
      StillAnswered
      (fun mode result => ∀ proof, result = .ok proof → ∃ committed,
        mode = .released committed ∧ proof.leaf = reg.metadata.emptyValue ∧
        Read.evalOn committed (reg.sparseTree.getRoot poseidon) = .ok proof.root ∧
        VerifiesAgainst poseidon proof.leaf proof.path proof.index proof.root)
      (.free lastRead) := by
  unfold ZKCertificateRegistry.getRandomEmptyLeafProof
  apply Program.Ensures.bind
  rw [Request.ofRead_wrapf]
  apply Program.Ensures.mapFail
  apply ensures_getRandomEmptyLeafIndex built.tree.getter
  · intro mode err proof returned
    cases returned
  · intro asked index inRange again
    apply ensures_withRLock
    intro database holds still proof returned
    obtain ⟨nodes, reads, hashed⟩ := consistent database holds
    obtain ⟨empty, branches⟩ := built.emptyBranches spec contract
    rw [Read.evalOn_wrapf, evalOn_createProof reads inRange, except_mapError_ok] at returned
    cases returned
    refine ⟨database, rfl, ?_, evalOn_getRoot reads, proofOf_verifies hashed inRange⟩
    -- the slot is still empty, so its leaf comes from the table of empty branches
    have leaf := reads 0 index (leaf_inTree inRange)
    rw [evalOn_getLeafFromStorage branches built.tree.getter (Nat.zero_le _),
      again database still] at leaf
    have ground := branches.ground
    rw [built.emptyLeaf_eq] at ground
    exact (Except.ok.inj leaf).symm.trans ground

end EmptyLeaf

/-! ### Every interleaving -/

/-- Operations on slots of the tree, with values the storage can hold. -/
def CommittableOnly (reg : ZKCertificateRegistry) (_database : Database)
    (operations : List LeafOperation) : Prop :=
  ∀ op ∈ operations, Committable reg.metadata op

instance (reg : ZKCertificateRegistry) (database : Database) (operations : List LeafOperation) :
    Decidable (CommittableOnly reg database operations) :=
  inferInstanceAs (Decidable (∀ op ∈ operations, _))

/-- A request for an empty leaf has found slot 1 of the small registry empty. -/
def tested : Serving MerkleProof :=
  Shared.serve (requestInterface smallJob.registry.mutex) headAnswers 2
    (Shared.start Batch ∅ (smallRegistry.getRandomEmptyLeafProof fieldHash (Stream'.const 1)))

/-- The operations are committed at that moment, and the request goes on to its end. -/
def testedAcross (operations : List LeafOperation) : Serving MerkleProof :=
  Shared.serve (requestInterface smallJob.registry.mutex) headAnswers 20
    (Shared.commit Store.write (batchOf fieldHash smallJob ∅ operations 1) tested)

theorem smallRegistry_nodeConsistent : NodeConsistent fieldHash smallRegistry.sparseTree ∅ := by
  obtain ⟨nodes, state⟩ :=
    registryState_empty fieldHash_spec smallRegistry_built smallRegistry_contract
  exact ⟨nodes, state.reads, state.consistent⟩

theorem tested_frame : tested.contents = ∅ ∧ tested.writer = .idle ∧ tested.seen = [∅] :=
  Shared.serve_frame 2

theorem tested_run {operations : List LeafOperation}
    (committable : CommittableOnly smallRegistry ∅ operations)
    (returns : (Read.evalOn ∅ (smallJob.commitBatch fieldHash operations 1)).isOk = true) :
    Relation.ReflTransGen
      (fun a b => ServingStep fieldHash smallJob (CommittableOnly smallJob.registry) a b ∧
        LockedInTime smallJob a b)
      (Shared.start Batch ∅ (smallRegistry.getRandomEmptyLeafProof fieldHash (Stream'.const 1)))
      (Shared.commit Store.write (batchOf fieldHash smallJob ∅ operations 1) tested) := by
  have first := @Shared.serve_run_inTime _ _ _ _ _ _ (requestInterface smallJob.registry.mutex)
    (JobCommits fieldHash smallJob (CommittableOnly smallJob.registry)) Store.write headAnswers
    (Shared.start Batch ∅ (smallRegistry.getRandomEmptyLeafProof fieldHash (Stream'.const 1)))
    (headAnswers_honest _) 2 rfl (fun _ _ none => nomatch none)
  apply first.trans
  rcases tested_frame with ⟨contents, idle, _⟩
  apply Shared.commit_run (fun a b _ same _ => Shared.inTime_of_reading_eq same) idle (by decide)
  rw [contents]
  exact ⟨operations, 1, committable, evalOn_commitBatch_eq_batchOf returns⟩

/-- In every interleaving of the request with commits, in which the read lock is granted while the
tested slot is still empty, the proof returned is one of the empty leaf, against the root of a
database that was committed during the request. -/
theorem emptyLeafProof_of_empty_leaf {poseidon : PoseidonHash} {job : ZkCertificateRegistryJob}
    {draws : Stream' UInt64} {database : Database} (spec : PoseidonSpec poseidon)
    (built : InitializedRegistry poseidon job.registry)
    (contract : ContractMetadata job.registry.metadata)
    (consistent : NodeConsistent poseidon job.registry.sparseTree database)
    {s : Serving MerkleProof}
    (run : Relation.ReflTransGen
      (fun a b => ServingStep poseidon job (CommittableOnly job.registry) a b ∧
        LockedInTime job a b)
      (Shared.start Batch database (job.registry.getRandomEmptyLeafProof poseidon draws)) s)
    {proof : MerkleProof} (returned : s.reader = .done proof) :
    proof.leaf = job.registry.metadata.emptyValue ∧
      ∃ committed ∈ s.seen,
        Read.evalOn committed (job.registry.sparseTree.getRoot poseidon) = .ok proof.root ∧
        VerifiesAgainst poseidon proof.leaf proof.path proof.index proof.root := by
  obtain ⟨mode, tracks, ended⟩ := served_in_time (fun _ _ proof none => nomatch none)
    (fun contents batch holds computed => by
      rcases computed with ⟨operations, block, committable, run⟩
      exact NodeConsistent.jobCommit spec built contract holds committable run)
    consistent
    (ensures_getRandomEmptyLeafProof draws spec built contract fun _ holds => holds) run returned
  obtain ⟨committed, rfl, leaf, isRoot, verifies⟩ := ended proof rfl
  exact ⟨leaf, committed, tracks.2.1, isRoot, verifies⟩

/-- Another slot is filled between the test and the lock. -/
theorem emptyLeafProof_of_empty_leaf_overtaken :
    ∃ proof, (testedAcross [⟨⟨2, 9⟩, .addition⟩]).reader = .done proof ∧
      proof.leaf = smallRegistry.metadata.emptyValue ∧
      ∃ committed ∈ (testedAcross [⟨⟨2, 9⟩, .addition⟩]).seen,
        Read.evalOn committed (smallRegistry.sparseTree.getRoot fieldHash) = .ok proof.root ∧
        VerifiesAgainst fieldHash proof.leaf proof.path proof.index proof.root := by
  have current : (Shared.commit Store.write
      (batchOf fieldHash smallJob ∅ [⟨⟨2, 9⟩, .addition⟩] 1) tested).LastAnswered
      (requestInterface smallJob.registry.mutex) := by
    intro query answer same
    cases same
    rfl
  have run := (@tested_run [⟨⟨2, 9⟩, .addition⟩] (by decide) (by decide)).trans
    (Shared.serve_run_inTime (headAnswers_honest _) 20 tested_frame.2.1 current)
  have returned : (testedAcross [⟨⟨2, 9⟩, .addition⟩]).reader = .done ⟨5, [5, 60], 1, 452⟩ := by
    apply Shared.reader_of_outcome
    decide
  have proved := emptyLeafProof_of_empty_leaf fieldHash_spec smallRegistry_built
    smallRegistry_contract smallRegistry_nodeConsistent run returned
  exact ⟨_, returned, proved⟩

/-- The tested slot is filled between the test and the lock: the proof is one of the leaf just
added. -/
theorem emptyLeafProof_of_filled_leaf :
    ∃ s proof, NodeConsistent fieldHash smallRegistry.sparseTree ∅ ∧
      Relation.ReflTransGen
        (ServingStep fieldHash smallJob (CommittableOnly smallJob.registry))
        (Shared.start Batch ∅ (smallRegistry.getRandomEmptyLeafProof fieldHash
          (Stream'.const 1))) s ∧
      s.reader = .done proof ∧ proof.leaf ≠ smallRegistry.metadata.emptyValue := by
  refine ⟨testedAcross [⟨⟨1, 7⟩, .addition⟩], ⟨7, [5, 48], 1, 422⟩,
    smallRegistry_nodeConsistent, ?_, ?_, by decide⟩
  · have overtakes := @tested_run [⟨⟨1, 7⟩, .addition⟩] (by decide) (by decide)
    have ends := @Shared.serve_run_of_answer _ _ _ _ _ _
      (requestInterface smallJob.registry.mutex)
      (JobCommits fieldHash smallJob (CommittableOnly smallJob.registry)) Store.write headAnswers
      (Shared.commit Store.write (batchOf fieldHash smallJob ∅ [⟨⟨1, 7⟩, .addition⟩] 1) tested)
      (fun _ _ => True) (headAnswers_honest _) (fun _ => trivial) 20 tested_frame.2.1
    exact (GuardedRun.steps overtakes).trans (GuardedRun.steps ends)
  · apply Shared.reader_of_outcome
    decide

end MerkleProofService
