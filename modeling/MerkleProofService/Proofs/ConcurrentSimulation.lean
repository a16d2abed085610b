/-
Module: MerkleProofService.Proofs.ConcurrentSimulation
Layer: Proofs
Purpose: Batch proof requests next to commits.  The simulation takes no lock and reads the tree node
  by node.  What it reads are the node entries of its registry only; when the commits between its
  first node read and its last leave those alone, its answer is that of one database, otherwise it
  can mix two.
Imports: Library.ReadWindows, Proofs.ConcurrentRequests, Proofs.ReadFootprints
Trusted boundary: none
Main exports: simulateBatchOperations_asks, KeepsNodes, batchProofs_of_one_snapshot,
  batchProofs_of_two_snapshots
-/
import MerkleProofService.Library.ReadWindows
import MerkleProofService.Proofs.ConcurrentRequests
import MerkleProofService.Proofs.ReadFootprints

namespace MerkleProofService

open Library

/-! ### What the simulation reads -/

section Reads

variable {poseidon : PoseidonHash} {tree : SparseMerkleTree} {registryIndex : RegistryIndex}

section Overlay

variable {batch : SimulationBatch}

theorem simulationGetLeaf_asks (backed : batch.storage = LeafView.getter ⟨registryIndex⟩)
    (level : TreeLevel) (index : TreeLeafIndex) :
    (TreeLeafGetterSetter.getLeaf batch level index).Asks (OnTree registryIndex)
      fun _ => True := by
  change (SimulationBatch.getLeaf batch level index).Asks _ _
  unfold SimulationBatch.getLeaf
  split
  · exact trivial
  · rw [backed]
    exact getLeaf_asks level index

theorem getLeafFromBatchOrStorage_asks
    (getter : tree.storageLeafGetter = LeafView.getter ⟨registryIndex⟩)
    (backed : batch.storage = LeafView.getter ⟨registryIndex⟩) (level : TreeLevel)
    (index : TreeLeafIndex) :
    (tree.getLeafFromBatchOrStorage poseidon batch level index).Asks (OnTree registryIndex)
      fun _ => True := by
  unfold SparseMerkleTree.getLeafFromBatchOrStorage
  apply (tryRun_asks (simulationGetLeaf_asks backed level index)).bind
  intro outcome _
  cases outcome with
  | ok node => exact trivial
  | error err =>
      change Program.Asks _ _ (if err.isNotFound then _ else _)
      split
      · exact (getLeafFromStorage_asks getter level index).mapFail
      · exact trivial

theorem calculateHashForNode_asks
    (getter : tree.storageLeafGetter = LeafView.getter ⟨registryIndex⟩)
    (backed : batch.storage = LeafView.getter ⟨registryIndex⟩) (level : TreeLevel)
    (index : TreeLeafIndex) :
    (tree.calculateHashForNode poseidon batch level index).Asks (OnTree registryIndex)
      fun _ => True := by
  have siblings : (tree.getSiblingNodes poseidon batch level index).Asks (OnTree registryIndex)
      fun _ => True := by
    apply (getLeafFromBatchOrStorage_asks getter backed level _).bind
    intro leftNode _
    apply (getLeafFromBatchOrStorage_asks getter backed level _).bind
    intro rightNode _
    exact trivial
  apply siblings.mapFail.bind
  intro nodes _
  exact Program.asks_ofExcept fun _ _ => trivial

/-- Insertion reads tree nodes and keeps the storage under the overlay. -/
theorem insertLeafLoop_asks
    (getter : tree.storageLeafGetter = LeafView.getter ⟨registryIndex⟩) (count : Nat)
    (level : TreeLevel) (index : TreeLeafIndex)
    (backed : batch.storage = LeafView.getter ⟨registryIndex⟩) :
    (tree.insertLeafLoop poseidon count level index batch).Asks (OnTree registryIndex)
      fun batch' => batch'.storage = LeafView.getter ⟨registryIndex⟩ := by
  induction count generalizing level index batch with
  | zero => exact backed
  | succ count ih =>
      apply (calculateHashForNode_asks getter backed level index).mapFail.bind
      intro nodeHash _
      exact ih (level + 1) (index / 2) backed

theorem insertLeaf_asks
    (getter : tree.storageLeafGetter = LeafView.getter ⟨registryIndex⟩)
    (backed : batch.storage = LeafView.getter ⟨registryIndex⟩) (index : TreeLeafIndex)
    (value : U256) :
    (tree.insertLeaf poseidon batch index value).Asks (OnTree registryIndex)
      fun batch' => batch'.storage = LeafView.getter ⟨registryIndex⟩ :=
  insertLeafLoop_asks getter tree.depth.toNat 0 index
    (show (SimulationBatch.mk batch.storage _).storage = _ from backed)

theorem findEmptyLeafIndexLoop_asks
    (getter : tree.storageLeafGetter = LeafView.getter ⟨registryIndex⟩)
    (backed : batch.storage = LeafView.getter ⟨registryIndex⟩) (count : Nat)
    (draws : Stream' UInt64) :
    (tree.findEmptyLeafIndexLoop poseidon batch count draws).Asks (OnTree registryIndex)
      fun _ => True := by
  induction count generalizing draws with
  | zero => exact trivial
  | succ count ih =>
      apply ctxDone_asks.bind
      intro _ _
      have drawn : (Program.ofExcept (tree.leafIndexOfDraw draws.head) : Read _).Asks
          (OnTree registryIndex) fun _ => True := Program.asks_ofExcept fun _ _ => trivial
      apply drawn.bind
      intro index _
      apply (getLeafFromBatchOrStorage_asks getter backed 0 index).mapFail.bind
      intro leaf _
      change Program.Asks _ _ (if leaf = tree.emptyLeaf then _ else _)
      split
      · exact trivial
      · exact ih draws.tail

theorem findLeafByValueLoop_asks
    (getter : tree.storageLeafGetter = LeafView.getter ⟨registryIndex⟩)
    (backed : batch.storage = LeafView.getter ⟨registryIndex⟩) (value : U256) (count : Nat)
    (i : UInt64) :
    (tree.findLeafByValueLoop poseidon batch value count i).Asks (OnTree registryIndex)
      fun _ => True := by
  induction count generalizing i with
  | zero => exact trivial
  | succ count ih =>
      apply ctxDone_asks.bind
      intro _ _
      apply (tryRun_asks (getLeafFromBatchOrStorage_asks getter backed 0 i.toUInt32)).bind
      intro outcome _
      cases outcome with
      | error err => exact ih (i + 1)
      | ok leaf =>
          change Program.Asks _ _ (if leaf = value then _ else _)
          split
          · exact trivial
          · exact ih (i + 1)

theorem createProofWithBatchPath_asks
    (getter : tree.storageLeafGetter = LeafView.getter ⟨registryIndex⟩)
    (backed : batch.storage = LeafView.getter ⟨registryIndex⟩) (count : Nat) (level : TreeLevel)
    (pathIndex : TreeLeafIndex) :
    (tree.createProofWithBatchPath poseidon batch count level pathIndex).Asks
      (OnTree registryIndex) fun _ => True := by
  induction count generalizing level pathIndex with
  | zero => exact trivial
  | succ count ih =>
      apply ctxDone_asks.bind
      intro _ _
      apply (getLeafFromBatchOrStorage_asks getter backed level _).mapFail.bind
      intro element _
      apply (ih (level + 1) (pathIndex / 2)).bind
      intro path _
      exact trivial

theorem createProofWithBatch_asks
    (getter : tree.storageLeafGetter = LeafView.getter ⟨registryIndex⟩)
    (backed : batch.storage = LeafView.getter ⟨registryIndex⟩) (index : TreeLeafIndex) :
    (tree.createProofWithBatch poseidon batch index).Asks (OnTree registryIndex)
      fun _ => True := by
  apply (getLeafFromBatchOrStorage_asks getter backed 0 index).mapFail.bind
  intro leaf _
  apply (createProofWithBatchPath_asks getter backed _ 0 index).bind
  intro path _
  apply (getLeafFromBatchOrStorage_asks getter backed tree.depth 0).mapFail.bind
  intro root _
  exact trivial

/-- One simulated operation reads tree nodes and keeps the storage under the overlay. -/
theorem simulateOperation_asks
    (getter : tree.storageLeafGetter = LeafView.getter ⟨registryIndex⟩)
    (backed : batch.storage = LeafView.getter ⟨registryIndex⟩) (i : Nat) (op : LeafOperation)
    (draws : Stream' UInt64) :
    (tree.simulateOperation poseidon i op batch draws).Asks (OnTree registryIndex)
      fun result => result.2.1.storage = LeafView.getter ⟨registryIndex⟩ := by
  apply ctxDone_asks.bind
  intro _ _
  cases op.op with
  | addition =>
      apply (findEmptyLeafIndexLoop_asks getter backed _ draws).mapFail.bind
      intro found _
      apply (createProofWithBatch_asks getter backed found.1).mapFail.bind
      intro proof _
      change Program.Asks _ _ (if proof.leaf ≠ tree.emptyLeaf then _ else _)
      split
      · exact trivial
      · apply (insertLeaf_asks getter backed found.1 op.leaf.value).mapFail.bind
        intro batch' backed'
        exact backed'
  | revocation =>
      apply (findLeafByValueLoop_asks getter backed op.leaf.value _ 0).mapFail.bind
      intro leafIndex _
      apply (createProofWithBatch_asks getter backed leafIndex).mapFail.bind
      intro proof _
      change Program.Asks _ _ (if proof.leaf ≠ op.leaf.value then _ else _)
      split
      · exact trivial
      · apply (insertLeaf_asks getter backed leafIndex tree.emptyLeaf).mapFail.bind
        intro batch' backed'
        exact backed'
  | unknown code => exact trivial

theorem simulateOperations_asks
    (getter : tree.storageLeafGetter = LeafView.getter ⟨registryIndex⟩)
    (backed : batch.storage = LeafView.getter ⟨registryIndex⟩) (i : Nat)
    (operations : List LeafOperation) (draws : Stream' UInt64) :
    (tree.simulateOperations poseidon i operations batch draws).Asks (OnTree registryIndex)
      fun _ => True := by
  induction operations generalizing i batch draws with
  | nil => exact trivial
  | cons op operations ih =>
      apply (simulateOperation_asks getter backed i op draws).bind
      intro result backed'
      apply (ih backed' (i + 1) result.2.2).bind
      intro rest _
      exact trivial

end Overlay

/-- The whole simulation reads nothing but tree nodes of its registry. -/
theorem simulateBatchOperations_asks
    (getter : tree.storageLeafGetter = LeafView.getter ⟨registryIndex⟩)
    (operations : List LeafOperation) (draws : Stream' UInt64) :
    (tree.simulateBatchOperations poseidon operations draws).Asks (OnTree registryIndex)
      fun _ => True := by
  have overlay : (tree.simulateBatchOverlay poseidon operations draws).Asks
      (OnTree registryIndex) fun _ => True := by
    apply (getLeafFromStorage_asks getter tree.depth 0).mapFail.bind
    intro initialRoot _
    apply (simulateOperations_asks getter getter 0 operations draws).bind
    intro result _
    exact trivial
  apply overlay.bind
  intro result _
  exact trivial

end Reads

/-! ### Batch proofs -/

/-- A question for a tree node of the registry. -/
def NodeQuery (registryIndex : RegistryIndex) (query : RequestQuery) : Prop :=
  ∃ level index, query = .read (.get (makeLeafKey registryIndex level index))

/-- The database has the node entries of the registry from `before`. -/
def SameNodes (reg : ZKCertificateRegistry) (before contents : Database) : Prop :=
  ∀ level index, contents.lookup (makeLeafKey reg.leafView.registryIndex level index) =
    before.lookup (makeLeafKey reg.leafView.registryIndex level index)

/-- The database has the index entry of the address from `before`. -/
def SameIndex (address : Address) (before contents : Database) : Prop :=
  contents.lookup (makeRegistryIndexKey address) = before.lookup (makeRegistryIndexKey address)

/-- Between the first node read of the request and the last one, the step leaves the node entries of
the job's registry as they are. -/
def KeepsNodes {α : Type} (job : ZkCertificateRegistryJob) (s t : Serving α) : Prop :=
  s.Between (NodeQuery job.registry.leafView.registryIndex) →
    SameNodes job.registry s.contents t.contents

/-- The response is that of the simulation on one database. -/
def SimulatedOn (poseidon : PoseidonHash) (server : Server) (reg : ZKCertificateRegistry)
    (draws : Stream' UInt64) (req : QueryBatchProofsRequest) (database : Database)
    (response : QueryBatchProofsResponse) : Prop :=
  ∃ operations root proofs, server.convertOperations 0 req.operations = .ok operations ∧
    Read.evalOn database (reg.sparseTree.getRoot poseidon) = .ok root ∧
    Read.evalOn database (reg.sparseTree.simulateBatchOperations poseidon operations draws) =
      .ok (root, proofs) ∧
    response = server.batchProofsResponse root proofs

/-- A simulation that succeeds starts from the root of its database. -/
theorem evalOn_getRoot_of_simulate {poseidon : PoseidonHash} {tree : SparseMerkleTree}
    {database : Database} {operations : List LeafOperation} {draws : Stream' UInt64}
    {root : U256} {proofs : List BatchProofResult}
    (simulated : Read.evalOn database (tree.simulateBatchOperations poseidon operations draws) =
      .ok (root, proofs)) :
    Read.evalOn database (tree.getRoot poseidon) = .ok root := by
  simp only [SparseMerkleTree.simulateBatchOperations, SparseMerkleTree.simulateBatchOverlay,
    Program.bind_eq, Read.evalOn_bind, Read.evalOn_wrapf, except_bind_eq_ok,
    except_mapError_eq_ok] at simulated
  rcases simulated with ⟨_, ⟨initialRoot, isRoot, _, _, ended⟩, returned⟩
  cases ended
  cases returned
  exact isRoot

/-- What a batch proof request ensures while the tree stays as it is. -/
theorem ensures_getBatchProofs {poseidon : PoseidonHash} {reg : ZKCertificateRegistry}
    {server : Server} {req : QueryBatchProofsRequest} {draws : Stream' UInt64}
    {database : Database} {inv : Database → Prop} (built : InitializedRegistry poseidon reg)
    (found : Read.evalOn database (server.registryService.zkCertificateRegistry
      (server.hexToAddress req.registry)) = .ok reg)
    (registered : ∀ contents, inv contents →
      SameIndex (server.hexToAddress req.registry) database contents)
    (nodes : ∀ contents, inv contents → SameNodes reg database contents) :
    (server.getBatchProofs poseidon draws req).Ensures (requestInterface reg.mutex) inv
      (fun _ _ => True)
      (fun _ outcome => ∀ response, outcome = .ok response →
        SimulatedOn poseidon server reg draws req database response) (.free none) := by
  unfold Server.getBatchProofs
  apply Program.Ensures.bind
  apply ensures_registryOnHead found registered
  · intro mode err response returned
    cases returned
  · intro lastRead
    change Program.Ensures _ _ _ _ _ (if req.operations.length = 0 then _ else _)
    split
    · intro response returned
      cases returned
    · cases converted : server.convertOperations 0 req.operations with
      | error err =>
          intro response returned
          cases returned
      | ok operations =>
          change Program.Ensures _ _ _ _ _ (Program.bind (Request.tryRun (Request.ofRead
            (reg.sparseTree.simulateBatchOperations poseidon operations draws))) _)
          apply Program.Ensures.bind
          apply ensures_tryRun
          · intro mode reason response returned
            cases returned
          · apply ensures_ofRead_stable
              (simulateBatchOperations_asks built.tree.getter operations draws)
            · intro query onTree contents holds
              rcases onTree with rfl | ⟨level, index, rfl⟩
              · rfl
              · rw [Read.answersOf, Read.answersOf, nodes contents holds]
            · intro lastRead
              cases simulated : Read.evalOn database
                  (reg.sparseTree.simulateBatchOperations poseidon operations draws) with
              | error err =>
                  intro response returned
                  cases returned
              | ok result =>
                  intro response returned
                  cases returned
                  exact ⟨operations, result.1, result.2, converted,
                    evalOn_getRoot_of_simulate simulated, simulated, rfl⟩

/-- A batch proof request takes no lock, whatever registry it finds. -/
theorem getBatchProofs_plain (poseidon : PoseidonHash) (server : Server)
    (draws : Stream' UInt64) (req : QueryBatchProofsRequest) (lock : RegistryIndex) :
    (server.getBatchProofs poseidon draws req).Asks
      (fun query => (requestInterface lock).access query = .plain) fun _ => True := by
  have reads {α : Type} (computation : Read α) : (Request.ofRead computation).tryRun.Asks
      (fun query => (requestInterface lock).access query = .plain) fun _ => True := by
    have asks : (Request.ofRead computation).Asks
        (fun query => (requestInterface lock).access query = .plain) fun _ => True := by
      apply (Program.asks_any computation).liftQuery
      intro query _
      rfl
    apply asks.attempt.bind
    intro outcome _
    cases outcome with
    | ok value => exact trivial
    | error err => cases err <;> exact trivial
  have opening : (server.registryOnHead req.registry "registry not found").Asks
      (fun query => (requestInterface lock).access query = .plain) fun _ => True := by
    unfold Server.registryOnHead
    split
    · exact trivial
    · apply (reads _).bind
      intro outcome _
      cases outcome with
      | error err => exact trivial
      | ok registry =>
          refine ⟨rfl, fun (onHead : Bool) => ?_⟩
          cases onHead <;> exact trivial
  unfold Server.getBatchProofs
  apply opening.bind
  intro registry _
  change Program.Asks _ _ (if req.operations.length = 0 then _ else _)
  split
  · exact trivial
  · cases server.convertOperations 0 req.operations with
    | error err => exact trivial
    | ok operations =>
        apply (reads _).bind
        intro outcome _
        cases outcome <;> exact trivial

/-- The registry lookup has the same outcome while the registry's index entry stays. -/
theorem zkCertificateRegistry_of_registered {service : Service} {address : Address}
    {before database : Database} (registered : SameIndex address before database) :
    Read.evalOn database (service.zkCertificateRegistry address) =
      Read.evalOn before (service.zkCertificateRegistry address) := by
  refine (zkCertificateRegistry_asks service address).evalWith_congr fun query only => ?_
  rw [only, Read.answersOf, Read.answersOf, registered]

/-- A question that is no node read could be answered by a database with the tree of any other. -/
theorem sameNodes_separates (lock : RegistryIndex) (reg : ZKCertificateRegistry)
    (address : Address) (before : Database) :
    Shared.Separates (requestInterface lock) (NodeQuery reg.leafView.registryIndex)
      (SameIndex address before) (SameNodes reg) where
  refl _ _ _ := rfl
  unwatched := by
    intro snapshot contents query answer fromSnapshot fromContents unwatched answered
    have kept : Shared.Sees (SameIndex address before) (SameNodes reg) snapshot snapshot :=
      ⟨fromSnapshot, fun _ _ => rfl⟩
    cases query with
    | rLock index => exact ⟨snapshot, kept, trivial⟩
    | rUnlock index => exact ⟨snapshot, kept, trivial⟩
    | isOnHead index => exact ⟨snapshot, kept, trivial⟩
    | read query =>
        cases query with
        | ctxDone => exact ⟨snapshot, kept, answered⟩
        | get key =>
            have value : answer = .ok ((contents.lookup key).getD []) := answered
            by_cases index : key = makeRegistryIndexKey address
            · refine ⟨snapshot, kept, value.trans ?_⟩
              rw [index, show contents.lookup _ = _ from fromContents, ← fromSnapshot]
              rfl
            · -- the entry is put into the snapshot
              have others : ∀ other, key ≠ other →
                  (Store.write snapshot [.set key ((contents.lookup key).getD [])]).lookup other =
                    snapshot.lookup other := fun other apart =>
                Store.lookup_write_of_none (by rw [lastEffect_singleton]; exact if_neg apart)
              refine ⟨Store.write snapshot [.set key ((contents.lookup key).getD [])],
                ⟨(others _ index).trans fromSnapshot, fun level index => others _ fun same => ?_⟩,
                value.trans ?_⟩
              · exact unwatched ⟨level, index, by rw [same]⟩
              · change _ = Except.ok _
                rw [Store.lookup_write, lastEffect_singleton]
                simp [WriteOp.key, WriteOp.left]

/-- The contract may emit anything. -/
def AnyOperations (_database : Database) (_operations : List LeafOperation) : Prop :=
  True

/-! #### Requests across commits -/

/-- The request of the small runs: one addition. -/
def additionRequest : QueryBatchProofsRequest :=
  ⟨"0x00", [⟨"9", true⟩]⟩

/-- The request is called. -/
def batchCall : Serving QueryBatchProofsResponse :=
  Shared.start Batch registeredDatabase
    (smallServer.getBatchProofs fieldHash (Stream'.const 2) additionRequest)

/-- The reader alone, for a number of queries. -/
def askedFor (count : Nat) (s : Serving QueryBatchProofsResponse) :
    Serving QueryBatchProofsResponse :=
  Shared.serve (requestInterface smallJob.registry.mutex) headAnswers count s

/-- The operations are committed at this moment, and the request goes on for a number of queries. -/
def acrossCommit (operations : List LeafOperation) (block : UInt64) (count : Nat)
    (s : Serving QueryBatchProofsResponse) : Serving QueryBatchProofsResponse :=
  askedFor count
    (Shared.commit Store.write (batchOf fieldHash smallJob s.contents operations block) s)

section Across

variable {operations : List LeafOperation} {block : UInt64} {count : Nat}
variable {s : Serving QueryBatchProofsResponse}
variable {guard : Serving QueryBatchProofsResponse → Serving QueryBatchProofsResponse → Prop}

theorem askedFor_run (reads : ∀ a b, b.contents = a.contents → guard a b)
    (idle : s.writer = .idle) :
    Relation.ReflTransGen (fun a b => ServingStep fieldHash smallJob AnyOperations a b ∧ guard a b)
      s (askedFor count s) :=
  Shared.serve_run_of_answer (headAnswers_honest _)
    (fun s => reads s _ Shared.answer_frame.1) count idle

/-- Such a piece of a run, under any guard that reads and this commit meet. -/
theorem acrossCommit_run (reads : ∀ a b, b.contents = a.contents → guard a b)
    (commits : ∀ a b, a.asked = s.asked → a.contents = s.contents → b.contents = Store.write
      s.contents (batchOf fieldHash smallJob s.contents operations block) → guard a b)
    (idle : s.writer = .idle) (free : s.reading = false)
    (returns : (Read.evalOn s.contents
      (smallJob.commitBatch fieldHash operations block)).isOk = true) :
    Relation.ReflTransGen (fun a b => ServingStep fieldHash smallJob AnyOperations a b ∧ guard a b)
      s (acrossCommit operations block count s) := by
  have commit : Relation.ReflTransGen
      (fun a b => ServingStep fieldHash smallJob AnyOperations a b ∧ guard a b) s
      (Shared.commit Store.write (batchOf fieldHash smallJob s.contents operations block) s) := by
    apply Shared.commit_run _ idle free
    · exact ⟨operations, block, trivial, evalOn_commitBatch_eq_batchOf returns⟩
    · intro a b asked _ change
      rcases change with same | ⟨before, after⟩
      · exact reads a b same
      · exact commits a b asked before after
  exact commit.trans (askedFor_run reads idle)

theorem acrossCommit_frame :
    (acrossCommit operations block count s).contents = Store.write s.contents
        (batchOf fieldHash smallJob s.contents operations block) ∧
      (acrossCommit operations block count s).writer = s.writer ∧
      (acrossCommit operations block count s).seen = Store.write s.contents
        (batchOf fieldHash smallJob s.contents operations block) :: s.seen :=
  Shared.serve_frame count

end Across

/-- The request has found its registry; then a leaf is added, and the initial root is read. -/
def addedBefore : Serving QueryBatchProofsResponse :=
  acrossCommit [⟨⟨1, 7⟩, .addition⟩] 1 1 (askedFor 2 batchCall)

/-- The request has read the initial root. -/
def rootRead : Serving QueryBatchProofsResponse :=
  askedFor 3 batchCall

theorem rootRead_frame : rootRead.contents = registeredDatabase ∧ rootRead.writer = .idle ∧
    rootRead.seen = [registeredDatabase] :=
  Shared.serve_frame 3

/-- In every interleaving of a batch proof request with commits, none of which changes a node of
the registry's tree between the first node read of the simulation and the last one, the response is
that of a simulation on one database that was committed during the request. -/
theorem batchProofs_of_one_snapshot {poseidon : PoseidonHash} {job : ZkCertificateRegistryJob}
    {server : Server} {req : QueryBatchProofsRequest} {draws : Stream' UInt64}
    {database : Database} (built : InitializedRegistry poseidon job.registry)
    (found : Read.evalOn database (server.registryService.zkCertificateRegistry
      (server.hexToAddress req.registry)) = .ok job.registry)
    {s : Serving QueryBatchProofsResponse}
    (run : Relation.ReflTransGen
      (fun a b => ServingStep poseidon job AnyOperations a b ∧ KeepsNodes job a b)
      (Shared.start Batch database (server.getBatchProofs poseidon draws req)) s)
    {response : QueryBatchProofsResponse} (returned : s.reader = .done response) :
    ∃ committed ∈ s.seen,
      SimulatedOn poseidon server job.registry draws req committed response := by
  obtain ⟨committed, seen, mode, ended⟩ := Shared.snapshot_of_window
    (fun _ _ _ response none => nomatch none)
    (sameNodes_separates job.registry.mutex job.registry (server.hexToAddress req.registry)
      database)
    (fun contents batch registered computed =>
      (computed.lookup_registryIndexKey built _).trans registered)
    (fun a b keeps between snapshot same level index =>
      (keeps between level index).trans (same level index)) rfl
    (getBatchProofs_plain poseidon server draws req job.registry.mutex)
    (fun snapshot registered => ensures_getBatchProofs built
      ((zkCertificateRegistry_of_registered registered).trans found)
      (fun contents sees => sees.1.trans registered.symm) fun contents sees => sees.2)
    run returned
  exact ⟨committed, seen, ended response rfl⟩

/-- Runs next to commits that keep the nodes while the simulation reads them. -/
abbrev KeepingRun :=
  Relation.ReflTransGen fun a b : Serving QueryBatchProofsResponse =>
    ServingStep fieldHash smallJob AnyOperations a b ∧ KeepsNodes smallJob a b

theorem keepsNodes_of_contents {a b : Serving QueryBatchProofsResponse}
    (same : b.contents = a.contents) : KeepsNodes smallJob a b :=
  fun _ level index => by rw [same]

/-- No node has been read by then, so the addition may change the tree. -/
theorem addedBefore_run : KeepingRun batchCall addedBefore := by
  have found : KeepingRun batchCall (askedFor 2 batchCall) :=
    askedFor_run (fun _ _ => keepsNodes_of_contents) rfl
  refine found.trans (acrossCommit_run (fun _ _ => keepsNodes_of_contents)
    (fun a b asked _ _ between => ?_) rfl rfl (by decide))
  obtain ⟨⟨query, member, level, index, rfl⟩, _⟩ := between
  rw [asked, show (askedFor 2 batchCall).asked = [.isOnHead 0,
    .read (.get (makeRegistryIndexKey 0))] from rfl] at member
  simp only [List.mem_cons, reduceCtorEq, RequestQuery.read.injEq, ReadQuery.get.injEq,
    List.not_mem_nil, or_false, false_or] at member
  exact absurd member.symm ((makeRegistryIndexKey_noRegistryKey _ _).1 level index)

/-- A leaf is added before the first node read, and the job records its progress while the
simulation is running. -/
theorem batchProofs_of_one_snapshot_progress :
    ∃ committed ∈ (acrossCommit [] 2 30 addedBefore).seen,
      (acrossCommit [] 2 30 addedBefore).reader = .done ⟨"422", [⟨2, ["5", "58"]⟩]⟩ ∧
      SimulatedOn fieldHash smallServer smallRegistry (Stream'.const 2) additionRequest committed
        ⟨"422", [⟨2, ["5", "58"]⟩]⟩ := by
  have recorded : KeepingRun addedBefore (acrossCommit [] 2 30 addedBefore) := by
    refine acrossCommit_run (fun _ _ => keepsNodes_of_contents)
      (fun a b _ before after _ level index => ?_) rfl rfl (by decide)
    rw [before, after]
    apply Store.lookup_write_of_none
    exact lastEffect_record smallJob.registry.leafView.registryIndex smallJob.jobDescriptor _ _
      fun outside => outside.1 level index rfl
  have returned : (acrossCommit [] 2 30 addedBefore).reader =
      .done ⟨"422", [⟨2, ["5", "58"]⟩]⟩ := by
    apply Shared.reader_of_outcome
    decide
  obtain ⟨committed, seen, simulated⟩ := batchProofs_of_one_snapshot smallRegistry_built rfl
    (addedBefore_run.trans recorded) returned
  exact ⟨committed, seen, returned, simulated⟩

/-- A leaf is added after the simulation has read the initial root: the response has the root of
the database before and the path of the database after. -/
theorem batchProofs_of_two_snapshots :
    ∃ s response,
      Read.evalOn registeredDatabase (smallServer.registryService.zkCertificateRegistry
        (smallServer.hexToAddress additionRequest.registry)) = .ok smallJob.registry ∧
      Relation.ReflTransGen (ServingStep fieldHash smallJob AnyOperations)
        (Shared.start Batch registeredDatabase
          (smallServer.getBatchProofs fieldHash (Stream'.const 2) additionRequest)) s ∧
      s.reader = .done response ∧
      ¬ ∃ committed ∈ s.seen, SimulatedOn fieldHash smallServer smallJob.registry
        (Stream'.const 2) additionRequest committed response := by
  refine ⟨acrossCommit [⟨⟨1, 7⟩, .addition⟩] 1 30 rootRead, ⟨"392", [⟨2, ["5", "58"]⟩]⟩, rfl, ?_,
    ?_, ?_⟩
  · have first : Relation.ReflTransGen (fun a b =>
        ServingStep fieldHash smallJob AnyOperations a b ∧ True) batchCall rootRead :=
      askedFor_run (fun _ _ _ => trivial) rfl
    exact GuardedRun.steps (first.trans (acrossCommit_run (fun _ _ _ => trivial)
      (fun _ _ _ _ _ => trivial) rootRead_frame.2.1 rfl (by decide)))
  · apply Shared.reader_of_outcome
    decide
  · rintro ⟨committed, seen, operations, root, proofs, converted, _, simulated, same⟩
    have operation : smallServer.convertOperations 0 additionRequest.operations =
        .ok [⟨⟨0, 9⟩, .addition⟩] := by decide
    rw [operation] at converted
    cases converted
    have states : (acrossCommit [⟨⟨1, 7⟩, .addition⟩] 1 30 rootRead).seen =
        [Store.write registeredDatabase
          (batchOf fieldHash smallJob registeredDatabase [⟨⟨1, 7⟩, .addition⟩] 1),
          registeredDatabase] := by
      rw [acrossCommit_frame.2.2, rootRead_frame.1, rootRead_frame.2.2]
    rw [states, List.mem_pair] at seen
    rcases seen with rfl | rfl
    · have after : Read.evalOn (Store.write registeredDatabase
          (batchOf fieldHash smallJob registeredDatabase [⟨⟨1, 7⟩, .addition⟩] 1))
          (smallRegistry.sparseTree.simulateBatchOperations fieldHash [⟨⟨0, 9⟩, .addition⟩]
            (Stream'.const 2)) = .ok (422, [⟨2, [5, 58]⟩]) := by decide
      cases simulated.symm.trans after
      exact absurd same (by decide)
    · have before : Read.evalOn registeredDatabase
          (smallRegistry.sparseTree.simulateBatchOperations fieldHash [⟨⟨0, 9⟩, .addition⟩]
            (Stream'.const 2)) = .ok (392, [⟨2, [5, 48]⟩]) := by decide
      cases simulated.symm.trans before
      exact absurd same (by decide)

end MerkleProofService
