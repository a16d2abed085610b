/-
Module: MerkleProofService.Proofs.JobMap
Layer: Proofs
Purpose: The job storage as an ordered map.  Calls of `UpsertJob` and `DeleteJob`, queued in batches
  beside writes of entries of all other kinds, refine updates of a map from descriptors to blocks;
  `SelectAllJobs` lists the map in the order of the descriptors, and `SelectJob` looks it up.
Imports: Proofs.StartUp
Trusted boundary: none
Main exports: OtherKey, JobCall, JobCall.queue, writeBatches, JobMap, JobMap.perform, Represents,
  Represents.perform, JobDescriptor.Before, makeJobKey_lt_iff, jobStorage_is_ordered_map
-/
import MerkleProofService.Proofs.StartUp

namespace MerkleProofService

open Library

/-! ### Calls and batches -/

/-- A key of an entry that is not a job. -/
abbrev OtherKey := { key : StoreKey // key.firstByte ≠ jobKeyPrefix }

/-- What is queued in a batch. -/
inductive JobCall where
  | upsert (job : Job)
  | delete (jobDescriptor : JobDescriptor)
  /-- A leaf, a leaf index, metadata, a registry index or the counter is written. -/
  | setOther (key : OtherKey) (value : Bytes)
  | deleteOther (key : OtherKey)

def JobCall.queue (codec : JobCodec) (batch : Batch) : JobCall → Except GoError Batch
  | .upsert job => upsertJob codec batch job
  | .delete jobDescriptor => deleteJob batch jobDescriptor
  | .setOther key value => batch.set key.1.bytes value
  | .deleteOther key => batch.delete key.1.bytes

/-- A batch is filled call by call. -/
def queueCalls (codec : JobCodec) : List JobCall → Batch → Except GoError Batch
  | [], batch => .ok batch
  | call :: calls, batch => (call.queue codec batch).bind (queueCalls codec calls)

/-- Batches are filled and written one after the other. -/
def writeBatches (codec : JobCodec) : List (List JobCall) → Database → Except GoError Database
  | [], database => .ok database
  | calls :: batches, database =>
      (queueCalls codec calls []).bind fun batch =>
        writeBatches codec batches (Store.write database batch)

/-! ### The map -/

/-- The block each stored job has reached. -/
abbrev JobMap := JobDescriptor → Option UInt64

/-- What a call is for. -/
def JobMap.perform (map : JobMap) : JobCall → JobMap
  | .upsert job => Function.update map job.descriptor (some job.currentBlock)
  | .delete jobDescriptor => Function.update map jobDescriptor none
  | .setOther _ _ | .deleteOther _ => map

/-- The database holds the map: each of its jobs as a record, no other job, and else only entries of
the other kinds. -/
structure Represents (codec : JobCodec) (database : Database) (map : JobMap) : Prop where
  kinds : ∀ key value, database.lookup key = some value → ∃ kind : StoreKey, kind.bytes = key
  stored : ∀ jobDescriptor block, map jobDescriptor = some block →
    ∃ record, codec.encode ⟨jobDescriptor, block⟩ = .ok record ∧
      database.lookup (makeJobKey jobDescriptor) = some record
  absent : ∀ jobDescriptor, map jobDescriptor = none →
    database.lookup (makeJobKey jobDescriptor) = none

section Refinement

variable {codec : JobCodec} {database : Database} {map : JobMap}

theorem OtherKey.bytes_ne_makeJobKey (key : OtherKey) (jobDescriptor : JobDescriptor) :
    key.1.bytes ≠ makeJobKey jobDescriptor := by
  intro same
  have equal : key.1 = .job jobDescriptor := StoreKey.bytes_injective same
  exact key.2 (equal ▸ rfl)

theorem OtherKey.bytes_ne_nil (key : OtherKey) : key.1.bytes ≠ [] := by
  intro empty
  have first := key.1.head?_bytes
  rw [empty] at first
  cases first

/-- The kinds of the keys after one operation on a key of some kind. -/
theorem Represents.kinds_apply (represents : Represents codec database map) (kind : StoreKey)
    {op : WriteOp Bytes Bytes} (own : kind.bytes = op.key) (key value : Bytes)
    (held : (Store.apply database op).lookup key = some value) :
    ∃ kind : StoreKey, kind.bytes = key := by
  rw [Store.lookup_apply] at held
  by_cases same : op.key = key
  · exact ⟨kind, own.trans same⟩
  · rw [if_neg same] at held
    exact represents.kinds key value held

/-- An operation on the record of one job is an update of the map. -/
theorem Represents.update (represents : Represents codec database map)
    {jobDescriptor : JobDescriptor} {op : WriteOp Bytes Bytes} {block : Option UInt64}
    (own : op.key = makeJobKey jobDescriptor)
    (leaves : ∀ reached, block = some reached → ∃ record,
      codec.encode ⟨jobDescriptor, reached⟩ = .ok record ∧ op.left = some record)
    (removes : block = none → op.left = none) :
    Represents codec (Store.apply database op) (Function.update map jobDescriptor block) := by
  have here : (Store.apply database op).lookup (makeJobKey jobDescriptor) = op.left := by
    rw [Store.lookup_apply, if_pos own]
  have elsewhere : ∀ other, other ≠ jobDescriptor →
      (Store.apply database op).lookup (makeJobKey other) =
        database.lookup (makeJobKey other) := by
    intro other different
    rw [Store.lookup_apply, own, if_neg fun same => different (makeJobKey_inj.mp same).symm]
  apply Represents.mk
  · exact represents.kinds_apply (.job jobDescriptor) own.symm
  · intro other reached held
    by_cases same : other = jobDescriptor
    · subst same
      rw [Function.update_self] at held
      rw [here]
      exact leaves reached held
    · rw [Function.update_of_ne same] at held
      rw [elsewhere other same]
      exact represents.stored other reached held
  · intro other missing
    by_cases same : other = jobDescriptor
    · subst same
      rw [Function.update_self] at missing
      rw [here]
      exact removes missing
    · rw [Function.update_of_ne same] at missing
      rw [elsewhere other same]
      exact represents.absent other missing

/-- An operation on an entry of another kind leaves the map. -/
theorem Represents.other (represents : Represents codec database map) {key : OtherKey}
    {op : WriteOp Bytes Bytes} (own : op.key = key.1.bytes) :
    Represents codec (Store.apply database op) map := by
  have jobs : ∀ jobDescriptor, (Store.apply database op).lookup (makeJobKey jobDescriptor) =
      database.lookup (makeJobKey jobDescriptor) := by
    intro jobDescriptor
    rw [Store.lookup_apply, own, if_neg (key.bytes_ne_makeJobKey jobDescriptor)]
  apply Represents.mk
  · exact represents.kinds_apply key.1 own.symm
  · intro jobDescriptor block held
    rw [jobs]
    exact represents.stored jobDescriptor block held
  · intro jobDescriptor missing
    rw [jobs]
    exact represents.absent jobDescriptor missing

/-- Every call is queued as one operation, which does to the database what the call does to the
map. -/
theorem JobCall.queue_represents (roundTrips : codec.RoundTrips) (call : JobCall)
    (batch : Batch) :
    ∃ op, call.queue codec batch = .ok (batch ++ [op]) ∧
      ∀ {database map}, Represents codec database map →
        Represents codec (Store.apply database op) (JobMap.perform map call) := by
  cases call with
  | upsert job =>
      obtain ⟨record, encoded, _⟩ := roundTrips job
      refine ⟨.set (makeJobKey job.descriptor) record,
        upsertJob_eq_ok.mpr ⟨record, encoded, rfl⟩, fun represents => ?_⟩
      apply represents.update rfl
      · intro reached same
        obtain rfl := Option.some.inj same
        exact ⟨record, encoded, rfl⟩
      · intro none
        cases none
  | delete jobDescriptor =>
      refine ⟨.delete (makeJobKey jobDescriptor), deleteJob_eq batch jobDescriptor,
        fun represents => ?_⟩
      apply represents.update rfl
      · intro reached same
        cases same
      · intro _
        rfl
  | setOther key value =>
      refine ⟨.set key.1.bytes value, ?_, fun represents => ?_⟩
      · exact if_neg key.bytes_ne_nil
      · exact represents.other rfl
  | deleteOther key =>
      refine ⟨.delete key.1.bytes, ?_, fun represents => ?_⟩
      · exact if_neg key.bytes_ne_nil
      · exact represents.other rfl

/-- A batch does to the database what its calls do to the map. -/
theorem queueCalls_represents (roundTrips : codec.RoundTrips) (calls : List JobCall)
    {batch : Batch} (represents : Represents codec (Store.write database batch) map) :
    ∃ filled, queueCalls codec calls batch = .ok filled ∧
      Represents codec (Store.write database filled) (calls.foldl JobMap.perform map) := by
  induction calls generalizing batch map with
  | nil => exact ⟨batch, rfl, represents⟩
  | cons call calls ih =>
      obtain ⟨op, queued, performs⟩ := call.queue_represents roundTrips batch
      have after : Represents codec (Store.write database (batch ++ [op]))
          (JobMap.perform map call) := by
        rw [Store.write_append]
        exact performs represents
      obtain ⟨filled, rest, represents'⟩ := ih after
      refine ⟨filled, ?_, represents'⟩
      rw [queueCalls, queued]
      exact rest

/-- Whole sequences of batches refine the map. -/
theorem writeBatches_represents (roundTrips : codec.RoundTrips) (batches : List (List JobCall))
    (represents : Represents codec database map) :
    ∃ written, writeBatches codec batches database = .ok written ∧
      Represents codec written (batches.flatten.foldl JobMap.perform map) := by
  induction batches generalizing database map with
  | nil => exact ⟨database, rfl, represents⟩
  | cons calls batches ih =>
      obtain ⟨batch, queued, after⟩ := @queueCalls_represents _ database _ roundTrips calls []
        represents
      obtain ⟨written, rest, represents'⟩ := ih after
      refine ⟨written, ?_, ?_⟩
      · rw [writeBatches, queued]
        exact rest
      · rw [List.flatten_cons, List.foldl_append]
        exact represents'

end Refinement

/-! ### Reading the map -/

section Reading

variable {codec : JobCodec} {database : Database} {map : JobMap}

/-- The entries below the prefix of jobs are the records of the map. -/
theorem Represents.storedJobs (represents : Represents codec database map) :
    StoredJobs codec database := by
  intro key value held below
  obtain ⟨kind, rfl⟩ := represents.kinds key value held
  have first : kind.firstByte = jobKeyPrefix := by
    have head := kind.head?_bytes
    obtain ⟨rest, split⟩ := List.isPrefixOf_iff_prefix.mp below
    rw [← split] at head
    exact (Option.some.inj head).symm
  cases kind with
  | job jobDescriptor =>
      cases known : map jobDescriptor with
      | none => exact absurd held (by simp [StoreKey.bytes, represents.absent _ known])
      | some block =>
          obtain ⟨record, encoded, stored⟩ := represents.stored _ _ known
          obtain rfl := Option.some.inj (stored.symm.trans held)
          exact ⟨⟨jobDescriptor, block⟩, rfl, encoded⟩
  | _ => exact absurd first (by simp only [StoreKey.firstByte]; decide)

/-- A record is that of a job of the map. -/
theorem Represents.recorded_iff (roundTrips : codec.RoundTrips)
    (represents : Represents codec database map) (job : Job) :
    Recorded codec database job ↔ map job.descriptor = some job.currentBlock := by
  constructor
  · rintro ⟨record, held, decoded⟩
    cases known : map job.descriptor with
    | none =>
        rw [represents.absent _ known] at held
        cases held
    | some block =>
        obtain ⟨own, encoded, stored⟩ := represents.stored _ _ known
        obtain rfl := Option.some.inj (stored.symm.trans held)
        obtain ⟨again, sameEncoding, _, decodes⟩ := roundTrips ⟨job.descriptor, block⟩
        obtain rfl := Except.ok.inj (sameEncoding.symm.trans encoded)
        have same := Except.ok.inj (decodes.symm.trans decoded)
        exact congrArg (fun found => some (Job.currentBlock found)) same
  · intro known
    obtain ⟨record, encoded, stored⟩ := represents.stored _ _ known
    obtain ⟨again, sameEncoding, _, decodes⟩ := roundTrips job
    obtain rfl := Except.ok.inj (sameEncoding.symm.trans encoded)
    exact ⟨again, stored, decodes⟩

theorem Recorded.evalOn_selectJob {job : Job} (recorded : Recorded codec database job) :
    Read.evalOn database (selectJob codec job.descriptor) = .ok job := by
  obtain ⟨record, held, decoded⟩ := recorded
  simp only [selectJob, Program.bind_eq, Read.evalOn_bind, Read.evalOn_get, Read.evalOn_ofExcept,
    held, Option.getD_some, except_bind_ok, decoded, except_mapError_ok]

/-- The loop of `SelectAllJobs` returns what its entries decode to, unless a query is refused. -/
theorem serve_selectJobs {entries : List (Bytes × Bytes)} {found : List Job}
    (decodes : List.Forall₂ (fun entry job => codec.decode entry.2 = .ok job) entries found)
    (jobs : List Job) {choices : Nat → (query : ConfiguratorQuery) → ConfiguratorChoice query}
    (smooth : ∀ number query, ¬ Refuses query (choices number query)) (s : ConfiguratorState) :
    (selectJobs codec entries jobs).serve configuratorEnvironment choices s =
      (.ok (jobs ++ found), s) := by
  induction decodes generalizing choices jobs with
  | nil => rw [List.append_nil]; rfl
  | @cons entry job entries found decoded _ ih =>
      have goesOn : (choices 0 .ctxDone : Option GoError) = none :=
        not_not.mp (smooth 0 .ctxDone)
      have rest := ih (jobs ++ [job]) fun number query => smooth (number + 1) query
      rw [List.append_assoc] at rest
      -- the one query of the round, and what follows its answer
      change Program.serve configuratorEnvironment (fun number => choices (number + 1)) s
        ((ConfiguratorProgram.check (choices 0 .ctxDone)).bind fun _ =>
          (Program.ofExcept ((codec.decode entry.2).mapError (.wrapf "deserialize job"))).bind
            fun job => selectJobs codec entries (jobs ++ [job])) = _
      rw [goesOn, decoded]
      exact rest

/-- `SelectAllJobs` on a database with stored jobs. -/
theorem AllStored.serve_selectAllJobs {found : List Job} (all : AllStored codec database found)
    {choices : Nat → (query : ConfiguratorQuery) → ConfiguratorChoice query}
    (smooth : ∀ number query, ¬ Refuses query (choices number query)) {s : ConfiguratorState}
    (here : s.database = database) :
    (selectAllJobs codec).serve configuratorEnvironment choices s = (.ok found, s) := by
  subst here
  have created : (choices 0 (.iteratePrefix [jobKeyPrefix]) : Option GoError) = none :=
    not_not.mp (smooth 0 (.iteratePrefix [jobKeyPrefix]))
  change Program.serve configuratorEnvironment (fun number => choices (number + 1)) s
    ((Program.ofExcept (entriesUnless (iteratePrefix s.database [jobKeyPrefix])
      (choices 0 (.iteratePrefix [jobKeyPrefix])))).bind
        fun entries => selectJobs codec entries []) = _
  rw [created]
  exact serve_selectJobs all.decodes [] (fun number query => smooth (number + 1) query) s

end Reading

/-! ### The order -/

/-- Address, then contract, then start block as a number. -/
def JobDescriptor.Before (first second : JobDescriptor) : Prop :=
  first.address.bytes < second.address.bytes ∨ first.address = second.address ∧
    (first.contract < second.contract ∨ first.contract = second.contract ∧
      first.startBlock < second.startBlock)

/-- The keys compare byte by byte like the descriptors. -/
theorem makeJobKey_lt_iff {first second : JobDescriptor} :
    makeJobKey first < makeJobKey second ↔ first.Before second := by
  have blocks := @bigEndian_lt_iff 8 _ _ first.startBlock.toNat_lt second.startBlock.toNat_lt
  have same : ¬ jobKeyPrefix < jobKeyPrefix := by decide
  rw [makeJobKey, makeJobKey, List.cons_lt_cons_iff, append_lt_append_iff (by simp),
    List.cons_lt_cons_iff, blocks, Address.bytes_inj, ← UInt64.lt_iff_toNat_lt]
  simp only [same, false_or, true_and]
  exact Iff.rfl

/-- Jobs listed in the order of their keys are in the order of their descriptors. -/
theorem pairwise_before {database : Database} {found : List Job}
    (inOrder : found.map (fun job => makeJobKey job.descriptor) =
      (Store.keysInOrder (· ≤ ·) database).filter fun key => [jobKeyPrefix].isPrefixOf key) :
    found.Pairwise fun first second => first.descriptor.Before second.descriptor := by
  have sorted : (found.map fun job => makeJobKey job.descriptor).Pairwise
      fun first second => first ≤ second ∧ first ≠ second := by
    rw [inOrder]
    exact ((Store.pairwise_keysInOrder _ database).filter _).and
      ((Store.nodup_keysInOrder _ database).filter _)
  refine (List.pairwise_map.mp sorted).imp ?_
  rintro first second ⟨notAfter, different⟩
  rcases List.le_iff_lt_or_eq.mp notAfter with before | same
  · exact makeJobKey_lt_iff.mp before
  · exact absurd same different

/-! ### The job storage -/

/-- Entries of other kinds only. -/
def NoJobs (database : Database) : Prop :=
  ∀ key value, database.lookup key = some value → ∃ other : OtherKey, other.1.bytes = key

theorem NoJobs.represents {database : Database} (noJobs : NoJobs database) (codec : JobCodec) :
    Represents codec database fun _ => none := by
  apply Represents.mk
  · intro key value held
    obtain ⟨other, same⟩ := noJobs key value held
    exact ⟨other.1, same⟩
  · intro jobDescriptor block held
    cases held
  · intro jobDescriptor _
    cases held : database.lookup (makeJobKey jobDescriptor) with
    | none => rfl
    | some value =>
        obtain ⟨other, same⟩ := noJobs _ value held
        exact absurd same (other.bytes_ne_makeJobKey jobDescriptor)

/-- The job storage is an ordered map.  Whatever calls are made, however they are grouped into
batches and whatever entries of other kinds are there or are written between them, the batches are
written, and then `SelectAllJobs` returns the jobs the calls leave in the map, each descriptor once,
in the order of the descriptors; `SelectJob` of each of them returns the same job. -/
theorem jobStorage_is_ordered_map {codec : JobCodec} (roundTrips : codec.RoundTrips)
    {database : Database} (noJobs : NoJobs database) (batches : List (List JobCall)) :
    ∃ written found, writeBatches codec batches database = .ok written ∧
      (∀ (s : ConfiguratorState)
          (choices : Nat → (query : ConfiguratorQuery) → ConfiguratorChoice query),
        s.database = written → (∀ number query, ¬ Refuses query (choices number query)) →
        (selectAllJobs codec).serve configuratorEnvironment choices s = (.ok found, s)) ∧
      (∀ job, job ∈ found ↔
        batches.flatten.foldl JobMap.perform (fun _ => none) job.descriptor =
          some job.currentBlock) ∧
      (found.map Job.descriptor).Nodup ∧
      (found.Pairwise fun first second => first.descriptor.Before second.descriptor) ∧
      ∀ job ∈ found, Read.evalOn written (selectJob codec job.descriptor) = .ok job := by
  obtain ⟨written, done, represents⟩ :=
    writeBatches_represents roundTrips batches (noJobs.represents codec)
  obtain ⟨found, all, inOrder⟩ := represents.storedJobs.allStored_inOrder roundTrips
  refine ⟨written, found, done, ?_, ?_, all.nodup, pairwise_before inOrder, ?_⟩
  · intro s choices here smooth
    exact all.serve_selectAllJobs smooth here
  · intro job
    rw [← represents.recorded_iff roundTrips]
    constructor
    · exact all.recorded job
    · intro recorded
      have held : (written.lookup (makeJobKey job.descriptor)).isSome := by
        obtain ⟨record, held, _⟩ := recorded
        rw [held]
        rfl
      obtain ⟨other, member, same⟩ := List.mem_map.mp (all.complete job.descriptor held)
      have here := (all.recorded other member).evalOn_selectJob
      rw [same, recorded.evalOn_selectJob] at here
      exact Except.ok.inj here ▸ member
  · intro job member
    exact (all.recorded job member).evalOn_selectJob

/-! ### Three small batches -/

/-- A job of one contract that starts at the block. -/
def jobFrom (startBlock : UInt64) : JobDescriptor :=
  ⟨1, contractZkCertificateRegistry, startBlock⟩

def indexCounterKey : OtherKey := ⟨.indexCounter, by decide⟩

def counterDatabase : Database := Store.apply ∅ (.set indexCounterKey.1.bytes [4])

theorem noJobs_counterDatabase : NoJobs counterDatabase := by
  intro key value held
  rw [counterDatabase, Store.lookup_apply] at held
  by_cases own : indexCounterKey.1.bytes = key
  · exact ⟨indexCounterKey, own⟩
  · rw [WriteOp.key, if_neg own] at held
    cases held

/-- The job from block 256 is deleted and stored again; that from block 2 comes first. -/
def smallBatches : List (List JobCall) :=
  [[.upsert ⟨jobFrom 256, 300⟩, .setOther indexCounterKey [5]],
    [.upsert ⟨jobFrom 2, 9⟩, .delete (jobFrom 256), .upsert ⟨jobFrom 3, 7⟩],
    [.upsert ⟨jobFrom 256, 400⟩, .delete (jobFrom 3)]]

theorem jobStorage_is_ordered_map_small :
    ∃ written, writeBatches fixedCodec smallBatches counterDatabase = .ok written ∧
      (selectAllJobs fixedCodec).serve configuratorEnvironment (fun _ => smoothChoice)
          (initialState written) =
        (.ok [⟨jobFrom 2, 9⟩, ⟨jobFrom 256, 400⟩], initialState written) := by
  obtain ⟨written, found, done, selects, _⟩ :=
    jobStorage_is_ordered_map fixedCodec_roundTrips noJobs_counterDatabase smallBatches
  have selected := selects (initialState written) (fun _ => smoothChoice) rfl
    fun _ => not_refuses_smoothChoice
  refine ⟨written, done, ?_⟩
  have computed : (writeBatches fixedCodec smallBatches counterDatabase).bind (fun written =>
      ((selectAllJobs fixedCodec).serve configuratorEnvironment (fun _ => smoothChoice)
        (initialState written)).1) = .ok [⟨jobFrom 2, 9⟩, ⟨jobFrom 256, 400⟩] := by
    decide +kernel
  rw [done, except_bind_ok, selected] at computed
  exact selected.trans (congrArg (·, initialState written) computed)

end MerkleProofService
