/-
Module: MerkleProofService.Proofs.RegistryInitialization
Layer: Proofs
Purpose: One call of `InitializeRegistry`.  The index of an address is stored before its metadata,
  which carries a copy of it.  Whatever fails, and while others write their own entries, the call
  gives a number to its address at most, stores no metadata with another number, and returns an
  instance that reads, writes and locks under the number of its address.
Imports: Proofs.IndexFailures, Proofs.KeySpace
Trusted boundary: none
Main exports: SameRegistrations, Registered, Grows, Registers, OwnIndex,
  registers_initializeRegistry
-/
import MerkleProofService.Proofs.IndexFailures
import MerkleProofService.Proofs.KeySpace

namespace MerkleProofService

open Library
open ServiceProgram

/-! ### Stored registrations -/

/-- The indexes, the counter and the metadata are the same; the rest may have changed. -/
structure SameRegistrations (before after : Database) : Prop extends SameIndexes before after where
  metadata : ∀ address, after.lookup (makeZKCertificateRegistryKey address) =
    before.lookup (makeZKCertificateRegistryKey address)

namespace SameRegistrations

theorem refl (database : Database) : SameRegistrations database database :=
  ⟨⟨fun _ => rfl, rfl⟩, fun _ => rfl⟩

theorem trans {first second third : Database} (one : SameRegistrations first second)
    (two : SameRegistrations second third) : SameRegistrations first third :=
  ⟨⟨fun address => (two.entries address).trans (one.entries address),
    two.counter.trans one.counter⟩,
    fun address => (two.metadata address).trans (one.metadata address)⟩

/-- What a batch says nothing about is the same after it. -/
theorem write {batch : Batch} (database : Database)
    (beside : WritesOnly {key | (∀ address, key ≠ .addressIndex address) ∧ key ≠ .indexCounter ∧
      ∀ address, key ≠ .metadata address} batch) :
    SameRegistrations database (Store.write database batch) where
  entries address := Store.lookup_write_of_none
    (beside (.addressIndex address) fun outside => outside.1 address rfl)
  counter := Store.lookup_write_of_none (beside .indexCounter fun outside => outside.2.1 rfl)
  metadata address := Store.lookup_write_of_none
    (beside (.metadata address) fun outside => outside.2.2 address rfl)

/-- The commit of a job changes no registration. -/
theorem commit {poseidon : PoseidonHash} {job : ZkCertificateRegistryJob} {database : Database}
    {operations : List LeafOperation} {block : UInt64} {batch : Batch}
    (built : InitializedRegistry poseidon job.registry)
    (run : Read.evalOn database (job.commitBatch poseidon operations block) = .ok batch) :
    SameRegistrations database (Store.write database batch) := by
  refine write database fun key inside => writesOnly_commitBatch built run key fun own => inside ?_
  rcases own with (⟨_, _, rfl⟩ | ⟨_, rfl⟩) | rfl
  · simp
  · simp
  · simp

end SameRegistrations

theorem makeZKCertificateRegistryKey_ne_nil (address : Address) :
    makeZKCertificateRegistryKey address ≠ [] :=
  List.cons_ne_nil _ _

theorem makeZKCertificateRegistryKey_ne_indexKey (first second : Address) :
    makeZKCertificateRegistryKey first ≠ makeRegistryIndexKey second := by
  intro same
  exact absurd (List.cons.inj same).1 (by decide)

theorem makeZKCertificateRegistryKey_ne_counterKey (address : Address) :
    makeZKCertificateRegistryKey address ≠ makeRegistryIndexCounterKey := by
  intro same
  exact absurd (List.cons.inj same).1 (by decide)

/-- The number an address has in this order, in 8 bits. -/
def indexIn (order : List Address) (address : Address) : RegistryIndex :=
  UInt8.ofNat (order.idxOf address)

/-- The addresses of `order` have their indexes, and stored metadata carries the index of its
address. -/
structure Registered (codec : MetadataCodec) (order : List Address) (database : Database) : Prop
    extends AppliedOrder order database where
  metadata : ∀ address record,
    database.lookup (makeZKCertificateRegistryKey address) = some record →
      address ∈ order ∧ ∃ stored, codec.encode stored = .ok record ∧
        stored.index = indexIn order address

section Registrations

variable {codec : MetadataCodec} {order : List Address} {database now : Database}
variable {address : Address}

theorem registered_empty (codec : MetadataCodec) : Registered codec [] ∅ where
  toAppliedOrder := appliedOrder_empty
  metadata := fun _ _ stored => by cases stored

theorem AppliedOrder.same (applied : AppliedOrder order database)
    (same : SameIndexes database now) : AppliedOrder order now where
  nodup := applied.nodup
  entries := fun address => (same.entries address).trans (applied.entries address)
  counter := same.counter.trans applied.counter

namespace Registered

theorem same (registered : Registered codec order database)
    (same : SameRegistrations database now) : Registered codec order now where
  toAppliedOrder := registered.toAppliedOrder.same same.toSameIndexes
  metadata := fun address record stored =>
    registered.metadata address record ((same.metadata address).symm.trans stored)

/-- A new address takes the next number. -/
theorem snoc (registered : Registered codec order database) (fresh : address ∉ order) :
    Registered codec (order ++ [address]) (Store.write database
      [.set (makeRegistryIndexKey address) [UInt8.ofNat order.length],
        .set makeRegistryIndexCounterKey [UInt8.ofNat order.length]]) where
  toAppliedOrder := registered.toAppliedOrder.snoc fresh
  metadata := fun other record stored => by
    rw [Store.lookup_write_of_none (by
      simp [WriteOp.key, Ne.symm (makeZKCertificateRegistryKey_ne_indexKey other address),
        Ne.symm (makeZKCertificateRegistryKey_ne_counterKey other), lastEffect])] at stored
    obtain ⟨member, metadata, encoded, index⟩ := registered.metadata other record stored
    refine ⟨List.mem_append_left _ member, metadata, encoded, ?_⟩
    rw [index, indexIn, indexIn, List.idxOf_append_of_mem member]

/-- Metadata with the index of its address is stored. -/
theorem setMetadata (registered : Registered codec order database) (member : address ∈ order)
    {metadata : StoredMetadata} {record : Bytes} (encoded : codec.encode metadata = .ok record)
    (index : metadata.index = indexIn order address) :
    Registered codec order (Store.write database
      [.set (makeZKCertificateRegistryKey address) record]) where
  toAppliedOrder := registered.toAppliedOrder.same
    { entries := fun other => Store.lookup_write_of_none (by
        simp [WriteOp.key, makeZKCertificateRegistryKey_ne_indexKey])
      counter := Store.lookup_write_of_none (by
        simp [WriteOp.key, makeZKCertificateRegistryKey_ne_counterKey]) }
  metadata := fun other entry stored => by
    rw [Store.lookup_write, lastEffect_singleton] at stored
    by_cases here : makeZKCertificateRegistryKey address = makeZKCertificateRegistryKey other
    · obtain rfl := makeZKCertificateRegistryKey_inj.mp here
      simp only [WriteOp.key, WriteOp.left, if_true, Option.getD_some, Option.some.injEq] at stored
      subst stored
      exact ⟨member, metadata, encoded, index⟩
    · rw [WriteOp.key, if_neg here, Option.getD_none] at stored
      exact registered.metadata other entry stored

/-- The entry of an applied address holds its index. -/
theorem entry_mem (registered : Registered codec order database) (member : address ∈ order) :
    indexOfEntry ((database.lookup (makeRegistryIndexKey address)).getD []) =
      .ok (indexIn order address) := by
  rw [registered.entries, if_pos member]
  rfl

theorem entry_fresh (registered : Registered codec order database) (fresh : address ∉ order) :
    indexOfEntry ((database.lookup (makeRegistryIndexKey address)).getD []) =
      .error .notFound := by
  rw [registered.entries, if_neg fresh]
  rfl

/-- The index after the counter is the number of applied addresses. -/
theorem nextOfCounter_eq (registered : Registered codec order database) :
    nextOfCounter ((database.lookup makeRegistryIndexCounterKey).getD []) =
      UInt8.ofNat order.length := by
  rw [registered.counter]
  cases order with
  | nil => rfl
  | cons first rest => simp [nextOfCounter, UInt8.ofNat_add]

theorem notMem_iff (registered : Registered codec order database) :
    address ∉ order ↔ database.lookup (makeRegistryIndexKey address) = none := by
  rw [registered.entries]
  by_cases member : address ∈ order <;> simp [member]

end Registered

end Registrations

/-! ### One initialisation -/

/-- At most `address` was given a number, the next one. -/
def Grows (codec : MetadataCodec) (address : Address) (before after : Database) : Prop :=
  ∀ order, Registered codec order before → ∃ order', Registered codec order' after ∧
    order <+: order' ∧ ∀ other ∈ order', other ∈ order ∨ other = address

theorem Grows.refl (codec : MetadataCodec) (address : Address) (database : Database) :
    Grows codec address database database :=
  fun order registered => ⟨order, registered, List.prefix_rfl, fun _ => Or.inl⟩

/-- The computation gives a number to `address` at most, and ends with a value as `good` says, while
others leave the registrations as they are. -/
abbrev Registers (codec : MetadataCodec) (address : Address) {α : Type}
    (good : Database → α → Prop) : ServiceProgram α → Database → Prop :=
  Program.Keeps serviceEnvironment SameRegistrations (Grows codec address) good

section Rules

variable {α β : Type} {codec : MetadataCodec} {address : Address} {database : Database}
variable {good : Database → α → Prop} {key : Bytes} {decode : Bytes → Except GoError α}
variable {read : Read α}

theorem Registers.bind {good' : Database → β → Prop} {program : ServiceProgram α}
    {rest : α → ServiceProgram β}
    (first : Registers codec address
      (fun now value => Registers codec address good' (rest value) now) program database) :
    Registers codec address good' (program.bind rest) database :=
  Program.Keeps.bind SameRegistrations.refl first

theorem Registers.wrapf {program : ServiceProgram α} (text : String)
    (registers : Registers codec address good program database) :
    Registers codec address good (ServiceProgram.wrapf text program) database :=
  Program.Keeps.mapFail registers

/-- Looking at an entry that others leave alone: what is stored, or an error of the database. -/
theorem registers_tryRun {good : Database → Except GoError α → Prop}
    (reads : ReadsEntry key decode read)
    (stable : ∀ now, SameRegistrations database now → now.lookup key = database.lookup key)
    (calm : NoPanic (decode ((database.lookup key).getD [])))
    (stored : ∀ now, SameRegistrations database now →
      good now (decode ((database.lookup key).getD [])))
    (failed : ∀ now, SameRegistrations database now → ∀ failed : DatabaseError,
      good now (.error failed.err)) :
    Registers codec address good (ofRead read.tryRun) database := by
  rw [reads.tryRun_eq]
  intro now same choice
  refine ⟨Grows.refl _ _ _, ?_⟩
  cases (choice : Option DatabaseError) with
  | none =>
      change Registers codec address good (resume .done (decode ((now.lookup key).getD []))) now
      rw [stable now same, resume_of_noPanic calm]
      exact fun later drifts => stored later (same.trans drifts)
  | some error =>
      change Registers codec address good (resume .done (.error error.err)) now
      rw [resume_of_noPanic error.noPanicOutcome]
      exact fun later drifts => failed later (same.trans drifts) error

/-- Reading an entry that others leave alone. -/
theorem registers_read (reads : ReadsEntry key decode read)
    (stable : ∀ now, SameRegistrations database now → now.lookup key = database.lookup key)
    (stored : ∀ now, SameRegistrations database now → ∀ value,
      decode ((database.lookup key).getD []) = .ok value → good now value) :
    Registers codec address good (ofRead read) database := by
  rw [reads.ofRead_eq]
  intro now same choice
  refine ⟨Grows.refl _ _ _, ?_⟩
  cases (choice : Option DatabaseError) with
  | none =>
      refine Program.keeps_ofExcept fun value decoded later drifts => ?_
      have read : decode ((now.lookup key).getD []) = .ok value := decoded
      rw [stable now same] at read
      exact stored later (same.trans drifts) value read
  | some error => exact trivial

theorem registers_writeSync {batch : Batch} {good : Database → Unit → Prop}
    (grows : ∀ now, SameRegistrations database now →
      Grows codec address now (Store.write now batch))
    (written : ∀ now, SameRegistrations database now → ∀ later,
      SameRegistrations (Store.write now batch) later → good later ()) :
    Registers codec address good (writeSync batch) database := by
  intro now same choice
  cases (choice : Option DatabaseError) with
  | none => exact ⟨grows now same, written now same⟩
  | some error => exact ⟨Grows.refl _ _ _, trivial⟩

/-- A contract call changes nothing and may return anything. -/
theorem registers_contract (contractAddress : Address) (call : ContractCall)
    {good : Database → ContractValue call → Prop}
    (returned : ∀ now, SameRegistrations database now → ∀ value, good now value) :
    Registers codec address good (contract contractAddress call) database := by
  intro now same choice
  refine ⟨Grows.refl _ _ _, Program.keeps_ofExcept fun value _ later drifts => ?_⟩
  exact returned later (same.trans drifts) value

end Rules

section Initialize

variable {codec : MetadataCodec} {addressString : Address → String} {order : List Address}
variable {database : Database} {address : Address}

/-- The number of the address is `index`. -/
def NumberedAs (codec : MetadataCodec) (address : Address) (now : Database)
    (index : RegistryIndex) : Prop :=
  ∃ order, Registered codec order now ∧ address ∈ order ∧ index = indexIn order address

/-- What others do changes no number. -/
theorem numberedAs_same (registered : Registered codec order database) (member : address ∈ order)
    (now : Database) (same : SameRegistrations database now) :
    NumberedAs codec address now (indexIn order address) :=
  ⟨order, registered.same same, member, rfl⟩

/-- Setting the next number, once both lookups have found none or failed. -/
theorem registers_setNext (registered : Registered codec order database) (fresh : address ∉ order) :
    Registers codec address (NumberedAs codec address)
      (Program.bind (ServiceProgram.wrapf "set index counter" (.ofExcept (setIndexCounter
        [.set (makeRegistryIndexKey address) [UInt8.ofNat order.length]]
          (UInt8.ofNat order.length)))) fun batch =>
        (ServiceProgram.wrapf "write batch" (writeSync batch)).bind fun _ =>
          .done (UInt8.ofNat order.length)) database := by
  have counted : setIndexCounter [.set (makeRegistryIndexKey address) [UInt8.ofNat order.length]]
      (UInt8.ofNat order.length) = .ok [.set (makeRegistryIndexKey address)
        [UInt8.ofNat order.length], .set makeRegistryIndexCounterKey [UInt8.ofNat order.length]] :=
    rfl
  rw [counted]
  refine Registers.bind (Registers.wrapf _ fun now same => Registers.bind (Registers.wrapf _ ?_))
  refine registers_writeSync ?_ ?_
  · -- whatever order the numbers were given in, the next number is this one
    intro current same' other applied
    have here := registered.same (same.trans same')
    have next : UInt8.ofNat order.length = UInt8.ofNat other.length :=
      here.nextOfCounter_eq.symm.trans applied.nextOfCounter_eq
    rw [next]
    refine ⟨other ++ [address], applied.snoc ?_, List.prefix_append _ _, fun last member => ?_⟩
    · exact applied.notMem_iff.mpr (here.notMem_iff.mp fresh)
    · rwa [List.mem_append, List.mem_singleton] at member
  · intro current same' later drifts final drifts'
    refine ⟨order ++ [address], ((registered.same (same.trans same')).snoc fresh).same
      (drifts.trans drifts'), by simp, ?_⟩
    rw [indexIn, List.idxOf_append_of_notMem fresh]
    simp

/-- `setIndex` queues the index of an address that has none, also if its lookup fails. -/
theorem registers_setIndex (registered : Registered codec order database) (fresh : address ∉ order)
    {good : Database → Batch → Prop} {index : RegistryIndex}
    (queued : ∀ now, SameRegistrations database now →
      good now [.set (makeRegistryIndexKey address) [index]]) :
    Registers codec address good (ofRead (setIndex addressString [] address index)) database := by
  rw [ofRead_setIndex]
  intro now same choice
  refine ⟨Grows.refl _ _ _, ?_⟩
  have goesOn : ∀ later, SameRegistrations now later →
      good later [.set (makeRegistryIndexKey address) [index]] :=
    fun later drifts => queued later (same.trans drifts)
  cases (choice : Option DatabaseError) with
  | none =>
      have missing : decodeAnswer indexOfEntry
          (getAnswer now (makeRegistryIndexKey address) none) = .error .notFound :=
        (registered.same same).entry_fresh fresh
      change Registers codec address good (.ofExcept (setIndexAfter addressString [] address index
        (decodeAnswer indexOfEntry (getAnswer now (makeRegistryIndexKey address) none)))) now
      rw [missing]
      exact goesOn
  | some error =>
      change Registers codec address good (.ofExcept (setIndexAfter addressString [] address index
        (.error error.err))) now
      rw [setIndexAfter_failed]
      exact goesOn

/-- `ApplyAddressToIndex` numbers an address that has no number. -/
theorem registers_applyAddressToIndex (registered : Registered codec order database)
    (fresh : address ∉ order) :
    Registers codec address (NumberedAs codec address)
      (applyAddressToIndexSync addressString address) database := by
  have missing := registered.entry_fresh fresh
  -- after the first lookup, whether it found nothing or failed
  have applies : ∀ now, SameRegistrations database now →
      Registers codec address (NumberedAs codec address)
        (Program.bind (ofRead (Read.wrapf "get next address index" getNextRegistryIndex))
          fun index => Program.bind (ofRead (Read.wrapf "set address to index"
            (setIndex addressString [] address index))) fun batch =>
              Program.bind (ServiceProgram.wrapf "set index counter"
                (.ofExcept (setIndexCounter batch index))) fun batch =>
                  (ServiceProgram.wrapf "write batch" (writeSync batch)).bind fun _ =>
                    .done index) now := by
    intro now same
    rw [ofRead_wrapf]
    refine Registers.bind (Registers.wrapf _ (registers_read readsEntry_getNextRegistryIndex
      (fun later drifts => drifts.counter) fun later drifts index counted => ?_))
    obtain rfl : nextOfCounter _ = index := Except.ok.inj counted
    rw [(registered.same same).nextOfCounter_eq, ofRead_wrapf]
    refine Registers.bind (Registers.wrapf _ (registers_setIndex
      (registered.same (same.trans drifts)) fresh fun final drifts' => ?_))
    exact registers_setNext (registered.same (same.trans (drifts.trans drifts'))) fresh
  refine Registers.bind (registers_tryRun (readsEntry_findRegistryIndex address)
    (fun now same => same.entries address) (indexOfEntry_noPanic _) ?_ ?_)
  · intro now same
    rw [missing]
    exact applies now same
  · intro now same failed
    exact applies now same

/-- The index is found, or given. -/
theorem registers_findOrApplyIndex (registered : Registered codec order database) :
    Registers codec address (NumberedAs codec address)
      (findOrApplyIndex addressString address) database := by
  refine Registers.bind (registers_tryRun (readsEntry_findRegistryIndex address)
    (fun now same => same.entries address) (indexOfEntry_noPanic _) ?_ ?_)
  · intro now same
    by_cases member : address ∈ order
    · rw [registered.entry_mem member]
      exact numberedAs_same (registered.same same) member
    · rw [registered.entry_fresh member]
      exact Registers.wrapf _ (registers_applyAddressToIndex (registered.same same) member)
  · intro now same failed
    simp only [failed.foreign]
    exact trivial

/-- The metadata an entry holds. -/
def metadataOfEntry (codec : MetadataCodec) (entry : Bytes) : Except GoError StoredMetadata :=
  if entry.length = 0 then .error .notFound
  else (codec.decode entry).mapError (.wrapf "decode metadata")

theorem readsEntry_getMetadata (codec : MetadataCodec) (address : Address) :
    ReadsEntry (makeZKCertificateRegistryKey address) (metadataOfEntry codec)
      (getMetadata codec address) := by
  rw [ReadsEntry, getMetadata, Program.bind_eq]
  congr 1
  funext entry
  unfold metadataOfEntry
  split <;> rfl

/-- The entry of an address is missing, or holds metadata with the index of the address. -/
theorem Registered.metadataOfEntry_cases (roundTrips : codec.RoundTrips)
    (registered : Registered codec order database) (address : Address) :
    metadataOfEntry codec ((database.lookup (makeZKCertificateRegistryKey address)).getD []) =
        .error .notFound ∨
      ∃ stored, metadataOfEntry codec
          ((database.lookup (makeZKCertificateRegistryKey address)).getD []) = .ok stored ∧
        stored.index = indexIn order address := by
  cases entry : database.lookup (makeZKCertificateRegistryKey address) with
  | none => exact Or.inl rfl
  | some record =>
      obtain ⟨_, stored, encoded, index⟩ := registered.metadata address record entry
      obtain ⟨nonempty, decoded⟩ := roundTrips stored record encoded
      refine Or.inr ⟨stored, ?_, index⟩
      rw [Option.getD_some, metadataOfEntry,
        if_neg fun none => nonempty (List.length_eq_zero_iff.mp none), decoded]
      rfl

theorem registers_fetchMetadata {good : Database → StoredMetadata → Prop}
    (fetched : ∀ now, SameRegistrations database now → ∀ metadata,
      metadata.address = address → good now metadata) :
    Registers codec address good (fetchMetadataFromContract address) database := by
  refine Registers.bind (Registers.wrapf _ (registers_contract _ _ fun _ same₁ _ => ?_))
  refine Registers.bind (Registers.wrapf _ (registers_contract _ _ fun _ same₂ _ => ?_))
  refine Registers.bind (Registers.wrapf _ (registers_contract _ _ fun _ same₃ _ => ?_))
  refine Registers.bind (Registers.wrapf _ (registers_contract _ _ fun _ same₄ _ => ?_))
  refine Registers.bind (Registers.wrapf _ (registers_contract _ _ fun _ same₅ _ => ?_))
  exact fun now drifts => fetched now
    (same₁.trans (same₂.trans (same₃.trans (same₄.trans (same₅.trans drifts))))) _ rfl

/-- Orders of the same numbers have the same number for an address. -/
theorem Registered.indexIn_eq {other : List Address} (registered : Registered codec order database)
    (applied : Registered codec other database) (member : address ∈ order) :
    address ∈ other ∧ indexIn other address = indexIn order address := by
  have found : address ∈ other := by
    by_contra fresh
    exact registered.notMem_iff.mpr (applied.notMem_iff.mp fresh) member
  exact ⟨found, Except.ok.inj ((applied.entry_mem found).symm.trans (registered.entry_mem member))⟩

/-- `SetMetadata` queues one entry. -/
theorem setMetadata_eq_ok {metadata : StoredMetadata} {batch : Batch}
    (queued : setMetadata codec [] metadata = .ok batch) :
    ∃ record, codec.encode metadata = .ok record ∧
      batch = [.set (makeZKCertificateRegistryKey metadata.address) record] := by
  rw [setMetadata, except_bind_eq_ok] at queued
  obtain ⟨record, encoded, set⟩ := queued
  rw [Batch.set, if_neg (makeZKCertificateRegistryKey_ne_nil _)] at set
  exact ⟨record, except_mapError_eq_ok.mp encoded, (Except.ok.inj set).symm⟩

/-- Metadata that is fetched is stored with the index of the address. -/
theorem registers_storeFetched (registered : Registered codec order database)
    (member : address ∈ order) :
    Registers codec address
      (fun now metadata => Registered codec order now ∧ metadata.index = indexIn order address)
      (Program.bind (ServiceProgram.wrapf "failed to fetch metadata from contract"
          (fetchMetadataFromContract address)) fun fetched =>
        Program.bind (ServiceProgram.wrapf "failed to set metadata" (.ofExcept
          (setMetadata codec [] { fetched with index := indexIn order address }))) fun batch =>
          (ServiceProgram.wrapf "failed to write batch" (writeSync batch)).bind fun _ =>
            .done { fetched with index := indexIn order address }) database := by
  refine Registers.bind (Registers.wrapf _ (registers_fetchMetadata fun now same
    fetched sameAddress => ?_))
  refine Registers.bind (Registers.wrapf _ (Program.keeps_ofExcept fun batch queued later
    drifts => ?_))
  have here := registered.same (same.trans drifts)
  obtain ⟨record, encoded, rfl⟩ := setMetadata_eq_ok queued
  simp only [sameAddress]
  refine Registers.bind (Registers.wrapf _ (registers_writeSync ?_ ?_))
  · intro current drifts other applied
    obtain ⟨known, sameIndex⟩ := (here.same drifts).indexIn_eq applied member
    exact ⟨other, applied.setMetadata known encoded sameIndex.symm, List.prefix_rfl,
      fun _ => Or.inl⟩
  · intro current drifts written drifts' final drifts₂
    exact ⟨((here.same drifts).setMetadata member encoded rfl).same (drifts'.trans drifts₂), rfl⟩

/-- The metadata is found, or fetched and stored, with the index of the address. -/
theorem registers_findOrFetchMetadata (roundTrips : codec.RoundTrips)
    (registered : Registered codec order database) (member : address ∈ order) :
    Registers codec address
      (fun now metadata => Registered codec order now ∧ metadata.index = indexIn order address)
      (findOrFetchMetadata codec address (indexIn order address)) database := by
  have entry := registered.metadataOfEntry_cases roundTrips address
  refine Registers.bind (registers_tryRun (readsEntry_getMetadata codec address)
    (fun _ same => same.metadata address) ?_ ?_ ?_)
  · rcases entry with missing | ⟨stored, found, _⟩
    · rw [missing]
      intro reason same
      cases same
    · rw [found]
      exact NoPanic.ok _
  · intro now same
    rcases entry with missing | ⟨stored, found, index⟩
    · rw [missing]
      exact registers_storeFetched (registered.same same) member
    · rw [found]
      exact fun later drifts => ⟨registered.same (same.trans drifts), index⟩
  · intro now same failed
    simp only [failed.foreign]
    exact trivial

/-- The instance reads, writes and locks under the number of its address. -/
structure OwnIndex (order : List Address) (address : Address) (reg : ZKCertificateRegistry) :
    Prop where
  member : address ∈ order
  metadata : reg.metadata.index = indexIn order address
  leafView : reg.leafView.registryIndex = indexIn order address
  mutex : reg.mutex = indexIn order address
  tree : reg.sparseTree.storageLeafGetter = LeafView.getter ⟨indexIn order address⟩

/-- What `InitializeRegistry` returns. -/
def GoodInstance (codec : MetadataCodec) (address : Address) (now : Database)
    (made : RegistryIndex × ZKCertificateRegistry) : Prop :=
  ∃ order, Registered codec order now ∧ OwnIndex order address made.2 ∧
    made.1 = made.2.leafView.registryIndex

theorem registers_initializeRegistry (roundTrips : codec.RoundTrips)
    (registered : Registered codec order database) :
    Registers codec address (GoodInstance codec address)
      (initializeRegistry codec addressString address) database := by
  refine Registers.bind (Program.Keeps.weaken ?_ (registers_findOrApplyIndex registered))
  rintro now _ ⟨applied, numbered, member, rfl⟩
  refine Registers.bind (Program.Keeps.weaken ?_
    (registers_findOrFetchMetadata roundTrips numbered member))
  rintro later metadata ⟨stillNumbered, index⟩ final drifts
  exact ⟨applied, stillNumbered.same drifts,
    { member := member
      metadata := index
      leafView := rfl
      mutex := rfl
      tree := rfl }, rfl⟩

end Initialize

end MerkleProofService
