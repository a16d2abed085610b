/-
Module: MerkleProofService.ZkRegistry.LeafStorage
Layer: ZkRegistry
Purpose: Tree nodes and value-to-index entries as bytes in the database
  (`internal/zkregistry/leaf_storage.go`).  A node is stored under its registry, level and
  index; the index of a leaf is stored under its registry and value.  The keys of the two
  kinds are injective and never meet, so each entry can be read back as what was put there.
Imports: Storage.Database
Trusted boundary: human-reviewed spec
Main exports: makeLeafKey, makeLeafIndexKey, LeafView, LeafView.getLeaf, LeafView.getLeafIndex,
  LeafView.setLeafIndex, LeafView.deleteLeafIndex, storedLeaf
-/
import MerkleProofService.Storage.Database

namespace MerkleProofService

open Library

/-- `TreeLevel`. -/
abbrev TreeLevel := UInt8

/-- `TreeLeafIndex`. -/
abbrev TreeLeafIndex := UInt32

/-- `RegistryIndex`. -/
abbrev RegistryIndex := UInt8

/-- `LeafIndexBytesSize`: prefix, registry index and 32-byte value.  The size of a leaf index
key, which the code also gives to the entry stored under it. -/
def leafIndexBytesSize : Nat := 34

/-- The key of a tree node: prefix, registry, level and big-endian index. -/
def makeLeafKey (registryIndex : RegistryIndex) (level : TreeLevel) (index : TreeLeafIndex) :
    Bytes :=
  merkleTreeLeafKeyPrefix :: registryIndex :: level :: bigEndian 4 index.toNat

/-- The key of a value-to-index entry: prefix, registry and the 32 bytes of the value. -/
def makeLeafIndexKey (registryIndex : RegistryIndex) (leafValue : U256) : Bytes :=
  merkleTreeLeafIndexPrefix :: registryIndex :: U256.bytes32 leafValue

/-- A view of the leaf storage for one registry. -/
structure LeafView where
  registryIndex : RegistryIndex
deriving DecidableEq, Repr

namespace LeafView

variable (view : LeafView)

/-- Read a tree node; an entry without bytes counts as absent. -/
def getLeaf (level : TreeLevel) (index : TreeLeafIndex) : Read U256 := do
  let leafBytes ← Read.get (makeLeafKey view.registryIndex level index)
  if leafBytes.length = 0 then .fail .notFound
  else return U256.setBytes leafBytes

/-- `fmt`'s rendering of a byte slice with `%v`. -/
def renderBytes (bytes : Bytes) : String :=
  "[" ++ " ".intercalate (bytes.map fun byte => toString byte.toNat) ++ "]"

/-- The index an entry stores. -/
def leafIndexOfEntry (leafIndexBytes : Bytes) : Except GoError TreeLeafIndex :=
  if leafIndexBytes.length = 0 then .error .notFound
  else if leafIndexBytes.length ≠ leafIndexBytesSize then
    .error (.message ("invalid leaf index bytes: " ++ renderBytes leafIndexBytes))
  else .ok (UInt32.ofNat (decodeBigEndian (leafIndexBytes.take 4)))

/-- Read the index stored for a leaf value. -/
def getLeafIndex (leafValue : U256) : Read TreeLeafIndex := do
  let leafIndexBytes ← Read.get (makeLeafIndexKey view.registryIndex leafValue)
  .ofExcept (leafIndexOfEntry leafIndexBytes)

/-- The entry that stores a leaf index: four bytes, padded to the size of its key. -/
def leafIndexBytes (leafIndex : TreeLeafIndex) : Bytes :=
  bigEndian 4 leafIndex.toNat ++ List.replicate (leafIndexBytesSize - 4) 0

/-- Queue the index of a leaf value. -/
def setLeafIndex (batch : Batch) (leafValue : U256) (leafIndex : TreeLeafIndex) :
    Except GoError Batch :=
  batch.set (makeLeafIndexKey view.registryIndex leafValue) (leafIndexBytes leafIndex)

/-- Queue the removal of a leaf value's index. -/
def deleteLeafIndex (batch : Batch) (leafValue : U256) : Except GoError Batch :=
  batch.delete (makeLeafIndexKey view.registryIndex leafValue)

end LeafView

/-! ### Keys -/

@[simp] theorem makeLeafKey_inj {first second : RegistryIndex} {level other : TreeLevel}
    {index otherIndex : TreeLeafIndex} :
    makeLeafKey first level index = makeLeafKey second other otherIndex ↔
      first = second ∧ level = other ∧ index = otherIndex := by
  constructor
  · intro same
    simp only [makeLeafKey, List.cons.injEq, true_and] at same
    rcases same with ⟨registries, levels, indexes⟩
    have equal := @bigEndian_injective 4 _ _ index.toNat_lt otherIndex.toNat_lt indexes
    exact ⟨registries, levels, UInt32.toNat_inj.mp equal⟩
  · rintro ⟨rfl, rfl, rfl⟩
    rfl

@[simp] theorem makeLeafIndexKey_inj {first second : RegistryIndex} {value other : U256} :
    makeLeafIndexKey first value = makeLeafIndexKey second other ↔
      first = second ∧ value = other := by
  constructor
  · intro same
    simp only [makeLeafIndexKey, List.cons.injEq, true_and] at same
    exact ⟨same.1, U256.bytes32_injective same.2⟩
  · rintro ⟨rfl, rfl⟩
    rfl

@[simp] theorem makeLeafKey_ne_makeLeafIndexKey (first second : RegistryIndex)
    (level : TreeLevel) (index : TreeLeafIndex) (value : U256) :
    makeLeafKey first level index ≠ makeLeafIndexKey second value := by
  intro same
  simp only [makeLeafKey, makeLeafIndexKey, List.cons.injEq] at same
  exact absurd same.1 (by decide)

@[simp] theorem makeLeafKey_ne_nil (registryIndex : RegistryIndex) (level : TreeLevel)
    (index : TreeLeafIndex) : makeLeafKey registryIndex level index ≠ [] :=
  List.cons_ne_nil _ _

@[simp] theorem makeLeafIndexKey_ne_nil (registryIndex : RegistryIndex) (value : U256) :
    makeLeafIndexKey registryIndex value ≠ [] :=
  List.cons_ne_nil _ _

/-! ### What the entries say -/

/-- The node value an entry holds; no entry and an empty one hold none. -/
def nodeOfEntry (entry : Option Bytes) : Option U256 :=
  match entry with
  | none | some [] => none
  | some leafBytes => some (U256.setBytes leafBytes)

/-- The tree node a database stores for a registry. -/
def storedLeaf (database : Database) (registryIndex : RegistryIndex) (level : TreeLevel)
    (index : TreeLeafIndex) : Option U256 :=
  nodeOfEntry (database.lookup (makeLeafKey registryIndex level index))

/-- A missing node is reported as not found. -/
def leafOutcome : Option U256 → Except GoError U256
  | some value => .ok value
  | none => .error .notFound

@[simp] theorem LeafView.evalOn_getLeaf (view : LeafView) (database : Database)
    (level : TreeLevel) (index : TreeLeafIndex) :
    Read.evalOn database (view.getLeaf level index) =
      leafOutcome (storedLeaf database view.registryIndex level index) := by
  simp only [LeafView.getLeaf, Program.bind_eq, Read.evalOn_bind, Read.evalOn_get,
    except_bind_ok, storedLeaf]
  cases database.lookup (makeLeafKey view.registryIndex level index) with
  | none => rfl
  | some leafBytes =>
      cases leafBytes with
      | nil => rfl
      | cons byte rest => rfl

/-- Its error is the missing leaf, so a caller always gets to look at the outcome. -/
theorem LeafView.evalOn_tryRun_getLeaf (view : LeafView) (database : Database)
    (level : TreeLevel) (index : TreeLeafIndex) :
    Read.evalOn database (view.getLeaf level index).tryRun =
      .ok (leafOutcome (storedLeaf database view.registryIndex level index)) := by
  apply Read.evalOn_tryRun database (view.evalOn_getLeaf database level index)
  cases storedLeaf database view.registryIndex level index <;> simp [leafOutcome]

/-- A stored value is read back, except zero, which is stored as an absent node. -/
@[simp] theorem nodeOfEntry_bytes (value : U256) :
    nodeOfEntry (some value.bytes) = if value = 0 then none else some value := by
  by_cases zero : value = 0
  · rw [if_pos zero, (U256.bytes_eq_nil value).mpr zero]
    rfl
  · have nonempty : value.bytes ≠ [] := fun empty => zero ((U256.bytes_eq_nil value).mp empty)
    rw [if_neg zero]
    cases shape : value.bytes with
    | nil => exact absurd shape nonempty
    | cons byte rest =>
        rw [nodeOfEntry, ← shape, U256.setBytes_bytes]
        simp

/-- `Get` does not tell a missing entry from an empty one, and neither holds a node. -/
theorem nodeOfEntry_getD (entry : Option Bytes) :
    nodeOfEntry (some (entry.getD [])) = nodeOfEntry entry := by
  cases entry <;> rfl

/-- A stored leaf index is read back. -/
theorem decode_leafIndexBytes (leafIndex : TreeLeafIndex) :
    UInt32.ofNat (decodeBigEndian ((LeafView.leafIndexBytes leafIndex).take 4)) =
      leafIndex := by
  have head : (LeafView.leafIndexBytes leafIndex).take 4 = bigEndian 4 leafIndex.toNat := by
    rw [LeafView.leafIndexBytes, List.take_append_of_le_length (by simp)]
    exact List.take_of_length_le (by simp)
  rw [head, decodeBigEndian_bigEndian leafIndex.toNat_lt]
  simp

/-- A value without an index is reported as not found. -/
def indexOutcome : Option TreeLeafIndex → Except GoError TreeLeafIndex
  | some leafIndex => .ok leafIndex
  | none => .error .notFound

/-- Looking a value up gives the index of its entry, or not found when there is none. -/
theorem LeafView.evalOn_getLeafIndex {view : LeafView} {database : Database}
    {leafValue : U256} {stored : Option TreeLeafIndex}
    (entry : database.lookup (makeLeafIndexKey view.registryIndex leafValue) =
      stored.map LeafView.leafIndexBytes) :
    Read.evalOn database (view.getLeafIndex leafValue) = indexOutcome stored := by
  simp only [LeafView.getLeafIndex, Program.bind_eq, Read.evalOn_bind, Read.evalOn_get,
    except_bind_ok, entry, Read.evalOn_ofExcept]
  cases stored with
  | none => rfl
  | some leafIndex =>
      have size : (LeafView.leafIndexBytes leafIndex).length = leafIndexBytesSize := by
        simp [LeafView.leafIndexBytes, leafIndexBytesSize]
      have nonzero : leafIndexBytesSize ≠ 0 := by decide
      simp only [Option.map_some, Option.getD_some, LeafView.leafIndexOfEntry, size,
        if_neg nonzero, ne_eq, not_true_eq_false, if_false, decode_leafIndexBytes, indexOutcome]

end MerkleProofService
