/-
Module: MerkleProofService.ZkRegistry.BatchWithLeaves
Layer: ZkRegistry
Purpose: The batch the indexer writes (`internal/zkregistry/batch_with_leaves.go`): a database
  batch together with a buffer in which the nodes it sets can be read back before the write.
Imports: ZkRegistry.SparseTree
Trusted boundary: human-reviewed spec
Main exports: BatchWithLeavesBuffer, newBatchWithLeavesBuffer
-/
import MerkleProofService.ZkRegistry.SparseTree

namespace MerkleProofService

open Library

/-- `BatchWithLeavesBuffer`; the buffer is keyed by the bytes of the leaf key. -/
structure BatchWithLeavesBuffer where
  batch : Batch
  index : RegistryIndex
  buffer : Store Bytes U256

def newBatchWithLeavesBuffer (batch : Batch) (index : RegistryIndex) :
    BatchWithLeavesBuffer where
  batch := batch
  index := index
  buffer := ∅

namespace BatchWithLeavesBuffer

def setLeaf (b : BatchWithLeavesBuffer) (level : TreeLevel) (index : TreeLeafIndex)
    (value : U256) : Except GoError BatchWithLeavesBuffer :=
  let key := makeLeafKey b.index level index
  (b.batch.set key value.bytes).bind fun batch =>
    .ok { b with batch := batch, buffer := b.buffer.insert key value }

def getLeaf (b : BatchWithLeavesBuffer) (level : TreeLevel) (index : TreeLeafIndex) :
    Read U256 :=
  match b.buffer.lookup (makeLeafKey b.index level index) with
  | some value => .done value
  | none => .fail .notFound

instance : TreeLeafGetterSetter BatchWithLeavesBuffer where
  getLeaf := BatchWithLeavesBuffer.getLeaf
  setLeaf := BatchWithLeavesBuffer.setLeaf

end BatchWithLeavesBuffer

end MerkleProofService
