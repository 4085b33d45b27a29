import StorageTiering.Block
/-!
# Moves

A move takes one replica of a block from its storage to a storage of another type.

* `Move` — a planned relocation of one replica.
* `Move.key` — what makes two moves the same logical move.
-/

namespace StorageTiering

/-- The identity of a logical move: a block and the two storage types. -/
structure MoveKey where
  block : BlockId
  sourceType : StorageType
  targetType : StorageType
  deriving DecidableEq, Repr

/-- A planned relocation of one replica. -/
structure Move where
  /-- Path of the file to which the block belongs. -/
  path : String
  block : Block
  source : Replica
  targetType : StorageType
  targetNode : NodeId
  targetStorage : StorageId
  deriving DecidableEq, Repr, Inhabited

namespace Move

/-- The logical move of which this is an instance. -/
def key (m : Move) : MoveKey := ⟨m.block.id, m.source.type, m.targetType⟩

/-- Whether source and target are storages of one node. -/
def isLocal (m : Move) : Bool := m.source.node == m.targetNode

/-- Block, source and target of a move. -/
def text (m : Move) : String :=
  BlockId.text m.block.id ++ " " ++ m.source.text ++ " -> " ++ m.targetNode ++ ":" ++
    m.targetStorage ++ "[" ++ m.targetType.name ++ "]"

end Move

end StorageTiering
