import StorageTiering.StorageType
/-!
# Blocks and their replicas

Blocks are the unit that is moved. The replicas of a block, or the pieces of a striped block group,
each live on one storage of one data node.

* `Block`, `Layout`, `Replica` — a block, how it is laid out, and where one copy of it is.
* `ListedBlock` — one record of a listing: a block with its replicas and the policy that governs it.
* `ListedBlock.fault?` — the first fault of a listing record, if there is one.
-/

namespace StorageTiering

/-- Blocks are numbered by the metadata service. -/
abbrev BlockId := Nat

/-- Data nodes are known by name. -/
abbrev NodeId := String

/-- Storages are known by name. -/
abbrev StorageId := String

/-- The text of a block's number. -/
def BlockId.text (id : BlockId) : String := "blk_" ++ toString id

/-- An immutable block. -/
structure Block where
  id : BlockId
  /-- Length in bytes. -/
  len : Nat
  generation : Nat
  deriving DecidableEq, Repr, Inhabited

/-- How a block is laid out across nodes. -/
inductive Layout
  /-- Full replicas of one piece. -/
  | contiguous (replication : Nat)
  /-- A group of data and parity pieces. -/
  | striped (dataUnits parityUnits : Nat)
  deriving DecidableEq, Repr, Inhabited

/-- Why a layout cannot be. -/
inductive LayoutFault
  | noReplica
  | noDataUnit
  deriving DecidableEq, Repr

namespace LayoutFault

/-- The wording of a layout fault. -/
def reason : LayoutFault → String
  | .noReplica => "replication must be at least 1"
  | .noDataUnit => "striped layout needs at least one data unit"

end LayoutFault

namespace Layout

/-- Whether the block is a striped group. -/
def isStriped : Layout → Bool
  | .contiguous _ => false
  | .striped _ _ => true

/-- The number of slots that a storage policy must fill. -/
def slots : Layout → Nat
  | .contiguous replication => replication
  | .striped dataUnits parityUnits => dataUnits + parityUnits

/-- A layout needs at least one replica, or one data unit. -/
def fault? : Layout → Option LayoutFault
  | .contiguous 0 => some .noReplica
  | .striped 0 _ => some .noDataUnit
  | _ => none

/-- Three full replicas, the layout of files that declare none. -/
def standard : Layout := .contiguous 3

end Layout

/-- Where one replica, or one striped piece, resides. -/
structure Replica where
  node : NodeId
  type : StorageType
  storage : StorageId
  /-- Index of the piece inside a striped block group. -/
  piece : Option Nat
  deriving DecidableEq, Repr, Inhabited

namespace Replica

/-- Node, storage and class, with the piece index where there is one. -/
def text (r : Replica) : String :=
  r.node ++ ":" ++ r.storage ++ "[" ++ r.type.name ++ "]" ++
    match r.piece with
    | none => ""
    | some i => "#" ++ toString i

end Replica

/-- Why the replicas of a listing record cannot be. -/
inductive ReplicaFault
  | listedTwice (storage : StorageId)
  | noPiece (node : NodeId)
  | pieceOutOfRange (index : Nat)
  deriving DecidableEq, Repr

namespace ReplicaFault

/-- The wording of a replica fault. -/
def reason : ReplicaFault → String
  | .listedTwice storage => "storage " ++ storage ++ " listed twice"
  | .noPiece node => "striped piece on " ++ node ++ " has no index"
  | .pieceOutOfRange index => "piece index " ++ toString index ++ " out of range"

end ReplicaFault

/-- One listing record: a block, its replicas and the policy that governs it. -/
structure ListedBlock where
  /-- Path of the file to which the block belongs. -/
  path : String
  /-- Name of the declared storage policy. -/
  policy : String
  block : Block
  layout : Layout
  replicas : List Replica
  deriving DecidableEq, Repr, Inhabited

/-- Why a listing record is refused. -/
inductive ListingFault
  | layout (fault : LayoutFault)
  | replica (block : BlockId) (fault : ReplicaFault)
  deriving DecidableEq, Repr

namespace ListingFault

/-- The wording of a listing fault. -/
def message : ListingFault → String
  | .layout fault => "Invalid block layout: " ++ fault.reason
  | .replica block fault =>
      "Invalid replica location for block " ++ toString block ++ ": " ++ fault.reason

end ListingFault

namespace Replica

/-- The piece of a striped group has an index below the number of slots. -/
def pieceFault? (layout : Layout) (r : Replica) : Option ReplicaFault :=
  if layout.isStriped then
    match r.piece with
    | none => some (.noPiece r.node)
    | some i => if layout.slots ≤ i then some (.pieceOutOfRange i) else none
  else none

/-- The first fault among replicas, given the storages that came before them. -/
def firstFault? (layout : Layout) : List StorageId → List Replica → Option ReplicaFault
  | _, [] => none
  | before, r :: rest =>
      if r.storage ∈ before then some (.listedTwice r.storage)
      else match r.pieceFault? layout with
        | some fault => some fault
        | none => firstFault? layout (r.storage :: before) rest

end Replica

namespace ListedBlock

/-- The storage types of the replicas, in their order. -/
def types (b : ListedBlock) : List StorageType := b.replicas.map Replica.type

/-- Whether a replica or piece lives on a node. -/
def hosts (b : ListedBlock) (node : NodeId) : Bool := b.replicas.any fun r => r.node == node

/-- The first fault of a record: the layout is judged before the replicas. -/
def fault? (b : ListedBlock) : Option ListingFault :=
  match b.layout.fault? with
  | some fault => some (.layout fault)
  | none => (Replica.firstFault? b.layout [] b.replicas).map (.replica b.block.id)

/-- A record without a fault. -/
def Valid (b : ListedBlock) : Prop := b.fault? = none

instance (b : ListedBlock) : Decidable b.Valid := inferInstanceAs (Decidable (b.fault? = none))

end ListedBlock

end StorageTiering
