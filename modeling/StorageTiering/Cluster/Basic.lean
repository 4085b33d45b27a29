import StorageTiering.Inventory
import StorageTiering.Move
import StorageTiering.Service
import StorageTiering.SortedTable
/-!
# A simulated cluster

The nodes, storages, files and blocks of one namespace, with faults that can be injected.

* `Cluster` — the state of a namespace; `Cluster.empty` has nothing in it.
* `Cluster.addNode`, `Cluster.addBlock` — how a cluster is filled.
* `Cluster.reports` — what its nodes report of their storages.
-/

namespace StorageTiering

/-- A storage of a simulated node. -/
structure Store where
  id : StorageId
  type : StorageType
  capacity : Nat
  remaining : Nat
  deriving DecidableEq, Repr, Inhabited

/-- A simulated data node. -/
structure Node where
  rack : String
  stores : List Store
  deriving DecidableEq, Repr, Inhabited

/-- A file: its policy, its layout and its blocks in order. -/
structure File where
  policy : String
  layout : Layout
  blocks : List BlockId
  deriving DecidableEq, Repr, Inhabited

/-- A block with the places of its replicas. -/
structure PlacedBlock where
  block : Block
  replicas : List Replica
  deriving DecidableEq, Repr, Inhabited

/-- A holder's proof of the run lease. Tokens are numbered in the order of granting. -/
structure LeaseToken where
  holder : String
  serial : Nat
  deriving DecidableEq, Repr, Inhabited

/-- The lease of a namespace as its service sees it. A lease that was put into other hands has no
token. -/
structure HeldLease where
  holder : String
  serial : Option Nat
  bySatisfier : Bool
  deriving DecidableEq, Repr, Inhabited

/-- The state of a simulated namespace. -/
structure Cluster where
  namespaceId : NamespaceId
  nodes : SortedTable Node
  files : SortedTable File
  blocks : List PlacedBlock
  lease : Option HeldLease
  /-- The number of tokens granted so far. -/
  granted : Nat
  satisfierActive : Bool
  /-- Renewals of the lease are rejected. -/
  rejectsRenewal : Bool
  /-- Blocks whose data is gone from the source. -/
  missing : List BlockId
  /-- Storage types that accept no replica. -/
  refused : List StorageType
  /-- Listing calls that succeed before the injected failures start. -/
  listingGrace : Nat
  /-- Listing calls that are still to fail. -/
  listingFailures : Nat
  pageSize : Nat
  listCalls : Nat
  relocateCalls : Nat
  satisfierChecks : Nat
  deriving DecidableEq, Repr, Inhabited

/-- Why a block could not be placed. -/
inductive PlacementError
  | unknownNode (node : NodeId)
  | noStorage (node : NodeId) (type : StorageType)
  | duplicateBlock (block : BlockId)
  deriving DecidableEq, Repr

namespace PlacementError

/-- The wording of a failed placement. -/
def message : PlacementError → String
  | .unknownNode node => "Unknown node: " ++ node
  | .noStorage node type => "Node " ++ node ++ " has no " ++ type.name ++ " storage"
  | .duplicateBlock block => "Duplicate block: " ++ toString block

end PlacementError

namespace Node

/-- The storage of a node with an identifier. -/
def store? (n : Node) (id : StorageId) : Option Store := n.stores.find? fun s => s.id == id

/-- The first storage of a type. -/
def firstOf? (n : Node) (type : StorageType) : Option Store :=
  n.stores.find? fun s => s.type == type

/-- The node with the free bytes of a storage changed. -/
def setRemaining (n : Node) (id : StorageId) (f : Store → Nat) : Node :=
  { n with stores := n.stores.map fun s => if s.id == id then { s with remaining := f s } else s }

end Node

namespace Cluster

/-- A namespace with nothing in it. -/
def empty (id : NamespaceId) : Cluster where
  namespaceId := id
  nodes := []
  files := []
  blocks := []
  lease := none
  granted := 0
  satisfierActive := false
  rejectsRenewal := false
  missing := []
  refused := []
  listingGrace := 0
  listingFailures := 0
  pageSize := 100
  listCalls := 0
  relocateCalls := 0
  satisfierChecks := 0

/-- The storages of a new node, numbered in their order and all free. -/
def freshStores (node : NodeId) (storages : List (StorageType × Nat)) : List Store :=
  storages.mapIdx fun i s => ⟨node ++ "-s" ++ toString i, s.1, s.2, s.2⟩

/-- Adds a data node, in place of the one that had its name. -/
def addNode (c : Cluster) (id : NodeId) (rack : String) (storages : List (StorageType × Nat)) :
    Cluster :=
  { c with nodes := c.nodes.put id ⟨rack, freshStores id storages⟩ }

/-- The block with a number. -/
def block? (c : Cluster) (id : BlockId) : Option PlacedBlock :=
  c.blocks.find? fun b => b.block.id == id

/-- A storage of a node. -/
def store? (c : Cluster) (node : NodeId) (storage : StorageId) : Option Store :=
  (c.nodes.find? node).bind fun n => n.store? storage

/-- The cluster with the free bytes of a storage of a node changed. -/
def setRemaining (c : Cluster) (node : NodeId) (storage : StorageId) (f : Store → Nat) : Cluster :=
  { c with nodes := c.nodes.adjust node fun n => n.setRemaining storage f }

/-- The index of a striped piece is held in one byte. -/
def pieceOf (layout : Layout) (index : Nat) : Option Nat :=
  if layout.isStriped then some (index % 256) else none

/-- Places replicas one after another, each on the first storage of its type on its node, and takes
their bytes away. What was taken before a replica fails stays taken. -/
def placeReplicas (layout : Layout) (len : Nat) :
    Cluster → Nat → List (NodeId × StorageType) → Cluster × Except PlacementError (List Replica)
  | c, _, [] => (c, .ok [])
  | c, index, (node, type) :: rest =>
      match c.nodes.find? node with
      | none => (c, .error (.unknownNode node))
      | some n =>
          match n.firstOf? type with
          | none => (c, .error (.noStorage node type))
          | some s =>
              match placeReplicas layout len
                  (c.setRemaining node s.id fun s => s.remaining - len) (index + 1) rest with
              | (c, .error e) => (c, .error e)
              | (c, .ok replicas) => (c, .ok (⟨node, type, s.id, pieceOf layout index⟩ :: replicas))

/-- The file at a path with one more block. It keeps the policy and layout of its first block. -/
def fileWith (c : Cluster) (path policy : String) (layout : Layout) (block : BlockId) : File :=
  match c.files.find? path with
  | none => ⟨policy, layout, [block]⟩
  | some f => { f with blocks := f.blocks ++ [block] }

/-- Adds a block to a path, which makes the file if there is none. -/
def addBlock (c : Cluster) (path policy : String) (layout : Layout) (block : Block)
    (replicas : List (NodeId × StorageType)) : Cluster × Except PlacementError Unit :=
  if (c.block? block.id).isSome then (c, .error (.duplicateBlock block.id))
  else match placeReplicas layout block.len c 0 replicas with
    | (c, .error e) => (c, .error e)
    | (c, .ok placed) =>
        ({ c with
            files := c.files.put path (c.fileWith path policy layout block.id),
            blocks := c.blocks ++ [⟨block, placed⟩] },
         .ok ())

/-- Sets the number of blocks on a page of a listing, which is at least one. -/
def setPageSize (c : Cluster) (size : Nat) : Cluster := { c with pageSize := max size 1 }

/-- Lets the next `count` listing calls fail, once `after` of them have succeeded. -/
def failListings (c : Cluster) (count : Nat) (after : Nat) : Cluster :=
  { c with listingGrace := after, listingFailures := count }

/-- Loses the data of a block at its source. -/
def loseSource (c : Cluster) (block : BlockId) : Cluster :=
  { c with missing := block :: c.missing }

/-- Lets a storage type accept no replica any more. -/
def refuse (c : Cluster) (type : StorageType) : Cluster := { c with refused := type :: c.refused }

/-- Switches the storage policy satisfier on or off. -/
def setSatisfier (c : Cluster) (active : Bool) : Cluster := { c with satisfierActive := active }

/-- Lets renewals of the lease be rejected, or not. -/
def setRejectsRenewal (c : Cluster) (rejects : Bool) : Cluster :=
  { c with rejectsRenewal := rejects }

/-- The replicas of a block; none if there is no such block. -/
def replicasOf (c : Cluster) (id : BlockId) : List Replica :=
  match c.block? id with
  | none => []
  | some b => b.replicas

/-- The free bytes of the first storage with an identifier, in the order of nodes. -/
def remainingOf? (c : Cluster) (storage : StorageId) : Option Nat :=
  ((c.nodes.values.flatMap Node.stores).find? fun s => s.id == storage).map Store.remaining

/-- What the nodes report of their storages, in the order of nodes. -/
def reports (c : Cluster) : List NodeReport :=
  c.nodes.map fun n =>
    ⟨n.1, n.2.rack, n.2.stores.map fun s => ⟨s.id, s.type, s.capacity, s.remaining⟩⟩

/-- Asks whether the storage policy satisfier is active. -/
def checkSatisfier (c : Cluster) : Cluster × Bool :=
  ({ c with satisfierChecks := c.satisfierChecks + 1 }, c.satisfierActive)

end Cluster

end StorageTiering
