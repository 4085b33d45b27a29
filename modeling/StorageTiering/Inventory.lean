import StorageTiering.Block
/-!
# The inventory of a cluster

What the data nodes of a cluster report of their storages, arranged for the choice of destinations.

* `NodeReport`, `StorageReport` — what a node reports.
* `Offer` — a storage that can receive replicas; `Offer.sort` puts offers in their order.
* `Inventory.ofReports` — the offers in the order of nodes and storages, whatever the order of the
  reports, and the rack of every node.
-/

namespace StorageTiering

/-- One storage of a data node. -/
structure StorageReport where
  storage : StorageId
  type : StorageType
  capacity : Nat
  remaining : Nat
  deriving DecidableEq, Repr, Inhabited

/-- A data node with its storages. -/
structure NodeReport where
  node : NodeId
  rack : String
  storages : List StorageReport
  deriving DecidableEq, Repr, Inhabited

/-- A storage that can receive replicas, with its free bytes when the inventory was taken. -/
structure Offer where
  node : NodeId
  rack : String
  storage : StorageId
  type : StorageType
  remaining : Nat
  deriving DecidableEq, Repr, Inhabited

namespace Offer

/-- The order of offers: by node, then by storage. -/
def precedes (a b : Offer) : Bool :=
  decide (a.node < b.node) || (a.node == b.node && decide (a.storage ≤ b.storage))

/-- An offer put before the first of several that it precedes. -/
def insert (o : Offer) : List Offer → List Offer
  | [] => [o]
  | first :: rest => if o.precedes first then o :: first :: rest else first :: insert o rest

/-- Offers in their order. -/
def sort (offers : List Offer) : List Offer := offers.foldr insert []

end Offer

namespace NodeReport

/-- The storages of a node as offers. -/
def offers (r : NodeReport) : List Offer :=
  r.storages.map fun s => ⟨r.node, r.rack, s.storage, s.type, s.remaining⟩

end NodeReport

/-- The nodes and offers of a cluster at one moment. -/
structure Inventory where
  /-- The rack of each node, the latest report first. -/
  racks : List (NodeId × String)
  /-- All offers in order. -/
  offers : List Offer
  deriving DecidableEq, Repr

namespace Inventory

/-- The inventory that reports give. Of two reports of one node the storages of both count, and the
rack of the later. -/
def ofReports (reports : List NodeReport) : Inventory where
  racks := (reports.map fun r => (r.node, r.rack)).reverse
  offers := Offer.sort (reports.flatMap NodeReport.offers)

/-- The rack of a node. -/
def rackOf (i : Inventory) (node : NodeId) : Option String := i.racks.lookup node

/-- The offers of a type, in their order. -/
def ofType (i : Inventory) (type : StorageType) : List Offer :=
  i.offers.filter fun o => o.type == type

/-- Whether any node offers storage of a type. -/
def hasType (i : Inventory) (type : StorageType) : Bool := !(i.ofType type).isEmpty

/-- The number of nodes that report. -/
def nodeCount (i : Inventory) : Nat := (i.racks.map Prod.fst).eraseDups.length

end Inventory

end StorageTiering
