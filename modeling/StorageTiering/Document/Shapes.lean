import StorageTiering.Cluster.Description
import StorageTiering.Document
import StorageTiering.Policy
/-!
# Shapes of documents

How the values of this library are written as documents and read from them.

* `….document` — a value as a document, with every field present.
* `….ofDocument?` — a value read from a document under the rules of a dialect. Fields of unknown
  names are ignored, and a field may be left out only where its absence has a meaning.
-/

namespace StorageTiering

open Document

namespace StorageType

/-- A storage type is written by name. -/
def document (t : StorageType) : Document := .text t.name

/-- A storage type is read by its exact name. -/
def ofDocument? (dialect : Dialect) (d : Document) : Option StorageType :=
  (d.bareName? dialect).bind ofName?

end StorageType

namespace Block

/-- A block as a record. -/
def document (b : Block) : Document :=
  .object [("id", .nat b.id), ("len", .nat b.len), ("generation_stamp", .nat b.generation)]

/-- A block is a record of three numbers. -/
def ofDocument? (dialect : Dialect) (d : Document) : Option Block := do
  match ← d.fields? dialect ["id", "len", "generation_stamp"] with
  | [id, len, generation] =>
      some ⟨← required eightByte? id, ← required eightByte? len, ← required eightByte? generation⟩
  | _ => none

end Block

namespace Layout

/-- A layout as a record with its kind. -/
def document : Layout → Document
  | .contiguous replication =>
      .object [("kind", .text "contiguous"), ("replication", .nat replication)]
  | .striped dataUnits parityUnits =>
      .object [("kind", .text "striped"), ("data_units", .nat dataUnits),
        ("parity_units", .nat parityUnits)]

/-- A layout of a kind, read from its other fields. -/
def ofKind? (dialect : Dialect) (kind : String) (d : Document) : Option Layout :=
  if kind = "contiguous" then do
    match ← d.fields? dialect ["replication"] with
    | [replication] => some (.contiguous (← required twoByte? replication))
    | _ => none
  else if kind = "striped" then do
    match ← d.fields? dialect ["data_units", "parity_units"] with
    | [dataUnits, parityUnits] =>
        some (.striped (← required byte? dataUnits) (← required byte? parityUnits))
    | _ => none
  else none

/-- A layout is a record tagged by its kind, which is held at once; in a list the kind comes first,
and no item may be left over. -/
def ofDocument? (dialect : Dialect) (outer : Nat) (d : Document) : Option Layout :=
  if dialect.holds outer d then
    let strict := { dialect with lenientLists := false }
    match d with
    | .record fields => do
        let kind ← (← field? fields "kind").bind text?
        ofKind? strict kind (.record (fields.filter fun f => f.1 != some "kind"))
    | .list (.text kind :: items) => ofKind? strict kind (.list items)
    | _ => none
  else none

end Layout

namespace Replica

/-- A replica as a record. -/
def document (r : Replica) : Document :=
  .object [("node", .text r.node), ("storage_type", r.type.document),
    ("storage_id", .text r.storage), ("piece_index", optional .nat r.piece)]

/-- A replica is a record of which the piece index may be left out. -/
def ofDocument? (dialect : Dialect) (d : Document) : Option Replica := do
  match ← d.fields? dialect ["node", "storage_type", "storage_id", "piece_index"] with
  | [node, type, storage, piece] =>
      some ⟨← required text? node, ← required (StorageType.ofDocument? dialect) type,
        ← required text? storage, ← defaulted none (option? byte?) piece⟩
  | _ => none

end Replica

namespace ListedBlock

/-- A listing record as a record. -/
def document (b : ListedBlock) : Document :=
  .object [("path", .text b.path), ("policy", .text b.policy), ("block", b.block.document),
    ("layout", b.layout.document), ("locations", .list (b.replicas.map Replica.document))]

/-- A listing record has five fields. -/
def ofDocument? (dialect : Dialect) (d : Document) : Option ListedBlock := do
  match ← d.fields? dialect ["path", "policy", "block", "layout", "locations"] with
  | [path, policy, block, layout, replicas] =>
      some ⟨← required text? path, ← required text? policy,
        ← required (Block.ofDocument? dialect) block,
        ← required (Layout.ofDocument? dialect 1) layout,
        ← required (listOf? (Replica.ofDocument? dialect)) replicas⟩
  | _ => none

end ListedBlock

namespace Policy

/-- A policy as a record. -/
def document (p : Policy) : Document :=
  .object [("id", .nat p.id), ("name", .text p.name),
    ("storage_types", .list (p.types.map StorageType.document)),
    ("supports_striped", .bool p.striped)]

/-- A policy is a record; one that does not say so does not support striped groups. -/
def ofDocument? (dialect : Dialect) (d : Document) : Option Policy := do
  match ← d.fields? dialect ["id", "name", "storage_types", "supports_striped"] with
  | [id, name, types, striped] =>
      some ⟨← required byte? id, ← required text? name,
        ← required (listOf? (StorageType.ofDocument? dialect)) types,
        ← defaulted false bool? striped⟩
  | _ => none

end Policy

namespace StorageReport

/-- A storage report as a record. -/
def document (s : StorageReport) : Document :=
  .object [("storage_id", .text s.storage), ("storage_type", s.type.document),
    ("capacity", .nat s.capacity), ("remaining", .nat s.remaining)]

/-- A storage report has four fields. -/
def ofDocument? (dialect : Dialect) (d : Document) : Option StorageReport := do
  match ← d.fields? dialect ["storage_id", "storage_type", "capacity", "remaining"] with
  | [storage, type, capacity, remaining] =>
      some ⟨← required text? storage, ← required (StorageType.ofDocument? dialect) type,
        ← required eightByte? capacity, ← required eightByte? remaining⟩
  | _ => none

end StorageReport

namespace NodeReport

/-- A node report as a record. -/
def document (r : NodeReport) : Document :=
  .object [("node", .text r.node), ("rack", .text r.rack),
    ("storages", .list (r.storages.map StorageReport.document))]

/-- A node report has three fields. -/
def ofDocument? (dialect : Dialect) (d : Document) : Option NodeReport := do
  match ← d.fields? dialect ["node", "rack", "storages"] with
  | [node, rack, storages] =>
      some ⟨← required text? node, ← required text? rack,
        ← required (listOf? (StorageReport.ofDocument? dialect)) storages⟩
  | _ => none

end NodeReport

namespace StoreDescription

/-- A described storage as a record. -/
def document (s : StoreDescription) : Document :=
  .object [("type", s.type.document), ("capacity", .nat s.capacity)]

/-- A described storage has two fields. -/
def ofDocument? (dialect : Dialect) (d : Document) : Option StoreDescription := do
  match ← d.fields? dialect ["type", "capacity"] with
  | [type, capacity] =>
      some ⟨← required (StorageType.ofDocument? dialect) type, ← required eightByte? capacity⟩
  | _ => none

end StoreDescription

namespace NodeDescription

/-- A described node as a record. -/
def document (n : NodeDescription) : Document :=
  .object [("id", .text n.id), ("rack", .text n.rack),
    ("storages", .list (n.storages.map StoreDescription.document))]

/-- A described node is a record of which the rack may be left out. -/
def ofDocument? (dialect : Dialect) (d : Document) : Option NodeDescription := do
  match ← d.fields? dialect ["id", "rack", "storages"] with
  | [id, rack, storages] =>
      some ⟨← required text? id, ← defaulted standardRack text? rack,
        ← required (listOf? (StoreDescription.ofDocument? dialect)) storages⟩
  | _ => none

end NodeDescription

namespace ReplicaDescription

/-- A described replica as a record. -/
def document (r : ReplicaDescription) : Document :=
  .object [("node", .text r.node), ("type", r.type.document)]

/-- A described replica has two fields. -/
def ofDocument? (dialect : Dialect) (d : Document) : Option ReplicaDescription := do
  match ← d.fields? dialect ["node", "type"] with
  | [node, type] => some ⟨← required text? node, ← required (StorageType.ofDocument? dialect) type⟩
  | _ => none

end ReplicaDescription

namespace BlockDescription

/-- A described block as a record. -/
def document (b : BlockDescription) : Document :=
  .object [("id", .nat b.id), ("len", .nat b.len), ("generation_stamp", .nat b.generation),
    ("replicas", .list (b.replicas.map ReplicaDescription.document))]

/-- A described block is a record of which the generation may be left out. -/
def ofDocument? (dialect : Dialect) (d : Document) : Option BlockDescription := do
  match ← d.fields? dialect ["id", "len", "generation_stamp", "replicas"] with
  | [id, len, generation, replicas] =>
      some ⟨← required eightByte? id, ← required eightByte? len,
        ← defaulted 0 eightByte? generation,
        ← required (listOf? (ReplicaDescription.ofDocument? dialect)) replicas⟩
  | _ => none

end BlockDescription

namespace FileDescription

/-- A described file as a record. -/
def document (f : FileDescription) : Document :=
  .object [("path", .text f.path), ("policy", .text f.policy),
    ("layout", optional Layout.document f.layout),
    ("blocks", .list (f.blocks.map BlockDescription.document))]

/-- A described file is a record of which the layout may be left out. -/
def ofDocument? (dialect : Dialect) (d : Document) : Option FileDescription := do
  match ← d.fields? dialect ["path", "policy", "layout", "blocks"] with
  | [path, policy, layout, blocks] =>
      some ⟨← required text? path, ← required text? policy,
        ← defaulted none (option? (Layout.ofDocument? dialect 3)) layout,
        ← required (listOf? (BlockDescription.ofDocument? dialect)) blocks⟩
  | _ => none

end FileDescription

namespace FaultDescription

/-- Described faults as a record. -/
def document (f : FaultDescription) : Document :=
  .object [("policy_satisfier_active", .bool f.satisfierActive),
    ("lease_holder", optional .text f.leaseHolder),
    ("lease_holder_is_satisfier", .bool f.leaseHolderIsSatisfier),
    ("fail_lease_renewal", .bool f.rejectsRenewal),
    ("missing_source_blocks", .list (f.missing.map .nat)),
    ("refused_storage_types", .list (f.refused.map StorageType.document)),
    ("transient_listing_failures", .nat f.listingFailures)]

/-- Described faults are a record of which every field may be left out. -/
def ofDocument? (dialect : Dialect) (d : Document) : Option FaultDescription := do
  match ← d.fields? dialect
      ["policy_satisfier_active", "lease_holder", "lease_holder_is_satisfier",
       "fail_lease_renewal", "missing_source_blocks", "refused_storage_types",
       "transient_listing_failures"] with
  | [active, holder, isSatisfier, rejects, missing, refused, failures] =>
      some ⟨← defaulted false bool? active, ← defaulted .none (option? text?) holder,
        ← defaulted false bool? isSatisfier, ← defaulted false bool? rejects,
        ← defaulted [] (listOf? eightByte?) missing,
        ← defaulted [] (listOf? (StorageType.ofDocument? dialect)) refused,
        ← defaulted 0 fourByte? failures⟩
  | _ => .none

end FaultDescription

namespace ClusterDescription

/-- A description as a record. -/
def document (c : ClusterDescription) : Document :=
  .object [("namespace", .text c.namespaceId), ("page_size", optional .nat c.pageSize),
    ("nodes", .list (c.nodes.map NodeDescription.document)),
    ("files", .list (c.files.map FileDescription.document)), ("faults", c.faults.document)]

/-- A description is a record that must name its namespace. -/
def ofDocument? (dialect : Dialect) (d : Document) : Option ClusterDescription := do
  match ← d.fields? dialect ["namespace", "page_size", "nodes", "files", "faults"] with
  | [id, pageSize, nodes, files, faults] =>
      some ⟨← required text? id, ← defaulted none (option? eightByte?) pageSize,
        ← defaulted [] (listOf? (NodeDescription.ofDocument? dialect)) nodes,
        ← defaulted [] (listOf? (FileDescription.ofDocument? dialect)) files,
        ← defaulted .none (FaultDescription.ofDocument? dialect) faults⟩
  | _ => none

end ClusterDescription

end StorageTiering
