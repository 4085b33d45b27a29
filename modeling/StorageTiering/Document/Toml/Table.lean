import StorageTiering.Document
/-!
# TOML tables

A TOML text names the tables of a tree in any order, but defines each of them once. A table
remembers how it came to be, as that decides whether more may be said of it.

* `Toml.Table` — the entries of a table, and what named it.
* `Toml.Table.within?` — changes the table at the end of a path, which is made where it is missing.
* `Toml.Table.assign?`, `Toml.Table.define?`, `Toml.Table.append?` — the three kinds of statements.
-/

namespace StorageTiering.Toml

/-- What has made a table. -/
inductive Maker
  /-- A header of its own, or its being the root. -/
  | header
  /-- The header of a table below it. -/
  | path
  /-- A key with dots. -/
  | dottedKey
  deriving DecidableEq, Repr

mutual

/-- What stands under a key: a value, a table, or a list of tables with the last one first. -/
inductive Node
  | value (document : Document)
  | table (table : Table)
  | tables (last : Table) (before : List Table)

/-- The entries of a table in the order of naming. -/
inductive Table
  | mk (maker : Maker) (entries : List (String × Node))

end

mutual

/-- The document of a node. -/
def Node.document : Node → Document
  | .value document => document
  | .table table => table.document
  | .tables last before => .list (tableDocuments before [last.document])

/-- The document of a table. -/
def Table.document : Table → Document
  | .mk _ entries => .record (entryFields entries)

/-- The documents of tables given in reverse, before others. -/
def tableDocuments : List Table → List Document → List Document
  | [], behind => behind
  | t :: rest, behind => tableDocuments rest (t.document :: behind)

/-- The fields of entries. -/
def entryFields : List (String × Node) → List (Option String × Document)
  | [] => []
  | (key, node) :: rest => (some key, node.document) :: entryFields rest

end

namespace Table

/-- A table without entries. -/
def fresh (maker : Maker) : Table := .mk maker []

/-- What has made a table. -/
def maker : Table → Maker
  | .mk maker _ => maker

/-- The entries of a table. -/
def entries : Table → List (String × Node)
  | .mk _ entries => entries

/-- What stands under a key. -/
def find? (t : Table) (key : String) : Option Node := t.entries.lookup key

/-- The table with something else under a key. -/
def put (t : Table) (key : String) (node : Node) : Table :=
  if (t.find? key).isSome then
    .mk t.maker (t.entries.map fun e => if e.1 == key then (key, node) else e)
  else .mk t.maker (t.entries ++ [(key, node)])

/-- Changes the table at the end of a path. A path leads through the last table of a list, and not
through a value; a key with dots does not lead into a table that has a header. -/
def within? (maker : Maker) (change : Table → Option Table) : List String → Table → Option Table
  | [], t => change t
  | key :: path, t =>
      match t.find? key with
      | none => do t.put key (.table (← within? maker change path (fresh maker)))
      | some (.value _) => none
      | some (.tables last before) => do
          t.put key (.tables (← within? maker change path last) before)
      | some (.table child) =>
          if maker = .dottedKey ∧ child.maker = .header then none
          else do t.put key (.table (← within? maker change path child))

/-- Gives a new key a value. Only a key with dots speaks of a table that one has made. -/
def assign? (key : List String) (value : Document) (t : Table) : Option Table := do
  let last ← key.getLast?
  within? .dottedKey (fun t =>
    if (t.maker == .dottedKey) == key.dropLast.isEmpty || (t.find? last).isSome then none
    else some (t.put last (.value value))) key.dropLast t

/-- Defines the table at a path, which may so far be a part of other paths only. -/
def define? (path : List String) (t : Table) : Option Table := do
  let last ← path.getLast?
  within? .path (fun t =>
    match t.find? last with
    | none => some (t.put last (.table (fresh .header)))
    | some (.table (.mk .path entries)) => some (t.put last (.table (.mk .header entries)))
    | some _ => none) path.dropLast t

/-- Appends a table to the list of tables at a path. -/
def append? (path : List String) (t : Table) : Option Table := do
  let last ← path.getLast?
  within? .path (fun t =>
    match t.find? last with
    | none => some (t.put last (.tables (fresh .header) []))
    | some (.tables latest before) => some (t.put last (.tables (fresh .header) (latest :: before)))
    | some _ => none) path.dropLast t

end Table

end StorageTiering.Toml
