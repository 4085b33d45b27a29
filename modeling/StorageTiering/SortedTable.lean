/-!
# Tables in the order of their keys

An association list whose texts for keys ascend, each key once.

* `SortedTable.find?` — the value of a key.
* `SortedTable.put` — a value for a key, in place of the one it had.
-/

namespace StorageTiering

/-- Values by text keys, in ascending order of keys. -/
abbrev SortedTable (α : Type) := List (String × α)

namespace SortedTable

/-- The value of a key. -/
def find? (t : SortedTable α) (key : String) : Option α :=
  (List.find? (fun entry => entry.1 == key) t).map Prod.snd

/-- The table with a value for a key, in place of the one it had. -/
def put (key : String) (value : α) : SortedTable α → SortedTable α
  | [] => [(key, value)]
  | (k, v) :: rest =>
      if key = k then (key, value) :: rest
      else if key < k then (key, value) :: (k, v) :: rest
      else (k, v) :: put key value rest

/-- The table with the value of a key changed, if it has one. -/
def adjust (key : String) (f : α → α) (t : SortedTable α) : SortedTable α :=
  t.map fun entry => if entry.1 == key then (entry.1, f entry.2) else entry

/-- The keys in their order. -/
def keys (t : SortedTable α) : List String := t.map Prod.fst

/-- The values in the order of their keys. -/
def values (t : SortedTable α) : List α := t.map Prod.snd

end SortedTable

end StorageTiering
