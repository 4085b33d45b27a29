import StorageTiering.Text.Blank
/-!
# Storage types

The classes of physical medium on which a replica can reside.

* `StorageType` — the five classes, in their order.
* `StorageType.isMovable` — whether replicas may be moved onto or off a class.
* `StorageType.ofName?`, `StorageType.read?` — the exact name, and the lenient reading of it.
-/

namespace StorageTiering

/-- A class of physical medium. -/
inductive StorageType
  | ramDisk
  | ssd
  | disk
  | archive
  | provided
  deriving DecidableEq, Repr, Inhabited

namespace StorageType

/-- All classes, in their order. -/
def all : List StorageType := [.ramDisk, .ssd, .disk, .archive, .provided]

/-- How many classes come before this one. -/
def rank : StorageType → Nat
  | .ramDisk => 0
  | .ssd => 1
  | .disk => 2
  | .archive => 3
  | .provided => 4

/-- The name of a class. -/
def name : StorageType → String
  | .ramDisk => "RAM_DISK"
  | .ssd => "SSD"
  | .disk => "DISK"
  | .archive => "ARCHIVE"
  | .provided => "PROVIDED"

/-- Memory-backed storage is lost on restart. -/
def isTransient : StorageType → Bool
  | .ramDisk => true
  | _ => false

/-- Externally provided storage cannot be written. -/
def isReadOnly : StorageType → Bool
  | .provided => true
  | _ => false

/-- Replicas are moved only between classes that are neither transient nor read-only. -/
def isMovable (t : StorageType) : Bool := !t.isTransient && !t.isReadOnly

/-- The class with exactly this name. -/
def ofName? (s : String) : Option StorageType := all.find? fun t => t.name == s

/-- The class named by a text up to blank ends and the case of ASCII letters. -/
def read? (s : String) : Option StorageType := ofName? (Text.upperAscii (Text.trim s))

/-- The wording for a text that names no class. -/
def unknownMessage (s : String) : String := "Unknown storage type: " ++ s

@[simp] theorem ofName?_name (t : StorageType) : ofName? t.name = some t := by
  cases t <;> rfl

theorem mem_all (t : StorageType) : t ∈ all := by
  cases t <;> simp [all]

end StorageType

end StorageTiering
