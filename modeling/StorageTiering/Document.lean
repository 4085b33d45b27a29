import StorageTiering.Text.Digits

/-!
# Documents

The values that structured text formats hold, and the reading of records out of them.

* `Document` — a value: nothing, a truth value, a number, a text, a list or a record.
* `Dialect` — the points on which the formats disagree about records.
* `Document.fields?` — the values of a record's named fields; a list gives them by position.
-/

namespace StorageTiering

/-- A value of a structured text format. The number of a key or text that holds an unpaired
surrogate escape has no characters to stand for it, so such a text is kept apart. -/
inductive Document
  | null
  | bool (value : Bool)
  | int (value : Int)
  /-- A number written with a fraction or an exponent, and whether a float can hold it. -/
  | real (finite : Bool)
  | text (value : String)
  /-- A text with an unpaired surrogate escape. -/
  | brokenText
  /-- A date or a time of day. -/
  | date
  | list (items : List Document)
  /-- Fields in the order of writing; a key that is a broken text is `none`. -/
  | record (fields : List (Option String × Document))
  deriving Inhabited

namespace Document

/-- A record whose keys are all texts. -/
def object (fields : List (String × Document)) : Document :=
  .record (fields.map fun f => (some f.1, f.2))

/-- A natural number. -/
def nat (n : Nat) : Document := .int n

/-- A value, or nothing. -/
def optional (f : α → Document) : Option α → Document
  | none => .null
  | some a => f a

/-- The text of a document that is one. -/
def text? : Document → Option String
  | .text s => some s
  | _ => none

/-- The truth value of a document that is one. -/
def bool? : Document → Option Bool
  | .bool b => some b
  | _ => none

/-- The natural number below a bound that a document is. -/
def natBelow? (bound : Nat) : Document → Option Nat
  | .int i => if 0 ≤ i ∧ i < bound then some i.toNat else none
  | _ => none

/-- A number of one byte. -/
def byte? : Document → Option Nat := natBelow? (Text.byteBound 1)

/-- A number of two bytes. -/
def twoByte? : Document → Option Nat := natBelow? (Text.byteBound 2)

/-- A number of four bytes. -/
def fourByte? : Document → Option Nat := natBelow? (Text.byteBound 4)

/-- A number of eight bytes. -/
def eightByte? : Document → Option Nat := natBelow? (Text.byteBound 8)

/-- The items of a list, each read by `f`. -/
def listOf? (f : Document → Option α) : Document → Option (List α)
  | .list items => items.mapM f
  | _ => none

/-- Nothing, or a value read by `f`. -/
def option? (f : Document → Option α) : Document → Option (Option α)
  | .null => some none
  | d => (f d).map some

mutual

/-- How many lists and records are nested in each other. -/
def height : Document → Nat
  | .list items => listHeight items + 1
  | .record fields => fieldsHeight fields + 1
  | _ => 0

/-- The greatest height of a list of documents. -/
def listHeight : List Document → Nat
  | [] => 0
  | d :: rest => max d.height (listHeight rest)

/-- The greatest height of the fields of a record. -/
def fieldsHeight : List (Option String × Document) → Nat
  | [] => 0
  | (_, d) :: rest => max d.height (fieldsHeight rest)

end

mutual

/-- Whether every text in a document is whole and a float can hold every number with a fraction. -/
def isWhole : Document → Bool
  | .real finite => finite
  | .brokenText => false
  | .list items => listIsWhole items
  | .record fields => fieldsAreWhole fields
  | _ => true

/-- Whether a list of documents is whole. -/
def listIsWhole : List Document → Bool
  | [] => true
  | d :: rest => d.isWhole && listIsWhole rest

/-- Whether the keys and values of a record are whole. -/
def fieldsAreWhole : List (Option String × Document) → Bool
  | [] => true
  | (key, d) :: rest => key.isSome && d.isWhole && fieldsAreWhole rest

end

end Document

/-- The points on which structured text formats disagree about records and names. -/
structure Dialect where
  /-- Whether a list that stands for a record may have more items than the record has fields. -/
  lenientLists : Bool
  /-- What may stand under the name of a bare alternative written as a record of one field. -/
  isUnit : Document → Bool
  /-- Whether a tagged record, read under so many lists and records, can be held at once. -/
  holds : Nat → Document → Bool

namespace Document

/-- The one value of a field, `none` if there is no such field; a field given twice is refused. -/
def field? (fields : List (Option String × Document)) (name : String) :
    Option (Option Document) :=
  match fields.filter fun f => f.1 == some name with
  | [] => some none
  | [f] => some (some f.2)
  | _ => none

/-- The fields of a record that has been written as a list, by position. -/
def positional (names : List String) (items : List Document) : List (Option Document) :=
  (List.range names.length).map fun i => items[i]?

/-- The values of a record's named fields. Fields of other names are ignored. A date is a record
whose only field has a name of its own. -/
def fields? (dialect : Dialect) (names : List String) : Document → Option (List (Option Document))
  | .record fields =>
      if fields.all fun f => f.1.isSome then names.mapM (field? fields) else none
  | .list items =>
      if items.length ≤ names.length || dialect.lenientLists then some (positional names items)
      else none
  | .date => some (names.map fun _ => none)
  | _ => none

/-- A field that must be there. -/
def required (f : Document → Option α) : Option Document → Option α
  | none => none
  | some d => f d

/-- A field with a value for its absence. -/
def defaulted (absent : α) (f : Document → Option α) : Option Document → Option α
  | none => some absent
  | some d => f d

/-- A name that stands alone, or is the one field of a record over a unit. -/
def bareName? (dialect : Dialect) : Document → Option String
  | .text s => some s
  | .record [(some s, d)] => if dialect.isUnit d then some s else none
  | _ => none

end Document

end StorageTiering
