import StorageTiering.Text.Digits
import StorageTiering.Text.Fields
/-!
# Internet addresses

The numeric addresses of hosts, of four bytes or of eight groups of two bytes.

* `readGroups?`, `groupsText` — an address of eight groups, read in any spelling and written in one.
* `endsInNumber`, `readFour?` — whether a name has to be an address of four bytes, and which.
-/

namespace StorageTiering.Url

open Text (byteBound decimal fields hexDigit?)

/-! ### Eight groups -/

/-- The number that hexadecimal digits stand for, if all are digits. -/
def hexadecimal? (cs : List Char) : Option Nat :=
  cs.foldlM (fun n c => (hexDigit? c).map fun d => n * 16 + d) 0

/-- A group of at most four digits. -/
def group? (cs : List Char) : Option Nat :=
  if cs.isEmpty || 4 < cs.length then none else hexadecimal? cs

/-- A byte in decimal digits without a leading zero. -/
def strictByte? (cs : List Char) : Option Nat :=
  if cs.isEmpty || !cs.all Char.isDigit || (1 < cs.length && cs.head? == some '0') then none
  else if decimal cs < 256 then some (decimal cs)
  else none

/-- The groups of one field; the last field of an address may be four bytes, which are two. -/
def fieldGroups? (last : Bool) (cs : List Char) : Option (List Nat) :=
  if last && cs.contains '.' then do
    match ← (fields '.' cs).mapM strictByte? with
    | [a, b, c, d] => some [a * 256 + b, c * 256 + d]
    | _ => none
  else (group? cs).map fun g => [g]

/-- The groups of fields, of which the last one may be the last of the address. -/
def fieldsGroups? (last : Bool) : List (List Char) → Option (List Nat)
  | [] => some []
  | [f] => fieldGroups? last f
  | f :: rest => do some ((← fieldGroups? false f) ++ (← fieldsGroups? last rest))

/-- The groups of a part of an address between colons; an empty part has none. -/
def partGroups? (last : Bool) (cs : List Char) : Option (List Nat) :=
  if cs.isEmpty then some [] else fieldsGroups? last (fields ':' cs)

/-- What stands before and after the first pair of colons. -/
def cutAtGap : List Char → Option (List Char × List Char)
  | ':' :: ':' :: cs => some ([], cs)
  | c :: cs => (cutAtGap cs).map fun p => (c :: p.1, p.2)
  | [] => none

/-- The eight groups of an address. A pair of colons stands for one or more groups of zero. -/
def readGroups? (cs : List Char) : Option (List Nat) :=
  match cutAtGap cs with
  | none => do
      let groups ← partGroups? true cs
      if groups.length = 8 then some groups else none
  | some (before, behind) => do
      let first ← partGroups? false before
      let rest ← partGroups? true behind
      if first.length + rest.length < 8 then
        some (first ++ List.replicate (8 - first.length - rest.length) 0 ++ rest)
      else none

/-- How many zeros are at the start of a list. -/
def leadingZeros (groups : List Nat) : Nat := (groups.takeWhile (· == 0)).length

/-- The place and length of the first longest run of zeros in groups from a place on. -/
def longestRun : Nat → List Nat → Nat × Nat
  | place, [] => (place, 0)
  | place, g :: rest =>
      let here := leadingZeros (g :: rest)
      let later := longestRun (place + 1) rest
      if later.2 ≤ here then (place, here) else later

/-- Groups with colons between them. -/
def colonList (groups : List Nat) : String :=
  ":".intercalate (groups.map fun g => String.ofList (Nat.toDigits 16 g))

/-- The one spelling of eight groups: the first longest run of at least two zeros is a pair of
colons. -/
def groupsText (groups : List Nat) : String :=
  let (place, length) := longestRun 0 groups
  if length < 2 then colonList groups
  else colonList (groups.take place) ++ "::" ++ colonList (groups.drop (place + length))

/-! ### Four bytes -/

/-- A number in decimal, in octal behind a zero, or in hexadecimal behind `0x`. -/
def looseNumber? : List Char → Option Nat
  | [] => none
  | '0' :: x :: digits =>
      if x = 'x' ∨ x = 'X' then hexadecimal? digits
      else if (x :: digits).all fun c => '0' ≤ c && c ≤ '7' then
        some ((x :: digits).foldl (fun n c => n * 8 + (c.toNat - '0'.toNat)) 0)
      else none
  | digits => if digits.all Char.isDigit then some (decimal digits) else none

/-- The fields of a name, without an empty one behind a last point. -/
def nameFields (cs : List Char) : List (List Char) :=
  let parts := fields '.' cs
  if 1 < parts.length && parts.getLast? == some [] then parts.dropLast else parts

/-- Whether the last field of a name is a number, so that the whole has to be an address. -/
def endsInNumber (cs : List Char) : Bool :=
  match (nameFields cs).getLast? with
  | some [] | none => false
  | some last => last.all Char.isDigit || (looseNumber? last).isSome

/-- The address that numbers between points stand for; the last number fills the bytes that are
left. -/
def readFour? (cs : List Char) : Option Nat := do
  let numbers ← (nameFields cs).mapM looseNumber?
  let last ← numbers.getLast?
  let bytes := numbers.dropLast
  if 3 < bytes.length || bytes.any (255 < ·) || byteBound (4 - bytes.length) ≤ last then none
  else some (bytes.mapIdx (fun i b => b * byteBound (3 - i)) |>.foldl (· + ·) last)

/-- Four bytes with points between them. -/
def fourText (address : Nat) : String :=
  ".".intercalate ([3, 2, 1, 0].map fun i => toString (address / byteBound i % 256))

end StorageTiering.Url
