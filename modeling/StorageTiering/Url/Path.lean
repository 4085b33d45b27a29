import StorageTiering.Text.Fields
import StorageTiering.Url.Percent
/-!
# Paths of addresses

The path of an address is a list of segments, in which a single dot stays where it is and a double
dot goes up.

* `keptInPaths` — the characters that stand for themselves.
* `segmentKind` — whether a segment is a step or a name.
* `resolveSegments` — the names that are left when every step has been taken.
* `normalPath` — the text of a path after all of this.
-/

namespace StorageTiering.Url

/-- Whether a character stands for itself in a path. -/
def keptInPaths (c : Char) : Bool :=
  isPrinting c && !(c ∈ ['\x20', '"', '<', '>', '\x60', '#', '?', '\x7b', '\x7d'])

/-- What a segment of a path is. -/
inductive SegmentKind
  | here
  | up
  | name
  deriving DecidableEq, Repr

/-- How many dots a segment has, each plain or encoded, if it has nothing else. -/
def dotCount? : List Char → Option Nat
  | [] => some 0
  | '.' :: cs => (dotCount? cs).map (· + 1)
  | '%' :: '2' :: c :: cs => if c = 'e' ∨ c = 'E' then (dotCount? cs).map (· + 1) else none
  | _ => none

/-- A segment of one or two dots is a step. -/
def segmentKind (segment : List Char) : SegmentKind :=
  match dotCount? segment with
  | some 1 => .here
  | some 2 => .up
  | _ => .name

/-- Whether a segment is a drive: a letter and a colon or bar. -/
def isDrive : List Char → Bool
  | [letter, mark] => letter.isAlpha && (mark == ':' || mark == '|')
  | _ => false

/-- Whether a segment names a drive, behind which a backslash may stand. -/
def namesDrive (segment : List Char) : Bool :=
  isDrive (segment.take 2) && (segment.drop 2).head?.all (· == '\\')

/-- The names above the last one, given in reverse; there is nothing above a drive. -/
def parent : List (List Char) → List (List Char)
  | [] => []
  | name :: above => if namesDrive name then name :: above else above

/-- The names that are left of segments behind others, which are given in reverse. A step at the end
leaves an empty name, so that the path ends with a slash. -/
def resolveSegments : List (List Char) → List (List Char) → List (List Char)
  | names, [] => names.reverse
  | names, [segment] =>
      match segmentKind segment with
      | .here => ([] :: names).reverse
      | .up => ([] :: parent names).reverse
      | .name => (segment :: names).reverse
  | names, segment :: rest =>
      match segmentKind segment with
      | .here => resolveSegments names rest
      | .up => resolveSegments (parent names) rest
      | .name => resolveSegments (segment :: names) rest

/-- The names of a path, which may start with a slash. -/
def pathNames (path : List Char) : List (List Char) :=
  let segments := match path with
    | '/' :: rest => Text.fields '/' rest
    | path => Text.fields '/' path
  resolveSegments [] (segments.map (percentEncode keptInPaths))

/-- The text of a path after every step. -/
def normalPath (path : List Char) : String := String.ofList (Text.joined '/' (pathNames path))

end StorageTiering.Url
