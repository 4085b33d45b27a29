/-!
# Blank characters

The characters of the Unicode property `White_Space`, and trimming by them.

* `isBlank` — membership in the property.
* `stripEnds`, `trim` — a text without the blank characters at its two ends.
-/

namespace StorageTiering.Text

/-- The ranges of the Unicode property `White_Space`, each with both ends. -/
def blankRanges : List (Nat × Nat) :=
  [(0x09, 0x0D), (0x20, 0x20), (0x85, 0x85), (0xA0, 0xA0), (0x1680, 0x1680), (0x2000, 0x200A),
   (0x2028, 0x2029), (0x202F, 0x202F), (0x205F, 0x205F), (0x3000, 0x3000)]

/-- Whether a character has the property `White_Space`. -/
def isBlank (c : Char) : Bool := blankRanges.any fun r => r.1 ≤ c.toNat && c.toNat ≤ r.2

/-- A character list without the characters of a class at its two ends. -/
def stripEnds (drop : Char → Bool) (cs : List Char) : List Char :=
  ((cs.dropWhile drop).reverse.dropWhile drop).reverse

/-- A text without the blank characters at its two ends. -/
def trim (s : String) : String := String.ofList (stripEnds isBlank s.toList)

/-- The upper case of the ASCII letters; every other character stays as it is. -/
def upperAscii (s : String) : String := s.map Char.toUpper

/-- Equality of texts up to the case of ASCII letters. -/
def sameLetters (a b : String) : Bool := upperAscii a == upperAscii b

end StorageTiering.Text
