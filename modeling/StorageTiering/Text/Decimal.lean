/-!
# Decimal texts

Numbers with places behind the point.

* `fraction` — a count of equal parts of one as digits, without zeros at the end.
* `durationText` — a span of time in the largest unit that has a whole one of it.
* `roundDiv` — a quotient to the nearest whole number, a half to the even one.
* `fixed` — a number of double precision with a fixed number of places.
-/

namespace StorageTiering.Text

/-- A decimal text padded by zeros on the left. -/
def padLeft (width : Nat) (digits : List Char) : List Char :=
  List.replicate (width - digits.length) '0' ++ digits

/-- The digits of `part / 10 ^ places` behind the point, without zeros at the end. -/
def fraction (places part : Nat) : List Char :=
  ((padLeft places (toString part).toList).reverse.dropWhile (· == '0')).reverse

/-- A whole number with a fraction behind a point, if the fraction is not zero. -/
def withFraction (whole places part : Nat) : String :=
  let digits := if part = 0 then [] else fraction places part
  if digits.isEmpty then toString whole else toString whole ++ "." ++ String.ofList digits

/-- A span of nanoseconds in the largest unit of which it has at least one. -/
def durationText (nanos : Nat) : String :=
  if 1000000000 ≤ nanos then withFraction (nanos / 1000000000) 9 (nanos % 1000000000) ++ "s"
  else if 1000000 ≤ nanos then withFraction (nanos / 1000000) 6 (nanos % 1000000) ++ "ms"
  else if 1000 ≤ nanos then withFraction (nanos / 1000) 3 (nanos % 1000) ++ "µs"
  else toString nanos ++ "ns"

/-- A span of milliseconds. -/
def millisText (millis : Nat) : String := durationText (millis * 1000000)

/-- The quotient to the nearest whole number; a half goes to the even neighbour. -/
def roundDiv (num den : Nat) : Nat :=
  let q := num / den
  let r := num % den
  if den < 2 * r ∨ (2 * r = den ∧ q % 2 = 1) then q + 1 else q

/-- A number `mantissa · 2 ^ exponent` of double precision, or zero. -/
structure Binary where
  mantissa : Nat
  exponent : Int
  deriving Repr

namespace Binary

/-- The number of double precision nearest to `num / den · 2 ^ exponent`, a half to the even one.
The quotient is brought between `2 ^ 52` and `2 ^ 53` before it is rounded. -/
def ofQuotient (num den : Nat) (exponent : Int) : Binary :=
  if num = 0 then ⟨0, 0⟩
  else
    let shift : Int := 53 + Nat.log2 den - Nat.log2 num
    let scaled (s : Int) : Nat × Nat := (num * Nat.pow 2 s.toNat, den * Nat.pow 2 (-s).toNat)
    let (n, d) := scaled shift
    let shift := if n / d < Nat.pow 2 53 then shift else shift - 1
    let (n, d) := scaled shift
    ⟨roundDiv n d, exponent - shift⟩

/-- The quotient of two natural numbers. -/
def div (num den : Nat) : Binary := ofQuotient num den 0

/-- The product with a natural number. -/
def mul (b : Binary) (n : Nat) : Binary := ofQuotient (b.mantissa * n) 1 b.exponent

/-- A number with a fixed number of places, a half to the even one on the exact value. -/
def fixed (places : Nat) (b : Binary) : String :=
  let num := b.mantissa * Nat.pow 2 b.exponent.toNat * Nat.pow 10 places
  let units := roundDiv num (Nat.pow 2 (-b.exponent).toNat)
  let whole := toString (units / Nat.pow 10 places)
  if places = 0 then whole
  else
    let part := toString (units % Nat.pow 10 places)
    whole ++ "." ++ String.ofList (padLeft places part.toList)

end Binary

end StorageTiering.Text
