/-!
# Digits

Numbers written by digits.

* `decimal` — the number that decimal digits stand for.
* `hexDigit?` — the value of a hexadecimal digit.
* `byteBound` — how many numbers so many bytes hold; `held` — what they hold of a number.
* `natural?` — a bounded natural number, which may have a plus sign.
* `isFinite` — whether a decimal number is within the range of double precision.
-/

namespace StorageTiering.Text

/-- The number that decimal digits stand for. -/
def decimal (digits : List Char) : Nat :=
  digits.foldl (fun n c => n * 10 + (c.toNat - '0'.toNat)) 0

/-- The value of a hexadecimal digit. -/
def hexDigit? (c : Char) : Option Nat :=
  if '0' ≤ c ∧ c ≤ '9' then some (c.toNat - '0'.toNat)
  else if 'a' ≤ c ∧ c ≤ 'f' then some (c.toNat - 'a'.toNat + 10)
  else if 'A' ≤ c ∧ c ≤ 'F' then some (c.toNat - 'A'.toNat + 10)
  else none

/-- The number of values that so many bytes hold: the numbers below it are the ones that fit. -/
def byteBound (bytes : Nat) : Nat := Nat.pow 256 bytes

/-- What so many bytes hold of a number: beyond their bound they start from zero again. -/
def held (bytes n : Nat) : Nat := n % byteBound bytes

/-- The natural number below a bound that decimal digits stand for; a plus sign may lead them. -/
def natural? (bound : Nat) (cs : List Char) : Option Nat :=
  let digits := match cs with
    | '+' :: digits => digits
    | digits => digits
  if digits.isEmpty || !digits.all Char.isDigit then none
  else if decimal digits < bound then some (decimal digits)
  else none

/-- Whether `digits · 10 ^ exponent` rounds to a finite number of double precision. -/
def isFinite (digits : List Char) (exponent : Int) : Bool :=
  let significant := digits.dropWhile (· == '0')
  let magnitude : Int := significant.length + exponent
  if significant.isEmpty || magnitude ≤ 308 then true
  else if 310 ≤ magnitude then false
  else
    let threshold := Nat.pow 2 1024 - Nat.pow 2 970
    if 0 ≤ exponent then decimal significant * Nat.pow 10 exponent.toNat < threshold
    else decimal significant < threshold * Nat.pow 10 (-exponent).toNat

end StorageTiering.Text
