import StorageTiering.Document
import StorageTiering.Text.Digits
/-!
# TOML scalars

The values of TOML that are written without brackets or quotes: truth values, numbers, dates and
times of day.

* `Toml.ungrouped?` — digits, among which single underscores may stand.
* `Toml.integer?`, `Toml.float?` — numbers.
* `Toml.date?`, `Toml.timeOfDay?`, `Toml.isOffset` — the parts of a moment.
* `Toml.scalar?` — any of these.
-/

namespace StorageTiering.Toml

open Text (byteBound decimal hexDigit?)

/-! ### Numbers -/

/-- The digits of a number, of which any two neighbours may have an underscore between them. -/
def ungrouped? (isDigit : Char → Bool) : List Char → Option (List Char)
  | [] => none
  | [d] => if isDigit d then some [d] else none
  | d :: '_' :: rest => if isDigit d then (ungrouped? isDigit rest).map (d :: ·) else none
  | d :: rest => if isDigit d then (ungrouped? isDigit rest).map (d :: ·) else none

/-- A sign, `true` for minus, and what stands behind it. -/
def splitSign : List Char → Bool × List Char
  | '-' :: cs => (true, cs)
  | '+' :: cs => (false, cs)
  | cs => (false, cs)

/-- The digits of a whole number in decimal, without a zero at the start. -/
def wholeDigits? (cs : List Char) : Option (List Char) := do
  let digits ← ungrouped? Char.isDigit cs
  if 1 < digits.length ∧ digits.head? = some '0' then none else some digits

/-- The number that digits of a base stand for. -/
def inBase? (base : Nat) (cs : List Char) : Option Nat := do
  let isDigit (c : Char) : Bool := match hexDigit? c with
    | some d => d < base
    | none => false
  let digits ← ungrouped? isDigit cs
  some (digits.foldl (fun n c => n * base + (hexDigit? c).getD 0) 0)

/-- A whole number of eight bytes with a sign. -/
def signed? (n : Int) : Option Document :=
  let half := Int.ofNat (byteBound 8 / 2)
  if -half ≤ n ∧ n < half then some (.int n) else none

/-- A whole number: in decimal with or without a sign, or in base 16, 8 or 2 behind a mark. -/
def integer? : List Char → Option Document
  | '0' :: 'x' :: cs => (inBase? 16 cs).bind fun n => signed? n
  | '0' :: 'o' :: cs => (inBase? 8 cs).bind fun n => signed? n
  | '0' :: 'b' :: cs => (inBase? 2 cs).bind fun n => signed? n
  | cs => do
      let (negative, cs) := splitSign cs
      let size : Int := decimal (← wholeDigits? cs)
      signed? (if negative then -size else size)

/-- Whether a character starts the exponent of a number. -/
def startsExponent (c : Char) : Bool := c == 'e' || c == 'E'

/-- The value of an exponent, zero if there is none. -/
def exponent? : List Char → Option Int
  | [] => some 0
  | _ :: cs => do
      let (negative, cs) := splitSign cs
      let size : Int := decimal (← ungrouped? Char.isDigit cs)
      some (if negative then -size else size)

/-- The digits of a fraction, which are none without a point. -/
def fraction? : List Char → Option (List Char)
  | [] => some []
  | '.' :: cs => ungrouped? Char.isDigit cs
  | _ => none

/-- A number with a fraction or an exponent. One above the greatest of double precision is refused,
one below the least is minus infinity. -/
def decimalFloat? (negative : Bool) (cs : List Char) : Option Document := do
  let mantissa := cs.takeWhile fun c => !startsExponent c
  let fraction ← fraction? (mantissa.dropWhile (· != '.'))
  let whole ← wholeDigits? (mantissa.takeWhile (· != '.'))
  let exponent ← exponent? (cs.drop mantissa.length)
  if fraction.isEmpty && mantissa == cs then none
  else if negative || Text.isFinite (whole ++ fraction) (exponent - fraction.length) then
    some (.real true)
  else none

/-- A number that is not whole. -/
def float? (cs : List Char) : Option Document :=
  match splitSign cs with
  | (_, ['i', 'n', 'f']) | (_, ['n', 'a', 'n']) => some (.real true)
  | (negative, cs) => decimalFloat? negative cs

/-! ### Moments -/

/-- The number of two digits. -/
def pair? (a b : Char) : Option Nat :=
  if a.isDigit && b.isDigit then some (decimal [a, b]) else none

/-- The days of a month. -/
def daysOf (year month : Nat) : Nat :=
  if month = 2 then
    if year % 4 = 0 ∧ (year % 100 ≠ 0 ∨ year % 400 = 0) then 29 else 28
  else if month = 4 ∨ month = 6 ∨ month = 9 ∨ month = 11 then 30
  else 31

/-- What stands behind a date. -/
def date? : List Char → Option (List Char)
  | a :: b :: c :: d :: '-' :: e :: f :: '-' :: g :: h :: rest => do
      let year := (← pair? a b) * 100 + (← pair? c d)
      let month ← pair? e f
      let day ← pair? g h
      if 1 ≤ month ∧ month ≤ 12 ∧ 1 ≤ day ∧ day ≤ daysOf year month then some rest else none
  | _ => none

/-- What stands behind a fraction of a second, if there is one. -/
def fractionOfSecond? : List Char → Option (List Char)
  | '.' :: c :: rest => if c.isDigit then some (rest.dropWhile Char.isDigit) else none
  | '.' :: [] => none
  | rest => some rest

/-- What stands behind a time of day. -/
def timeOfDay? : List Char → Option (List Char)
  | a :: b :: ':' :: c :: d :: ':' :: e :: f :: rest => do
      if (← pair? a b) < 24 ∧ (← pair? c d) < 60 ∧ (← pair? e f) ≤ 60 then fractionOfSecond? rest
      else none
  | _ => none

/-- Whether the end of a moment is empty or the distance of its clock from the common one. -/
def isOffset : List Char → Bool
  | [] => true
  | [z] => z == 'Z' || z == 'z'
  | [sign, a, b, ':', c, d] =>
      (sign == '+' || sign == '-') && (pair? a b).any (· < 24) && (pair? c d).any (· < 60)
  | _ => false

/-- Whether a text is a time of day that may say the distance of its clock. -/
def isClock (cs : List Char) : Bool := (timeOfDay? cs).any isOffset

/-- A date, a date with a time, or a time of day. -/
def moment? (cs : List Char) : Option Document :=
  match date? cs with
  | some [] => some .date
  | some (t :: rest) => if (t == 'T' || t == 't') && isClock rest then some .date else none
  | none => if timeOfDay? cs = some [] then some .date else none

/-- A value without brackets and quotes. -/
def scalar? (cs : List Char) : Option Document :=
  if cs = ['t', 'r', 'u', 'e'] then some (.bool true)
  else if cs = ['f', 'a', 'l', 's', 'e'] then some (.bool false)
  else (integer? cs).orElse fun _ => (float? cs).orElse fun _ => moment? cs

end StorageTiering.Toml
