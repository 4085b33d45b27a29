import StorageTiering.Text.Digits
/-!
# Percent encoding

Characters written as the numbers of their bytes, each behind a percent sign.

* `percentEncode` — every character outside a class is written by its bytes.
* `percentDecode?` — the text that the bytes of an encoded text give, if they give one.
-/

namespace StorageTiering.Url

/-- The two digits of a byte in upper case, behind a percent sign. -/
def percentByte (b : UInt8) : List Char :=
  ['%', (Nat.digitChar (b.toNat / 16)).toUpper, (Nat.digitChar (b.toNat % 16)).toUpper]

/-- A text in which every character outside a class is written by its bytes. -/
def percentEncode (keeps : Char → Bool) (cs : List Char) : List Char :=
  cs.flatMap fun c => if keeps c then [c] else (String.utf8EncodeChar c).flatMap percentByte

/-- The bytes of an encoded text. A percent sign that no two digits follow stands for itself. -/
def percentBytes : List Char → List UInt8
  | [] => []
  | '%' :: high :: low :: cs =>
      match Text.hexDigit? high, Text.hexDigit? low with
      | some h, some l => UInt8.ofNat (h * 16 + l) :: percentBytes cs
      | _, _ => '%'.toUInt8 :: percentBytes (high :: low :: cs)
  | c :: cs => String.utf8EncodeChar c ++ percentBytes cs
  termination_by cs => cs.length

/-- The text that the bytes of an encoded text give. -/
def percentDecode? (cs : List Char) : Option (List Char) :=
  (String.fromUTF8? ⟨(percentBytes cs).toArray⟩).map String.toList

/-- A printing character of ASCII, the space among them. -/
def isPrinting (c : Char) : Bool := 0x20 ≤ c.toNat && c.toNat < 0x7F

end StorageTiering.Url
