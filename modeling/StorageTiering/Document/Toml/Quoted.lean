import StorageTiering.Text.Digits
/-!
# TOML texts

The four kinds of quoted texts of TOML. A reader gives the characters of a text and what stands
behind its closing quotes.

* `Toml.readEscaped?`, `Toml.readLiteral?` — texts with and without escapes, on one line or over
  several lines between three quotes.
* `Toml.readQuoted?` — any of these, from its opening quotes on.
-/

namespace StorageTiering.Toml

/-- Whether a character may stand on a line: any but the controls, of which the tabulator may. -/
def isPlain (c : Char) : Bool := c == '\t' || (0x20 ≤ c.toNat && c.toNat != 0x7F)

/-- Whether a character is a space or a tabulator. -/
def isGap (c : Char) : Bool := c == '\t' || c == ' '

/-- The character with a number, if there is one. -/
def numbered? (n : Nat) : Option Char := if n.isValidChar then some (Char.ofNat n) else none

/-- The character that an escape of one letter stands for. -/
def lettered? (c : Char) : Option Char :=
  match c with
  | 'b' => some '\x08'
  | 't' => some '\t'
  | 'n' => some '\n'
  | 'f' => some '\x0c'
  | 'r' => some '\r'
  | '"' => some '"'
  | '\\' => some '\\'
  | _ => none

/-- The text at three closing quotes: up to two more quotes before them belong to it. -/
def closeLong (quote : Char) : List Char → List Char × List Char
  | a :: b :: cs =>
      if a = quote ∧ b = quote then ([quote, quote], cs)
      else if a = quote then ([quote], b :: cs)
      else ([], a :: b :: cs)
  | [a] => if a = quote then ([quote], []) else ([], [a])
  | [] => ([], [])

/-- Whether two quotes stand at the start of a list. -/
def startsPair (quote : Char) (cs : List Char) : Bool := [quote, quote].isPrefixOf cs

/-- A character before a text that has been read. -/
def consTo (c : Char) (r : Option (List Char × List Char)) : Option (List Char × List Char) :=
  r.map fun r => (c :: r.1, r.2)

/-- Where the reader of a text with escapes is. -/
inductive Place
  | inside
  /-- Behind a backslash. -/
  | escaped
  /-- In a number, before so many more digits, with the value so far. -/
  | number (left value : Nat)
  /-- Behind a backslash and gaps, before the end of the line. -/
  | breaking
  /-- Behind a line that a backslash ends: gaps and line ends do not count. -/
  | continuing
  deriving DecidableEq, Repr

/-- Whether a character is blank in a text over several lines. A carriage return is, before a line
end. -/
def isLongBlank (c : Char) (cs : List Char) : Bool :=
  isGap c || c == '\n' || (c == '\r' && cs.head? == some '\n')

/-- A text with escapes, on one line or `long`. In a long one, a backslash at the end of a line
takes away what is blank behind it. -/
def readEscaped? (long : Bool) : Place → List Char → Option (List Char × List Char)
  | _, [] => none
  | .escaped, c :: cs =>
      if c = 'u' then readEscaped? long (.number 4 0) cs
      else if c = 'U' then readEscaped? long (.number 8 0) cs
      else if long && isLongBlank c cs then
        readEscaped? long (if c = '\n' then .continuing else .breaking) cs
      else do consTo (← lettered? c) (readEscaped? long .inside cs)
  | .number left value, c :: cs => do
      let value := value * 16 + (← Text.hexDigit? c)
      if left ≤ 1 then consTo (← numbered? value) (readEscaped? long .inside cs)
      else readEscaped? long (.number (left - 1) value) cs
  | .breaking, c :: cs =>
      if c = '\n' then readEscaped? long .continuing cs
      else if isLongBlank c cs then readEscaped? long .breaking cs
      else none
  | place, c :: cs =>
      if place = .continuing ∧ isLongBlank c cs then readEscaped? long .continuing cs
      else if c = '\\' then readEscaped? long .escaped cs
      else if c = '"' ∧ !long then some ([], cs)
      else if c = '"' ∧ startsPair '"' cs then some (closeLong '"' (cs.drop 2))
      else if isPlain c ∨ (long ∧ c = '\n') then consTo c (readEscaped? long .inside cs)
      else if long && isLongBlank c cs then readEscaped? long .inside cs
      else none

/-- A text in which every character stands for itself, on one line or `long`. -/
def readLiteral? (long : Bool) : List Char → Option (List Char × List Char)
  | [] => none
  | c :: cs =>
      if c = '\'' ∧ !long then some ([], cs)
      else if c = '\'' ∧ startsPair '\'' cs then some (closeLong '\'' (cs.drop 2))
      else if isPlain c ∨ (long ∧ c = '\n') then consTo c (readLiteral? long cs)
      else if long && isLongBlank c cs then readLiteral? long cs
      else none

/-- What stands behind a line end, if there is one. -/
def dropLineEnd : List Char → List Char
  | '\n' :: cs => cs
  | '\r' :: '\n' :: cs => cs
  | cs => cs

/-- A text of any kind, from its opening quotes on. A line end right behind three quotes does not
count. -/
def readQuoted? : List Char → Option (List Char × List Char)
  | '"' :: '"' :: '"' :: cs => readEscaped? true .inside (dropLineEnd cs)
  | '"' :: cs => readEscaped? false .inside cs
  | '\'' :: '\'' :: '\'' :: cs => readLiteral? true (dropLineEnd cs)
  | '\'' :: cs => readLiteral? false cs
  | _ => none

end StorageTiering.Toml
