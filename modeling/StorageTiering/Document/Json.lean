import StorageTiering.Document
import StorageTiering.Text.Digits
/-!
# JSON

Reading and writing of documents as JSON.

* `Json.step`, `Json.lex?` — one character at a time, a text becomes tokens.
* `Json.assemble` — one token at a time, tokens become a document.
* `Json.read?` — the document of a whole text; nothing outside the grammar is accepted.
* `Json.write` — the compact text of a document, its fields in the order given.
* `Json.dialect` — how records are read from JSON.
-/

namespace StorageTiering.Json

open StorageTiering.Text (decimal hexDigit?)

/-! ### Tokens -/

/-- A token of a JSON text. -/
inductive Token
  | openList
  | closeList
  | openRecord
  | closeRecord
  | comma
  | colon
  /-- A text; `none` if it holds an unpaired surrogate escape. -/
  | text (value : Option String)
  | scalar (value : Document)
  deriving Inhabited

/-- Where the lexer is inside an escape of a text. -/
inductive Escape
  | outside
  /-- Behind a backslash. -/
  | begun
  /-- Behind a backslash and a `u`, with the digits seen so far. -/
  | digits (count value : Nat)
  deriving DecidableEq, Repr

/-- A text under way: its characters in reverse, whether it is broken, the high surrogate that
waits for its partner, and the place inside an escape. -/
structure PartialText where
  reversed : List Char
  broken : Bool
  high : Option Nat
  escape : Escape

/-- Where the lexer is. -/
inductive Mode
  | gap
  | number (reversed : List Char)
  | word (reversed : List Char)
  | text (state : PartialText)

/-- The digits at the start of a list, and what follows them. -/
def spanDigits (cs : List Char) : List Char × List Char :=
  (cs.takeWhile Char.isDigit, cs.dropWhile Char.isDigit)

/-- The fraction at the start of a list: no digit without a point, and at least one behind it. -/
def spanFraction : List Char → Option (List Char × List Char)
  | '.' :: cs =>
      let (digits, rest) := spanDigits cs
      if digits.isEmpty then none else some (digits, rest)
  | cs => some ([], cs)

/-- The exponent at the start of a list, `none` in it if there is none. -/
def spanExponent : List Char → Option (Option Int × List Char)
  | c :: cs =>
      if c = 'e' ∨ c = 'E' then
        let (negative, cs) : Bool × List Char := match cs with
          | '-' :: cs => (true, cs)
          | '+' :: cs => (false, cs)
          | cs => (false, cs)
        let (digits, rest) := spanDigits cs
        if digits.isEmpty then none
        else
          let size : Int := decimal digits
          some (some (if negative then -size else size), rest)
      else some (none, c :: cs)
  | [] => some (none, [])

/-- The document of a number: an integer unless it has a fraction, an exponent, or is minus zero. -/
def number? (cs : List Char) : Option Document :=
  let (negative, cs) : Bool × List Char := match cs with
    | '-' :: cs => (true, cs)
    | cs => (false, cs)
  let (whole, rest) := spanDigits cs
  if whole.isEmpty || (whole.length > 1 && whole.head? == some '0') then none
  else do
    let (fraction, rest) ← spanFraction rest
    let (exponent, rest) ← spanExponent rest
    if !rest.isEmpty then none
    else if fraction.isEmpty && exponent.isNone && !(negative && decimal whole == 0) then
      let size : Int := decimal whole
      some (.int (if negative then -size else size))
    else
      some (.real (Text.isFinite (whole ++ fraction) (exponent.getD 0 - fraction.length)))

/-- The document of a bare word. -/
def word? : List Char → Option Document
  | ['n', 'u', 'l', 'l'] => some .null
  | ['t', 'r', 'u', 'e'] => some (.bool true)
  | ['f', 'a', 'l', 's', 'e'] => some (.bool false)
  | _ => none

/-- A text that has come to its closing quote. -/
def PartialText.close (t : PartialText) : Token :=
  .text (if t.broken || t.high.isSome then none else some (String.ofList t.reversed.reverse))

/-- A text extended by a character; a waiting high surrogate is left alone by it. -/
def PartialText.add (t : PartialText) (c : Char) : PartialText :=
  ⟨c :: t.reversed, t.broken || t.high.isSome, none, .outside⟩

/-- A text extended by a code unit that an escape gives. -/
def PartialText.addUnit (t : PartialText) (unit : Nat) : PartialText :=
  if 0xDC00 ≤ unit ∧ unit < 0xE000 then
    match t.high with
    | some high =>
        ⟨Char.ofNat (0x10000 + (high - 0xD800) * 0x400 + (unit - 0xDC00)) :: t.reversed,
         t.broken, none, .outside⟩
    | none => ⟨t.reversed, true, none, .outside⟩
  else if 0xD800 ≤ unit ∧ unit < 0xDC00 then
    ⟨t.reversed, t.broken || t.high.isSome, some unit, .outside⟩
  else t.add (Char.ofNat unit)

/-- The character that a single-letter escape stands for. -/
def escaped? : Char → Option Char
  | '"' => some '"'
  | '\\' => some '\\'
  | '/' => some '/'
  | 'b' => some (Char.ofNat 8)
  | 'f' => some (Char.ofNat 12)
  | 'n' => some '\n'
  | 'r' => some '\r'
  | 't' => some '\t'
  | _ => none

/-- One character inside a text: the text goes on, or it is closed. -/
def PartialText.step (t : PartialText) (c : Char) : Option (PartialText ⊕ Token) :=
  match t.escape with
  | .outside =>
      if c = '"' then some (.inr t.close)
      else if c = '\\' then some (.inl { t with escape := .begun })
      else if c.toNat < 0x20 then none
      else some (.inl (t.add c))
  | .begun =>
      if c = 'u' then some (.inl { t with escape := .digits 0 0 })
      else (escaped? c).map fun c => .inl (t.add c)
  | .digits count value => do
      let d ← hexDigit? c
      if count = 3 then some (.inl (t.addUnit (value * 16 + d)))
      else some (.inl { t with escape := .digits (count + 1) (value * 16 + d) })

/-- One character between tokens. -/
def stepGap (c : Char) : Option (Mode × List Token) :=
  match c with
  | '[' => some (.gap, [.openList])
  | ']' => some (.gap, [.closeList])
  | '{' => some (.gap, [.openRecord])
  | '}' => some (.gap, [.closeRecord])
  | ',' => some (.gap, [.comma])
  | ':' => some (.gap, [.colon])
  | '"' => some (.text ⟨[], false, none, .outside⟩, [])
  | ' ' => some (.gap, [])
  | '\t' => some (.gap, [])
  | '\n' => some (.gap, [])
  | '\r' => some (.gap, [])
  | c =>
      if c.isDigit || c == '-' then some (.number [c], [])
      else if c.isAlpha then some (.word [c], [])
      else none

/-- Whether a number can go on with a character. -/
def inNumber (c : Char) : Bool :=
  c.isDigit || c == '.' || c == 'e' || c == 'E' || c == '+' || c == '-'

/-- One character of a text: where the lexer is then, and the tokens it has completed. -/
def step (mode : Mode) (c : Char) : Option (Mode × List Token) :=
  match mode with
  | .gap => stepGap c
  | .number reversed =>
      if inNumber c then some (.number (c :: reversed), [])
      else do
        let d ← number? reversed.reverse
        let (mode, tokens) ← stepGap c
        some (mode, .scalar d :: tokens)
  | .word reversed =>
      if c.isAlpha then some (.word (c :: reversed), [])
      else do
        let d ← word? reversed.reverse
        let (mode, tokens) ← stepGap c
        some (mode, .scalar d :: tokens)
  | .text t => do
      match ← t.step c with
      | .inl t => some (.text t, [])
      | .inr token => some (.gap, [token])

/-- The tokens that the end of a text completes. -/
def finish : Mode → Option (List Token)
  | .gap => some []
  | .number reversed => (number? reversed.reverse).map fun d => [.scalar d]
  | .word reversed => (word? reversed.reverse).map fun d => [.scalar d]
  | .text _ => none

/-- The tokens of a text, added in reverse to those before it. -/
def lexFrom (mode : Mode) (reversed : List Token) : List Char → Option (List Token)
  | [] => (finish mode).map fun tokens => reversed.reverse ++ tokens
  | c :: cs =>
      match step mode c with
      | none => none
      | some (mode, tokens) => lexFrom mode (tokens.reverse ++ reversed) cs

/-- The tokens of a text. -/
def lex? (cs : List Char) : Option (List Token) := lexFrom .gap [] cs

/-! ### Documents -/

/-- A list or record that is still open, what it holds in reverse. -/
inductive Frame
  | list (reversed : List Document)
  | record (reversed : List (Option String × Document)) (key : Option String)

/-- What may come next. -/
inductive Expect
  | value
  /-- A value, or the end of a list. -/
  | firstItem
  /-- A key, or the end of a record. -/
  | firstKey
  | key
  | colon
  /-- A comma or the end of the innermost frame; the end of the text if there is none. -/
  | afterValue

/-- What a document under assembly consists of. -/
structure Assembly where
  stack : List Frame
  expect : Expect
  result : Option Document

/-- A value that is complete goes into the innermost frame. -/
def Assembly.deliver (stack : List Frame) (d : Document) : Assembly :=
  match stack with
  | [] => ⟨[], .afterValue, some d⟩
  | .list reversed :: rest => ⟨.list (d :: reversed) :: rest, .afterValue, none⟩
  | .record reversed key :: rest => ⟨.record ((key, d) :: reversed) none :: rest, .afterValue, none⟩

/-- A token where a value is due. -/
def Assembly.stepValue (stack : List Frame) : Token → Option Assembly
  | .scalar d => some (deliver stack d)
  | .text (some s) => some (deliver stack (.text s))
  | .text none => some (deliver stack .brokenText)
  | .openList => some ⟨.list [] :: stack, .firstItem, none⟩
  | .openRecord => some ⟨.record [] none :: stack, .firstKey, none⟩
  | _ => none

/-- The end of the innermost frame. -/
def Assembly.stepClose (stack : List Frame) : Token → Option Assembly
  | .closeList => match stack with
      | .list reversed :: rest => some (deliver rest (.list reversed.reverse))
      | _ => none
  | .closeRecord => match stack with
      | .record reversed _ :: rest => some (deliver rest (.record reversed.reverse))
      | _ => none
  | _ => none

/-- A token where a key is due. -/
def Assembly.stepKey (stack : List Frame) : Token → Option Assembly
  | .text key => match stack with
      | .record reversed _ :: rest => some ⟨.record reversed key :: rest, .colon, none⟩
      | _ => none
  | _ => none

/-- One token of a text. -/
def Assembly.step (a : Assembly) (token : Token) : Option Assembly :=
  match a.expect with
  | .value => stepValue a.stack token
  | .firstItem => match token with
      | .closeList => stepClose a.stack token
      | _ => stepValue a.stack token
  | .firstKey => match token with
      | .closeRecord => stepClose a.stack token
      | _ => stepKey a.stack token
  | .key => stepKey a.stack token
  | .colon => match token with
      | .colon => some ⟨a.stack, .value, none⟩
      | _ => none
  | .afterValue => match token with
      | .comma => match a.stack with
          | .list _ :: _ => some ⟨a.stack, .value, none⟩
          | .record _ _ :: _ => some ⟨a.stack, .key, none⟩
          | [] => none
      | _ => stepClose a.stack token

/-- The document that tokens make up. -/
def assemble (a : Assembly) : List Token → Option Document
  | [] => a.result
  | token :: tokens =>
      match a.step token with
      | none => none
      | some a => assemble a tokens

/-- The document of a whole text. -/
def read? (s : String) : Option Document := (lex? s.toList).bind (assemble ⟨[], .value, none⟩)

/-! ### Writing -/

/-- The digits of an escape of a control character. -/
def hexPair (n : Nat) : List Char := [Nat.digitChar (n / 16), Nat.digitChar (n % 16)]

/-- The characters that stand for one character of a text. -/
def writeChar (c : Char) : List Char :=
  if c = '"' then ['\\', '"']
  else if c = '\\' then ['\\', '\\']
  else if c = '\n' then ['\\', 'n']
  else if c = '\r' then ['\\', 'r']
  else if c = '\t' then ['\\', 't']
  else if c.toNat = 8 then ['\\', 'b']
  else if c.toNat = 12 then ['\\', 'f']
  else if c.toNat < 0x20 then ['\\', 'u', '0', '0'] ++ hexPair c.toNat
  else [c]

/-- A text between quotes. -/
def quote (s : String) : String := "\"" ++ String.ofList (s.toList.flatMap writeChar) ++ "\""

mutual

/-- The compact text of a document. A date, a broken text or a number with a fraction has none of
its own, so it is written as nothing. -/
def write : Document → String
  | .null => "null"
  | .bool true => "true"
  | .bool false => "false"
  | .int i => toString i
  | .real _ => "null"
  | .text s => quote s
  | .brokenText => "null"
  | .date => "null"
  | .list items => "[" ++ writeItems items ++ "]"
  | .record fields => "\x7b" ++ writeFields fields ++ "\x7d"

/-- The items of a list, with commas between them. -/
def writeItems : List Document → String
  | [] => ""
  | [d] => write d
  | d :: rest => write d ++ "," ++ writeItems rest

/-- The fields of a record, with commas between them. -/
def writeFields : List (Option String × Document) → String
  | [] => ""
  | [(key, d)] => quote (key.getD "") ++ ":" ++ write d
  | (key, d) :: rest => quote (key.getD "") ++ ":" ++ write d ++ "," ++ writeFields rest

end

/-! ### Records -/

/-- How deep lists and records may be nested in a text of which a part is held at once. -/
def depthLimit : Nat := 127

/-- A list that stands for a record has no item too many; a bare alternative stands over nothing;
what is held at once is whole and not nested too deep. -/
def dialect : Dialect where
  lenientLists := false
  isUnit
    | .null => true
    | _ => false
  holds outer d := d.isWhole && decide (outer + d.height ≤ depthLimit)

end StorageTiering.Json
