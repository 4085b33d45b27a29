import StorageTiering.Document.Shapes
import StorageTiering.Document.Toml.Quoted
import StorageTiering.Document.Toml.Scalar
import StorageTiering.Document.Toml.Table
/-!
# TOML

Reading of documents from TOML.

* `Toml.readKey?`, `Toml.readValue?` — the parts of a statement.
* `Toml.Statement`, `Toml.statements?` — a text as a list of statements.
* `Toml.read?` — the document that the statements of a text make.
* `Toml.dialect` — how records are read from TOML.
* `Toml.description?` — the description of a cluster that a text gives.
-/

namespace StorageTiering.Toml

/-! ### Blanks and keys -/

/-- What stands behind gaps. -/
def dropGaps (cs : List Char) : List Char := cs.dropWhile isGap

/-- What stands behind gaps, line ends and comments; the flag says that a comment is under way. -/
def dropBlanks? : Bool → List Char → Option (List Char)
  | false, [] => some []
  | true, [] => none
  | _, '\n' :: cs => dropBlanks? false cs
  | _, '\r' :: '\n' :: cs => dropBlanks? false cs
  | true, c :: cs => if isPlain c then dropBlanks? true cs else none
  | false, c :: cs =>
      if c = '#' then dropBlanks? true cs
      else if isGap c then dropBlanks? false cs
      else if c = '\r' then none
      else some (c :: cs)

/-- What stands behind the rest of a line, on which there is at most a comment. -/
def dropLine? (cs : List Char) : Option (List Char) :=
  let cs := match dropGaps cs with
    | '#' :: cs => cs.dropWhile isPlain
    | cs => cs
  match cs with
  | [] => some []
  | '\n' :: cs => some cs
  | '\r' :: '\n' :: cs => some cs
  | _ => none

/-- Whether a character may be in a key without quotes. -/
def inBareKey (c : Char) : Bool := c.isAlphanum || c == '_' || c == '-'

/-- One part of a key. -/
def readKeyPart? (cs : List Char) : Option (String × List Char) :=
  match cs with
  | '"' :: cs => (readEscaped? false .inside cs).map fun r => (String.ofList r.1, r.2)
  | '\'' :: cs => (readLiteral? false cs).map fun r => (String.ofList r.1, r.2)
  | cs =>
      let part := cs.takeWhile inBareKey
      if part.isEmpty then none else some (String.ofList part, cs.dropWhile inBareKey)

/-- The greatest number of parts of a key, and of brackets around a value. -/
def maxDepth : Nat := 79

/-- At most so many parts of a key with dots between them and gaps around them. -/
def readKeyParts? : Nat → List Char → Option (List String × List Char)
  | 0, _ => none
  | n + 1, cs => do
      let (part, cs) ← readKeyPart? (dropGaps cs)
      match dropGaps cs with
      | '.' :: cs => do
          let (parts, cs) ← readKeyParts? n cs
          some (part :: parts, cs)
      | cs => some ([part], cs)

/-- A key with the gaps around it. -/
def readKey? (cs : List Char) : Option (List String × List Char) := readKeyParts? maxDepth cs

/-! ### Values -/

/-- A reader gives a value and what stands behind it. -/
abbrev Reader (α : Type) := List Char → Option (α × List Char)

/-- Whether a character ends a value without brackets and quotes. -/
def endsScalar (c : Char) : Bool := [' ', '\t', '\n', '\r', '#', ',', ']', '\x7d'].contains c

/-- A value without brackets and quotes. Between a date and a time there may be a space. -/
def readScalar? : Reader Document := fun cs =>
  let word := cs.takeWhile fun c => !endsScalar c
  let rest := cs.dropWhile fun c => !endsScalar c
  let clock := rest.tail.takeWhile fun c => !endsScalar c
  if date? word = some [] ∧ rest.head? = some ' ' ∧ isClock clock then
    some (.date, rest.tail.drop clock.length)
  else (scalar? word).map fun d => (d, rest)

/-- The items of a list up to its closing bracket, given those before them in reverse. A comma may
stand behind the last item. -/
def readItems? (value : Reader Document) : Nat → List Document → Reader (List Document)
  | 0, _, _ => none
  | n + 1, before, cs => do
      match ← dropBlanks? false cs with
      | ']' :: cs => some (before.reverse, cs)
      | cs =>
          let (item, cs) ← value cs
          match ← dropBlanks? false cs with
          | ',' :: cs => readItems? value n (item :: before) cs
          | ']' :: cs => some ((item :: before).reverse, cs)
          | _ => none

/-- The entries of a table between braces, given the table that those before them make. -/
def readEntries? (value : Reader Document) : Nat → Table → Reader Table
  | 0, _, _ => none
  | n + 1, t, cs => do
      let (key, cs) ← readKey? cs
      match cs with
      | '=' :: cs => do
          let (item, cs) ← value (dropGaps cs)
          let t ← t.assign? key item
          match dropGaps cs with
          | ',' :: cs => readEntries? value n t cs
          | '\x7d' :: cs => some (t, cs)
          | _ => none
      | _ => none

/-- A table between braces, which stands on one line. -/
def readInline? (value : Reader Document) (cs : List Char) : Option (Document × List Char) :=
  match dropGaps cs with
  | '\x7d' :: cs => some (.record [], cs)
  | cs => do
      let (t, rest) ← readEntries? value (cs.length + 1) (Table.fresh .header) cs
      some (t.document, rest)

/-- A value with at most so many brackets around its innermost parts. -/
def readValueWithin? (depth : Nat) : Reader Document := fun cs =>
  match depth, cs with
  | _, '"' :: _ | _, '\'' :: _ => (readQuoted? cs).map fun r => (.text (String.ofList r.1), r.2)
  | 0, '[' :: _ | 0, '\x7b' :: _ => none
  | depth + 1, '[' :: cs => do
      let (items, rest) ← readItems? (readValueWithin? depth) (cs.length + 1) [] cs
      some (.list items, rest)
  | depth + 1, '\x7b' :: cs => readInline? (readValueWithin? depth) cs
  | _, cs => readScalar? cs

/-- A value. -/
def readValue? : Reader Document := readValueWithin? maxDepth

/-! ### Statements -/

/-- A statement of a TOML text. -/
inductive Statement
  /-- A key gets a value, in the table that was named last. -/
  | assign (key : List String) (value : Document)
  /-- A table is defined. -/
  | define (path : List String)
  /-- A table is appended to a list of tables. -/
  | append (path : List String)

/-- A key up to its closing brackets. -/
def readHeader? (closing : List Char) (cs : List Char) : Option (List String × List Char) := do
  let (path, cs) ← readKey? cs
  if closing.isPrefixOf cs then some (path, cs.drop closing.length) else none

/-- A statement without the rest of its line. -/
def readStatement? : Reader Statement
  | '[' :: '[' :: cs => (readHeader? [']', ']'] cs).map fun r => (.append r.1, r.2)
  | '[' :: cs => (readHeader? [']'] cs).map fun r => (.define r.1, r.2)
  | cs => do
      let (key, cs) ← readKey? cs
      match cs with
      | '=' :: cs => do
          let (value, cs) ← readValue? (dropGaps cs)
          some (.assign key value, cs)
      | _ => none

/-- The statements of the next lines, at most so many of them. -/
def statementsWithin? : Nat → List Char → Option (List Statement)
  | 0, _ => none
  | n + 1, cs =>
      match dropGaps cs with
      | [] => some []
      | '#' :: cs => (dropLine? ('#' :: cs)).bind (statementsWithin? n)
      | '\n' :: cs => statementsWithin? n cs
      | '\r' :: '\n' :: cs => statementsWithin? n cs
      | cs => do
          let (statement, cs) ← readStatement? cs
          let rest ← statementsWithin? n (← dropLine? cs)
          some (statement :: rest)

/-- The statements of a text, which may start with a byte order mark. Every line has a character, or
is the last one. -/
def statements? (cs : List Char) : Option (List Statement) :=
  let cs := match cs with
    | '\uFEFF' :: cs => cs
    | cs => cs
  statementsWithin? (cs.length + 1) cs

/-- The tree that statements make, given the path of the table that was named last. -/
def assemble? : List String → Table → List Statement → Option Table
  | _, t, [] => some t
  | path, t, .assign key value :: rest => do
      assemble? path (← t.within? .path (Table.assign? key value) path) rest
  | _, t, .define path :: rest => do assemble? path (← t.define? path) rest
  | _, t, .append path :: rest => do assemble? path (← t.append? path) rest

/-- The document of a whole text. -/
def read? (text : String) : Option Document := do
  let tree ← assemble? [] (Table.fresh .header) (← statements? text.toList)
  some tree.document

/-- Whether a document is an empty record or list. -/
def isVoid : Document → Bool
  | .record [] | .list [] => true
  | _ => false

/-- How records are read from TOML. -/
def dialect : Dialect where
  lenientLists := true
  isUnit := isVoid
  holds := fun _ _ => true

/-- The description of a cluster that a text gives. -/
def description? (text : String) : Option ClusterDescription :=
  (read? text).bind (ClusterDescription.ofDocument? dialect)

end StorageTiering.Toml
