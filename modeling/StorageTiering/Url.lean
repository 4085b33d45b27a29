import StorageTiering.Address
import StorageTiering.Url.Host
import StorageTiering.Url.Path
/-!
# A reader of addresses

Addresses of the form `scheme://host/path`, under the rules of the web as the command line has them. The path of
an address without a host is left out, since nobody asks for it.

* `Url.read?` — the address that a text is, if it is one. Credentials, service number, query and
  fragment are checked and dropped.
* `Url.reader` — the reader of the command line.
-/

namespace StorageTiering

namespace Url

/-! ### The parts of an address -/

/-- Whether a character is a control or the space. -/
def isTrimmed (c : Char) : Bool := c.toNat ≤ 0x20

/-- Whether a character is left out wherever it stands. -/
def isIgnored (c : Char) : Bool := c == '\t' || c == '\n' || c == '\r'

/-- The characters of a text that count. -/
def significant (s : String) : List Char :=
  (Text.stripEnds isTrimmed s.toList).filter fun c => !isIgnored c

/-- Whether a character may be in a scheme. -/
def inScheme (c : Char) : Bool := c.isAlphanum || c == '+' || c == '-' || c == '.'

/-- The scheme before the first colon, in lower case, and what stands behind the colon. -/
def splitScheme? (cs : List Char) : Option (String × List Char) :=
  match cs.span inScheme with
  | (first :: scheme, ':' :: rest) =>
      if first.isAlpha then some (String.ofList ((first :: scheme).map Char.toLower), rest)
      else none
  | _ => none

/-- Whether a character ends an authority. -/
def endsAuthority (c : Char) : Bool := c == '/' || c == '?' || c == '#'

/-- What stands before and behind the last at-sign, if there is one. -/
def cutAtLastSign (cs : List Char) : Option (List Char × List Char) :=
  if cs.contains '@' then
    let behind := (cs.reverse.takeWhile (· != '@')).reverse
    some (cs.take (cs.length - behind.length - 1), behind)
  else none

/-- Whether brackets are open behind a character. -/
def staysInside (inside : Bool) (c : Char) : Bool := c == '[' || (inside && c != ']')

/-- The host at the start of an authority and what stands behind it. A colon between brackets
belongs to the host. -/
def spanHost : Bool → List Char → List Char × List Char
  | _, [] => ([], [])
  | inside, c :: cs =>
      if c = ':' ∧ !inside then ([], c :: cs)
      else
        let (host, rest) := spanHost (staysInside inside c) cs
        (c :: host, rest)

/-- What stands behind the number of a service, if there is one: digits of a two-byte number behind
a colon. A backslash ends them. -/
def dropServiceNumber? : List Char → Option (List Char)
  | ':' :: cs =>
      let (digits, rest) := cs.span Char.isDigit
      if Text.byteBound 2 ≤ Text.decimal digits then none
      else match rest with
        | [] => some []
        | c :: _ => if c = '\\' then some rest else none
  | rest => some rest

/-- Whether credentials say anything. -/
def isIdle (credentials : List Char) : Bool := credentials == [] || credentials == [':']

/-- Whether a character starts a query or a fragment. -/
def endsPath (c : Char) : Bool := c == '?' || c == '#'

/-- The text of a path up to a query or fragment. -/
def pathPart (cs : List Char) : List Char := cs.takeWhile fun c => !endsPath c

/-- The host of an authority and what stands between the authority and the path. Credentials or the
number of a service without a host are refused. -/
def readAuthority? (readHost? : List Char → Option String) (authority rest : List Char) :
    Option (Option String × List Char) := do
  let (credentials, place) := (cutAtLastSign authority).getD ([], authority)
  if authority.head? = some '@' ∧ credentials = [] ∧ place = [] ∧ rest ≠ [] then none
  else
    let (host, behind) := spanHost false place
    if host = [] then
      if behind = [] ∧ isIdle credentials then some (none, []) else none
    else some (some (← readHost? host), ← dropServiceNumber? behind)

/-! ### Addresses by kind of scheme -/

/-- The address under a scheme that leaves the meaning of the host open. -/
def readOpaque? (scheme : String) : List Char → Option Address
  | '/' :: '/' :: cs => do
      let (authority, rest) := cs.span fun c => !endsAuthority c
      let (host, gap) ← readAuthority? opaqueHost? authority rest
      match host with
      | none => some ⟨scheme, none, ""⟩
      | some host =>
          match pathPart (gap ++ rest) with
          | [] => some ⟨scheme, some host, ""⟩
          | path => some ⟨scheme, some host, normalPath path⟩
  | _ => some ⟨scheme, none, ""⟩

/-- A text in which a backslash before the query is a slash. -/
def slashed (cs : List Char) : List Char :=
  (pathPart cs).map (fun c => if c = '\\' then '/' else c) ++ cs.dropWhile fun c => !endsPath c

/-- The address under a scheme of the web, where any number of slashes comes before the host, and
there is a host. -/
def readWeb? (scheme : String) (cs : List Char) : Option Address := do
  let (authority, rest) := ((slashed cs).dropWhile (· == '/')).span fun c => !endsAuthority c
  match ← readAuthority? domainHost? authority rest with
  | (none, _) => none
  | (some host, gap) => some ⟨scheme, some host, normalPath (pathPart (gap ++ rest))⟩

/-- The address of a file. The machine at hand and the drives of no machine are no hosts. -/
def readFile? (cs : List Char) : Option Address :=
  match slashed cs with
  | '/' :: '/' :: cs =>
      let (host, rest) := cs.span fun c => !endsAuthority c
      let path := pathPart rest
      if host = [] ∨ isDrive host then some ⟨"file", none, ""⟩
      else do
        let host ← domainHost? host
        if host = "localhost" ∨ (pathNames path).head?.any isDrive then some ⟨"file", none, ""⟩
        else some ⟨"file", some host, normalPath path⟩
  | _ => some ⟨"file", none, ""⟩

/-- The schemes of the web. -/
def webSchemes : List String := ["http", "https", "ws", "wss", "ftp"]

/-- The address that a text is. -/
def read? (s : String) : Option Address := do
  let (scheme, rest) ← splitScheme? (significant s)
  if scheme = "file" then readFile? rest
  else if webSchemes.contains scheme then readWeb? scheme rest
  else readOpaque? scheme rest

/-- The reader of the command line. -/
def reader : AddressReader := ⟨read?⟩

end Url

end StorageTiering
