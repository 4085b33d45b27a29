import StorageTiering.Address
import StorageTiering.Text.Fields
import StorageTiering.Url.Percent
/-!
# What is known of a reader of addresses

The reader is not part of the program. What is shown of the paths of a command line holds for every reader that
does what the rules of the web say of schemes, of the paths of addresses with a host, and of addresses in which
there is nothing to interpret. Which characters these paths encode is left to the reader.

* `AddressReader.NeedsScheme` — an address starts with a letter.
* `AddressReader.HasSegments`, `AddressReader.Encodes` — the path of an address.
* `Address.IsPlain`, `Address.IsSegment`, `AddressReader.ReadsSegments` — an address that stays as it is, but for
  the encoding of its path.
-/

namespace StorageTiering

namespace Address

/-- A letter, a digit or a hyphen of ASCII. -/
def IsPlain (c : Char) : Prop := c.isAlphanum ∨ c = '-'

instance (c : Char) : Decidable (IsPlain c) := inferInstanceAs (Decidable (_ ∨ _))

/-- A part of a path that holds nothing but its own text: no control, no mark of another part of an address, no
percent sign, and it is no step. -/
structure IsSegment (segment : List Char) : Prop where
  noControl : ∀ c ∈ segment, 0x20 ≤ c.toNat
  noMark : ∀ c ∈ segment, c ∉ ['/', '?', '#', '%']
  noStep : segment ≠ ['.'] ∧ segment ≠ ['.', '.']

/-- The schemes for which the rules have more to say. -/
def specialSchemes : List String := ["ftp", "file", "http", "https", "ws", "wss"]

/-- A scheme for which they do not, in letters of lower case. -/
structure IsOrdinaryScheme (scheme : String) : Prop where
  ne_empty : scheme ≠ ""
  lower : ∀ c ∈ scheme.toList, c.isLower
  ordinary : scheme ∉ specialSchemes

end Address

namespace AddressReader

variable (reader : AddressReader) (keeps : Char → Bool)

/-- An address starts with the letter of a scheme. Controls and spaces in front of it are another matter. -/
def NeedsScheme : Prop :=
  ∀ text c, text.toList.head? = some c → 0x20 < c.toNat → ¬c.isAlpha → reader.read? text = none

/-- The path of an address with a host is a list of segments, each written behind a slash. -/
def HasSegments : Prop :=
  ∀ text address host, reader.read? text = some address → address.host = some host →
    ∃ segments, address.path.toList = Text.joined '/' segments

/-- In the path of an address with a host everything is encoded that is not kept. -/
def Encodes : Prop :=
  ∀ text address host, reader.read? text = some address → address.host = some host →
    ∀ c ∈ address.path.toList, c = '/' ∨ keeps c

/-- A plain host behind a scheme without rules of its own and a list of segments behind it are read as they stand,
but for what has to be encoded in the segments. Spaces at the end of a text do not belong to it. -/
def ReadsSegments : Prop :=
  ∀ scheme host segments, Address.IsOrdinaryScheme scheme → host ≠ "" → (∀ c ∈ host.toList, Address.IsPlain c) →
    (∀ segment ∈ segments, Address.IsSegment segment) →
    (∀ segment ∈ segments.getLast?, segment.getLast? ≠ some ' ') →
      reader.read? (scheme ++ "://" ++ host ++ String.ofList (Text.joined '/' segments)) =
        some ⟨scheme, some host, String.ofList (Text.joined '/' (segments.map (Url.percentEncode keeps)))⟩

end AddressReader

end StorageTiering
