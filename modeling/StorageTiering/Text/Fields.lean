/-!
# Fields

A text cut at a separator.

* `fields` — the parts between the separators; there is always at least one.
* `joined` — parts with a separator in front of each.
-/

namespace StorageTiering.Text

/-- The parts of a text between separators. -/
def fields (separator : Char) : List Char → List (List Char)
  | [] => [[]]
  | c :: cs =>
      if c = separator then [] :: fields separator cs
      else match fields separator cs with
        | [] => [[c]]
        | field :: rest => (c :: field) :: rest

/-- Parts with a separator in front of each. -/
def joined (separator : Char) (parts : List (List Char)) : List Char :=
  parts.flatMap fun part => separator :: part

end StorageTiering.Text
