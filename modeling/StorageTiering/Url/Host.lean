import StorageTiering.Text.Blank
import StorageTiering.Text.Hidden
import StorageTiering.Url.InternetAddress
import StorageTiering.Url.Percent
/-!
# Hosts

The host of an address, as it is written after normalisation.

* `opaqueHost?` — the host under a scheme that leaves its meaning open.
* `domainHost?` — the host under one of the schemes of the web, where it names a machine.
-/

namespace StorageTiering.Url

/-- Characters that no host may hold. -/
def forbiddenInHosts : List Char :=
  ['\x00', '\t', '\n', '\r', ' ', '#', '/', ':', '<', '>', '?', '@', '[', '\\', ']', '^', '|']

/-- An address of eight groups between brackets. -/
def bracketed? (cs : List Char) : Option String :=
  if cs.getLast? = some ']' then
    (readGroups? cs.dropLast).map fun groups => "[" ++ groupsText groups ++ "]"
  else none

/-- The host under a scheme that leaves its meaning open: it stays as it is, but for characters that
do not print. -/
def opaqueHost? : List Char → Option String
  | '[' :: cs => bracketed? cs
  | cs =>
      if cs.any fun c => forbiddenInHosts.contains c then none
      else some (String.ofList (percentEncode isPrinting cs))

/-- Whether a character cannot be in the name of a machine. -/
def forbiddenInDomains (c : Char) : Bool :=
  forbiddenInHosts.contains c || c == '%' || Text.isHidden c || Text.isBlank c

/-- The host under one of the schemes of the web: the name of a machine, in lower case, or its
address. -/
def domainHost? : List Char → Option String
  | '[' :: cs => bracketed? cs
  | cs => do
      let name := (← percentDecode? cs).map Char.toLower
      if name.isEmpty || name.any forbiddenInDomains then none
      else if endsInNumber name then (readFour? name).map fourText
      else some (String.ofList name)

end StorageTiering.Url
