import StorageTiering.Service
import StorageTiering.SortedTable
import StorageTiering.Text.Quoted
import StorageTiering.Url
/-!
# Paths of namespaces

The paths of a command line, assigned to the namespaces to which they belong. With a single
namespace a plain absolute path is enough; otherwise a path names its namespace as
`ns://namespace/path`, which a library reads.

* `Target` — what a path says of its namespace.
* `resolvePath` — the namespace of one path, and the path in it.
* `resolvePaths` — the paths of every namespace, or the error of the first path that has none.
-/

namespace StorageTiering

/-- The paths to process in each namespace, in the order of namespaces; `none` means all. -/
abbrev NamespacePaths := SortedTable (Option (List String))

/-- Why the paths of a command line have no namespace. -/
inductive PathError
  | noNamespaces
  | notAbsolute (path : String)
  | missingAuthority (path : String)
  | unresolved (path : String) (known : List NamespaceId)
  deriving DecidableEq, Repr

namespace PathError

/-- The wording of a refused path. -/
def message : PathError → String
  | .noNamespaces => "No namespace configured"
  | .notAbsolute path => "The path " ++ path ++ " is not absolute"
  | .missingAuthority path =>
      "The path " ++ path ++
        " does not contain scheme and authority thus cannot identify its namespace"
  | .unresolved path known =>
      "Cannot resolve the path " ++ path ++ ". The namespaces specified: " ++ Text.quotedList known

end PathError

/-- What a path says of its namespace. -/
inductive Target
  /-- It is no address at all. -/
  | plain
  /-- It is an address without a host. -/
  | unplaced
  | placed (scheme host path : String)
  deriving DecidableEq, Repr

namespace Target

/-- The scheme under which the host of an address is a namespace. -/
def namespaceScheme : String := "ns"

/-- What a path says of its namespace. An empty host is none, and an address without a path means the root. -/
def ofPath (reader : AddressReader) (raw : String) : Target :=
  match reader.read? raw with
  | none => .plain
  | some address =>
      match address.host.filter fun host => !host.isEmpty with
      | none => .unplaced
      | some host => .placed address.scheme host (if address.path.isEmpty then "/" else address.path)

end Target

namespace NamespacePaths

/-- Whether a path starts at the root. -/
def isAbsolute (path : String) : Bool := path.toList.head? == some '/'

/-- The namespace of a path, and the path in it. -/
def resolvePath (reader : AddressReader) (known : List NamespaceId) (raw : String) :
    Except PathError (NamespaceId × String) :=
  match Target.ofPath reader raw with
  | .plain =>
      match known with
      | [id] => if isAbsolute raw then .ok (id, raw) else .error (.notAbsolute raw)
      | _ => .error (.missingAuthority raw)
  | .unplaced => .error (.missingAuthority raw)
  | .placed scheme host path =>
      if scheme = Target.namespaceScheme ∧ host ∈ known then .ok (host, path)
      else .error (.unresolved raw known)

/-- The paths with one more in a namespace, unless it is there. -/
def addPath (t : NamespacePaths) (target : NamespaceId × String) : NamespacePaths :=
  match t.find? target.1 with
  | some (some paths) =>
      if target.2 ∈ paths then t else t.put target.1 (some (paths ++ [target.2]))
  | _ => t.put target.1 (some [target.2])

/-- All namespaces, each as a whole. -/
def whole (known : List NamespaceId) : NamespacePaths :=
  known.foldl (fun t id => t.put id none) []

/-- The paths of every namespace that one of them names; without paths all namespaces as a whole. -/
def resolvePaths (known : List NamespaceId) (paths : List String) (reader : AddressReader := Url.reader) :
    Except PathError NamespacePaths :=
  if known.isEmpty then .error .noNamespaces
  else if paths.isEmpty then .ok (whole known)
  else do
    let targets ← paths.mapM (resolvePath reader known)
    return targets.foldl addPath []

end NamespacePaths

end StorageTiering
