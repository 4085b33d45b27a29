import StorageTiering.Text.Blank
/-!
# The services of a namespace

How calls to the metadata service, the lease service and the transfer service of a namespace fail.

* `NamespaceId` — the name of a namespace.
* `ListingError`, `LeaseError`, `TransferError` — why a call failed, and the wording of it.
-/

namespace StorageTiering

/-- Namespaces are known by name. -/
abbrev NamespaceId := String

/-- Whether the name of a namespace is blank. -/
def NamespaceId.isVoid (id : NamespaceId) : Bool := (Text.trim id).isEmpty

/-- Why a call to the metadata service failed. -/
inductive ListingError
  /-- The same call may succeed when it is repeated. -/
  | transient (text : String)
  | unavailable (text : String)
  | pathNotFound (path : String)
  deriving DecidableEq, Repr

namespace ListingError

/-- Whether the same call may succeed when it is repeated. -/
def isTransient : ListingError → Bool
  | .transient _ => true
  | _ => false

/-- The wording of a failed call. -/
def message : ListingError → String
  | .transient text => "Transient metadata error: " ++ text
  | .unavailable text => "Metadata service unavailable: " ++ text
  | .pathNotFound path => "Path not found: " ++ path

end ListingError

/-- Why a call to the lease service failed. -/
inductive LeaseError
  /-- Someone holds the lease; the storage policy satisfier, or else another mover. -/
  | alreadyHeld (holder : String) (bySatisfier : Bool)
  | lost (text : String)
  | unavailable (text : String)
  deriving DecidableEq, Repr

namespace LeaseError

/-- The wording of a failed call. -/
def message : LeaseError → String
  | .alreadyHeld holder _ => "Run lease already held by " ++ holder
  | .lost text => "Run lease lost: " ++ text
  | .unavailable text => "Lease service unavailable: " ++ text

end LeaseError

/-- Why the transfer of a replica failed. -/
inductive TransferError
  | sourceMissing (text : String)
  | refused (text : String)
  | timeout
  | transport (text : String)
  deriving DecidableEq, Repr

namespace TransferError

/-- The wording of a failed transfer. -/
def message : TransferError → String
  | .sourceMissing text => "Block data missing on source: " ++ text
  | .refused text => "Transfer refused: " ++ text
  | .timeout => "Timeout during transfer"
  | .transport text => "Transport error: " ++ text

end TransferError

end StorageTiering
