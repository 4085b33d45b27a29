/-!
# Addresses

A path of a command line may be an address. Which texts are addresses, and what they consist of, is up to a
library that knows the rules of the web.

* `Address` — what is asked of an address.
* `AddressReader` — a library that reads addresses.
-/

namespace StorageTiering

/-- What is asked of an address. -/
structure Address where
  /-- The scheme in lower case. -/
  scheme : String
  /-- The host, if there is one; it may be empty. -/
  host : Option String
  /-- The path as it is written in an address. -/
  path : String
  deriving DecidableEq, Repr

/-- A library that reads addresses. -/
structure AddressReader where
  /-- The address that a text is, if it is one. -/
  read? : String → Option Address

end StorageTiering
