import StorageTiering.Cluster.Basic
/-!
# The run lease of a namespace

At most one holder works on a namespace at a time.

* `Cluster.acquireLease`, `Cluster.renewLease`, `Cluster.releaseLease` — the calls of a holder.
* `Cluster.holdLease` — puts the lease into other hands.
-/

namespace StorageTiering.Cluster

/-- Grants the lease to a holder if nobody holds it. -/
def acquireLease (c : Cluster) (holder : String) : Cluster × Except LeaseError LeaseToken :=
  match c.lease with
  | some lease => (c, .error (.alreadyHeld lease.holder lease.bySatisfier))
  | none =>
      let serial := c.granted + 1
      ({ c with lease := some ⟨holder, some serial, false⟩, granted := serial },
       .ok ⟨holder, serial⟩)

/-- Whether a token is the one of the lease that is held. -/
def accepts (c : Cluster) (serial : Nat) : Bool :=
  match c.lease with
  | some lease => lease.serial == some serial
  | none => false

/-- Why the renewal of a token fails, if it does. -/
def renewalError? (c : Cluster) (serial : Nat) : Option LeaseError :=
  if c.rejectsRenewal then some (.lost "renewal rejected by metadata service")
  else match c.lease with
    | some lease =>
        if lease.serial = some serial then none else some (.lost ("now held by " ++ lease.holder))
    | none => some (.lost "lease expired")

/-- Renews the lease for the holder of a token. -/
def renewLease (c : Cluster) (serial : Nat) : Except LeaseError Unit :=
  match c.renewalError? serial with
  | some e => .error e
  | none => .ok ()

/-- Gives the lease back. -/
def releaseLease (c : Cluster) (serial : Nat) : Cluster × Except LeaseError Unit :=
  if c.accepts serial then ({ c with lease := none }, .ok ())
  else (c, .error (.lost "lease not held"))

/-- Puts the lease into the hands of someone who has no token. -/
def holdLease (c : Cluster) (holder : String) (bySatisfier : Bool) : Cluster :=
  { c with lease := some ⟨holder, none, bySatisfier⟩ }

/-- The name of whoever holds the lease. -/
def leaseHolder? (c : Cluster) : Option String := c.lease.map HeldLease.holder

end StorageTiering.Cluster
