import StorageTiering.Block
/-!
# Storage policies

A storage policy names the storage types on which the replicas of a file should live. A suite holds
the policies a cluster knows and resolves one of them for a block's layout.

* `Policy.choose` — the types of a number of slots.
* `Suite` — policies of which none is empty; `Suite.ofPolicies` builds one, `Suite.standard` is the
  suite of a cluster that declares none.
* `Suite.resolve` — what a layout needs under a policy.
-/

namespace StorageTiering

/-- A named storage policy. -/
structure Policy where
  id : Nat
  name : String
  /-- The preferred type of each slot; the last one repeats. -/
  types : List StorageType
  /-- Whether striped block groups may use this policy. -/
  striped : Bool
  deriving DecidableEq, Repr, Inhabited

/-- Why a policy cannot be applied. -/
inductive PolicyFault
  | unknown (name : String)
  | empty (name : String)
  deriving DecidableEq, Repr

namespace PolicyFault

/-- The wording of a policy fault. -/
def message : PolicyFault → String
  | .unknown name => "Unknown storage policy: " ++ name
  | .empty name => "Storage policy " ++ name ++ " declares no storage types"

end PolicyFault

namespace Policy

/-- The types on which replicas may be placed for good: transient ones are never chosen. -/
def lasting (p : Policy) : List StorageType := p.types.filter fun t => !t.isTransient

/-- The type that fills the slots past the declared ones: the last one, unless it is transient. -/
def filler? (p : Policy) : Option StorageType := p.types.getLast?.filter fun t => !t.isTransient

/-- The types of `slots` slots: the lasting ones in their order, then the filler. -/
def choose (p : Policy) (slots : Nat) : List StorageType :=
  let chosen := p.lasting.take slots
  match p.filler? with
  | some last => chosen ++ List.replicate (slots - chosen.length) last
  | none => chosen

end Policy

/-- What a layout needs under a policy. -/
inductive Resolution
  /-- The types that the slots of the block must reach. -/
  | required (types : List StorageType)
  /-- The policy with this name cannot apply to the layout; the block stays as it is. -/
  | untouched (policy : String)
  deriving DecidableEq, Repr

namespace Resolution

/-- Why a block under this policy stays as it is. -/
def untouchedReason (policy : String) : String :=
  "policy " ++ policy ++ " is not supported for striped block groups"

end Resolution

/-- The storage policies that a cluster knows; each of them declares a type. -/
structure Suite where
  policies : List Policy
  declared : ∀ p ∈ policies, p.types ≠ []

namespace Suite

/-- The first policy that declares no type. -/
def firstEmpty? (policies : List Policy) : Option Policy :=
  policies.find? fun p => p.types.isEmpty

theorem declared_of_firstEmpty? {policies : List Policy} (h : firstEmpty? policies = none) :
    ∀ p ∈ policies, p.types ≠ [] := by
  intro p hp he
  have := List.find?_eq_none.1 h p hp
  simp [he] at this

/-- A suite of the given policies; the first empty one is the fault. -/
def ofPolicies (policies : List Policy) : Except PolicyFault Suite :=
  match h : firstEmpty? policies with
  | some p => .error (.empty p.name)
  | none => .ok ⟨policies, declared_of_firstEmpty? h⟩

/-- The policies of a cluster that declares none of its own. -/
def standardPolicies : List Policy :=
  [⟨1, "PROVIDED", [.provided, .disk], false⟩,
   ⟨2, "COLD", [.archive], true⟩,
   ⟨5, "WARM", [.disk, .archive], false⟩,
   ⟨7, "HOT", [.disk], true⟩,
   ⟨10, "ONE_SSD", [.ssd, .disk], false⟩,
   ⟨12, "ALL_SSD", [.ssd], true⟩,
   ⟨15, "LAZY_PERSIST", [.ramDisk, .disk], false⟩]

/-- The suite of a cluster that declares none of its own. -/
def standard : Suite := ⟨standardPolicies, by decide⟩

/-- The first policy with a name, up to the case of ASCII letters. -/
def get? (s : Suite) (name : String) : Option Policy :=
  s.policies.find? fun p => Text.sameLetters p.name name

/-- What a layout needs under the policy with a name. -/
def resolve (s : Suite) (name : String) (layout : Layout) : Except PolicyFault Resolution :=
  match s.get? name with
  | none => .error (.unknown name)
  | some p =>
      if layout.isStriped && !p.striped then .ok (.untouched p.name)
      else .ok (.required (p.choose layout.slots))

end Suite

end StorageTiering
