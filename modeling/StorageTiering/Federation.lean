import StorageTiering.NamespacePaths
import StorageTiering.Run.Iterate
/-!
# Federations

The namespaces of a federation are run side by side. They share nothing, so each of them comes to
its own end, and the worst of their statuses is the status of the whole.

* `Federation.fault?` — why nothing is run.
* `Federation.runMember` — the run of one namespace.
* `Federation.run?` — the run of all namespaces, and the status of the whole.
-/

namespace StorageTiering.Federation

/-- The first path that is not absolute. -/
def relativePath? (paths : Option (List String)) : Option String :=
  (paths.getD []).find? fun p => !NamespacePaths.isAbsolute p

/-- Why the paths of a namespace cannot be processed. -/
def memberFault? (known : NamespaceId → Bool) (id : NamespaceId) (paths : Option (List String)) :
    Option String :=
  if NamespaceId.isVoid id then some "empty namespace identifier"
  else match relativePath? paths with
    | some path => some (PathError.notAbsolute path).message
    | none => if known id then none else some ("no connector for namespace " ++ id)

/-- Why nothing is run: the settings come first, then the namespaces in their order. -/
def fault? (settings : Settings) (known : NamespaceId → Bool) (paths : NamespacePaths) :
    Option String :=
  match settings.check with
  | .error e => some e.message
  | .ok () =>
      if paths.isEmpty then some "no namespace to process"
      else paths.findSome? fun member => memberFault? known member.1 member.2

/-- The status of one namespace of a federation. -/
def memberStatus (id : NamespaceId) : RunEnd → Status
  | .status s => s
  | .broken => .serviceFailure ("namespace " ++ id ++ " task failed")

/-- The worst status of namespaces in their order, the first of equals. -/
def status (members : List Status) : Status := members.foldl Status.worst .success

/-- The run of one namespace of at most so many iterations. -/
def runMember (settings : Settings) (holder : String) (paths : Option (List String))
    (rounds : Nat) (w : World) : World × Option RunEnd :=
  match (Run.start paths settings Suite.standard holder).run rounds w.settle with
  | (w, _, e) => (w, e)

/-- A namespace of a federation that is to be run. -/
structure Member where
  id : NamespaceId
  paths : Option (List String)
  world : World

/-- A namespace of a federation that has been run. -/
structure Finished where
  id : NamespaceId
  world : World
  status : Status

/-- The run of one namespace; `none` if so many iterations are not enough. -/
def finish? (settings : Settings) (holder : String) (rounds : Nat) (m : Member) :
    Option Finished :=
  match runMember settings holder m.paths rounds m.world with
  | (w, some e) => some ⟨m.id, w, memberStatus m.id e⟩
  | (_, none) => none

/-- The runs of all namespaces; `none` if so many iterations are not enough for one of them. -/
def runAll? (settings : Settings) (holder : String) (rounds : Nat) (members : List Member) :
    Option (List Finished) :=
  members.mapM (finish? settings holder rounds)

/-- The outcome of a federation. -/
structure Outcome where
  status : Status
  /-- The namespaces that were run, in their order; none if there was a fault. -/
  finished : List Finished

namespace Outcome

/-- The moment at which the last namespace has finished. -/
def lastMoment (o : Outcome) : Nat := o.finished.foldl (fun t m => max t m.world.now) 0

/-- A namespace after the run. -/
def world? (o : Outcome) (id : NamespaceId) : Option World :=
  (o.finished.find? fun m => m.id == id).map Finished.world

end Outcome

/-- The namespaces that paths name. -/
def members (paths : NamespacePaths) (worlds : SortedTable World) : List Member :=
  paths.filterMap fun p => (worlds.find? p.1).map fun w => ⟨p.1, p.2, w⟩

/-- The run of the namespaces that paths name; `none` if so many iterations are not enough for one
of them. -/
def run? (settings : Settings) (holder : String) (rounds : Nat) (paths : NamespacePaths)
    (worlds : SortedTable World) : Option Outcome :=
  match fault? settings (fun id => (worlds.find? id).isSome) paths with
  | some fault => some ⟨.illegalArguments fault, []⟩
  | none =>
      (runAll? settings holder rounds (members paths worlds)).map fun finished =>
        ⟨status (finished.map Finished.status), finished⟩

end StorageTiering.Federation
