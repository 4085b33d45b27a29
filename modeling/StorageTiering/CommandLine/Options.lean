import StorageTiering.Settings
import StorageTiering.Text.Fields
/-!
# Options of the command line

An option that needs a value takes it from behind an equals sign or from the next argument; paths
take every argument up to the next option. Single values are given once, paths and clusters as often
as one likes.

* `Options` — what the arguments ask for.
* `OptionName.ofLong?`, `OptionName.ofShort?` — the options by name.
* `Reading.step` — one argument after another.
* `Request.read?` — what the arguments ask for, unless they are misused.
-/

namespace StorageTiering

/-- What the arguments of a command line ask for. -/
structure Options where
  paths : List String
  /-- The files that describe clusters. -/
  clusters : List String
  /-- The settings that are given, the latest first. -/
  overrides : List (Setting × Nat)
  /-- The status is written as JSON. -/
  json : Bool
  deriving DecidableEq, Repr

/-- What a command line asks for. -/
inductive Request
  | help
  | run (options : Options)
  deriving DecidableEq, Repr

/-- The options by name. -/
inductive OptionName
  | path
  | cluster
  | setting (s : Setting)
  | json
  | help
  deriving DecidableEq, Repr

namespace OptionName

/-- The settings that an option can give. -/
def settings : List Setting :=
  [.maxRetryAttempts, .maxNoProgressIterations, .maxMovesPerNode, .maxConcurrentMoves,
   .iterationIntervalMs, .maxIterations]

/-- The name of the option that gives a setting. -/
def settingName (s : Setting) : String := s.name.map fun c => if c = '_' then '-' else c

/-- The option with a long name. -/
def ofLong? (name : String) : Option OptionName :=
  if name = "path" then some .path
  else if name = "cluster" then some .cluster
  else if name = "json" then some .json
  else if name = "help" then some .help
  else (settings.find? fun s => settingName s == name).map .setting

/-- The option with a name of one letter. -/
def ofShort? (c : Char) : Option OptionName :=
  if c = 'p' then some .path else if c = 'h' then some .help else none

end OptionName

/-- The value of a setting in an argument. Only a number of four bytes may be minus zero. -/
def Setting.argument? (s : Setting) (value : String) : Option Nat :=
  match value.toList with
  | '-' :: digits =>
      if s.bound = Text.byteBound 4 ∧ !digits.isEmpty ∧ digits.all (· == '0') then some 0 else none
  | cs => Text.natural? s.bound cs

/-- The files that an argument lists; a file needs a name. -/
def clusterNames? (value : String) : Option (List String) :=
  let names := (Text.fields ',' value.toList).map String.ofList
  if names.any String.isEmpty then none else some names

/-- What the next argument may be. -/
inductive Pending
  | nothing
  /-- The value of an option. -/
  | value (name : OptionName)
  /-- Another path. -/
  | morePaths
  deriving DecidableEq, Repr

/-- Arguments that have been read. -/
structure Reading where
  options : Options
  pending : Pending
  deriving DecidableEq, Repr

namespace Reading

/-- No argument has been read. -/
def start : Reading := ⟨⟨[], [], [], false⟩, .nothing⟩

/-- The options with a value for one of them. -/
def give? (o : Options) (value : String) : OptionName → Option Options
  | .path => some { o with paths := o.paths ++ [value] }
  | .cluster => (clusterNames? value).map fun names => { o with clusters := o.clusters ++ names }
  | .setting s =>
      if (o.overrides.lookup s).isSome then none
      else (s.argument? value).map fun n => { o with overrides := (s, n) :: o.overrides }
  | .json | .help => none

/-- Whether an option may come next: none waits for its value. -/
def isFree (r : Reading) : Bool :=
  match r.pending with
  | .value _ => false
  | _ => true

/-- The arguments read with an option, and its value if one is attached. -/
def stepOption (r : Reading) (name : OptionName) (attached : Option String) :
    Option (Reading ⊕ Unit) :=
  if !r.isFree then none
  else match name, attached with
    | .help, none => some (.inr ())
    | .json, none =>
        if r.options.json then none
        else some (.inl ⟨{ r.options with json := true }, .nothing⟩)
    | name, some value => (give? r.options value name).map fun o => .inl ⟨o, .nothing⟩
    | name, none => some (.inl ⟨r.options, .value name⟩)

/-- The arguments read with one that is no option. -/
def stepValue (r : Reading) (value : String) : Option Reading :=
  match r.pending with
  | .nothing => none
  | .value name =>
      (give? r.options value name).map fun o =>
        ⟨o, if name = .path then .morePaths else .nothing⟩
  | .morePaths => (give? r.options value .path).map fun o => ⟨o, .morePaths⟩

/-- The value attached to an option of one letter; an equals sign may stand before it. -/
def attachedShort : List Char → Option String
  | [] => none
  | '=' :: cs => some (String.ofList cs)
  | cs => some (String.ofList cs)

/-- The arguments read with one more; help ends them. -/
def step (r : Reading) (argument : String) : Option (Reading ⊕ Unit) :=
  match argument.toList with
  | '-' :: '-' :: cs => do
      let name ← OptionName.ofLong? (String.ofList (cs.takeWhile (· != '=')))
      let attached := match cs.dropWhile (· != '=') with
        | [] => none
        | _ :: value => some (String.ofList value)
      r.stepOption name attached
  | '-' :: c :: cs => do
      let name ← OptionName.ofShort? c
      if name = .help then r.stepOption .help none else r.stepOption name (attachedShort cs)
  | _ => (r.stepValue argument).map .inl

/-- What the arguments ask for once all of them are read. Nothing may stand behind two dashes. -/
def readAll? : Reading → List String → Option Request
  | r, [] | r, ["--"] => if r.isFree then some (.run r.options) else none
  | r, argument :: rest =>
      match r.step argument with
      | none => none
      | some (.inr ()) => some .help
      | some (.inl r) => readAll? r rest

end Reading

namespace Request

/-- The variable that names clusters when no argument does. -/
def clusterVariable : String := "TIERMOVER_CLUSTER"

/-- What arguments ask for; without clusters there is nothing to ask for. -/
def read? (environment : Environment) (arguments : List String) : Option Request :=
  match Reading.start.readAll? arguments with
  | some (.run o) =>
      if o.clusters.isEmpty then do
        let names ← clusterNames? (← environment.lookup clusterVariable)
        some (.run { o with clusters := names })
      else some (.run o)
  | r => r

end Request

end StorageTiering
