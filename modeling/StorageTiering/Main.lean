import StorageTiering.CommandLine.Outcome
/-!
# The command line

Reads the arguments, the environment and the files that describe clusters, shows the status of the
run, and ends with its code.
-/

namespace StorageTiering

/-- The names that have a meaning in the environment. -/
def variableNames : List String :=
  Request.clusterVariable :: Setting.all.map Setting.variableName

/-- The environment, as far as it has a meaning. -/
def readEnvironment : IO Environment :=
  variableNames.filterMapM fun name => do
    return (← IO.getEnv name).map fun value => (name, value)

/-- The text of a file; one that cannot be read has none. -/
def readText (name : String) : IO (Option String) := do
  try return some (← IO.FS.readFile name)
  catch _ => return none

/-- The texts of the files that can be read. -/
def readFiles (names : List String) : IO (List (String × String)) :=
  names.filterMapM fun name => do
    return (← readText name).map fun text => (name, text)

/-- The files that arguments ask for. -/
def filesOf : Option Request → List String
  | some (.run o) => o.clusters
  | _ => []

/-- How the process ends, with as many iterations as it takes. -/
partial def processEnd (environment : Environment) (files : List (String × String))
    (arguments : List String) (rounds : Nat) : IO ProcessEnd :=
  let read (name : String) : Option String := files.lookup name
  match Request.processEnd? environment read "mover" rounds arguments with
  | some e => return e
  | none => processEnd environment files arguments (rounds * 2)

end StorageTiering

open StorageTiering in
/-- Runs the command line. -/
def main (arguments : List String) : IO UInt32 := do
  let environment ← readEnvironment
  let files ← readFiles (filesOf (Request.read? environment arguments))
  let e ← processEnd environment files arguments 1024
  if let some text := e.output then IO.println text
  return e.exitCode.toUInt32
