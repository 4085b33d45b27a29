import StorageTiering.CommandLine.Options
import StorageTiering.Document.Json
import StorageTiering.Document.Toml
import StorageTiering.Federation
/-!
# The outcome of a command line

The settings, clusters and paths of a command line are checked in this order; then the namespaces
are run, and the status of the whole is shown.

* `Options.settings` — the settings of the environment under those of the arguments.
* `loadClusters` — the clusters that files describe.
* `Options.status?` — the status of a run.
* `Status.line`, `Status.exitCode` — what is shown of it.
-/

namespace StorageTiering

/-- The clusters of a federation by namespace. -/
abbrev Clusters := SortedTable Cluster

/-- The cluster that a file describes; a file that is not there has no text. -/
def loadCluster (file : String) (text : Option String) : Except String Cluster :=
  let failed (reason : String) : Except String Cluster :=
    .error ("failed to load cluster " ++ file ++ ": " ++ reason)
  match text with
  | none =>
      let reason := "No such file or directory (os error 2)"
      failed ("IO error: " ++ reason ++ ": " ++ reason)
  | some text =>
      match Toml.description? text with
      | none => failed "Invalid cluster file"
      | some description =>
          match description.build with
          | .error e => failed e.message
          | .ok cluster => .ok cluster

/-- The clusters that files describe, each of its own namespace, with those before them. -/
def loadClusters (read : String → Option String) : Clusters → List String → Except String Clusters
  | t, [] => .ok t
  | t, file :: files =>
      match loadCluster file (read file) with
      | .error e => .error e
      | .ok cluster =>
          if (t.find? cluster.namespaceId).isSome then
            .error ("namespace " ++ cluster.namespaceId ++ " defined twice")
          else loadClusters read (t.put cluster.namespaceId cluster) files

namespace Options

/-- The settings of the environment, which have to be valid, under those of the arguments. -/
def settings (environment : Environment) (o : Options) : Except SettingError Settings :=
  match Settings.ofEnvironment environment with
  | .error e => .error e
  | .ok s =>
      let s := o.overrides.foldr (fun (key, value) s => s.set key value) s
      match s.check with
      | .error e => .error e
      | .ok () => .ok s

/-- The namespaces of clusters before their first moment. -/
def worldsOf (clusters : Clusters) : SortedTable World :=
  clusters.map fun c => (c.1, World.start c.2 Script.none [])

/-- The status of a command line; `none` if so many iterations are not enough. -/
def status? (environment : Environment) (read : String → Option String)
    (holder : String) (rounds : Nat) (o : Options) : Option Status :=
  match o.settings environment with
  | .error e => some (.illegalArguments e.message)
  | .ok settings =>
      match loadClusters read [] o.clusters with
      | .error e => some (.serviceFailure e)
      | .ok clusters =>
          match NamespacePaths.resolvePaths clusters.keys o.paths with
          | .error e => some (.illegalArguments e.message)
          | .ok paths =>
              (Federation.run? settings holder rounds paths (worldsOf clusters)).map
                Federation.Outcome.status

end Options

namespace Status

/-- A status as it is shown: as JSON, or in words. -/
def line (json : Bool) (s : Status) : String :=
  if json then
    Json.write (.object
      [("code", .int s.code), ("reason", .text s.reason), ("status", .text s.name)])
  else s.text

/-- The code with which a process ends, which has one byte. -/
def exitCode (s : Status) : Nat := (s.code % 256).toNat

end Status

/-- The end of a process: the text it shows, and its code. -/
structure ProcessEnd where
  output : Option String
  exitCode : Nat
  deriving DecidableEq, Repr

namespace Request

/-- The text that explains the options. -/
def helpText : String :=
  "Move block replicas to the storage types required by their storage policy\n\n" ++
    "Usage: tiermover [OPTIONS] --cluster <CLUSTERS>\n\nOptions:\n" ++
    String.join ([
      ("-p, --path <PATHS>...", "Files or directories to migrate; " ++
        "\x60ns://<namespace>/<path>\x60 when several namespaces are given"),
      ("    --cluster <CLUSTERS>",
        "Namespace description (TOML), one per namespace [env: TIERMOVER_CLUSTER=]"),
      ("    --max-retry-attempts <MAX_RETRY_ATTEMPTS>",
        "Attempts per move before it is given up"),
      ("    --max-no-progress-iterations <MAX_NO_PROGRESS_ITERATIONS>",
        "Iterations without progress before giving up"),
      ("    --max-moves-per-node <MAX_MOVES_PER_NODE>", "Concurrent moves per node"),
      ("    --max-concurrent-moves <MAX_CONCURRENT_MOVES>", "Concurrent moves per namespace"),
      ("    --iteration-interval-ms <ITERATION_INTERVAL_MS>",
        "Pause between iterations in milliseconds"),
      ("    --max-iterations <MAX_ITERATIONS>", "Upper bound on iterations (0 = unbounded)"),
      ("    --json", "Print the final status as JSON")].map fun (name, text) =>
        "  " ++ name ++ "\n          " ++ text ++ "\n") ++
    "  -h, --help\n          Print help"

/-- How a process ends, given its environment and arguments; `none` if so many iterations are
not enough. Misused options end it with code 2. -/
def processEnd? (environment : Environment) (read : String → Option String)
    (holder : String) (rounds : Nat) (arguments : List String) : Option ProcessEnd :=
  match read? environment arguments with
  | none => some ⟨none, 2⟩
  | some .help => some ⟨some helpText, 0⟩
  | some (.run o) =>
      (o.status? environment read holder rounds).map fun s => ⟨some (s.line o.json), s.exitCode⟩

end Request

end StorageTiering
