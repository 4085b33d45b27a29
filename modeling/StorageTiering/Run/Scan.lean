import StorageTiering.Run.Basic
import StorageTiering.World.Calls
/-!
# Scanning a namespace

One scan takes the inventory of the cluster and lets a pass examine every block at or below the
paths of the run. A call that fails for the moment is repeated.

* `World.withRetries` — a call with its repetitions.
* `Run.scanPath`, `Run.scanPaths` — the pages of one path, and of all paths.
* `Run.scan` — a whole scan.
-/

namespace StorageTiering

namespace World

/-- Repeats a call after a delay, at most so many times, as long as it fails for the moment. -/
def withRetries (call : World → World × Except CallFault α) (delayMs : Nat) :
    Nat → World → World × Except CallFault α
  | 0, w => call w
  | n + 1, w =>
      match call w with
      | (w, .error (.failed e)) =>
          if e.isTransient then withRetries call delayMs n (w.wait delayMs)
          else (w, .error (.failed e))
      | r => r

end World

/-- Why a scan ends early. -/
inductive ScanFault
  | status (s : Status)
  | broken
  deriving DecidableEq, Repr

namespace ScanFault

/-- The fault of a call, under a heading. -/
def ofCall (heading : String) : CallFault → ScanFault
  | .failed e => .status (.serviceFailure (heading ++ " failed: " ++ e.message))
  | .broke => .broken

/-- How a run with this fault ends. -/
def runEnd : ScanFault → RunEnd
  | .status s => .status s
  | .broken => .broken

end ScanFault

namespace Run

/-- A call with the repetitions that the settings allow. -/
def retrying (r : Run) (call : World → World × Except CallFault α) (w : World) :
    World × Except CallFault α :=
  World.withRetries call (r.settings.get .retryDelayMs) (r.settings.get .listingRetries) w

/-- Examines the pages of a path from a cursor on, at most so many. A path that is not found has
none. A fault leaves the pass as far as it has come. -/
def scanPages (r : Run) (path : String) :
    Nat → World → Pass → Option String → World × Pass × Option ScanFault
  | 0, w, p, _ => (w, p, none)
  | n + 1, w, p, cursor =>
      match r.retrying (fun w => w.listPage path cursor) w with
      | (w, .error (.failed (.pathNotFound _))) => (w, p, none)
      | (w, .error fault) => (w, p, some (ScanFault.ofCall ("listing " ++ path) fault))
      | (w, .ok page) =>
          let p := p.scheduleAll page.blocks
          match page.next with
          | some next => scanPages r path n w p (some next)
          | none => (w, p, none)

/-- Examines all pages of a path. Every page but the last has a block. -/
def scanPath (r : Run) (path : String) (w : World) (p : Pass) : World × Pass × Option ScanFault :=
  r.scanPages path ((w.cluster.itemsUnder path).length + 1) w p none

/-- Examines all pages of several paths in their order, up to the first fault. -/
def scanPaths (r : Run) : List String → World → Pass → World × Pass × Option ScanFault
  | [], w, p => (w, p, none)
  | path :: rest, w, p =>
      match r.scanPath path w p with
      | (w, p, none) => scanPaths r rest w p
      | (w, p, some fault) => (w, p, some fault)

/-- A pass over a namespace of which the inventory has been taken. -/
def newPass (r : Run) (reports : List NodeReport) : Pass :=
  Pass.start (r.settings.get .maxMovesPerIteration) (Inventory.ofReports reports) r.suite r.ledger

/-- A scan that has gone as far as a pass: what the pass has put into the ledger stays there, even
if a fault ended the scan. -/
def afterPass (r : Run) (p : Pass) : Option ScanFault → Run × Except ScanFault ScanReport
  | none => ({ r with ledger := p.ledger }.recordUnsatisfiable p.report.unsatisfiable, .ok p.report)
  | some fault => ({ r with ledger := p.ledger }, .error fault)

/-- Examines every block at or below the paths of the run. -/
def scan (r : Run) (w : World) : World × Run × Except ScanFault ScanReport :=
  match r.retrying World.report w with
  | (w, .error fault) => (w, r, .error (ScanFault.ofCall "storage report" fault))
  | (w, .ok reports) =>
      let (w, p, fault) := r.scanPaths r.paths w (r.newPass reports)
      (w, r.afterPass p fault)

end Run

end StorageTiering
