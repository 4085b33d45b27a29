import StorageTiering.Text.Blank
import StorageTiering.Text.Digits
/-!
# Settings

The limits and delays of a run, and where they come from.

* `Setting` — a setting by name; `Settings` — a value for each.
* `Settings.check` — refuses values under which a run would be meaningless.
* `Settings.ofEnvironment` — the settings that the environment gives.
* `Settings.limits` — what concerns the execution of moves.
-/

namespace StorageTiering

/-- The settings of a run, by name. -/
inductive Setting
  /-- Attempts per move before it is given up. -/
  | maxRetryAttempts
  /-- Iterations in a row without a successful move before the run ends. -/
  | maxNoProgressIterations
  /-- Concurrent moves from one node, and to one node. -/
  | maxMovesPerNode
  /-- Concurrent moves in a namespace. -/
  | maxConcurrentMoves
  /-- Moves scheduled per iteration. -/
  | maxMovesPerIteration
  /-- Seconds that one attempt may take. -/
  | moveTimeoutSecs
  /-- Milliseconds before a failed attempt is repeated. -/
  | retryDelayMs
  /-- Milliseconds between iterations. -/
  | iterationIntervalMs
  /-- Repetitions of a failed listing call. -/
  | listingRetries
  /-- Milliseconds between renewals of the lease. -/
  | leaseRenewIntervalMs
  /-- Milliseconds that running moves get to finish after the lease is lost. -/
  | leaseGracePeriodMs
  /-- Iterations of a run, without bound if zero. -/
  | maxIterations
  deriving DecidableEq, Repr

namespace Setting

/-- All settings, in the order in which they are read. -/
def all : List Setting :=
  [.maxRetryAttempts, .maxNoProgressIterations, .maxMovesPerNode, .maxConcurrentMoves,
   .maxMovesPerIteration, .moveTimeoutSecs, .retryDelayMs, .iterationIntervalMs, .listingRetries,
   .leaseRenewIntervalMs, .leaseGracePeriodMs, .maxIterations]

/-- The name of a setting. -/
def name : Setting → String
  | .maxRetryAttempts => "max_retry_attempts"
  | .maxNoProgressIterations => "max_no_progress_iterations"
  | .maxMovesPerNode => "max_moves_per_node"
  | .maxConcurrentMoves => "max_concurrent_moves"
  | .maxMovesPerIteration => "max_moves_per_iteration"
  | .moveTimeoutSecs => "move_timeout_secs"
  | .retryDelayMs => "retry_delay_ms"
  | .iterationIntervalMs => "iteration_interval_ms"
  | .listingRetries => "listing_retries"
  | .leaseRenewIntervalMs => "lease_renew_interval_ms"
  | .leaseGracePeriodMs => "lease_grace_period_ms"
  | .maxIterations => "max_iterations"

/-- The environment variable that gives a setting. -/
def variableName : Setting → String
  | .maxRetryAttempts => "TIERMOVER_RETRY_MAX_ATTEMPTS"
  | .maxNoProgressIterations => "TIERMOVER_MAX_NO_PROGRESS_ITERATIONS"
  | .maxMovesPerNode => "TIERMOVER_MAX_MOVES_PER_NODE"
  | .maxConcurrentMoves => "TIERMOVER_MAX_CONCURRENT_MOVES"
  | .maxMovesPerIteration => "TIERMOVER_MAX_MOVES_PER_ITERATION"
  | .moveTimeoutSecs => "TIERMOVER_MOVE_TIMEOUT"
  | .retryDelayMs => "TIERMOVER_RETRY_DELAY_MS"
  | .iterationIntervalMs => "TIERMOVER_ITERATION_INTERVAL_MS"
  | .listingRetries => "TIERMOVER_LISTING_RETRIES"
  | .leaseRenewIntervalMs => "TIERMOVER_LEASE_RENEW_INTERVAL_MS"
  | .leaseGracePeriodMs => "TIERMOVER_LEASE_GRACE_PERIOD_MS"
  | .maxIterations => "TIERMOVER_MAX_ITERATIONS"

/-- The value of a setting that nobody gives. -/
def standard : Setting → Nat
  | .maxRetryAttempts => 10
  | .maxNoProgressIterations => 5
  | .maxMovesPerNode => 5
  | .maxConcurrentMoves => 64
  | .maxMovesPerIteration => 10000
  | .moveTimeoutSecs => 300
  | .retryDelayMs => 1000
  | .iterationIntervalMs => 2000
  | .listingRetries => 3
  | .leaseRenewIntervalMs => 10000
  | .leaseGracePeriodMs => 30000
  | .maxIterations => 0

/-- The least number that a setting cannot hold. -/
def bound : Setting → Nat
  | .maxRetryAttempts | .maxNoProgressIterations | .listingRetries | .maxIterations =>
    Text.byteBound 4
  | _ => Text.byteBound 8

/-- The settings that must not be zero, in the order in which they are checked. -/
def positive : List Setting :=
  [.maxRetryAttempts, .maxNoProgressIterations, .maxMovesPerNode, .maxConcurrentMoves,
   .maxMovesPerIteration, .leaseRenewIntervalMs]

end Setting

/-- A setting that has no valid value. -/
structure SettingError where
  /-- The setting or the variable. -/
  name : String
  /-- The refused value, or what is demanded. -/
  value : String
  deriving DecidableEq, Repr

namespace SettingError

/-- The wording of a refused setting. -/
def message (e : SettingError) : String := "Invalid value for " ++ e.name ++ ": " ++ e.value

end SettingError

/-- The limits on the execution of moves. -/
structure DispatchLimits where
  concurrent : Nat
  perSource : Nat
  perTarget : Nat
  timeoutMs : Nat
  maxAttempts : Nat
  retryDelayMs : Nat
  deriving DecidableEq, Repr, Inhabited

namespace DispatchLimits

/-- The limits of an executor that is given none. -/
def standard : DispatchLimits := ⟨64, 5, 5, 300000, 10, 1000⟩

end DispatchLimits

/-- The environment of a process: values by name. -/
abbrev Environment := List (String × String)

/-- A value for every setting. -/
structure Settings where
  get : Setting → Nat

namespace Settings

/-- The settings that nobody gives. -/
def standard : Settings := ⟨Setting.standard⟩

/-- Settings of which one has another value. -/
def set (s : Settings) (key : Setting) (value : Nat) : Settings :=
  ⟨fun k => if k = key then value else s.get k⟩

/-- The first setting that must not be zero and is. -/
def check (s : Settings) : Except SettingError Unit :=
  match Setting.positive.find? fun k => s.get k == 0 with
  | some k => .error ⟨k.name, "must be at least 1"⟩
  | none => .ok ()

/-- Settings with the values that the environment gives, up to the first that is none. A value may
have blank ends. -/
def readFrom (environment : Environment) :
    List Setting → Settings → Except SettingError Settings
  | [], s => .ok s
  | k :: rest, s =>
      match environment.lookup k.variableName with
      | none => readFrom environment rest s
      | some value =>
          match Text.natural? k.bound (Text.trim value).toList with
          | none => .error ⟨k.variableName, value⟩
          | some n => readFrom environment rest (s.set k n)

/-- The settings that the environment gives. -/
def ofEnvironment (environment : Environment) : Except SettingError Settings :=
  match readFrom environment Setting.all standard with
  | .error e => .error e
  | .ok s =>
      match s.check with
      | .error e => .error e
      | .ok () => .ok s

/-- The milliseconds that one attempt may take. -/
def moveTimeoutMs (s : Settings) : Nat := s.get .moveTimeoutSecs * 1000

/-- What concerns the execution of moves. -/
def limits (s : Settings) : DispatchLimits where
  concurrent := s.get .maxConcurrentMoves
  perSource := s.get .maxMovesPerNode
  perTarget := s.get .maxMovesPerNode
  timeoutMs := s.moveTimeoutMs
  maxAttempts := s.get .maxRetryAttempts
  retryDelayMs := s.get .retryDelayMs

end Settings

end StorageTiering
