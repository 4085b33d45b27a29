import StorageTiering.Move
/-!
# The ledger of moves

The table of moves that are scheduled and not yet finished. A key is taken as long as a live entry
has it, so the same logical move is never scheduled twice; a finished entry leaves the table, which
frees its key, and is counted in the tally.

* `Entry`, `Tally`, `Ledger` — an entry, the count of finished moves, and the table.
* `Ledger.insert`, `Ledger.claim`, `Ledger.resume`, `Ledger.fail`, `Ledger.complete` — the steps of
  a move's life.
* `Ledger.holds` — whether a move of a block between types is live.
-/

namespace StorageTiering

/-- Moves are numbered in the order of scheduling. -/
abbrev MoveId := Nat

/-- Whether a live move waits or is being executed. -/
inductive EntryState
  | pending
  | inFlight
  deriving DecidableEq, Repr

/-- A live move. -/
structure Entry where
  id : MoveId
  move : Move
  state : EntryState
  /-- Failed attempts so far. -/
  attempts : Nat
  deriving DecidableEq, Repr

/-- How a move ends. -/
inductive Ending
  | succeeded
  | failed
  /-- Stopped before it could finish. -/
  | cancelled
  deriving DecidableEq, Repr

/-- The count of moves that ended since the last time it was taken. -/
structure Tally where
  succeeded : Nat
  failed : Nat
  cancelled : Nat
  /-- Blocks with a failed move, ascending and each once. -/
  failedBlocks : List BlockId
  deriving DecidableEq, Repr

/-- An ascending list with one more member. -/
def insertAscending (n : Nat) : List Nat → List Nat
  | [] => [n]
  | m :: rest =>
      if n < m then n :: m :: rest
      else if n = m then m :: rest
      else m :: insertAscending n rest

namespace Tally

/-- Nothing has ended. -/
def zero : Tally := ⟨0, 0, 0, []⟩

/-- One more ending of a move of a block. -/
def count (t : Tally) (block : BlockId) : Ending → Tally
  | .succeeded => { t with succeeded := t.succeeded + 1 }
  | .failed =>
      { t with failed := t.failed + 1, failedBlocks := insertAscending block t.failedBlocks }
  | .cancelled => { t with cancelled := t.cancelled + 1 }

end Tally

/-- What happens to a move after a failed attempt, with the failed attempts so far. -/
inductive Retry
  | again (attempts : Nat)
  | giveUp (attempts : Nat)
  deriving DecidableEq, Repr

/-- The table of live moves, with an index of the keys they take. -/
structure Ledger where
  entries : List Entry
  keys : List (MoveKey × MoveId)
  /-- The number of the last move that was scheduled. -/
  lastId : MoveId
  tally : Tally
  deriving DecidableEq, Repr

namespace Ledger

/-- Nothing has been scheduled. -/
def empty : Ledger := ⟨[], [], 0, .zero⟩

/-- The live entry with a number. -/
def get? (l : Ledger) (id : MoveId) : Option Entry := l.entries.find? fun e => e.id == id

/-- The number of live entries. -/
def size (l : Ledger) : Nat := l.entries.length

/-- Whether no move is live. -/
def isEmpty (l : Ledger) : Bool := l.entries.isEmpty

/-- The number of live entries in a state. -/
def countIn (l : Ledger) (state : EntryState) : Nat := l.entries.countP fun e => e.state == state

/-- Whether a key is taken. -/
def takes (l : Ledger) (key : MoveKey) : Bool := (l.keys.lookup key).isSome

/-- Whether a move of a block from a type to any of the target types is live. -/
def holds (l : Ledger) (block : BlockId) (sourceType : StorageType)
    (targetTypes : List StorageType) : Bool :=
  targetTypes.any fun targetType => l.takes ⟨block, sourceType, targetType⟩

/-- A new pending entry, unless its key is taken. -/
def insert (l : Ledger) (move : Move) : Ledger × Option MoveId :=
  if l.takes move.key then (l, none)
  else
    let id := l.lastId + 1
    ({ l with
        entries := l.entries ++ [⟨id, move, .pending, 0⟩],
        keys := (move.key, id) :: l.keys,
        lastId := id },
     some id)

/-- The table with the entry of a number changed. -/
def update (l : Ledger) (id : MoveId) (f : Entry → Entry) : Ledger :=
  { l with entries := l.entries.map fun e => if e.id == id then f e else e }

/-- Takes every pending entry in the order of numbers; all of them are then in flight. -/
def claim (l : Ledger) : Ledger × List (MoveId × Move) :=
  ({ l with entries := l.entries.map fun e => { e with state := .inFlight } },
   (l.entries.filter fun e => e.state == .pending).map fun e => (e.id, e.move))

/-- A pending entry goes back in flight for another attempt. -/
def resume (l : Ledger) (id : MoveId) : Ledger × Bool :=
  match l.get? id with
  | some e =>
      if e.state = .pending then (l.update id fun e => { e with state := .inFlight }, true)
      else (l, false)
  | none => (l, false)

/-- The table without an entry and its key. -/
def remove (l : Ledger) (e : Entry) : Ledger :=
  { l with
    entries := l.entries.filter fun o => o.id != e.id,
    keys := l.keys.filter fun k => k.1 != e.move.key }

/-- Ends a move: its entry leaves the table and is counted. -/
def complete (l : Ledger) (id : MoveId) (ending : Ending) : Ledger × Option Entry :=
  match l.get? id with
  | none => (l, none)
  | some e =>
      ({ l.remove e with tally := l.tally.count e.move.block.id ending }, some e)

/-- Counts a failed attempt: the move is pending again if it has attempts left. The second component
is `none` for a move that is not live. -/
def countAttempt (l : Ledger) (id : MoveId) (maxAttempts : Nat) : Ledger × Option Retry :=
  match l.get? id with
  | none => (l, none)
  | some e =>
      let attempts := e.attempts + 1
      if attempts < maxAttempts then
        (l.update id fun e => { e with attempts := attempts, state := .pending },
         some (.again attempts))
      else (l.update id fun e => { e with attempts := attempts }, some (.giveUp attempts))

/-- Records a failed attempt: the move is tried again until its attempts are used up, and then ends
as failed. -/
def fail (l : Ledger) (id : MoveId) (maxAttempts : Nat) : Ledger × Retry :=
  match l.countAttempt id maxAttempts with
  | (l, none) => (l, .giveUp 0)
  | (l, some (.again attempts)) => (l, .again attempts)
  | (l, some (.giveUp attempts)) => ((l.complete id .failed).1, .giveUp attempts)

/-- The count of moves that have ended, which starts again from zero. -/
def takeTally (l : Ledger) : Ledger × Tally := ({ l with tally := .zero }, l.tally)

end Ledger

end StorageTiering
