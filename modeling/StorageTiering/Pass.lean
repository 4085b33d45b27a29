import StorageTiering.Difference
import StorageTiering.Inventory
import StorageTiering.Ledger
/-!
# A scheduling pass

A pass walks over listed blocks and turns policy violations into moves in the ledger. A destination
is as near to the source as can be, and has the most free space among the equally near.

* `Pass` — what one pass knows: its ledger, and what it has already committed.
* `Pass.isGoodTarget`, `Pass.chooseTarget` — which storages may receive a replica, and the best one.
* `Pass.tryReplica` — schedules the move of one replica.
* `Pass.scheduleMoves`, `Pass.scheduleBlock` — the moves of a block, and the verdict on a block.
* `ScanReport` — the counters of a pass.
-/

namespace StorageTiering

/-- What a pass decides about a block. -/
inductive Verdict
  /-- The replicas match the policy. -/
  | satisfied
  /-- The policy does not apply to the layout; the block is left as it is. -/
  | untouched (policy : String)
  /-- The record is faulty. -/
  | faulty (fault : ListingFault)
  /-- The policy is unknown. -/
  | ungoverned (fault : PolicyFault)
  /-- The block has been examined before in this pass. -/
  | duplicate
  /-- Moves were scheduled; `remaining` if more are needed after them. -/
  | scheduled (moves : Nat) (remaining : Bool)
  /-- Every move that is needed is live already. -/
  | alreadyPending
  /-- No destination exists for any move that is needed. -/
  | unsatisfiable
  /-- The limit of the pass was reached before this block. -/
  | deferred
  deriving DecidableEq, Repr

/-- The counters of a pass. -/
structure ScanReport where
  examined : Nat
  satisfied : Nat
  untouched : Nat
  skipped : Nat
  /-- Blocks that violate their policy, whatever happened to them. -/
  needingMove : Nat
  scheduled : Nat
  pending : Nat
  deferred : Nat
  unsatisfiable : List BlockId
  moves : Nat
  deriving DecidableEq, Repr

namespace ScanReport

/-- Nothing has been examined. -/
def zero : ScanReport := ⟨0, 0, 0, 0, 0, 0, 0, 0, [], 0⟩

/-- Whether any block violates its policy. -/
def needsMovement (r : ScanReport) : Bool := decide (0 < r.needingMove)

/-- The counters in words. -/
def summary (r : ScanReport) : String :=
  "examined " ++ toString r.examined ++ " blocks: " ++ toString r.satisfied ++ " satisfied, " ++
    toString r.needingMove ++ " need moving (" ++ toString r.scheduled ++ " scheduled, " ++
    toString r.pending ++ " pending, " ++ toString r.deferred ++ " deferred, " ++
    toString r.unsatisfiable.length ++ " unsatisfiable), " ++ toString r.untouched ++
    " untouched, " ++ toString r.skipped ++ " skipped; " ++ toString r.moves ++
    " moves scheduled"

/-- The counters with the verdict on one more block, which is not a duplicate. -/
def count (r : ScanReport) (block : BlockId) : Verdict → ScanReport
  | .satisfied => { r with examined := r.examined + 1, satisfied := r.satisfied + 1 }
  | .untouched _ => { r with examined := r.examined + 1, untouched := r.untouched + 1 }
  | .faulty _ | .ungoverned _ =>
      { r with
        examined := r.examined + 1, skipped := r.skipped + 1, needingMove := r.needingMove + 1,
        unsatisfiable := r.unsatisfiable ++ [block] }
  | .duplicate => r
  | .scheduled moves _ =>
      { r with
        examined := r.examined + 1, needingMove := r.needingMove + 1,
        scheduled := r.scheduled + 1, moves := r.moves + moves }
  | .alreadyPending =>
      { r with
        examined := r.examined + 1, needingMove := r.needingMove + 1, pending := r.pending + 1 }
  | .unsatisfiable =>
      { r with
        examined := r.examined + 1, needingMove := r.needingMove + 1,
        unsatisfiable := r.unsatisfiable ++ [block] }
  | .deferred =>
      { r with
        examined := r.examined + 1, needingMove := r.needingMove + 1, deferred := r.deferred + 1 }

end ScanReport

/-- What came of trying to schedule the move of one replica. -/
inductive Attempted
  | scheduled (target : StorageType)
  /-- The replica is already committed to a move of this pass. -/
  | committed
  /-- The same logical move is live already. -/
  | alreadyPending
  | noTarget
  deriving DecidableEq, Repr

/-- How near a destination is to the source of a move, the nearest first. -/
inductive Locality
  | sameNode
  | sameRack
  | anywhere
  deriving DecidableEq, Repr

namespace Locality

/-- All degrees, the nearest first. -/
def all : List Locality := [.sameNode, .sameRack, .anywhere]

/-- How many degrees are nearer. -/
def rank : Locality → Nat
  | .sameNode => 0
  | .sameRack => 1
  | .anywhere => 2

end Locality

/-- One pass over the blocks of a namespace. -/
structure Pass where
  /-- A block is deferred once so many moves have been scheduled. -/
  maxMoves : Nat
  inventory : Inventory
  suite : Suite
  ledger : Ledger
  /-- Block and storage of the replicas that this pass moves. -/
  committed : List (BlockId × StorageId)
  /-- Block and node of the destinations that this pass has chosen. -/
  claimed : List (BlockId × NodeId)
  /-- Storage and length of each move that this pass has scheduled. -/
  incoming : List (StorageId × Nat)
  /-- Blocks that have been examined. -/
  seen : List BlockId
  report : ScanReport

namespace Pass

/-- A pass that has examined nothing. -/
def start (maxMoves : Nat) (inventory : Inventory) (suite : Suite) (ledger : Ledger) : Pass :=
  ⟨maxMoves, inventory, suite, ledger, [], [], [], [], .zero⟩

/-- The bytes that this pass has scheduled onto a storage. -/
def incomingTo (p : Pass) (storage : StorageId) : Nat :=
  p.incoming.foldl (fun total i => if i.1 == storage then total + i.2 else total) 0

/-- The bytes of an offer that are free beside what this pass has scheduled onto it. -/
def freeOn (p : Pass) (o : Offer) : Nat := o.remaining - p.incomingTo o.storage

/-- How near an offer is to the source of a move. -/
def localityOf (p : Pass) (source : Replica) (o : Offer) : Locality :=
  if o.node = source.node then .sameNode
  else if p.inventory.rackOf source.node = some o.rack then .sameRack
  else .anywhere

/-- Whether an offer may receive a replica of a block: its type is movable, it is not the source, no
other replica of the block is or will be on its node, and it has room for the block. -/
def isGoodTarget (p : Pass) (b : ListedBlock) (source : Replica) (o : Offer) : Bool :=
  o.type.isMovable && o.storage != source.storage &&
    (o.node == source.node || !b.hosts o.node) &&
    !p.claimed.contains (b.block.id, o.node) &&
    decide (b.block.len ≤ p.freeOn o)

/-- Whether an offer is better than another of the same type and locality: it has more free space,
or as much and comes first by node and storage. -/
def isBetter (p : Pass) (a b : Offer) : Bool :=
  decide (p.freeOn b < p.freeOn a) ||
    (p.freeOn b == p.freeOn a &&
      (decide (a.node < b.node) || (a.node == b.node && decide (a.storage < b.storage))))

/-- The best of a list of offers, the first of equals. -/
def best? (p : Pass) : List Offer → Option Offer
  | [] => none
  | o :: rest =>
      match p.best? rest with
      | none => some o
      | some other => if p.isBetter other o then some other else some o

/-- The good targets of a type at a locality. -/
def candidates (p : Pass) (b : ListedBlock) (source : Replica) (locality : Locality)
    (type : StorageType) : List Offer :=
  (p.inventory.ofType type).filter fun o =>
    p.localityOf source o == locality && p.isGoodTarget b source o

/-- The destination of a replica: the nearest, then of the first type listed, then the best. -/
def chooseTarget (p : Pass) (b : ListedBlock) (source : Replica) (types : List StorageType) :
    Option Offer :=
  Locality.all.findSome? fun locality =>
    types.findSome? fun type => p.best? (p.candidates b source locality type)

/-- The move of a replica to an offer. -/
def moveTo (b : ListedBlock) (source : Replica) (o : Offer) : Move :=
  ⟨b.path, b.block, source, o.type, o.node, o.storage⟩

/-- What a pass remembers of a move that it has put into the ledger. -/
def commit (p : Pass) (b : ListedBlock) (source : Replica) (o : Offer) (ledger : Ledger) : Pass :=
  { p with
    ledger := ledger,
    committed := (b.block.id, source.storage) :: p.committed,
    claimed := (b.block.id, o.node) :: p.claimed,
    incoming := (o.storage, b.block.len) :: p.incoming }

/-- Tries to schedule the move of a replica to a storage of one of the types. -/
def tryReplica (p : Pass) (b : ListedBlock) (source : Replica) (types : List StorageType) :
    Pass × Attempted :=
  if p.committed.contains (b.block.id, source.storage) then (p, .committed)
  else if p.ledger.holds b.block.id source.type types then (p, .alreadyPending)
  else match p.chooseTarget b source types with
    | none => (p, .noTarget)
    | some o =>
        match p.ledger.insert (moveTo b source o) with
        | (_, none) => (p, .alreadyPending)
        | (ledger, some _) => (p.commit b source o ledger, .scheduled o.type)

/-- Schedules the move of one replica; tells whether a move was scheduled. -/
def scheduleReplica (p : Pass) (b : ListedBlock) (source : Replica) (types : List StorageType) :
    Pass × Bool :=
  match p.tryReplica b source types with
  | (p, .scheduled _) => (p, true)
  | (p, _) => (p, false)

/-- How far the moves of a block have been scheduled. -/
structure Progress where
  pass : Pass
  difference : Difference
  moves : Nat
  /-- A replica was met whose move is committed or live. -/
  pendingSeen : Bool

/-- The progress after one more replica of a block. A replica whose type is not in surplus stays
where it is, and one whose move is scheduled uses up one unit of either side. -/
def Progress.step (b : ListedBlock) (s : Progress) (r : Replica) : Progress :=
  if s.difference.missing.isEmpty || !s.difference.surplus.contains r.type then s
  else match s.pass.tryReplica b r s.difference.missing with
    | (pass, .scheduled target) =>
        { s with
          pass := pass,
          difference := ⟨s.difference.missing.erase target, s.difference.surplus.erase r.type⟩,
          moves := s.moves + 1 }
    | (pass, .noTarget) => { s with pass := pass }
    | (pass, _) => { s with pass := pass, pendingSeen := true }

/-- The progress over all replicas of a block, each tried at most once. -/
def progress (p : Pass) (b : ListedBlock) (d : Difference) : Progress :=
  b.replicas.foldl (Progress.step b) ⟨p, d, 0, false⟩

/-- The verdict on a block whose replicas have been tried. -/
def Progress.verdict (s : Progress) : Verdict :=
  if 0 < s.moves then .scheduled s.moves (!s.difference.isSettled)
  else if s.pendingSeen then .alreadyPending
  else .unsatisfiable

/-- Pairs surplus replicas with missing types. -/
def scheduleMoves (p : Pass) (b : ListedBlock) (d : Difference) : Pass × Verdict :=
  ((p.progress b d).pass, (p.progress b d).verdict)

/-- Judges a block that has not been seen in this pass, and schedules its moves. -/
def judge (p : Pass) (b : ListedBlock) : Pass × Verdict :=
  match b.fault? with
  | some fault => (p, .faulty fault)
  | none =>
      match p.suite.resolve b.policy b.layout with
      | .error fault => (p, .ungoverned fault)
      | .ok (.untouched policy) => (p, .untouched policy)
      | .ok (.required types) =>
          let d := Difference.between types b.types
          if d.isSettled then (p, .satisfied)
          else if p.maxMoves ≤ p.report.moves then (p, .deferred)
          else p.scheduleMoves b d

/-- Examines one listed block, and schedules the moves it needs. -/
def scheduleBlock (p : Pass) (b : ListedBlock) : Pass × Verdict :=
  if p.seen.contains b.block.id then (p, .duplicate)
  else
    let (q, verdict) := p.judge b
    ({ q with
        seen := b.block.id :: q.seen,
        report := q.report.count b.block.id verdict },
     verdict)

/-- Examines listed blocks in their order. -/
def scheduleAll (p : Pass) (blocks : List ListedBlock) : Pass :=
  blocks.foldl (fun p b => (p.scheduleBlock b).1) p

end Pass

end StorageTiering
