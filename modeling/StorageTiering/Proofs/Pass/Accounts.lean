import StorageTiering.Proofs.Pass.Again
import StorageTiering.Proofs.Pass.Examined
import StorageTiering.Proofs.Pass.Rearranged
import Mathlib.Algebra.BigOperators.Group.List.Basic
import Mathlib.Data.List.Dedup
/-!
# The counters of a pass

Each counter of a pass counts verdicts of one kind, so the counters add up to each other.

* `ScanReport.ofVerdicts` — the counters that verdicts on blocks amount to.
* `ScanReport.Balanced` — counters that add up; `ScanReport.balanced_ofVerdicts`.
* `Pass.judged`, `Pass.report_scheduleAll` — the blocks of a pass with its verdicts, and its counters.
* `Pass.judge_eq_deferred_iff` — which blocks are deferred.
* `Pass.scheduleAll_accounts` — what the counters of a pass say of its blocks and of its ledger.
-/

namespace StorageTiering

namespace Verdict

/-- Whether a block is left as it is, because its policy does not apply to it. -/
def isUntouched : Verdict → Bool
  | .untouched _ => true
  | _ => false

/-- Whether a block could not be checked against its policy. -/
def isSkipped : Verdict → Bool
  | .faulty _ | .ungoverned _ => true
  | _ => false

/-- Whether moves of a block were scheduled. -/
def isScheduled : Verdict → Bool
  | .scheduled _ _ => true
  | _ => false

/-- Whether a block violates its policy and nothing can be done about it: it was skipped, or no destination
exists. -/
def isHopeless (v : Verdict) : Bool := v.isSkipped || v == .unsatisfiable

end Verdict

namespace ScanReport

/-- The counters that blocks with the verdicts on them amount to. -/
def ofVerdicts (judged : List (BlockId × Verdict)) : ScanReport where
  examined := judged.countP fun x => x.2 != .duplicate
  satisfied := judged.countP fun x => x.2 == .satisfied
  untouched := judged.countP fun x => x.2.isUntouched
  skipped := judged.countP fun x => x.2.isSkipped
  needingMove := judged.countP fun x => x.2.isViolation
  scheduled := judged.countP fun x => x.2.isScheduled
  pending := judged.countP fun x => x.2 == .alreadyPending
  deferred := judged.countP fun x => x.2 == .deferred
  unsatisfiable := (judged.filter fun x => x.2.isHopeless).map Prod.fst
  moves := (judged.map fun x => x.2.moves).sum

variable {r : ScanReport} {judged : List (BlockId × Verdict)}

/-- One more verdict is counted with the others. -/
theorem ofVerdicts_snoc (judged : List (BlockId × Verdict)) (block : BlockId) (v : Verdict) :
    ofVerdicts (judged ++ [(block, v)]) = (ofVerdicts judged).count block v := by
  cases v <;>
    simp [ofVerdicts, count, Verdict.isUntouched, Verdict.isSkipped, Verdict.isViolation, Verdict.isScheduled,
      Verdict.isHopeless, Verdict.moves]

/-- Counters that add up. -/
structure Balanced (r : ScanReport) : Prop where
  examined : r.examined = r.satisfied + r.untouched + r.needingMove
  needingMove : r.needingMove = r.scheduled + r.pending + r.deferred + r.unsatisfiable.length

/-- Every verdict is counted on both sides. -/
theorem Balanced.count (h : r.Balanced) (block : BlockId) (v : Verdict) : (r.count block v).Balanced := by
  obtain ⟨hexamined, hneeding⟩ := h
  cases v <;> constructor <;> simp only [ScanReport.count, List.length_append, List.length_singleton] <;> omega

theorem balanced_ofVerdicts (judged : List (BlockId × Verdict)) : (ofVerdicts judged).Balanced := by
  induction judged using List.reverseRecOn with
  | nil => exact ⟨rfl, rfl⟩
  | append_singleton judged x ih =>
    rw [ofVerdicts_snoc]
    exact ih.count x.1 x.2

end ScanReport

namespace Pass

variable {p : Pass} {b : ListedBlock} {blocks : List ListedBlock} {earlier : List (BlockId × Verdict)}

/-! ### Blocks and verdicts -/

/-- Listed blocks with the verdicts on them. -/
def judged (p : Pass) (blocks : List ListedBlock) : List (BlockId × Verdict) :=
  (blocks.map fun b => b.block.id).zip (p.verdicts blocks)

theorem judged_cons (p : Pass) (b : ListedBlock) (rest : List ListedBlock) :
    p.judged (b :: rest) = (b.block.id, (p.scheduleBlock b).2) :: (p.scheduleBlock b).1.judged rest := rfl

/-- A block is counted by its verdict, a duplicate not at all. -/
theorem report_scheduleBlock (p : Pass) (b : ListedBlock) :
    (p.scheduleBlock b).1.report = p.report.count b.block.id (p.scheduleBlock b).2 := by
  by_cases hseen : b.block.id ∈ p.seen
  · rw [scheduleBlock_of_seen hseen]
    rfl
  · obtain ⟨ms, q, v, hj, he⟩ := scheduleBlock_of_new hseen
    rw [he, ← hj.uncounted.2]

/-- The counters of a pass are those of its verdicts. -/
theorem report_scheduleAll (h : p.report = .ofVerdicts earlier) (blocks : List ListedBlock) :
    (p.scheduleAll blocks).report = .ofVerdicts (earlier ++ p.judged blocks) := by
  induction blocks generalizing p earlier with
  | nil =>
    rw [judged, verdicts, List.zip_nil_right, List.append_nil]
    exact h
  | cons b rest ih =>
    have hfirst : (p.scheduleBlock b).1.report = .ofVerdicts (earlier ++ [(b.block.id, (p.scheduleBlock b).2)]) := by
      rw [report_scheduleBlock, h, ScanReport.ofVerdicts_snoc]
    rw [judged_cons, List.append_cons]
    exact ih hfirst

theorem map_fst_judged (p : Pass) (blocks : List ListedBlock) :
    (p.judged blocks).map Prod.fst = blocks.map fun b => b.block.id := by
  induction blocks generalizing p with
  | nil => rfl
  | cons b rest ih => rw [judged_cons, List.map_cons, ih, List.map_cons]

theorem map_snd_judged (p : Pass) (blocks : List ListedBlock) :
    (p.judged blocks).map Prod.snd = p.verdicts blocks := by
  induction blocks generalizing p with
  | nil => rfl
  | cons b rest ih => rw [judged_cons, List.map_cons, ih, verdicts]

/-! ### Which blocks are deferred -/

theorem Progress.verdict_ne_deferred (s : Progress) : s.verdict ≠ .deferred := by
  intro h
  rw [verdict] at h
  split at h
  · cases h
  · split at h <;> cases h

/-- A block is deferred if its record has no fault, its policy asks for types of which some are missing and
some replicas could go there, and the limit of the pass is reached. -/
theorem judge_eq_deferred_iff : (p.judge b).2 = .deferred ↔
    b.Valid ∧ (∃ d, b.difference? p.suite = some d ∧ ¬d.isSettled) ∧ p.maxMoves ≤ p.report.moves := by
  rw [judge]
  split
  · rename_i fault hfault
    simp [ListedBlock.Valid, hfault]
  · rename_i hvalid
    split
    · rename_i fault hresolve
      simp [ListedBlock.difference?, hresolve]
    · rename_i policy hresolve
      simp [ListedBlock.difference?, hresolve]
    · rename_i types hresolve
      simp only [show b.Valid from hvalid, ListedBlock.difference?, hresolve, Option.some.injEq, exists_eq_left',
        true_and]
      split
      · rename_i hsettled
        simp [hsettled]
      · rename_i hopen
        split
        · rename_i hfull
          simp [hopen, hfull]
        · rename_i hroom
          simp [hroom, scheduleMoves, Progress.verdict_ne_deferred]

theorem scheduleBlock_eq_deferred_iff : (p.scheduleBlock b).2 = .deferred ↔ b.block.id ∉ p.seen ∧
    b.Valid ∧ (∃ d, b.difference? p.suite = some d ∧ ¬d.isSettled) ∧ p.maxMoves ≤ p.report.moves := by
  rw [← judge_eq_deferred_iff, scheduleBlock]
  split
  · rename_i hseen
    simp [show b.block.id ∈ p.seen by simpa using hseen]
  · rename_i hnew
    simp [show b.block.id ∉ p.seen by simpa using hnew]

/-! ### A whole pass -/

/-- Each distinct block is examined once. -/
theorem examined_scheduleAll (hseen : p.seen = []) (blocks : List ListedBlock) :
    (p.scheduleAll blocks).report.examined =
      p.report.examined + (blocks.map fun b => b.block.id).dedup.length := by
  obtain ⟨kept, hsub, hnodup, -, hall, -, hcount⟩ := exists_distinct p blocks
  have hperm : (kept.map fun b => b.block.id).Perm (blocks.map fun b => b.block.id).dedup := by
    refine (List.perm_ext_iff_of_nodup hnodup (List.nodup_dedup _)).2 fun id => ?_
    rw [List.mem_dedup]
    refine ⟨fun hid => (hsub.map _).subset hid, fun hid => ?_⟩
    obtain ⟨b, hb, rfl⟩ := List.mem_map.1 hid
    obtain ⟨b', hb', hsame⟩ := (hall b hb).resolve_left (hseen ▸ List.not_mem_nil)
    exact List.mem_map.2 ⟨b', hb', hsame⟩
  rw [hcount, ← hperm.length_eq, List.length_map]

/-- No block is counted twice as one that cannot be moved. -/
theorem nodup_unsatisfiable_scheduleAll (h : p.report = .zero) (blocks : List ListedBlock) :
    (p.scheduleAll blocks).report.unsatisfiable.Nodup := by
  obtain ⟨kept, -, hnodup, -, -, hpass, -⟩ := exists_distinct p blocks
  have hstart : p.report = .ofVerdicts [] := h
  rw [hpass, report_scheduleAll hstart kept]
  -- what is filtered out of the kept blocks is a part of them
  refine hnodup.sublist ?_
  rw [← map_fst_judged p kept]
  exact List.filter_sublist.map Prod.fst

/-- The counters of a pass over listed blocks, with any ledger and any inventory. Every counter counts the
verdicts of its kind. As many blocks are examined as there are distinct ones, and each is satisfied, untouched
or in need of a move; those in need of a move are scheduled, pending, deferred or without a remedy. The blocks
without a remedy are those skipped and those without destination, in their order and each once. The moves are
those of the verdicts, and the ledger has got as many entries. The next block is deferred exactly if it is
another one, its record has no fault, its policy asks for types so that something has to be moved, and the
moves have reached the limit. -/
theorem scheduleAll_accounts (maxMoves : Nat) (inventory : Inventory) (suite : Suite) (l : Ledger)
    (blocks : List ListedBlock) :
    let p := start maxMoves inventory suite l
    let q := p.scheduleAll blocks
    let ids := blocks.map fun b => b.block.id
    q.report = .ofVerdicts (p.judged blocks) ∧
    q.report.examined = ids.dedup.length ∧
    q.report.examined = q.report.satisfied + q.report.untouched + q.report.needingMove ∧
    q.report.needingMove =
      q.report.scheduled + q.report.pending + q.report.deferred + q.report.unsatisfiable.length ∧
    q.report.unsatisfiable.Nodup ∧
    q.report.unsatisfiable = ((p.judged blocks).filter fun x => x.2.isHopeless).map Prod.fst ∧
    q.report.moves = ((p.verdicts blocks).map Verdict.moves).sum ∧
    l.entries <+: q.ledger.entries ∧ q.ledger.size = l.size + q.report.moves ∧
    ∀ b, (q.scheduleBlock b).2 = .deferred ↔ b.block.id ∉ ids ∧ b.Valid ∧
      (∃ d, b.difference? suite = some d ∧ ¬d.isSettled) ∧ maxMoves ≤ q.report.moves := by
  intro p q ids
  obtain ⟨ms, hs⟩ := exists_surveys p blocks
  obtain ⟨hlimit, -, hsuite⟩ := hs.schedules.frame
  have hstart : p.report = .ofVerdicts [] := rfl
  have hreport : q.report = .ofVerdicts (p.judged blocks) := report_scheduleAll hstart blocks
  obtain ⟨hexamined, hneeding⟩ := hreport ▸ ScanReport.balanced_ofVerdicts (p.judged blocks)
  have hmoves : q.report.moves = ms.length := hs.moves.trans (Nat.zero_add _)
  refine ⟨hreport, ?_, hexamined, hneeding, nodup_unsatisfiable_scheduleAll rfl blocks,
    congrArg ScanReport.unsatisfiable hreport, ?_, hs.schedules.prefix_entries, ?_, fun b => ?_⟩
  · have hcount : q.report.examined = 0 + ids.dedup.length := examined_scheduleAll rfl blocks
    rw [hcount, Nat.zero_add]
  · rw [hreport, ← map_snd_judged, List.map_map]
    rfl
  · have hbooked := congrArg List.length hs.schedules.booked
    rw [List.length_map, List.length_append, List.length_map, List.length_reverse, ← hmoves] at hbooked
    exact hbooked
  · have hseen : b.block.id ∈ q.seen ↔ b.block.id ∈ ids := by
      rw [hs.seen, List.mem_map]
      exact or_iff_right List.not_mem_nil
    rw [scheduleBlock_eq_deferred_iff, hseen, hsuite, hlimit]
    rfl

end Pass

end StorageTiering
