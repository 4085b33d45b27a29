import StorageTiering.Proofs.Pass.Stuck
/-!
# The verdict on a block that needs moving

While a pass tries the replicas of a block it changes what it looks at. The verdict can still be read off
the state before the first of them, because nothing changes up to the first move that is scheduled.

* `Pass.Engaged` — a replica of which a move is committed or live.
* `Pass.Progress.pendingSeen_foldl_iff` — as long as nothing is scheduled, exactly such replicas are
  remembered.
* `Pass.scheduleBlock_verdict` — when moves of a block are scheduled, when they are pending already, and
  when there is no destination.
-/

namespace StorageTiering

namespace Pass

variable {p : Pass} {b : ListedBlock} {r source : Replica} {types : List StorageType} {d : Difference}
  {s : Progress}

/-- A move of the replica is committed in this pass, or a move from its type to one of the types is
live. -/
def Engaged (p : Pass) (b : ListedBlock) (types : List StorageType) (source : Replica) : Prop :=
  (b.block.id, source.storage) ∈ p.committed ∨ p.ledger.holds b.block.id source.type types

/-- A replica can be scheduled if it is not engaged and has a destination. -/
theorem movable_iff : p.Movable b types source ↔ ¬p.Engaged b types source ∧
    ∃ o ∈ p.inventory.offers, o.type ∈ types ∧ p.isGoodTarget b source o := by
  rw [Movable, Engaged, not_or, Bool.not_eq_true, and_assoc]

/-! ### What is remembered -/

/-- A replica without a destination that is not engaged leaves nothing behind. -/
theorem tryReplica_of_noTarget (h : ¬p.Engaged b types source) (hmove : ¬p.Movable b types source) :
    p.tryReplica b source types = (p, .noTarget) := by
  obtain ⟨hcommitted, hholds⟩ := not_or.1 h
  have hnone : p.chooseTarget b source types = none := chooseTarget_eq_none_iff.2 fun o ho htype hgood =>
    hmove (movable_iff.2 ⟨h, o, ho, htype, hgood⟩)
  rw [tryReplica, if_neg (by simpa using hcommitted), if_neg hholds, hnone]

theorem Progress.pendingSeen_step (hmissing : s.difference.missing ≠ [])
    (h : r.type ∈ s.difference.surplus → ¬s.pass.Movable b s.difference.missing r) :
    (Progress.step b s r).pendingSeen ↔ s.pendingSeen ∨
      r.type ∈ s.difference.surplus ∧ s.pass.Engaged b s.difference.missing r := by
  by_cases hsurplus : r.type ∈ s.difference.surplus
  · by_cases hengaged : s.pass.Engaged b s.difference.missing r
    · rw [step_of_known hmissing hsurplus hengaged]
      simp [hsurplus, hengaged]
    · have hopen : (s.difference.missing.isEmpty || !s.difference.surplus.contains r.type) = false := by
        simp [hmissing, hsurplus]
      rw [Progress.step, hopen, tryReplica_of_noTarget hengaged (h hsurplus)]
      simp [hengaged]
  · have hclosed : (s.difference.missing.isEmpty || !s.difference.surplus.contains r.type) = true := by
      simp [hsurplus]
    rw [Progress.step, hclosed]
    simp [hsurplus]

/-- As long as nothing is scheduled, exactly the engaged replicas of a surplus type are remembered. -/
theorem Progress.pendingSeen_foldl_iff {replicas : List Replica} (hmissing : s.difference.missing ≠ [])
    (h : ∀ r ∈ replicas, r.type ∈ s.difference.surplus → ¬s.pass.Movable b s.difference.missing r) :
    (replicas.foldl (Progress.step b) s).pendingSeen ↔ s.pendingSeen ∨ ∃ r ∈ replicas,
      r.type ∈ s.difference.surplus ∧ s.pass.Engaged b s.difference.missing r := by
  induction replicas generalizing s with
  | nil => simp
  | cons r rest ih =>
    obtain ⟨hr, hrest⟩ := List.forall_mem_cons.1 h
    have hseen := pendingSeen_step hmissing hr
    obtain ⟨pendingSeen, hstep⟩ := step_of_not_movable hr
    rw [hstep] at hseen
    rw [List.foldl_cons, hstep, ih (s := { s with pendingSeen := pendingSeen }) hmissing hrest]
    simp only [hseen, List.exists_mem_cons_iff, or_assoc]

/-! ### The verdict -/

/-- Trying replicas of which none can be scheduled tells whether one is engaged, and does nothing else. -/
theorem progress_of_not_movable (hmissing : d.missing ≠ [])
    (h : ∀ source ∈ b.replicas, source.type ∈ d.surplus → ¬p.Movable b d.missing source) :
    ∃ pendingSeen, p.progress b d = ⟨p, d, 0, pendingSeen⟩ ∧
      (pendingSeen ↔ ∃ source ∈ b.replicas, source.type ∈ d.surplus ∧ p.Engaged b d.missing source) := by
  obtain ⟨pendingSeen, hfold⟩ := Progress.foldl_of_not_movable (s := ⟨p, d, 0, false⟩) h
  have hseen := Progress.pendingSeen_foldl_iff (s := ⟨p, d, 0, false⟩) hmissing h
  rw [hfold] at hseen
  exact ⟨pendingSeen, hfold, by simpa using hseen⟩

/-- Trying replicas of which one can be scheduled schedules a move. -/
theorem moves_progress_of_movable (hsource : source ∈ b.replicas) (hsurplus : source.type ∈ d.surplus)
    (h : p.Movable b d.missing source) : 0 < (p.progress b d).moves := by
  refine Nat.pos_of_ne_zero fun hzero => ?_
  exact (Progress.moves_foldl_iff b b.replicas ⟨p, d, 0, false⟩).1 hzero source hsource hsurplus h

/-- Below its limit a pass judges a block without a fault that has something to move by its progress. -/
theorem scheduleBlock_of_open (hnew : b.block.id ∉ p.seen) (hvalid : b.Valid)
    (hd : b.difference? p.suite = some d) (hopen : ¬d.isSettled) (hcap : p.report.moves < p.maxMoves) :
    ∃ seen report, p.scheduleBlock b =
      ({ (p.progress b d).pass with seen := seen, report := report }, (p.progress b d).verdict) := by
  rw [scheduleBlock, if_neg (by simpa using hnew), judge_of_open hvalid hd hopen hcap]
  exact ⟨_, _, rfl⟩

/-- What a pass makes of a block that it has not seen, if its record has no fault, its policy asks for
types of which some are missing and some replicas could go there, and the limit of the pass is not reached.
Everything is said of the pass as it was before. Moves are scheduled exactly if there is a replica of a
surplus type that is not committed, of which no move to a missing type is live, and for which some offer of
a missing type is a good target. If there is none, the block is pending exactly if a replica of a surplus
type is committed or has such a live move, and otherwise it has no destination; the pass has then put
nothing into the ledger, and remembers no new move. -/
theorem scheduleBlock_verdict (hledger : p.ledger.Consistent) (hnew : b.block.id ∉ p.seen) (hvalid : b.Valid)
    (hd : b.difference? p.suite = some d) (hopen : ¬d.isSettled) (hcap : p.report.moves < p.maxMoves) :
    let committed (source : Replica) := (b.block.id, source.storage) ∈ p.committed
    let live (source : Replica) := ∃ e ∈ p.ledger.entries, e.move.block.id = b.block.id ∧
      e.move.source.type = source.type ∧ e.move.targetType ∈ d.missing
    let movable := ∃ source ∈ b.replicas, source.type ∈ d.surplus ∧ ¬committed source ∧ ¬live source ∧
      ∃ o ∈ p.inventory.offers, o.type ∈ d.missing ∧ p.isGoodTarget b source o
    let engaged := ∃ source ∈ b.replicas, source.type ∈ d.surplus ∧ (committed source ∨ live source)
    let result := p.scheduleBlock b
    ((∃ moves remaining, result.2 = .scheduled moves remaining) ↔ movable) ∧
    (result.2 = .alreadyPending ↔ ¬movable ∧ engaged) ∧
    (result.2 = .unsatisfiable ↔ ¬movable ∧ ¬engaged) ∧
    ((∀ moves remaining, result.2 ≠ .scheduled moves remaining) →
      result.1.ledger = p.ledger ∧ result.1.committed = p.committed ∧ result.1.claimed = p.claimed ∧
        result.1.incoming = p.incoming) := by
  intro committed live movable engaged result
  have hengaged (source : Replica) : p.Engaged b d.missing source ↔ committed source ∨ live source :=
    or_congr_right (hledger.holds_iff b.block.id source.type d.missing)
  have hmovable : movable ↔ ∃ source ∈ b.replicas, source.type ∈ d.surplus ∧ p.Movable b d.missing source := by
    simp only [movable, movable_iff, hengaged, not_or, and_assoc]
  have hmissing : d.missing ≠ [] := fun hnil => hopen (by simp [Difference.isSettled, hnil])
  obtain ⟨seen, report, hresult⟩ := scheduleBlock_of_open hnew hvalid hd hopen hcap
  by_cases hmove : movable
  · obtain ⟨source, hsource, hsurplus, hfree⟩ := hmovable.1 hmove
    have hpos := moves_progress_of_movable hsource hsurplus hfree
    have hverdict : result.2 = .scheduled (p.progress b d).moves (!(p.progress b d).difference.isSettled) := by
      rw [show result = _ from hresult, Progress.verdict, if_pos hpos]
    refine ⟨⟨fun _ => hmove, fun _ => ⟨_, _, hverdict⟩⟩, ?_, ?_, fun hnone => absurd hverdict (hnone _ _)⟩
    · simp [hverdict, hmove]
    · simp [hverdict, hmove]
  · have hstays : ∀ source ∈ b.replicas, source.type ∈ d.surplus → ¬p.Movable b d.missing source :=
      fun source hsource hsurplus hfree => hmove (hmovable.2 ⟨source, hsource, hsurplus, hfree⟩)
    obtain ⟨pendingSeen, hprogress, hseen⟩ := progress_of_not_movable hmissing hstays
    simp only [hengaged] at hseen
    have hsame : result = ({ p with seen := seen, report := report },
        if pendingSeen then .alreadyPending else .unsatisfiable) := by
      rw [show result = _ from hresult, hprogress]
      rfl
    rw [hsame]
    cases pendingSeen with
    | true =>
      have hany : engaged := hseen.1 rfl
      simp [hmove, hany]
    | false =>
      have hnone : ¬engaged := fun hany => Bool.false_ne_true (hseen.2 hany)
      simp [hmove, hnone]

/-- A disk, a flash storage and an archive with little room, each on a node of its own. -/
def threeNodes (room : Nat) : Inventory :=
  ⟨[("a", "/r"), ("b", "/r"), ("c", "/r")],
   [⟨"a", "/r", "a0", .disk, 9⟩, ⟨"b", "/r", "b0", .ssd, 9⟩, ⟨"c", "/r", "c0", .archive, room⟩]⟩

/-- A cold block of two replicas, on disk and on flash. -/
def coldPair : ListedBlock :=
  ⟨"/f", "COLD", ⟨1, 4, 1⟩, .contiguous 2, [⟨"a", .disk, "a0", none⟩, ⟨"b", .ssd, "b0", none⟩]⟩

/-- The move of its replica on disk to the archive is live. -/
def halfway : Ledger := (Ledger.empty.insert ⟨"/f", ⟨1, 4, 1⟩, ⟨"a", .disk, "a0", none⟩, .archive, "c", "c0"⟩).1

/-- A move of the other replica is scheduled if the archive has room for it; else the block is pending. -/
theorem scheduleBlock_verdict_halfway :
    (∃ moves remaining,
      ((start 5 (threeNodes 4) .standard halfway).scheduleBlock coldPair).2 = .scheduled moves remaining) ∧
    ((start 5 (threeNodes 3) .standard halfway).scheduleBlock coldPair).2 = .alreadyPending := by
  have hledger : halfway.Consistent :=
    Ledger.clear_empty.consistent.insert (show _ = (halfway, some 1) from rfl)
  have hd : coldPair.difference? .standard = some ⟨[.archive, .archive], [.disk, .ssd]⟩ := by decide +kernel
  have hverdict (room : Nat) := scheduleBlock_verdict (p := start 5 (threeNodes room) .standard halfway)
    (b := coldPair) hledger List.not_mem_nil (by decide) hd (by decide) (show 0 < 5 by decide)
  obtain ⟨hscheduled, -⟩ := hverdict 4
  obtain ⟨-, hpending, -⟩ := hverdict 3
  refine ⟨hscheduled.2 ?_, hpending.2 ⟨?_, ?_⟩⟩
  · refine ⟨⟨"b", .ssd, "b0", none⟩, by decide, by decide, List.not_mem_nil, by decide +kernel, ?_⟩
    exact ⟨⟨"c", "/r", "c0", .archive, 4⟩, by decide, by decide, by decide +kernel⟩
  · rintro ⟨source, hsource, -, -, -, o, ho, hmissing, hgood⟩
    revert source o
    decide +kernel
  · exact ⟨⟨"a", .disk, "a0", none⟩, by decide, by decide,
      .inr ⟨_, List.mem_singleton.2 rfl, rfl, rfl, by decide⟩⟩

end Pass

end StorageTiering
