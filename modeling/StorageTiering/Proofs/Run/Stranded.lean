import Mathlib.Data.Set.Card
import StorageTiering.Proofs.Ledger.Tally
import StorageTiering.Proofs.Pass.Accounts
import StorageTiering.Proofs.Run.NoMoveBlock
import StorageTiering.Proofs.World.Content
/-!
# How many blocks cannot be moved

A run that ends because nothing can be moved tells how many blocks any of its scans has found without a
remedy. A block that has been moved since is still counted.

* `Pass.mem_unsatisfiable_scheduleAll` — a pass that can do nothing reports exactly the unsettled blocks.
* `Cluster.Unsettled` — a block at or below the paths that is skipped or violates its policy.
* `Run.Strands` — an iteration whose scan reports a block; `Run.mem_unsatisfiable_iff` for what a run records.
* `Run.run_noMoveBlock_count` — the number that a run ends with.
-/

namespace StorageTiering

/-- The members of a list without duplicates, some of which are in a set. -/
theorem length_eq_ncard_add {ids : List BlockId} {known part : Set BlockId} (hnodup : ids.Nodup)
    (hmem : ∀ id, id ∈ ids ↔ id ∈ known) (hpart : part ⊆ known) :
    ids.length = part.ncard + (known \ part).ncard ∧ (ids.length = part.ncard ↔ known ⊆ part) := by
  have hknown : known = ids.toFinset := Set.ext fun id => by simp [hmem]
  have hfinite : known.Finite := hknown ▸ ids.toFinset.finite_toSet
  have hlength : ids.length = known.ncard := by
    rw [hknown, Set.ncard_coe_finset, List.toFinset_card_of_nodup hnodup]
  have hsplit := Set.ncard_sdiff_add_ncard_of_subset hpart hfinite
  have hnone : (known \ part).ncard = 0 ↔ known ⊆ part := by
    rw [Set.ncard_eq_zero hfinite.sdiff, Set.sdiff_eq_empty]
  rw [← hnone]
  omega

/-! ### One pass -/

namespace Pass

variable {p q : Pass} {b : ListedBlock} {blocks : List ListedBlock} {ms : List Move} {v : Verdict}

/-- No block counts as scheduled without a move. -/
theorem Judges.pos_of_scheduled {moves : Nat} {rest : Bool} (h : p.Judges b ms q v)
    (hv : v = .scheduled moves rest) : 0 < moves := by
  cases h with
  | @tried _ s _ _ _ _ _ =>
    rw [Progress.verdict] at hv
    split at hv
    · cases hv
      assumption
    · split at hv <;> cases hv
  | _ => cases hv

/-- A pass below its limit that schedules nothing for a new block and does not find it pending reports it,
unless it is settled. -/
theorem mem_unsatisfiable_scheduleBlock (hcap : p.report.moves < p.maxMoves) (hnew : b.block.id ∉ p.seen)
    (hmoves : (p.scheduleBlock b).1.report.moves = p.report.moves)
    (hpending : (p.scheduleBlock b).1.report.pending = p.report.pending) (id : BlockId) :
    id ∈ (p.scheduleBlock b).1.report.unsatisfiable ↔
      id ∈ p.report.unsatisfiable ∨ b.block.id = id ∧ ¬b.Settled p.suite := by
  obtain ⟨ms, q, v, hj, he⟩ := scheduleBlock_of_new hnew
  have hverdict : (p.scheduleBlock b).2 = v := by rw [he]
  have hcount : (p.scheduleBlock b).1.report = p.report.count b.block.id v := by
    rw [he, ← hj.uncounted.2]
  rw [hcount] at hmoves hpending ⊢
  rw [← hj.settled_iff]
  cases v with
  | faulty fault => simp [ScanReport.count, Verdict.isViolation, eq_comm]
  | ungoverned fault => simp [ScanReport.count, Verdict.isViolation, eq_comm]
  | unsatisfiable => simp [ScanReport.count, Verdict.isViolation, eq_comm]
  | satisfied => simp [ScanReport.count, Verdict.isViolation]
  | untouched policy => simp [ScanReport.count, Verdict.isViolation]
  | duplicate => simp [ScanReport.count, Verdict.isViolation]
  | scheduled moves rest =>
    have hpos := hj.pos_of_scheduled rfl
    simp only [ScanReport.count] at hmoves
    omega
  | alreadyPending =>
    simp only [ScanReport.count] at hpending
    omega
  | deferred =>
    have hfull := (scheduleBlock_eq_deferred_iff.1 hverdict).2.2.2
    omega

/-- A pass below its limit that schedules nothing and finds nothing pending reports exactly the unsettled
blocks that it has not seen before. -/
theorem mem_unsatisfiable_scheduleAll (hcap : p.report.moves < p.maxMoves)
    (hmoves : (p.scheduleAll blocks).report.moves = p.report.moves)
    (hpending : (p.scheduleAll blocks).report.pending = p.report.pending)
    (hone : ∀ b ∈ blocks, ∀ b' ∈ blocks, b.block.id = b'.block.id → b = b') (id : BlockId) :
    id ∈ (p.scheduleAll blocks).report.unsatisfiable ↔ id ∈ p.report.unsatisfiable ∨
      ∃ b ∈ blocks, b.block.id = id ∧ id ∉ p.seen ∧ ¬b.Settled p.suite := by
  induction blocks generalizing p with
  | nil => simp [scheduleAll]
  | cons b rest ih =>
    have hcons : p.scheduleAll (b :: rest) = (p.scheduleBlock b).1.scheduleAll rest := rfl
    obtain ⟨ms, hs⟩ := exists_surveys_block p b
    obtain ⟨hlimit, -, hsuite⟩ := hs.schedules.frame
    -- neither counter ever falls, so the first block leaves both of them alone
    have hmoves₁ : (p.scheduleBlock b).1.report.moves = p.report.moves := by
      have hle : p.report.moves ≤ (p.scheduleBlock b).1.report.moves := moves_le_scheduleAll p [b]
      have hle' := moves_le_scheduleAll (p.scheduleBlock b).1 rest
      rw [hcons] at hmoves
      omega
    have hpending₁ : (p.scheduleBlock b).1.report.pending = p.report.pending := by
      have hle := pending_le_scheduleBlock p b
      have hle' := pending_le_scheduleAll (p.scheduleBlock b).1 rest
      rw [hcons] at hpending
      omega
    have hrest := ih (p := (p.scheduleBlock b).1) (by rw [hmoves₁, hlimit]; exact hcap)
      (hmoves.trans hmoves₁.symm) (hpending.trans hpending₁.symm)
      fun x hx y hy => hone x (List.mem_cons_of_mem _ hx) y (List.mem_cons_of_mem _ hy)
    rw [hcons, hrest, hsuite]
    simp only [mem_seen_scheduleBlock, not_or, List.exists_mem_cons_iff]
    by_cases hid : b.block.id = id
    · have hsame : ∀ x ∈ rest, x.block.id = id → x = b := fun x hx hxid =>
        hone x (List.mem_cons_of_mem _ hx) b List.mem_cons_self (hxid.trans hid.symm)
      have hnone : ¬∃ x ∈ rest, x.block.id = id ∧ (id ∉ p.seen ∧ b.block.id ≠ id) ∧ ¬x.Settled p.suite := by
        rintro ⟨-, -, -, ⟨-, hne⟩, -⟩
        exact hne hid
      have hfirst : (∃ x ∈ rest, x.block.id = id ∧ id ∉ p.seen ∧ ¬x.Settled p.suite) →
          b.block.id = id ∧ id ∉ p.seen ∧ ¬b.Settled p.suite := by
        rintro ⟨x, hx, hxid, hnew, hopen⟩
        exact ⟨hid, hnew, hsame x hx hxid ▸ hopen⟩
      rw [or_iff_left hnone, or_iff_left_of_imp hfirst]
      by_cases hseen : b.block.id ∈ p.seen
      · rw [scheduleBlock_of_seen hseen]
        exact ⟨.inl, fun h => h.resolve_right fun hb => hb.2.1 (hid ▸ hseen)⟩
      · rw [mem_unsatisfiable_scheduleBlock hcap hseen hmoves₁ hpending₁]
        exact or_congr_right ⟨fun hb => ⟨hid, hid ▸ hseen, hb.2⟩, fun hb => ⟨hid, hb.2.2⟩⟩
    · have hfirst : id ∈ (p.scheduleBlock b).1.report.unsatisfiable ↔ id ∈ p.report.unsatisfiable := by
        by_cases hseen : b.block.id ∈ p.seen
        · rw [scheduleBlock_of_seen hseen]
        · rw [mem_unsatisfiable_scheduleBlock hcap hseen hmoves₁ hpending₁]
          exact or_iff_left fun hb => hid hb.1
      rw [hfirst]
      simp only [hid, not_false_eq_true, and_true, false_and, false_or]

end Pass

/-! ### What stays the same in a cluster -/

namespace Cluster

variable {c c' : Cluster} {suite : Suite} {paths : List String} {id : BlockId}

/-- A block at or below the paths is skipped or violates its policy. -/
def Unsettled (suite : Suite) (paths : List String) (c : Cluster) (id : BlockId) : Prop :=
  ∃ b ∈ c.listedUnder paths, b.block.id = id ∧ ¬b.Settled suite

/-- A block is listed at or below the paths as long as its file is. -/
theorem Catalogued.exists_listedUnder (h : c'.Catalogued) (hfiles : c'.files = c.files)
    (hb : ∃ b ∈ c.listedUnder paths, b.block.id = id) : ∃ b ∈ c'.listedUnder paths, b.block.id = id := by
  obtain ⟨b, hb, rfl⟩ := hb
  obtain ⟨f, hf, hunder, id, hid, hlisted⟩ := mem_listedUnder.1 hb
  rw [← hfiles] at hf
  obtain ⟨placed, hplaced⟩ := Option.isSome_iff_exists.1 (h.present id (List.mem_flatMap.2 ⟨f, hf, hid⟩))
  have hrecord : c'.listedBlock? f.1 f.2 id = some _ := listedBlock?_eq_some.2 ⟨placed, hplaced, rfl⟩
  exact ⟨_, mem_listedUnder.2 ⟨f, hf, hunder, id, hid, hrecord⟩,
    (id_of_listedBlock? hrecord).trans (id_of_listedBlock? hlisted).symm⟩

end Cluster

/-- Nothing that a run does or waits for changes a file. -/
theorem World.lasting_files (files : SortedTable File) : Lasting fun w => w.cluster.files = files where
  begins := fun _ _ h => h
  settles := fun w m a h => by
    cases a with
    | perform =>
      obtain ⟨nodes, blocks, he, -⟩ := Cluster.relocate_frame w.cluster m
      exact (congrArg Cluster.files he).trans h
    | _ => exact h
  noted := fun _ _ _ h => h
  elapses := fun w stop t h => (w.alike_advance stop t).files.trans h
  signals := fun _ _ h => h
  lists := fun w path cursor h => (w.alike_listPage path cursor).files.trans h
  reports := fun w h => w.alike_report.files.trans h
  checks := fun w h => w.alike_checkSatisfier.files.trans h
  acquires := fun w holder intervalMs h => (w.alike_acquireLease holder intervalMs).files.trans h

namespace Run

variable {r r' r₁ r₂ : Run} {w w' w₁ w₂ : World} {report : ScanReport} {id : BlockId} {n k : Nat}
  {executors : Nat → Executor}

/-! ### One scan -/

/-- A scan examines the records of the cluster that it leaves. -/
theorem scan_examines (h : w.Plain) (hscan : r.scan w = (w', r', .ok report)) :
    ∃ reports, report = ((r.newPass reports).scheduleAll (walk w'.cluster r.paths)).report := by
  have hcall : (r.retrying World.report w).1.Plain :=
    World.withRetries_preserves (fun w hw => hw.report) (fun w ms hw => hw.wait ms) _ _ h
  cases hreport : r.retrying World.report w with
  | mk v answer =>
    rw [hreport] at hcall
    cases answer with
    | error fault =>
      rw [scan, hreport] at hscan
      cases hscan
    | ok reports =>
      obtain ⟨hshows, -, hcases⟩ := scan_spec hreport hcall.shows
      rw [hscan] at hshows hcases
      have hwalk : walk w'.cluster r.paths = walk v.cluster r.paths := by
        simp only [walk, Cluster.itemsUnder_congr hshows.files hshows.blocks]
      refine ⟨reports, ?_⟩
      rw [hwalk]
      rcases hcases with ⟨fault, hfault, -⟩ | hok
      · cases hfault
      · exact Except.ok.inj (congrArg Prod.snd hok)

/-- The blocks that a scan reports are listed. -/
theorem listed_of_scan (h : w.Plain) (hscan : r.scan w = (w', r', .ok report))
    (hid : id ∈ report.unsatisfiable) : ∃ b ∈ w'.cluster.listedUnder r.paths, b.block.id = id := by
  obtain ⟨reports, rfl⟩ := scan_examines h hscan
  have hstart : (r.newPass reports).report = .ofVerdicts [] := rfl
  rw [Pass.report_scheduleAll hstart] at hid
  have hfirst : id ∈ ((r.newPass reports).judged (walk w'.cluster r.paths)).map Prod.fst :=
    (List.filter_sublist.map Prod.fst).subset hid
  rw [Pass.map_fst_judged] at hfirst
  obtain ⟨b, hb, rfl⟩ := List.mem_map.1 hfirst
  exact ⟨b, Cluster.mem_walk.1 hb, rfl⟩

/-- A scan that schedules nothing and finds nothing pending reports exactly the unsettled blocks. -/
theorem mem_unsatisfiable_of_scan (h : w.Plain) (hmax : 0 < r.settings.get .maxMovesPerIteration)
    (hscan : r.scan w = (w', r', .ok report)) (hmoves : report.moves = 0) (hpending : report.pending = 0) :
    id ∈ report.unsatisfiable ↔ w'.cluster.Unsettled r.suite r.paths id := by
  have hplain : w'.Plain := by
    have hscanned := scan_lasting World.lasting_plain r h
    rwa [hscan] at hscanned
  have hcat := hplain.reachable.catalogued
  obtain ⟨reports, rfl⟩ := scan_examines h hscan
  rw [Pass.mem_unsatisfiable_scheduleAll (p := r.newPass reports) hmax hmoves hpending
    fun b hb b' hb' => hcat.listedUnder_inj (Cluster.mem_walk.1 hb) (Cluster.mem_walk.1 hb')]
  constructor
  · rintro (hnone | ⟨b, hb, hbid, -, hopen⟩)
    · cases hnone
    · exact ⟨b, Cluster.mem_walk.1 hb, hbid, hopen⟩
  · rintro ⟨b, hb, hbid, hopen⟩
    exact .inr ⟨b, Cluster.mem_walk.2 hb, hbid, List.not_mem_nil, hopen⟩

/-! ### What a run records -/

theorem mem_recordUnsatisfiable {blocks : List BlockId} :
    id ∈ (r.recordUnsatisfiable blocks).unsatisfiable ↔ id ∈ r.unsatisfiable ∨ id ∈ blocks := by
  have hfold : ∀ known : List BlockId, id ∈ blocks.foldl (fun known b => insertAscending b known) known ↔
      id ∈ known ∨ id ∈ blocks := by
    induction blocks with
    | nil => simp
    | cons b rest ih =>
      intro known
      rw [List.foldl_cons, ih, mem_insertAscending, List.mem_cons, or_assoc, or_left_comm]
  exact hfold r.unsatisfiable

theorem pairwise_recordUnsatisfiable {blocks : List BlockId} (h : r.unsatisfiable.Pairwise (· < ·)) :
    (r.recordUnsatisfiable blocks).unsatisfiable.Pairwise (· < ·) := by
  have hfold : ∀ known : List BlockId, known.Pairwise (· < ·) →
      (blocks.foldl (fun known b => insertAscending b known) known).Pairwise (· < ·) := by
    induction blocks with
    | nil => exact fun _ h => h
    | cons b rest ih => exact fun known h => ih _ (pairwise_insertAscending h)
  exact hfold r.unsatisfiable h

/-- A scan that comes to its end records what it reports. -/
theorem records_of_scan (hscan : r.scan w = (w', r', .ok report)) :
    r'.unsatisfiable = (r.recordUnsatisfiable report.unsatisfiable).unsatisfiable := by
  rw [scan] at hscan
  split at hscan
  · cases hscan
  · rename_i v reports _
    dsimp only at hscan
    generalize r.scanPaths r.paths v (r.newPass reports) = result at hscan
    obtain ⟨v', p, _ | fault⟩ := result
    · cases hscan
      rfl
    · cases hscan

/-- An iteration after which a run goes on records what its scan reports, and nothing else. -/
theorem records_of_round (hround : r.round n w = (w', r', none)) :
    ∃ w₁ r₁ report, scan { r with stage := .scanning } w = (w₁, r₁, .ok report) ∧
      r'.unsatisfiable = r₁.unsatisfiable := by
  have hcases := round_iterates r n w
  rw [hround] at hcases
  cases hcases with
  | @rested w₁ w₂ r₁ r₂ scanned report _ hscan hs hdispatch hstalls he =>
    obtain ⟨ledger, hframe⟩ := dispatch_frame { r₁ with stage := .dispatching } w₁
    rw [hdispatch] at hframe
    refine ⟨w₁, r₁, scanned, hscan, ?_⟩
    dsimp only at hframe
    rw [hframe]
    rfl

/-! ### Iterations -/

/-- The scan of an iteration reports that nothing can be done about a block. -/
def Strands (r : Run) (w : World) (k : Nat) (id : BlockId) : Prop :=
  ∃ r₁ w₁ w₂ r₂ report, r.Begins w k r₁ w₁ ∧
    scan { r₁ with stage := .scanning } w₁ = (w₂, r₂, .ok report) ∧ id ∈ report.unsatisfiable

theorem BeginsWith.pos (h : r.BeginsWith executors w n r₁ w₁) : 0 < n := by
  cases h with
  | first _ _ => exact Nat.one_pos
  | next _ _ => exact Nat.succ_pos _

/-- A run begins an iteration in one way. -/
theorem BeginsWith.unique (h : r.BeginsWith executors w n r₁ w₁) (h' : r.BeginsWith executors w n r₂ w₂) :
    r₁ = r₂ ∧ w₁ = w₂ := by
  induction h generalizing r₂ w₂ with
  | first hcheck hacquire =>
    cases h' with
    | first hcheck' hacquire' =>
      obtain ⟨rfl, -⟩ := Prod.mk.inj (hcheck.symm.trans hcheck')
      exact ⟨rfl, congrArg Prod.fst (hacquire.symm.trans hacquire')⟩
    | next h' _ => exact absurd h'.pos (Nat.lt_irrefl 0)
  | next h hround ih =>
    cases h' with
    | first _ _ => exact absurd h.pos (Nat.lt_irrefl 0)
    | next h' hround' =>
      obtain ⟨rfl, rfl⟩ := ih h'
      have hsame := hround.symm.trans hround'
      exact ⟨congrArg (fun x => x.2.1) hsame, congrArg Prod.fst hsame⟩

/-- No iteration begins after one that ends the run. -/
theorem BeginsWith.le_of_ended {e : RunEnd} (h : r.BeginsWith executors w n r₁ w₁)
    (hround : r₁.round n w₁ (executors n) = (w₂, r₂, some e)) (h' : r.BeginsWith executors w k r' w') :
    k ≤ n := by
  induction h' with
  | first _ _ => exact h.pos
  | @next k r₃ r₄ w₃ w₄ h' hround' ih =>
    refine Nat.lt_of_le_of_ne ih ?_
    rintro rfl
    obtain ⟨rfl, rfl⟩ := h.unique h'
    cases hround.symm.trans hround'

theorem strands_iff (hb : r.Begins w n r₁ w₁)
    (hscan : scan { r₁ with stage := .scanning } w₁ = (w₂, r₂, .ok report)) :
    r.Strands w n id ↔ id ∈ report.unsatisfiable := by
  refine ⟨?_, fun hid => ⟨r₁, w₁, w₂, r₂, report, hb, hscan, hid⟩⟩
  rintro ⟨r₁', w₁', w₂', r₂', report', hb', hscan', hid⟩
  obtain ⟨rfl, rfl⟩ := hb.unique hb'
  cases hscan.symm.trans hscan'
  exact hid

/-- A run has recorded the blocks that the scans so far have reported. -/
theorem mem_unsatisfiable_iff (hnone : r.unsatisfiable = []) (hb : r.Begins w n r' w') :
    id ∈ r'.unsatisfiable ↔ ∃ k < n, r.Strands w k id := by
  induction hb with
  | first _ _ =>
    rw [hnone]
    refine ⟨fun hid => (nomatch hid), ?_⟩
    rintro ⟨k, hk, _, _, _, _, _, hb, -⟩
    exact absurd hb.pos (by omega)
  | @next n r₁ r₂ w₁ w₂ hb hround ih =>
    obtain ⟨v, r₃, report, hscan, hrecords⟩ := records_of_round hround
    rw [hrecords, records_of_scan hscan, mem_recordUnsatisfiable, ← strands_iff hb hscan]
    show id ∈ r₁.unsatisfiable ∨ _ ↔ _
    simp only [ih, Nat.lt_succ_iff_lt_or_eq, or_and_right, exists_or, exists_eq_left]

theorem pairwise_unsatisfiable (hnone : r.unsatisfiable = []) (hb : r.Begins w n r' w') :
    r'.unsatisfiable.Pairwise (· < ·) := by
  induction hb with
  | first _ _ =>
    rw [hnone]
    exact List.Pairwise.nil
  | @next n r₁ r₂ w₁ w₂ hb hround ih =>
    obtain ⟨v, r₃, report, hscan, hrecords⟩ := records_of_round hround
    rw [hrecords, records_of_scan hscan]
    exact pairwise_recordUnsatisfiable (r := { r₁ with stage := .scanning }) ih

/-! ### Whole runs -/

/-- An iteration in which a run finds that nothing can be moved has recorded all unsettled blocks, and the
run ends with the number of the recorded ones. -/
theorem round_noMoveBlock_count (h : w.Plain) (hmax : 0 < r.settings.get .maxMovesPerIteration)
    (hround : r.round k w = (w', r', some (.status (.noMoveBlock n)))) :
    ∃ report, scan { r with stage := .scanning } w = (w', r', .ok report) ∧
      n = r'.unsatisfiable.length ∧
      ∀ id, id ∈ report.unsatisfiable ↔ w'.cluster.Unsettled r.suite r.paths id := by
  have hcases := round_iterates r k w
  rw [hround] at hcases
  cases hcases with
  | forced ledger stage unsatisfiable he =>
    rcases he _ rfl with hs | ⟨reason, hs⟩ <;> cases hs
  | @judged _ _ report _ hscan hs =>
    cases concludes_of_statusAfterScan hs with
    | stuck hneeds hstuck =>
      simp only [isStuck, Bool.and_eq_true, beq_iff_eq] at hstuck
      obtain ⟨⟨hmoves, hpending⟩, -⟩ := hstuck
      exact ⟨report, hscan, rfl, fun id =>
        mem_unsatisfiable_of_scan (r := { r with stage := .scanning }) h hmax hscan hmoves hpending⟩
    | @interrupted i _ hi hs => cases i <;> cases hs
  | rested _ _ _ _ he =>
    rcases he _ rfl _ rfl with hs | ⟨reason, hs⟩ <;> cases hs

/-- When an iteration ends a run, the run has recorded the blocks that any of its scans has reported. -/
theorem mem_unsatisfiable_ended (hnone : r.unsatisfiable = []) {e : RunEnd} (hb : r.Begins w n r₁ w₁)
    (hround : r₁.round n w₁ = (w₂, r₂, some e))
    (hscan : scan { r₁ with stage := .scanning } w₁ = (w₂, r₂, .ok report)) :
    id ∈ r₂.unsatisfiable ↔ ∃ k, r.Strands w k id := by
  have hbefore : id ∈ r₁.unsatisfiable ↔ ∃ k < n, r.Strands w k id := mem_unsatisfiable_iff hnone hb
  rw [records_of_scan hscan, mem_recordUnsatisfiable, ← strands_iff hb hscan]
  show id ∈ r₁.unsatisfiable ∨ _ ↔ _
  rw [hbefore]
  constructor
  · rintro (⟨k, -, hk⟩ | hn)
    · exact ⟨k, hk⟩
    · exact ⟨n, hn⟩
  · rintro ⟨k, hk⟩
    have hle : k ≤ n := by
      obtain ⟨_, _, _, _, _, hb', -⟩ := hk
      exact hb.le_of_ended hround hb'
    rcases Nat.lt_or_eq_of_le hle with hlt | rfl
    · exact .inl ⟨k, hlt, hk⟩
    · exact .inr hk

/-- The blocks that scans report are listed as long as the files are there. -/
theorem Strands.listed (h : w.Plain) {c : Cluster} (hc : c.Catalogued) (hfiles : c.files = w.cluster.files)
    (hs : r.Strands w k id) : ∃ b ∈ c.listedUnder r.paths, b.block.id = id := by
  obtain ⟨r₁, w₁, w₂, r₂, report, hb, hscan, hid⟩ := hs
  have hlisted := listed_of_scan (r := { r₁ with stage := .scanning }) (hb.lasting World.lasting_plain h) hscan hid
  have hfiles₁ := hb.lasting (World.lasting_files w.cluster.files) rfl
  have hfiles₂ := scan_lasting (World.lasting_files w.cluster.files) { r₁ with stage := .scanning } hfiles₁
  rw [hscan] at hfiles₂
  rw [← hb.same.paths]
  exact hc.exists_listedUnder (hfiles.trans hfiles₂.symm) hlisted

/-- A run that ends because nothing can be moved has recorded, each once and in ascending order, the blocks
that any of its scans has reported, and ends with their number. All of them are listed at or below the paths
when it returns. Every block that is skipped or violates its policy then is one of them; the others have been
moved since, and are counted all the same. So the number is that of the unsettled blocks exactly if every
block that has been reported is unsettled still. -/
theorem run_noMoveBlock_count (h : w.Plain) {settings : Settings} (hs : settings.check = .ok ())
    (paths : Option (List String)) (suite : Suite) (holder : String) (rounds n : Nat) :
    let r := start paths settings suite holder
    let result := r.run rounds w
    let c := result.1.cluster
    let stranded := {id | ∃ k, r.Strands w k id}
    let unsettled := {id | c.Unsettled suite r.paths id}
    result.2.2 = some (.status (.noMoveBlock n)) →
      (∀ id, id ∈ result.2.1.unsatisfiable ↔ id ∈ stranded) ∧
      result.2.1.unsatisfiable.Pairwise (· < ·) ∧ n = result.2.1.unsatisfiable.length ∧
      (∀ id ∈ stranded, ∃ b ∈ c.listedUnder r.paths, b.block.id = id) ∧ unsettled ⊆ stranded ∧
      n = unsettled.ncard + (stranded \ unsettled).ncard ∧
      (n = unsettled.ncard ↔ stranded ⊆ unsettled) := by
  intro r result
  have hcourse : r.Comes (fun _ => Timeline.execute) w rounds result := run_comes r w rounds
  obtain ⟨w', r', e⟩ := result
  intro c stranded unsettled hend
  obtain rfl : e = some (.status (.noMoveBlock n)) := hend
  cases hcourse with
  | refused stage he =>
    rcases he _ rfl with hs | ⟨holder, hs⟩ | ⟨reason, hs⟩ <;> cases hs
  | @ended k r₁ r₂ w₁ w₂ _ _ stage hb _ hround hw =>
    obtain ⟨hpaths, hsettings, hsuite, -⟩ := hb.same
    have hplain₁ := hb.lasting World.lasting_plain h
    have hmax : 0 < r₁.settings.get .maxMovesPerIteration := by
      rw [hsettings]
      exact Settings.pos_of_check hs (by decide)
    obtain ⟨report, hscan, hn, hreport⟩ := round_noMoveBlock_count hplain₁ hmax hround
    obtain ⟨lease, hlease⟩ := hw
    have hc : c = { w₂.cluster with lease := lease } := hlease
    have hfiles : c.files = w₂.cluster.files := by rw [hc]
    have hblocks : c.blocks = w₂.cluster.blocks := by rw [hc]
    have hplain₂ : w₂.Plain := by
      have hdone := round_lasting World.lasting_plain r₁ k hplain₁
      rwa [hround] at hdone
    have hfiles₂ : w₂.cluster.files = w.cluster.files := by
      have hdone := round_lasting (World.lasting_files w.cluster.files) r₁ k
        (hb.lasting (World.lasting_files w.cluster.files) rfl)
      rwa [hround] at hdone
    have hcat : c.Catalogued := by
      rw [hc]
      exact hplain₂.reachable.catalogued.congr rfl (fun _ => rfl) hplain₂.reachable.catalogued.room
    have hmem : ∀ id, id ∈ r₂.unsatisfiable ↔ id ∈ stranded := fun id =>
      mem_unsatisfiable_ended rfl hb hround hscan
    have hascending : r₂.unsatisfiable.Pairwise (· < ·) := by
      have hbefore : r₁.unsatisfiable.Pairwise (· < ·) := pairwise_unsatisfiable rfl hb
      rw [records_of_scan hscan]
      exact pairwise_recordUnsatisfiable (r := { r₁ with stage := .scanning }) hbefore
    have hunsettled : unsettled ⊆ stranded := by
      rintro id ⟨b, hb', hbid, hopen⟩
      rw [Cluster.listedUnder_congr hfiles hblocks] at hb'
      refine ⟨k, (strands_iff hb hscan).2 ((hreport id).2 ⟨b, ?_, hbid, ?_⟩)⟩
      · rwa [hpaths]
      · rwa [hsuite]
    obtain ⟨hnumber, hexact⟩ := length_eq_ncard_add (hascending.imp Nat.ne_of_lt) hmem hunsettled
    refine ⟨hmem, hascending, hn, fun id hid => ?_, hunsettled, hn.trans hnumber, ?_⟩
    · obtain ⟨j, hj⟩ := hid
      exact hj.listed h hcat (hfiles.trans hfiles₂)
    · rw [hn]
      exact hexact

/-- A cold block on a disk, a hot one that fills the archive, and one that needs flash storage. -/
def crowdedDescription : ClusterDescription where
  namespaceId := "ns1"
  pageSize := none
  nodes := [⟨"dn1", "/r", [⟨.disk, 20⟩, ⟨.archive, 6⟩]⟩]
  files := [⟨"/a", "COLD", some (.contiguous 1), [⟨1, 4, 1, [⟨"dn1", .disk⟩]⟩]⟩,
    ⟨"/b", "HOT", some (.contiguous 1), [⟨2, 6, 1, [⟨"dn1", .archive⟩]⟩]⟩,
    ⟨"/c", "ALL_SSD", some (.contiguous 1), [⟨3, 1, 1, [⟨"dn1", .disk⟩]⟩]⟩]
  faults := .none

/-- The cluster of this description. -/
def crowdedSample : Cluster :=
  match crowdedDescription.build with
  | .ok c => c
  | .error _ => .empty ""

/-- The last scan of the run reports one block, and two have been reported. -/
theorem run_noMoveBlock_count_crowded :
    let r := start none .standard .standard "h"
    let w := World.start crowdedSample .none []
    let result := r.run 3 w
    let stranded := {id | ∃ k, r.Strands w k id}
    let unsettled := {id | result.1.cluster.Unsettled .standard ["/"] id}
    result.2.2 = some (.status (.noMoveBlock 2)) ∧ unsettled ⊆ stranded ∧
      2 = unsettled.ncard + (stranded \ unsettled).ncard := by
  have hnumbered : crowdedDescription.Numbered := by
    unfold ClusterDescription.Numbered
    decide
  have hplain : (World.start crowdedSample .none []).Plain :=
    ⟨Cluster.reachable_build (d := crowdedDescription) hnumbered rfl, rfl⟩
  have hend : ((start none .standard .standard "h").run 3 (World.start crowdedSample .none [])).2.2 =
      some (.status (.noMoveBlock 2)) := by
    decide +kernel
  obtain ⟨-, -, -, -, hunsettled, hnumber, -⟩ :=
    run_noMoveBlock_count hplain rfl none .standard "h" 3 2 hend
  exact ⟨hend, hunsettled, hnumber⟩

/-- The cold block has been moved to the archive when the run ends with the number two, after the hot one has
left it: a single block is unsettled. -/
theorem run_noMoveBlock_overcounts :
    let result := (start none .standard .standard "h").run 3 (World.start crowdedSample .none [])
    result.2.2 = some (.status (.noMoveBlock 2)) ∧
      {id | result.1.cluster.Unsettled .standard ["/"] id}.ncard = 1 := by
  intro result
  have hlisted : result.1.cluster.listedUnder ["/"] =
      [⟨"/a", "COLD", ⟨1, 4, 1⟩, .contiguous 1, [⟨"dn1", .archive, "dn1-s1", none⟩]⟩,
        ⟨"/b", "HOT", ⟨2, 6, 1⟩, .contiguous 1, [⟨"dn1", .disk, "dn1-s0", none⟩]⟩,
        ⟨"/c", "ALL_SSD", ⟨3, 1, 1⟩, .contiguous 1, [⟨"dn1", .disk, "dn1-s0", none⟩]⟩] := by
    decide +kernel
  refine ⟨by decide +kernel, Set.ncard_eq_one.2 ⟨3, Set.ext fun id => ?_⟩⟩
  simp only [Set.mem_ofPred_eq, Set.mem_singleton_iff, Cluster.Unsettled, hlisted]
  constructor
  · rintro ⟨b, hb, rfl, hopen⟩
    simp only [List.mem_cons, List.not_mem_nil, or_false] at hb
    rcases hb with rfl | rfl | rfl
    · exact absurd ⟨rfl, .inr ⟨[.archive], by decide +kernel, rfl⟩⟩ hopen
    · exact absurd ⟨rfl, .inr ⟨[.disk], by decide +kernel, rfl⟩⟩ hopen
    · rfl
  · rintro rfl
    exact ⟨_, List.mem_cons_of_mem _ (List.mem_cons_of_mem _ List.mem_cons_self), rfl,
      ListedBlock.not_settled_iff.2 (.inr (.inr ⟨⟨[.ssd], [.disk]⟩, by decide +kernel, by decide⟩))⟩

end Run

end StorageTiering
