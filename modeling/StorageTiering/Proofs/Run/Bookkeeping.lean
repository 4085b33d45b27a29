import StorageTiering.Proofs.Run.Round
/-!
# The books of a run

A run keeps a record of every iteration that has scanned and dispatched, and ends when too many of them in
a row have stalled, or when all that it may do are used up. It numbers its iterations in four bytes.

* `EndsStalled`, `Lively` — how many records at the end of a history have stalled, and a history in which
  never too many in a row have.
* `Iteration.Records`, `Run.Recorded` — what a record says of its scan and its dispatch.
* `Run.Accounted` — books that are in order; `Run.Ready` — a run that begins an iteration with such books.
* `Run.Ready.iterates`, `Run.BeginsWith.ready` — iterations keep the books in order.
* `Run.run_bookkeeping` — so do runs, whoever executes the moves, as long as tasks take turns.
-/

namespace StorageTiering

/-! ### Stalled records -/

/-- The records at the end of a history that have stalled one after another are so many. -/
structure EndsStalled (history : List Iteration) (n : Nat) : Prop where
  stalled : ∃ front back, history = front ++ back ∧ back.length = n ∧ ∀ i ∈ back, i.isStalled
  longest : ∀ front back, history = front ++ back → (∀ i ∈ back, i.isStalled) → back.length ≤ n

/-- Among so many records in a row there is always one that has not stalled. -/
def Lively (n : Nat) (history : List Iteration) : Prop :=
  ∀ front window back, history = front ++ window ++ back → window.length = n → ∃ i ∈ window, ¬i.isStalled

variable {history : List Iteration} {i : Iteration} {m n : Nat}

theorem endsStalled_nil : EndsStalled [] 0 := by
  refine ⟨⟨[], [], rfl, rfl, fun _ hi => nomatch hi⟩, fun front back h _ => ?_⟩
  rw [(List.append_eq_nil_iff.1 h.symm).2]
  exact Nat.le_refl 0

theorem lively_nil (h : 0 < n) : Lively n [] := by
  intro front window back hsplit hlength
  rw [(List.append_eq_nil_iff.1 (List.append_eq_nil_iff.1 hsplit.symm).1).2] at hlength
  exact absurd hlength (Nat.ne_of_lt h)

/-- One more record is counted if it has stalled, and is the end of all that have stalled before
otherwise. -/
theorem EndsStalled.append (h : EndsStalled history n) (i : Iteration) :
    EndsStalled (history ++ [i]) (if i.isStalled then n + 1 else 0) := by
  obtain ⟨⟨front, back, rfl, rfl, hall⟩, hlongest⟩ := h
  have hlast : ∀ front' back' j, front ++ back ++ [i] = front' ++ (back' ++ [j]) →
      front ++ back = front' ++ back' ∧ i = j := by
    intro front' back' j h
    rw [← List.append_assoc] at h
    obtain ⟨hinit, hj⟩ := List.append_inj' h rfl
    exact ⟨hinit, List.singleton_inj.1 hj⟩
  split
  · rename_i hi
    refine ⟨⟨front, back ++ [i], List.append_assoc _ _ _, List.length_append, ?_⟩, ?_⟩
    · intro j hj
      rcases List.mem_append.1 hj with hj | hj
      · exact hall j hj
      · exact List.mem_singleton.1 hj ▸ hi
    · intro front' back' h hall'
      rcases List.eq_nil_or_concat' back' with rfl | ⟨back', j, rfl⟩
      · exact Nat.zero_le _
      · obtain ⟨hinit, -⟩ := hlast front' back' j h
        have hle := hlongest front' back' hinit fun k hk => hall' k (List.mem_append_left _ hk)
        rw [List.length_append, List.length_singleton]
        exact Nat.succ_le_succ hle
  · rename_i hi
    refine ⟨⟨_, [], (List.append_nil _).symm, rfl, fun _ hj => nomatch hj⟩, ?_⟩
    intro front' back' h hall'
    rcases List.eq_nil_or_concat' back' with rfl | ⟨back', j, rfl⟩
    · exact Nat.le_refl 0
    · obtain ⟨-, rfl⟩ := hlast front' back' j h
      exact absurd (hall' i (List.mem_append_right _ List.mem_cons_self)) hi

/-- A history stays lively if too few records at its end have stalled. -/
theorem Lively.append (h : Lively n history) (hends : EndsStalled (history ++ [i]) m) (hm : m < n) :
    Lively n (history ++ [i]) := by
  intro front window back hsplit hlength
  rcases List.eq_nil_or_concat' back with rfl | ⟨back, j, rfl⟩
  · rw [List.append_nil] at hsplit
    by_contra hnone
    have hall : ∀ i ∈ window, i.isStalled := by
      intro i hi
      by_contra hstalled
      exact hnone ⟨i, hi, hstalled⟩
    have hle := hends.longest front window hsplit hall
    omega
  · rw [← List.append_assoc] at hsplit
    exact h front window back (List.append_inj' hsplit rfl).1 hlength

/-! ### One record -/

/-- What a record says of the scan and the dispatch of its iteration. -/
structure Iteration.Records (i : Iteration) (number : Nat) (scan : ScanReport) (report : DispatchReport) :
    Prop where
  counter : i.number = Run.counter number
  number : number < Text.byteBound 4 → i.number = number
  needingMove : i.needingMove = scan.needingMove
  scheduled : i.scheduled = scan.moves
  moved : i.moved = report.moved
  failed : i.failed = report.failed.length
  cancelled : i.cancelled = report.cancelled
  balanced : i.scheduled = i.moved + i.failed + i.cancelled
  ascending : i.failedBlocks.Pairwise (· < ·)
  failedBlocks : ∀ b, b ∈ i.failedBlocks ↔ ∃ r ∈ report.failed, r.move.block.id = b

namespace Run

variable {r r' r₁ r₂ r₃ : Run} {w w' w₁ w₂ w₃ : World} {number : Nat} {scanned : ScanReport}
  {report : DispatchReport} {execute : Executor} {executors : Nat → Executor}

/-! ### The scan and the dispatch of a record -/

theorem scanPages_schedules (r : Run) (path : String) (n : Nat) (w : World) (p : Pass)
    (cursor : Option String) : ∃ blocks, (r.scanPages path n w p cursor).2.1 = p.scheduleAll blocks := by
  induction n generalizing w p cursor with
  | zero => exact ⟨[], rfl⟩
  | succ n ih =>
    rw [scanPages]
    split
    · exact ⟨[], rfl⟩
    · exact ⟨[], rfl⟩
    · rename_i page _
      dsimp only
      split
      · obtain ⟨blocks, he⟩ := ih _ (p.scheduleAll page.blocks) _
        exact ⟨page.blocks ++ blocks, by rw [he, scheduleAll_append]⟩
      · exact ⟨page.blocks, rfl⟩

theorem scanPaths_schedules (r : Run) (paths : List String) (w : World) (p : Pass) :
    ∃ blocks, (r.scanPaths paths w p).2.1 = p.scheduleAll blocks := by
  induction paths generalizing w p with
  | nil => exact ⟨[], rfl⟩
  | cons path rest ih =>
    obtain ⟨blocks, he⟩ := scanPages_schedules r path ((w.cluster.itemsUnder path).length + 1) w p none
    rw [scanPaths, scanPath]
    split
    all_goals
      rename_i heq
      rw [heq] at he
      obtain rfl := he
    · obtain ⟨more, he⟩ := ih _ _
      exact ⟨blocks ++ more, by rw [he, scheduleAll_append]⟩
    · exact ⟨blocks, rfl⟩

/-- Whatever happens during a scan, a clear ledger has afterwards the moves that the scan counts, and none
only if the run is stuck. -/
theorem scan_fills (hl : r.ledger.Clear) (hscan : r.scan w = (w', r', .ok scanned)) :
    r'.ledger.Consistent ∧ r'.ledger.Fresh ∧ r'.ledger.tally = r.ledger.tally ∧
      r'.ledger.entries.length = scanned.moves ∧ (r'.isStuck scanned = false → 1 ≤ scanned.moves) := by
  rw [scan] at hscan
  split at hscan
  · cases hscan
  · rename_i w'' reports _
    obtain ⟨blocks, hpass⟩ := scanPaths_schedules r r.paths w'' (r.newPass reports)
    generalize r.scanPaths r.paths w'' (r.newPass reports) = result at *
    obtain ⟨w'', q, _ | fault⟩ := result
    · obtain rfl := hpass
      cases hscan
      obtain ⟨ms, hs⟩ := Pass.exists_surveys (r.newPass reports) blocks
      obtain ⟨hentries, hconsistent, hfresh, htally⟩ := hs.schedules.ledgered hl.consistent hl.fresh
      have hnone : (r.newPass reports).ledger.entries = [] := hl.1
      have hpending := Pass.pending_scheduleAll blocks (p := r.newPass reports) hl.consistent hl.fresh
        fun id hk => absurd hk (not_knows_newPass hl reports id)
      refine ⟨hconsistent, hfresh, htally, ?_, one_le_moves_of_isStuck hs hl rfl hpending rfl⟩
      have hlength := congrArg List.length hentries
      rw [List.length_map, hnone, List.map_nil, List.nil_append, List.length_reverse] at hlength
      have hmoves : _ = 0 + ms.length := hs.moves
      rw [Nat.zero_add] at hmoves
      exact hlength.trans hmoves.symm
    · cases hscan

theorem scan_bare (h : w.Bare) (r : Run) : (r.scan w).1.Bare :=
  scan_preserves (fun _ path cursor h => h.listPage path cursor) (fun _ ms h => h.wait ms)
    (fun _ h => h.report) r h

/-- A dispatch of moves that wait for their first attempts is interrupted, or drains the ledger. -/
theorem dispatch_bare (he : execute.TakesTurns) (hs : r.settings.check = .ok ()) (hc : r.ledger.Consistent)
    (hf : r.ledger.Fresh) (ht : r.ledger.tally.Ascending) (hw : w.Bare)
    (hdispatch : r.dispatch w execute = (w', r', .ok report)) :
    w'.Bare ∧ Drained r.ledger report r'.ledger ∧ r'.ledger.tally.Ascending := by
  have hmax : 0 < r.settings.limits.maxAttempts :=
    Settings.pos_of_check (k := .maxRetryAttempts) hs (by decide)
  rw [dispatch] at hdispatch
  generalize hresult : execute _ (r.settings.get .leaseGracePeriodMs) _ _ = result at hdispatch
  obtain ⟨w'', l, answer⟩ := result
  obtain ⟨rfl, hr, rfl⟩ : w'' = w' ∧ { r with ledger := l } = r' ∧ answer = .ok report := by
    simpa only [Prod.mk.injEq] using hdispatch
  rw [← hr]
  exact he.drains (Settings.permits_of_check hs) hmax hc hf ht hw hresult

/-- The record of an iteration says what its scan and its dispatch have done. -/
theorem records_of_drained {l l' : Ledger} (hf : l.Fresh) (ht : l.tally = .zero)
    (hlength : l.entries.length = scanned.moves) (hd : Drained l report l') (ha : l'.tally.Ascending)
    (number : Nat) : Iteration.Records ⟨counter number, scanned.needingMove, scanned.moves, report.moved,
      report.failed.length, report.cancelled, l'.tally.failedBlocks⟩ number scanned report where
  counter := rfl
  number := Text.held_of_lt
  needingMove := rfl
  scheduled := rfl
  moved := rfl
  failed := rfl
  cancelled := rfl
  balanced := by
    have hcount := hd.count
    rw [hf.claim, List.length_map, hlength] at hcount
    exact hcount.symm
  ascending := ha
  failedBlocks := fun b => by
    rw [hd.failedBlocks, ht]
    exact or_iff_right List.not_mem_nil

/-! ### Books -/

/-- An iteration of the run that began as `r` has this record. -/
inductive Recorded (r : Run) (executors : Nat → Executor) (w : World) (number : Nat) (i : Iteration) : Prop
  | intro {r₁ r₂ r₃ : Run} {w₁ w₂ w₃ : World} {scanned : ScanReport} {report : DispatchReport}
      (hb : r.BeginsWith executors w number r₁ w₁)
      (hscan : scan { r₁ with stage := .scanning } w₁ = (w₂, r₂, .ok scanned))
      (hdispatch : dispatch { r₂ with stage := .dispatching } w₂ (executors number) = (w₃, r₃, .ok report))
      (hrecords : i.Records number scanned report)

/-- The books of the run that began as `r` are in order: its records are numbered from one on and say what
its iterations have done, it knows how many of them have stalled in a row, and it has no more of them than
it may. If it may have as many as four bytes can number, the number after the last one is zero again, and does
not end the run. -/
structure Accounted (r : Run) (executors : Nat → Executor) (w : World) (r' : Run) : Prop where
  records : ∀ k i, r'.history[k]? = some i → r.Recorded executors w (k + 1) i
  stalls : EndsStalled r'.history r'.stalls
  bounded : 0 < r.settings.get .maxIterations →
    r'.history.length ≤ r.settings.get .maxIterations ∨
      Text.byteBound 4 ≤ r.settings.get .maxIterations + 1 ∧ Text.byteBound 4 ≤ r'.history.length

/-- A run that begins an iteration, with its books in order: no move is live, and it has not stalled too
often. -/
structure Ready (r : Run) (executors : Nat → Executor) (w : World) (number : Nat) (r' : Run) (w' : World) : Prop
    extends Accounted r executors w r' where
  bare : w'.Bare
  clear : r'.ledger.Clear
  tally : r'.ledger.tally = .zero
  length : r'.history.length + 1 = number
  patient : r'.stalls < r.settings.get .maxNoProgressIterations
  lively : Lively (r.settings.get .maxNoProgressIterations) r'.history

/-- Why a run ends without progress: its last iterations have stalled, for the first time so many in a row,
or it has used up its iterations and one more scan has scheduled moves. -/
inductive Unprogressive (r : Run) (executors : Nat → Executor) (w : World) (history : List Iteration)
    (n : Nat) : Prop
  | stalled {earlier : List Iteration} {last : Iteration} (hhistory : history = earlier ++ [last])
      (hn : n = r.settings.get .maxNoProgressIterations)
      (hstalled : ∃ front window, history = front ++ window ∧ window.length = n ∧ ∀ i ∈ window, i.isStalled)
      (hearlier : Lively n earlier)
  | exhausted {r₁ r₂ : Run} {w₁ w₂ : World} {scanned : ScanReport}
      (hn : n = r.settings.get .maxIterations) (hlength : history.length = n)
      (hb : r.BeginsWith executors w (n + 1) r₁ w₁)
      (hscan : scan { r₁ with stage := .scanning } w₁ = (w₂, r₂, .ok scanned)) (hmoves : 1 ≤ scanned.moves)

theorem statusAfterScan_eq_noMoveProgress
    (h : r.statusAfterScan number scanned w = some (.noMoveProgress n)) :
    n = r.settings.get .maxIterations ∧ r.isStuck scanned = false ∧ r.isExhausted number := by
  cases concludes_of_statusAfterScan h with
  | exhausted hmovable hexhausted => exact ⟨rfl, hmovable, hexhausted⟩
  | @interrupted i _ hi hs => cases i <;> cases hs

theorem getElem?_concat_eq_some {k : Nat} {last : Iteration} (h : (history ++ [last])[k]? = some i) :
    history[k]? = some i ∨ k = history.length ∧ i = last := by
  rw [List.getElem?_append] at h
  split at h
  · exact .inl h
  · obtain ⟨hk, he⟩ := List.getElem?_eq_some_iff.1 h
    rw [List.length_singleton] at hk
    exact .inr ⟨by omega, by simpa using he.symm⟩

theorem kept_of_scan (hscan : scan { r with stage := .scanning } w = (w', r', .ok scanned)) :
    r'.history = r.history ∧ r'.stalls = r.stalls ∧ r'.settings = r.settings := by
  obtain ⟨⟨ledger, unsatisfiable, hr⟩, -⟩ := scan_frame { r with stage := .scanning } w
  rw [hscan] at hr
  rw [show r' = _ from hr]
  exact ⟨rfl, rfl, rfl⟩

theorem kept_of_dispatch
    (hdispatch : dispatch { r with stage := .dispatching } w execute = (w', r', .ok report)) :
    r'.history = r.history ∧ r'.stalls = r.stalls := by
  obtain ⟨ledger, hr⟩ := dispatch_frame { r with stage := .dispatching } w execute
  rw [hdispatch] at hr
  rw [show r' = _ from hr]
  exact ⟨rfl, rfl⟩

/-- A run that has iterations left has so many records after one more, or its numbers start again. -/
theorem Ready.bounded_succ (h : r.Ready executors w number r₁ w₁)
    (hspare : r.isExhausted number = false) (hpos : 0 < r.settings.get .maxIterations) :
    number ≤ r.settings.get .maxIterations ∨
      Text.byteBound 4 ≤ r.settings.get .maxIterations + 1 ∧ Text.byteBound 4 ≤ number := by
  have hcounter : counter number ≤ r.settings.get .maxIterations := by
    simpa [isExhausted, hpos] using hspare
  rcases Nat.lt_or_ge number (Text.byteBound 4) with hlt | hge
  · rw [counter, Text.held_of_lt hlt] at hcounter
    exact .inl hcounter
  · have hbounded := h.bounded hpos
    have hlength := h.length
    omega

/-- A run that is exhausted has all the records that it may have, and its numbers have not started again. -/
theorem Ready.exhausted (h : r.Ready executors w number r₁ w₁) (hexhausted : r.isExhausted number) :
    r₁.history.length = r.settings.get .maxIterations := by
  rw [isExhausted, Bool.and_eq_true, decide_eq_true_eq, decide_eq_true_eq] at hexhausted
  obtain ⟨hpos, hcounter⟩ := hexhausted
  have hlt := Text.held_lt 4 number
  have hbounded := h.bounded hpos
  have hlength := h.length
  have hle := Text.held_le 4 number
  rw [counter] at hcounter
  omega

/-- What a scan and a dispatch leave is recorded, and the books stay in order. -/
theorem Ready.record (h : r.Ready executors w number r₁ w₁) (hb : r.BeginsWith executors w number r₁ w₁)
    (he : (executors number).TakesTurns) (hs : r.settings.check = .ok ())
    (hscan : scan { r₁ with stage := .scanning } w₁ = (w₂, r₂, .ok scanned))
    (hstatus : r₂.statusAfterScan number scanned w₂ = none)
    (hdispatch : dispatch { r₂ with stage := .dispatching } w₂ (executors number) = (w₃, r₃, .ok report)) :
    let r₄ := r₃.record number scanned report
    r.Accounted executors w r₄ ∧ w₃.Bare ∧ r₄.ledger.Clear ∧ r₄.ledger.tally = .zero ∧ r₄.stalls ≤ r₁.stalls + 1 ∧
      ∃ i, r₄.history = r₁.history ++ [i] := by
  obtain ⟨hconsistent, hfresh, htally, hlength, -⟩ := scan_fills (r := { r₁ with stage := .scanning })
    h.clear hscan
  have hzero : r₂.ledger.tally = .zero := htally.trans h.tally
  have hbare : w₂.Bare := by
    have hbare := scan_bare h.bare { r₁ with stage := .scanning }
    rwa [hscan] at hbare
  obtain ⟨hhistory, hstalls, hsettings⟩ := kept_of_scan hscan
  obtain ⟨hhistory', hstalls'⟩ := kept_of_dispatch hdispatch
  have hchecked : r₂.settings.check = .ok () := by
    rw [hsettings, hb.same.settings]
    exact hs
  obtain ⟨hbare', hdrained, hascending⟩ := dispatch_bare (r := { r₂ with stage := .dispatching }) he
    hchecked hconsistent hfresh (by rw [hzero]; exact List.Pairwise.nil) hbare hdispatch
  have hclear : r₃.ledger.Clear := hdrained.clear hfresh
  have hrecords := records_of_drained hfresh hzero hlength hdrained hascending number
  generalize hi : Iteration.mk (counter number) _ _ _ _ _ _ = i at hrecords
  intro r₄
  have hr₄ : r₄.history = r₁.history ++ [i] ∧ r₄.stalls = if i.isStalled then r₁.stalls + 1 else 0 := by
    rw [← hhistory, ← hhistory', ← hstalls, ← hstalls', ← hi]
    exact ⟨rfl, rfl⟩
  refine ⟨⟨fun k j hk => ?_, ?_, fun hpos => ?_⟩, hbare', ⟨hclear.1, hclear.2⟩, rfl, ?_, i, hr₄.1⟩
  · rw [hr₄.1] at hk
    rcases getElem?_concat_eq_some hk with hk | ⟨rfl, rfl⟩
    · exact h.records k j hk
    · rw [h.length]
      exact .intro hb hscan hdispatch hrecords
  · rw [hr₄.1, hr₄.2]
    exact h.stalls.append i
  · obtain ⟨-, hspare, -⟩ := goesOn_of_statusAfterScan hstatus
    rw [isExhausted, hsettings, hb.same.settings] at hspare
    rw [hr₄.1, List.length_append, List.length_singleton, h.length]
    exact h.bounded_succ hspare hpos
  · rw [hr₄.2]
    split
    · exact Nat.le_refl _
    · exact Nat.zero_le _

/-- An iteration keeps the books in order, and ends the run without progress only for a reason. -/
theorem Ready.iterates {e : Option RunEnd} (h : r.Ready executors w number r₁ w₁)
    (hb : r.BeginsWith executors w number r₁ w₁) (he : (executors number).TakesTurns)
    (hs : r.settings.check = .ok ()) (hi : r₁.Iterates (executors number) number w₁ (w', r', e)) :
    r.Accounted executors w r' ∧ (e = none → r.Ready executors w (number + 1) r' w') ∧
      ∀ n, e = some (.status (.noMoveProgress n)) → r.Unprogressive executors w r'.history n := by
  have hkept : ∀ {r' : Run}, r'.history = r₁.history → r'.stalls = r₁.stalls →
      r.Accounted executors w r' := by
    intro r' hhistory hstalls
    exact ⟨hhistory ▸ h.records, hhistory ▸ hstalls ▸ h.stalls, hhistory ▸ h.bounded⟩
  cases hi with
  | forced ledger stage unsatisfiable hforced =>
    refine ⟨hkept rfl rfl, fun hn => absurd hn (Option.some_ne_none _), fun n hn => ?_⟩
    obtain rfl := Option.some.inj hn
    rcases hforced _ rfl with hs | ⟨reason, hs⟩ <;> cases hs
  | @judged _ _ scanned s hscan hstatus =>
    obtain ⟨hhistory, hstalls, hsettings⟩ := kept_of_scan hscan
    refine ⟨hkept hhistory hstalls, fun hn => absurd hn (Option.some_ne_none _), fun n hn => ?_⟩
    cases hn
    obtain ⟨hn, hstuck, hexhausted⟩ := statusAfterScan_eq_noMoveProgress hstatus
    obtain ⟨-, -, -, -, hmoves⟩ := scan_fills (r := { r₁ with stage := .scanning }) h.clear hscan
    rw [hsettings, hb.same.settings] at hn
    rw [isExhausted, hsettings, hb.same.settings] at hexhausted
    have hcount : r₁.history.length = n := (h.exhausted hexhausted).trans hn.symm
    have hnumber : number = n + 1 := by
      rw [← hcount, h.length]
    rw [hhistory]
    exact .exhausted hn hcount (hnumber ▸ hb) hscan (hmoves hstuck)
  | @stalled w₂ _ r₂ r₃ scanned report hscan hstatus hdispatch hmost =>
    obtain ⟨haccounted, -, -, -, hstep, i, hhistory⟩ := h.record hb he hs hscan hstatus hdispatch
    refine ⟨haccounted, fun hn => absurd hn (Option.some_ne_none _), fun n hn => ?_⟩
    cases hn
    rw [hb.same.settings] at hmost
    have hmany : (r₃.record number scanned report).stalls = r.settings.get .maxNoProgressIterations := by
      have hpatient := h.patient
      omega
    exact .stalled hhistory hmany haccounted.stalls.stalled (hmany ▸ h.lively)
  | @rested w₂ w₃ r₂ r₃ scanned report _ hscan hstatus hdispatch hfew hforced =>
    obtain ⟨haccounted, hbare, hclear, htally, -, i, hhistory⟩ := h.record hb he hs hscan hstatus hdispatch
    rw [hb.same.settings] at hfew
    refine ⟨haccounted, fun _ => ⟨haccounted, hbare.advance _ _, hclear, htally, ?_, hfew, ?_⟩, fun n hn => ?_⟩
    · rw [hhistory, List.length_append, List.length_singleton, h.length]
    · have hends := haccounted.stalls
      rw [hhistory] at hends ⊢
      exact h.lively.append hends hfew
    · rcases hforced _ hn _ rfl with hs | ⟨reason, hs⟩ <;> cases hs

/-! ### Whole runs -/

variable {settings : Settings} {paths : Option (List String)} {suite : Suite} {holder : String}

/-- Every iteration of a fresh run begins with its books in order. -/
theorem BeginsWith.ready (h : w.Bare) (he : ∀ n, (executors n).TakesTurns) (hs : settings.check = .ok ())
    (hb : (start paths settings suite holder).BeginsWith executors w number r' w') :
    (start paths settings suite holder).Ready executors w number r' w' := by
  induction hb with
  | first hcheck hacquire =>
    have hpatient : 0 < settings.get .maxNoProgressIterations := Settings.pos_of_check hs (by decide)
    refine ⟨⟨fun k i hk => (nomatch hk), endsStalled_nil, fun _ => .inl (Nat.zero_le _)⟩, ?_,
      Ledger.clear_empty, rfl, rfl, hpatient, lively_nil hpatient⟩
    have hchecked := h.checkSatisfier
    rw [hcheck] at hchecked
    have hacquired := hchecked.acquireLease (start paths settings suite holder).holder
      ((start paths settings suite holder).settings.get .leaseRenewIntervalMs)
    rw [hacquire] at hacquired
    exact hacquired
  | @next n r₁ r₂ w₁ w₂ hb hround ih =>
    exact (ih.iterates hb (he n) hs (hround ▸ round_iterates r₁ n w₁ (executors n))).2.1 rfl

end Run

end StorageTiering
