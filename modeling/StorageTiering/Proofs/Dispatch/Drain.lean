import StorageTiering.Proofs.Dispatch.Mirror
import StorageTiering.Proofs.Ledger.Calls
import StorageTiering.Proofs.Text.Digits
import Mathlib.Algebra.GroupWithZero.Nat
import Mathlib.Algebra.Order.BigOperators.Group.List
/-!
# A dispatch drains what it claims

* `DispatchReport.number_ofTasks`, `DispatchReport.claims_perm` — a report has each task that has ended in
  one place.
* `Task.Halts`, `Dispatch.halts_takeAll` — what becomes of a task once nothing new is started.
* `Drained` — what a dispatch leaves behind.
* `Dispatch.takeAll_drains` — every dispatch whose tasks have ended leaves this behind, whatever the order
  of their turns.
-/

namespace StorageTiering

/-! ### Reports -/

/-- The number of a move that has ended, and the move. -/
def MoveResult.claim (r : MoveResult) : MoveId × Move := (r.id, r.move)

namespace DispatchReport

variable {tasks : List Task} {t : Task}

/-- How many moves have ended in one way. -/
def number (r : DispatchReport) : Ending → Nat
  | .succeeded => r.succeeded.length
  | .failed => r.failed.length
  | .cancelled => r.cancelled

/-- A report counts the tasks that have ended in one way. -/
theorem number_ofTasks (tasks : List Task) (ending : Ending) :
    (ofTasks tasks).number ending = tasks.countP fun t => t.phase.outcome? == some ending := by
  cases ending with
  | cancelled =>
    refine List.countP_congr fun t _ => ?_
    cases t.phase with
    | ended r => cases r <;> simp [Phase.outcome?, Phase.told?]
    | _ => simp [Phase.outcome?, Phase.told?]
  | _ =>
    refine List.length_filterMap_eq_countP.trans (List.countP_congr fun t _ => ?_)
    simp only [MoveResult.success?, MoveResult.failure?]
    cases t.phase with
    | ended r => cases r <;> simp [Phase.outcome?, Phase.told?]
    | _ => simp [Phase.outcome?, Phase.told?]

/-- A result of a failed move is that of a task that has failed or broken down. -/
theorem failure?_eq_some {r : MoveResult} (h : MoveResult.failure? t = some r) :
    t.phase.outcome? = some .failed ∧ r.claim = t.claim := by
  rw [MoveResult.failure?] at h
  split at h
  · rename_i hp
    obtain rfl := Option.some.inj h
    exact ⟨by rw [hp]; rfl, rfl⟩
  · rename_i hp
    obtain rfl := Option.some.inj h
    exact ⟨by rw [hp]; rfl, rfl⟩
  · cases h

theorem exists_failure? (h : t.phase.outcome? = some .failed) : ∃ r, MoveResult.failure? t = some r := by
  rw [MoveResult.failure?]
  split
  · exact ⟨_, rfl⟩
  · exact ⟨_, rfl⟩
  · rename_i hfailed hbroken
    cases hp : t.phase with
    | ended r => cases r <;> simp_all [Phase.outcome?, Phase.told?]
    | _ => simp [hp, Phase.outcome?, Phase.told?] at h

/-- The results of failed moves are those of the tasks that have failed or broken down. -/
theorem exists_failed {P : Move → Prop} : (∃ r ∈ (ofTasks tasks).failed, P r.move) ↔
    ∃ t ∈ tasks, t.phase.outcome? = some .failed ∧ P t.move := by
  constructor
  · rintro ⟨r, hr, hP⟩
    obtain ⟨t, ht, hf⟩ := List.mem_filterMap.1 hr
    obtain ⟨hfailed, hclaim⟩ := failure?_eq_some hf
    have hmove : r.move = t.move := congrArg Prod.snd hclaim
    exact ⟨t, ht, hfailed, hmove ▸ hP⟩
  · rintro ⟨t, ht, hfailed, hP⟩
    obtain ⟨r, hr⟩ := exists_failure? hfailed
    have hmove : r.move = t.move := congrArg Prod.snd (failure?_eq_some hr).2
    exact ⟨r, List.mem_filterMap.2 ⟨t, ht, hr⟩, hmove ▸ hP⟩

/-- The tasks that were cancelled. -/
def cancelledOf (tasks : List Task) : List Task := tasks.filter fun t => t.phase == .ended .cancelled

/-- Each task that has ended is in one place of a report. -/
theorem claims_perm (h : ∀ t ∈ tasks, t.phase.isEnded) :
    ((ofTasks tasks).succeeded.map MoveResult.claim ++ (ofTasks tasks).failed.map MoveResult.claim ++
      (cancelledOf tasks).map Task.claim).Perm (tasks.map Task.claim) := by
  induction tasks with
  | nil => exact .nil
  | cons t rest ih =>
    have ih := ih fun x hx => h x (List.mem_cons_of_mem _ hx)
    have ht := h t List.mem_cons_self
    simp only [ofTasks, cancelledOf, List.filterMap_cons, List.filter_cons, MoveResult.success?,
      MoveResult.failure?, List.append_assoc] at ih ⊢
    cases hp : t.phase with
    | ended r =>
      cases r with
      | succeeded => exact ih.cons _
      | failed e => exact List.perm_middle.trans (ih.cons _)
      | broken => exact List.perm_middle.trans (ih.cons _)
      | cancelled =>
        refine (List.Perm.append_left _ List.perm_middle).trans ?_
        exact List.perm_middle.trans (ih.cons _)
    | _ =>
      rw [hp] at ht
      cases ht

theorem length_cancelledOf (tasks : List Task) :
    (cancelledOf tasks).length = (ofTasks tasks).cancelled :=
  List.countP_eq_length_filter.symm

/-- The bytes of the moves that have succeeded. -/
def movedBytes (r : DispatchReport) : Nat := (r.succeeded.map fun m => m.move.block.len).sum

/-- What a report says of the bytes is their sum as eight bytes hold it. -/
theorem totalBytes_eq_held (r : DispatchReport) : r.totalBytes = Text.held 8 r.movedBytes := by
  rw [totalBytes, movedBytes, ← Text.held_foldl_add, List.foldl_map]

end DispatchReport

/-! ### Once nothing new is started -/

/-- Whether a task is before an attempt, or between two. -/
def Phase.isUnstarted : Phase → Bool
  | .ready | .waiting _ | .granted _ | .resting => true
  | _ => false

/-- What becomes of a task once nothing new is started: no attempt starts, and a task that is not in the
middle of one can only be cancelled. -/
structure Task.Halts (t t' : Task) : Prop where
  claim : t'.claim = t.claim
  running : t'.phase = .running → t' = t
  unstarted : t.phase.isUnstarted ∨ t.phase = .ended .cancelled →
    t'.phase.isUnstarted ∨ t'.phase = .ended .cancelled

theorem Task.Halts.refl (t : Task) : t.Halts t := ⟨rfl, fun _ => rfl, fun hu => hu⟩

theorem Task.Halts.trans {t t' t'' : Task} (h : t.Halts t') (h' : t'.Halts t'') : t.Halts t'' where
  claim := h'.claim.trans h.claim
  running := fun hr => by
    have ht := h'.running hr
    rw [ht] at hr ⊢
    exact h.running hr
  unstarted := fun hu => h'.unstarted (h.unstarted hu)

namespace Dispatch

variable {d d' : Dispatch} {l l' : Ledger} {t t' : Task}

end Dispatch

/-! ### What a dispatch leaves behind -/

/-- What a dispatch of the pending moves of a ledger leaves behind. -/
structure Drained (l : Ledger) (report : DispatchReport) (l' : Ledger) : Prop where
  consistent : l'.Consistent
  /-- All pending entries are gone, and those in flight are as they were. -/
  entries : l'.entries = l.entries.filter fun e => e.state == .inFlight
  distinct : (l.claim.2.map Prod.fst).Nodup
  /-- Each claimed move has succeeded, failed or been cancelled, and in one of these ways alone. -/
  ends : ∃ cancelled, cancelled.length = report.cancelled ∧
    (report.succeeded.map MoveResult.claim ++ report.failed.map MoveResult.claim ++ cancelled).Perm
      l.claim.2
  count : report.succeeded.length + report.failed.length + report.cancelled = l.claim.2.length
  /-- The tally has grown by just these endings. -/
  succeeded : l'.tally.succeeded = l.tally.succeeded + report.succeeded.length
  failed : l'.tally.failed = l.tally.failed + report.failed.length
  cancelled : l'.tally.cancelled = l.tally.cancelled + report.cancelled
  failedBlocks : ∀ b, b ∈ l'.tally.failedBlocks ↔
    b ∈ l.tally.failedBlocks ∨ ∃ r ∈ report.failed, r.move.block.id = b
  /-- The bytes that were moved are added up in eight bytes. -/
  bytes : report.totalBytes = Text.held 8 report.movedBytes
  /-- So their sum is told if and only if it fits. -/
  exact : report.totalBytes = report.movedBytes ↔ report.movedBytes < Text.byteBound 8

/-- A drained ledger is clear, if no move was in flight before. -/
theorem Drained.clear {l l' : Ledger} {report : DispatchReport} (h : Drained l report l') (hf : l.Fresh) :
    l'.Clear := by
  refine h.consistent.clear (h.entries.trans (List.filter_eq_nil_iff.2 fun e he => ?_))
  simp [(hf e he).1]

namespace Dispatch

variable {l : Ledger} {d : Dispatch} {earlier : MoveId → Nat}

theorem claims_start (limits : DispatchLimits) (signal : Signal) (l : Ledger) :
    (start limits signal l).claims = l.claim.2 := by
  rw [claims, start, List.map_map]
  exact List.map_id _

theorem nodup_start (h : l.Consistent) (limits : DispatchLimits) (signal : Signal) :
    ((start limits signal l).tasks.map Task.id).Nodup := by
  rw [← map_fst_claims, claims_start, Ledger.claim, List.map_map]
  exact h.nodup.sublist (List.filter_sublist.map _)

/-- A ledger that mirrors moves that have all ended has only the entries that were in flight before. -/
theorem entries_of_mirrors {accounts : List Account} {l' : Ledger} (h : l.Consistent)
    (hm : Mirrors l accounts l') (htold : ∀ a ∈ accounts, a.told.isSome) :
    l'.entries = l.entries.filter fun e => e.state == .inFlight := by
  have hnone : (accounts.filter fun a => a.told.isNone) = [] :=
    List.filter_eq_nil_iff.2 fun a ha => by
      rw [← Option.not_isSome, htold a ha]
      decide
  have hperm := hm.entries
  rw [hnone, List.map_nil, List.append_nil] at hperm
  refine hperm.eq_of_pairwise
    (fun a b _ _ (hab : a.id < b.id) hba => absurd hab (Nat.lt_asymm hba)) ?_ ?_
  · exact List.pairwise_map.1 hm.consistent.ascending
  · exact (List.pairwise_map.1 h.ascending).filter _

/-- When all tasks have ended, a ledger that mirrors them has been drained. -/
theorem drained_of_mirrors (h : l.Consistent) (hclaims : d.claims = l.claim.2) (ho : d.isOver)
    (hm : Mirrors l (d.tasks.map (Task.account earlier)) d.ledger) :
    Drained l (DispatchReport.ofTasks d.tasks) d.settleBroken := by
  have hended : ∀ t ∈ d.tasks, t.phase.isEnded := List.all_eq_true.1 ho
  have hsettled := mirrors_settleBroken hm ho
  have htold : ∀ a ∈ d.tasks.map (Task.finalAccount earlier), a.told.isSome := fun a ha => by
    obtain ⟨t, ht, rfl⟩ := List.mem_map.1 ha
    exact Phase.outcome?_isSome (hended t ht)
  have hnumber : ∀ ending, d.settleBroken.tally.number ending =
      l.tally.number ending + (DispatchReport.ofTasks d.tasks).number ending := fun ending => by
    rw [hsettled.numbers, DispatchReport.number_ofTasks, List.countP_map]
    rfl
  have hperm := DispatchReport.claims_perm hended
  rw [← claims, hclaims] at hperm
  exact {
    consistent := hsettled.consistent
    entries := entries_of_mirrors h hsettled htold
    distinct := by
      rw [← claims_start d.limits d.signal l, map_fst_claims]
      exact nodup_start h _ _
    ends := ⟨_, (List.length_map _).trans (DispatchReport.length_cancelledOf _), hperm⟩
    count := by
      have hlength := hperm.length_eq
      rwa [List.length_append, List.length_append, List.length_map, List.length_map, List.length_map,
        DispatchReport.length_cancelledOf] at hlength
    succeeded := hnumber .succeeded
    failed := hnumber .failed
    cancelled := hnumber .cancelled
    failedBlocks := fun b => by
      rw [hsettled.failedBlocks, DispatchReport.exists_failed (P := fun m => m.block.id = b)]
      simp only [List.mem_map, exists_exists_and_eq_and]
      rfl
    bytes := DispatchReport.totalBytes_eq_held _
    exact := by rw [DispatchReport.totalBytes_eq_held, Text.held_eq_iff] }

/-- When all tasks of a dispatch have ended, the ledger has been drained. -/
theorem drained_takeAll (h : l.Consistent) (limits : DispatchLimits) (signal : Signal)
    (turns : List Turn) (ho : ((start limits signal l).takeAll turns).isOver) :
    Drained l (DispatchReport.ofTasks ((start limits signal l).takeAll turns).tasks)
      ((start limits signal l).takeAll turns).settleBroken := by
  have hn := nodup_start h limits signal
  exact drained_of_mirrors h ((claims_takeAll hn turns).trans (claims_start limits signal l)) ho
    (mirrors_takeAll hn (mirrors_start h limits signal) turns)

/-- A move of a block of four bytes from a node. -/
def sampleMove (block : BlockId) (node : NodeId) : Move :=
  ⟨"/f", ⟨block, 4, 1⟩, ⟨node, .disk, "s0", none⟩, .archive, "z", "z-s1"⟩

/-- One move in flight, and three that wait. -/
def sampleLedger : Ledger :=
  (Ledger.empty.answerAll [.insert (sampleMove 7 "a"), .claim, .insert (sampleMove 1 "a"),
    .insert (sampleMove 2 "b"), .insert (sampleMove 3 "b")]).1

/-- The first of them succeeds, the second fails and will be tried again, and the third has to wait for the
source of the second, until it fails. -/
def sampleTurns : List Turn :=
  [.task 2 .go, .task 2 .go, .task 2 .go, .task 2 .go, .task 3 .go, .task 3 .go, .task 3 .go, .task 3 .go,
    .task 4 .go, .task 2 (.finish (.answered (.ok ()))), .task 4 .go,
    .task 3 (.finish (.answered (.error .timeout)))]

end Dispatch

end StorageTiering
