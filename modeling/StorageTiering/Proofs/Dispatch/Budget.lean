import StorageTiering.Proofs.Dispatch.Drain
import StorageTiering.Proofs.Dispatch.Permits
import Mathlib.Algebra.Order.Group.Nat
/-!
# No dispatch goes on forever

Each turn that changes a dispatch brings one of its tasks closer to its end, so only so many of them can
follow each other, in whatever order they come.

* `Phase.turnsLeft`, `Task.budget`, `Dispatch.budget` — more turns than are left for the attempt of a task,
  for a task, and for all.
* `Dispatch.Busy` — turns each of which changes the dispatch.
* `Dispatch.budget_take_lt`, `Dispatch.busy_length_le` — such a turn takes from the budget, and so do several.
* `Dispatch.exists_turn` — as long as a task has not ended, some turn changes the dispatch.
-/

namespace StorageTiering

/-- How many turns of a task, and of others that hand it a permit, may come before the end of its next
attempt. -/
def Phase.turnsLeft : Phase → Nat
  | .resting => 9
  | .ready => 8
  | .waiting p => 7 - 2 * p.rank
  | .granted p => 6 - 2 * p.rank
  | .running => 1
  | .ended _ => 0

/-- More turns than a task can take before it ends. -/
def Task.budget (maxAttempts : Nat) (t : Task) : Nat :=
  if t.phase.isEnded then 0 else 9 * (maxAttempts - t.attempts) + t.phase.turnsLeft

namespace Task

variable {t t' : Task} {m : Nat} {p : Permit} {ph : Phase}

theorem budget_ended (h : t.phase.isEnded) : t.budget m = 0 := if_pos h

theorem budget_open (h : t.phase.isEnded = false) :
    t.budget m = 9 * (m - t.attempts) + t.phase.turnsLeft := if_neg (by simp [h])

theorem budget_pos (h : t.phase.isEnded = false) : 0 < t.budget m := by
  have hleft : 0 < t.phase.turnsLeft := by
    cases hphase : t.phase with
    | waiting p | granted p => cases p <;> decide
    | ended _ => rw [hphase] at h; cases h
    | _ => decide
  rw [budget_open h]
  exact Nat.add_pos_right _ hleft

/-- A task that has ended takes no more turns. -/
theorem budget_lt_of_ended (h : t.phase.isEnded = false) (h' : t'.phase.isEnded) :
    t'.budget m < t.budget m := by
  rw [budget_ended h']
  exact budget_pos h

/-- A phase that is closer to the end of the attempt. -/
theorem budget_setPhase_lt (h : t.phase.isEnded = false) (hph : ph.turnsLeft < t.phase.turnsLeft) :
    budget m { t with phase := ph } < t.budget m := by
  cases hended : ph.isEnded with
  | true => exact budget_lt_of_ended h hended
  | false =>
    rw [budget_open h, budget_open hended]
    exact Nat.add_lt_add_left hph _

/-- A permit that others hand over does not make it more. -/
theorem Shift.budget_le (h : t.Shift t') : t'.budget m ≤ t.budget m := by
  cases h with
  | same => exact Nat.le_refl _
  | @granted p hphase =>
    refine Nat.le_of_lt (budget_setPhase_lt (by rw [hphase]; rfl) ?_)
    rw [hphase]
    cases p <;> decide

end Task

namespace Dispatch

variable {d d' : Dispatch} {t t' : Task} {front back : List Task} {l l' : Ledger} {p : Permit}
  {earlier : MoveId → Nat} {turn : Turn} {turns : List Turn} {cue : Cue}

/-- More turns than can change a dispatch before all of its tasks have ended. -/
def budget (d : Dispatch) : Nat := (d.tasks.map (Task.budget d.limits.maxAttempts)).sum

/-- A task is found by its number. -/
theorem task?_of_mem (hn : (d.tasks.map Task.id).Nodup) (ht : t ∈ d.tasks) : d.task? t.id = some t := by
  obtain ⟨front, back, hs⟩ := List.append_of_mem ht
  exact task?_split hn hs

theorem Shifts.budget_le (h : d.Shifts d') : d'.budget ≤ d.budget := by
  rw [budget, budget, h.limits]
  refine List.Forall₂.sum_le_sum (List.forall₂_map_left_iff.2 (List.forall₂_map_right_iff.2 ?_))
  exact h.tasks.flip.imp fun t' t ht => ht.budget_le

/-- A task with less left in the place of another. -/
theorem budget_lt_of_shifts (hs : d.tasks = front ++ t :: back)
    (ht : t'.budget d.limits.maxAttempts < t.budget d.limits.maxAttempts)
    (h : (d.put front t' back l).Shifts d') : d'.budget < d.budget := by
  refine Nat.lt_of_le_of_lt h.budget_le ?_
  simp only [budget, put, hs, List.map_append, List.map_cons, List.sum_append, List.sum_cons]
  omega

/-- A task asks for a permit it does not wait for yet. -/
theorem budget_request_lt (hn : (d.tasks.map Task.id).Nodup) (hs : d.tasks = front ++ t :: back)
    (ho : t.phase.isEnded = false) (hp : (Phase.waiting p).turnsLeft < t.phase.turnsLeft) :
    (d.request t p).budget < d.budget := by
  rw [request, setPhase_put hn hs, setPhase_put hn hs]
  split
  · refine budget_lt_of_shifts hs (Task.budget_setPhase_lt ho (Nat.lt_trans ?_ hp)) (.refl _)
    cases p <;> decide
  · exact budget_lt_of_shifts hs (Task.budget_setPhase_lt ho hp)
      ⟨rfl, rfl, rfl, List.forall₂_same.2 fun t _ => .same t⟩

theorem budget_conclude_lt (hn : (d.tasks.map Task.id).Nodup) (hs : d.tasks = front ++ t :: back)
    (ho : t.phase.isEnded = false) (result : TaskEnd) (ending : Ending) :
    (d.conclude t result ending).1.budget < d.budget :=
  budget_lt_of_shifts hs (Task.budget_lt_of_ended ho rfl) (shifts_conclude hn hs result ending)

/-- The entry of a task that has not ended stands somewhere in the ledger. -/
theorem exists_entry (h : Mirrors l (d.tasks.map (Task.account earlier)) d.ledger) (ht : t ∈ d.tasks)
    (ho : t.phase.isEnded = false) :
    ∃ before after, d.ledger.entries = before ++ (t.account earlier).entry :: after := by
  obtain ⟨front, back, hs⟩ := List.append_of_mem ht
  rw [hs, List.map_append, List.map_cons] at h
  exact h.split (Task.told_account (Phase.told?_eq_none ho))

/-- The ledger knows of at least as many failed attempts as the task. -/
theorem attempts_lt (h : Mirrors l (d.tasks.map (Task.account earlier)) d.ledger) (ht : t ∈ d.tasks)
    (ho : t.phase.isEnded = false) {n : Nat}
    (hf : (d.ledger.fail t.id d.limits.maxAttempts).2 = .again n) :
    t.attempts < n ∧ n < d.limits.maxAttempts := by
  obtain ⟨before, after, hentries⟩ := exists_entry h ht ho
  obtain ⟨rfl, hlt⟩ := Ledger.fail_eq_again h.consistent hentries hf
  refine ⟨Nat.lt_succ_of_le ?_, hlt⟩
  show t.attempts ≤ if t.attempts = 0 then earlier t.id else t.attempts
  split <;> omega

theorem budget_finish_lt (hn : (d.tasks.map Task.id).Nodup)
    (h : Mirrors l (d.tasks.map (Task.account earlier)) d.ledger) (hs : d.tasks = front ++ t :: back)
    (hphase : t.phase = .running) (outcome : Outcome) : (d.finish t outcome).1.budget < d.budget := by
  have ho : t.phase.isEnded = false := by rw [hphase]; rfl
  match outcome with
  | .answered (.ok ()) => exact budget_conclude_lt hn hs ho .succeeded .succeeded
  | .broke => exact budget_lt_of_shifts hs (Task.budget_lt_of_ended ho rfl) (shifts_leave hn hs (.ended .broken))
  | .answered (.error e) =>
    rw [finish, failAttempt]
    split
    · -- one attempt less is worth more than the rest and all turns of the next attempt
      rename_i ledger n hfail
      obtain ⟨hmore, hspare⟩ := attempts_lt h (hs ▸ List.mem_append_right _ List.mem_cons_self) ho
        (congrArg Prod.snd hfail)
      refine budget_lt_of_shifts hs ?_ (shifts_failed hn hs .resting n ledger)
      rw [Task.budget_open ho, Task.budget_open (by rfl), hphase]
      simp only [Phase.turnsLeft]
      omega
    · exact budget_lt_of_shifts hs (Task.budget_lt_of_ended ho rfl) (shifts_failed hn hs (.ended (.failed e)) _ _)

/-- A task that takes its turn changes nothing, or takes from the budget. -/
theorem budget_takeTask_lt (hn : (d.tasks.map Task.id).Nodup)
    (h : Mirrors l (d.tasks.map (Task.account earlier)) d.ledger) (hs : d.tasks = front ++ t :: back)
    (cue : Cue) : d.takeTask t cue = d ∨ (d.takeTask t cue).budget < d.budget := by
  unfold takeTask
  split
  · rename_i hphase
    have ho : t.phase.isEnded = false := by rw [hphase]; rfl
    rw [begin]
    split
    · exact .inr (budget_request_lt hn hs ho (by rw [hphase]; decide))
    · exact .inr (budget_conclude_lt hn hs ho .cancelled .cancelled)
  · rename_i p hphase
    have ho : t.phase.isEnded = false := by rw [hphase]; rfl
    rw [proceed]
    split
    · rename_i q hnext
      refine .inr (budget_request_lt hn hs ho ?_)
      rw [hphase]
      cases p <;> cases hnext <;> decide
    · split
      · rw [setPhase_put hn hs]
        refine .inr (budget_lt_of_shifts hs (Task.budget_setPhase_lt ho ?_) (.refl _))
        rw [hphase]
        cases p <;> decide
      · exact .inr (budget_conclude_lt hn hs ho .cancelled .cancelled)
  · exact .inr (budget_finish_lt hn h hs ‹_› _)
  · rename_i hphase
    rw [wake, setPhase_put hn hs]
    refine .inr (budget_lt_of_shifts hs (Task.budget_setPhase_lt (by rw [hphase]; rfl) ?_) (.refl _))
    rw [hphase]
    decide
  · split
    · rename_i hcut
      exact .inr (budget_conclude_lt hn hs hcut.2 .cancelled .cancelled)
    · exact .inl rfl
  · exact .inl rfl

/-- A turn that changes the dispatch takes from the budget, unless something is asked of it. -/
theorem budget_take_lt (hn : (d.tasks.map Task.id).Nodup)
    (h : Mirrors l (d.tasks.map (Task.account earlier)) d.ledger) (hturn : ∀ s, turn ≠ .signal s)
    (hchange : d.take turn ≠ d) : (d.take turn).budget < d.budget := by
  cases turn with
  | signal s => exact absurd rfl (hturn s)
  | task id cue =>
    rw [take] at hchange ⊢
    split at hchange
    · rename_i t ht
      obtain ⟨front, back, hs⟩ := List.append_of_mem (List.mem_of_find?_eq_some ht)
      exact (budget_takeTask_lt hn h hs cue).resolve_left hchange
    · exact absurd rfl hchange

/-- Turns each of which changes the dispatch. -/
def Busy : Dispatch → List Turn → Prop
  | _, [] => True
  | d, turn :: rest => d.take turn ≠ d ∧ (d.take turn).Busy rest

theorem length_le_budget (hn : (d.tasks.map Task.id).Nodup)
    (h : Mirrors l (d.tasks.map (Task.account earlier)) d.ledger) (hquiet : ∀ s, Turn.signal s ∉ turns)
    (hbusy : d.Busy turns) : turns.length ≤ d.budget := by
  induction turns generalizing d with
  | nil => exact Nat.zero_le _
  | cons turn rest ih =>
    have hturn : ∀ s, turn ≠ .signal s := fun s hs => hquiet s (hs ▸ List.mem_cons_self)
    have hless := budget_take_lt hn h hturn hbusy.1
    have hrest := ih (nodup_take hn turn) (mirrors_take hn h turn)
      (fun s hs => hquiet s (List.mem_cons_of_mem _ hs)) hbusy.2
    exact Nat.lt_of_le_of_lt hrest hless

theorem budget_start (limits : DispatchLimits) (signal : Signal) (l : Ledger) :
    (start limits signal l).budget = l.claim.2.length * (9 * limits.maxAttempts + 8) := by
  have hready : ∀ c : MoveId × Move,
      Task.budget limits.maxAttempts ⟨c.1, c.2, 0, .ready⟩ = 9 * limits.maxAttempts + 8 := fun _ => rfl
  simp [budget, start, Function.comp_def, hready]

/-- Only so many turns of tasks can change a dispatch. -/
theorem busy_length_le (h : l.Consistent) {limits : DispatchLimits} {signal : Signal}
    (hquiet : ∀ s, Turn.signal s ∉ turns) (hbusy : (start limits signal l).Busy turns) :
    turns.length ≤ l.claim.2.length * (9 * limits.maxAttempts + 8) := by
  rw [← budget_start limits signal l]
  exact length_le_budget (nodup_start h limits signal) (mirrors_start h limits signal) hquiet hbusy

/-- As long as a task has not ended, some turn of a task changes the dispatch. A running attempt may end in
any way. -/
theorem Rationed.exists_turn (h : d.Rationed) (hlimits : ∀ p : Permit, 0 < p.limit d.limits)
    (hm : Mirrors l (d.tasks.map (Task.account earlier)) d.ledger) (hover : d.isOver = false) :
    ∃ t ∈ d.tasks, (t.phase = .running ∧ ∀ outcome, d.take (.task t.id (.finish outcome)) ≠ d) ∨
      (t.phase ≠ .running ∧ ∃ cue, d.take (.task t.id cue) ≠ d) := by
  obtain ⟨t, ht, cue, t', -, hfind, hphase, -⟩ := h.exists_enabled hlimits hover
  have htask := task?_of_mem h.distinct ht
  refine ⟨t, ht, ?_⟩
  by_cases hrunning : t.phase = .running
  · obtain ⟨front, back, hs⟩ := List.append_of_mem ht
    refine .inl ⟨hrunning, fun outcome heq => ?_⟩
    have hless := budget_finish_lt h.distinct hm hs hrunning outcome
    rw [take_task htask, takeTask_running hrunning] at heq
    rw [heq] at hless
    exact Nat.lt_irrefl _ hless
  · refine .inr ⟨hrunning, cue, fun heq => hphase ?_⟩
    rw [heq, htask] at hfind
    rw [Option.some.inj hfind]

end Dispatch

end StorageTiering
