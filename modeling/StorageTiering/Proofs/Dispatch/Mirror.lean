import StorageTiering.Proofs.Dispatch.Turns
import StorageTiering.Proofs.Ledger.Tally
import Mathlib.Data.List.TakeWhile
/-!
# The ledger of a dispatch

Whatever the order in which tasks take their turns, the ledger knows of each task what it is to know, and
nothing else about it changes.

* `Account`, `Task.account` — what the ledger is to know of a task.
* `Mirrors` — a ledger that knows just this of some tasks, and is otherwise as another ledger.
* `Mirrors.change`, `Mirrors.close` — a move goes on, and a move ends.
* `Dispatch.mirrors_start`, `Dispatch.mirrors_takeAll` — every turn keeps the ledger a mirror of the tasks.
* `Dispatch.mirrors_settleBroken` — in the end it is told of tasks that have broken down, too.
-/

namespace StorageTiering

/-- What the ledger is to know of a task: its entry, and how its move has ended once the ledger was told
of it. -/
structure Account where
  entry : Entry
  told : Option Ending

namespace Phase

/-- How a move has ended, if its task has told the ledger. -/
def told? : Phase → Option Ending
  | .ended .succeeded => some .succeeded
  | .ended (.failed _) => some .failed
  | .ended .cancelled => some .cancelled
  | _ => none

/-- How a move has ended, where tasks that have broken down count as failed. -/
def outcome? (ph : Phase) : Option Ending := if ph = .ended .broken then some .failed else ph.told?

theorem told?_eq_none {ph : Phase} (h : ph.isEnded = false) : ph.told? = none := by
  cases ph <;> first | rfl | cases h

theorem outcome?_isSome {ph : Phase} (h : ph.isEnded) : ph.outcome?.isSome := by
  cases ph with
  | ended r => cases r <;> rfl
  | _ => cases h

end Phase

namespace Task

variable {earlier : MoveId → Nat} {t : Task} {ph : Phase}

/-- What the ledger is to know of a task. Until an attempt fails, the failed attempts of the move are those
from before the dispatch. -/
def account (earlier : MoveId → Nat) (t : Task) : Account where
  entry := { t.entry with attempts := if t.attempts = 0 then earlier t.id else t.attempts }
  told := t.phase.told?

/-- What the ledger is to know of a task once tasks that have broken down count as failed. -/
def finalAccount (earlier : MoveId → Nat) (t : Task) : Account :=
  { t.account earlier with told := t.phase.outcome? }

/-- A task of which there is nothing to tell. -/
theorem account_setPhase (hp : t.phase ≠ .resting) (hph : ph ≠ .resting)
    (ht : t.phase.told? = none) (hph' : ph.told? = none) :
    account earlier { t with phase := ph } = t.account earlier := by
  simp only [account, entry, if_neg hp, if_neg hph, ht, hph']

theorem told_account (h : t.phase.told? = none) : (t.account earlier).told = none := h

end Task

/-- A ledger with an entry for each move of whose end it has not been told, and those that were in
flight in another one before. Its tally is that of the other one, with the endings of which it was
told. -/
structure Mirrors (l : Ledger) (accounts : List Account) (l' : Ledger) : Prop where
  consistent : l'.Consistent
  entries : l'.entries.Perm (l.entries.filter (fun e => e.state == .inFlight) ++
    (accounts.filter fun a => a.told.isNone).map Account.entry)
  numbers : ∀ ending, l'.tally.number ending =
    l.tally.number ending + accounts.countP fun a => a.told == some ending
  failedBlocks : ∀ b, b ∈ l'.tally.failedBlocks ↔
    b ∈ l.tally.failedBlocks ∨ ∃ a ∈ accounts, a.told = some .failed ∧ a.entry.move.block.id = b

namespace Mirrors

variable {l l' l'' : Ledger} {front back : List Account} {a a' : Account} {ending : Ending}

theorem exists_middle {P : Account → Prop} :
    (∃ x ∈ front ++ a :: back, P x) ↔ (∃ x ∈ front ++ back, P x) ∨ P a := by
  simp only [List.mem_append, List.mem_cons, or_and_right, exists_or, exists_eq_left]
  exact or_assoc.symm.trans (or_right_comm.trans Iff.rfl)

theorem countP_middle (p : Account → Bool) : (front ++ a :: back).countP p =
    (front ++ back).countP p + if p a then 1 else 0 := by
  rw [List.countP_append, List.countP_append, List.countP_cons, Nat.add_assoc]

/-- The entry of a move that has not ended stands somewhere in the ledger. -/
theorem split (h : Mirrors l (front ++ a :: back) l') (ho : a.told = none) :
    ∃ before after, l'.entries = before ++ a.entry :: after := by
  refine List.append_of_mem (h.entries.mem_iff.2 (List.mem_append_right _ ?_))
  refine List.mem_map_of_mem (List.mem_filter.2 ⟨List.mem_append_right _ List.mem_cons_self, ?_⟩)
  rw [ho]
  rfl

/-- The other entries are those of the other moves. -/
theorem entries_others (h : Mirrors l (front ++ a :: back) l') (ho : a.told = none)
    {before after : List Entry} (hs : l'.entries = before ++ a.entry :: after) :
    (before ++ after).Perm (l.entries.filter (fun e => e.state == .inFlight) ++
      ((front ++ back).filter fun a => a.told.isNone).map Account.entry) := by
  have hperm := h.entries
  rw [hs, List.filter_append, List.filter_cons_of_pos (by rw [ho]; rfl), List.map_append, List.map_cons,
    ← List.append_assoc] at hperm
  rw [List.filter_append, List.map_append, ← List.append_assoc]
  exact (List.perm_middle.symm.trans (hperm.trans List.perm_middle)).cons_inv

/-- A move that has not ended gets another entry. -/
theorem change (h : Mirrors l (front ++ a :: back) l') (ho : a.told = none) (ho' : a'.told = none)
    (hc : l''.Consistent) (he : ∀ {before after}, l'.entries = before ++ a.entry :: after →
      l''.entries = before ++ a'.entry :: after) (ht : l''.tally = l'.tally) :
    Mirrors l (front ++ a' :: back) l'' := by
  obtain ⟨before, after, hs⟩ := h.split ho
  refine ⟨hc, ?_, fun ending => ?_, fun b => ?_⟩
  · rw [he hs, List.filter_append, List.filter_cons_of_pos (by rw [ho']; rfl), List.map_append,
      List.map_cons, ← List.append_assoc]
    refine List.perm_middle.trans (.trans (.cons _ ?_) List.perm_middle.symm)
    rw [List.append_assoc, ← List.map_append, ← List.filter_append]
    exact h.entries_others ho hs
  · rw [ht, h.numbers, countP_middle, countP_middle, ho, ho']
  · rw [ht, h.failedBlocks, exists_middle, exists_middle, ho, ho']
    simp

/-- A move ends, and the ledger is told of it. -/
theorem close (h : Mirrors l (front ++ a :: back) l') (ho : a.told = none)
    (ha : a'.told = some ending) (hm : a'.entry.move = a.entry.move) (hc : l''.Consistent)
    (he : ∀ {before after}, l'.entries = before ++ a.entry :: after →
      l''.entries = before ++ after)
    (ht : ∀ {before after}, l'.entries = before ++ a.entry :: after →
      l''.tally = l'.tally.count a.entry.move.block.id ending) :
    Mirrors l (front ++ a' :: back) l'' := by
  obtain ⟨before, after, hs⟩ := h.split ho
  refine ⟨hc, ?_, fun other => ?_, fun b => ?_⟩
  · have hothers := h.entries_others ho hs
    rw [List.filter_append] at hothers
    rw [he hs, List.filter_append, List.filter_cons_of_neg (by simp [ha])]
    exact hothers
  · rw [ht hs, Tally.number_count, h.numbers, countP_middle, countP_middle, ho, ha, Nat.add_assoc]
    congr 2
    simp
  · rw [ht hs, Tally.mem_failedBlocks_count, h.failedBlocks, or_assoc, exists_middle, exists_middle, ho,
      ha, hm]
    simp

/-- The end of a move is recorded. -/
theorem complete (h : Mirrors l (front ++ a :: back) l') (ho : a.told = none)
    (ha : a'.told = some ending) (hm : a'.entry.move = a.entry.move) :
    Mirrors l (front ++ a' :: back) (l'.complete a.entry.id ending).1 :=
  h.close ho ha hm (h.consistent.complete _ _)
    (fun hs => Ledger.complete_split h.consistent hs ending)
    (fun hs => Ledger.tally_complete_split h.consistent hs ending)

end Mirrors

namespace Ledger

variable {l : Ledger} {e : Entry} {before after : List Entry} {maxAttempts n : Nat}

/-- A move is tried again as long as it has attempts left. -/
theorem fail_eq_again (h : l.Consistent) (hs : l.entries = before ++ e :: after)
    (hf : (l.fail e.id maxAttempts).2 = .again n) :
    n = e.attempts + 1 ∧ e.attempts + 1 < maxAttempts := by
  by_cases hlt : e.attempts + 1 < maxAttempts
  · rw [(fail_again_split h hs hlt).1] at hf
    exact ⟨(Retry.again.inj hf).symm, hlt⟩
  · rw [(fail_giveUp_split h hs (Nat.le_of_not_lt hlt)).1] at hf
    cases hf

theorem fail_eq_giveUp (h : l.Consistent) (hs : l.entries = before ++ e :: after)
    (hf : (l.fail e.id maxAttempts).2 = .giveUp n) :
    n = e.attempts + 1 ∧ maxAttempts ≤ e.attempts + 1 := by
  by_cases hlt : e.attempts + 1 < maxAttempts
  · rw [(fail_again_split h hs hlt).1] at hf
    cases hf
  · have hle := Nat.le_of_not_lt hlt
    rw [(fail_giveUp_split h hs hle).1] at hf
    exact ⟨(Retry.giveUp.inj hf).symm, hle⟩

end Ledger

namespace Dispatch

variable {d d' : Dispatch} {l l' : Ledger} {t t' : Task} {front back : List Task}
  {limits : DispatchLimits} {signal : Signal} {earlier : MoveId → Nat}

/-- Whatever a task does, the ledger stays a mirror of all tasks. -/
theorem mirrors_advance
    (h : Mirrors l ((front ++ t :: back).map (Task.account earlier)) d.ledger)
    (ha : d.Advance t t' l') : Mirrors l ((front ++ t' :: back).map (Task.account earlier)) l' := by
  rw [List.map_append, List.map_cons] at h ⊢
  have hc := h.consistent
  -- before an attempt and by a breakdown the ledger is told nothing, and the account stays the same
  cases ha with
  | request hp hph =>
    obtain ⟨q, rfl | rfl⟩ := hph <;> obtain hp | ⟨p, hp⟩ := hp <;>
      rwa [Task.account_setPhase (by simp [hp]) (by simp) (by rw [hp]; rfl) rfl]
  | run hp _ => rwa [Task.account_setPhase (by simp [hp]) (by simp) (by rw [hp]; rfl) rfl]
  | «break» hp => rwa [Task.account_setPhase (by simp [hp]) (by simp) (by rw [hp]; rfl) rfl]
  | succeed hp => exact h.complete (Task.told_account (by rw [hp]; rfl)) rfl rfl
  | cancel ho _ => exact h.complete (Task.told_account (Phase.told?_eq_none ho)) rfl rfl
  | @again n hp hf =>
    have ho : (t.account earlier).told = none := Task.told_account (by rw [hp]; rfl)
    obtain ⟨before, after, hs⟩ := h.split ho
    obtain ⟨rfl, hlt⟩ := Ledger.fail_eq_again hc hs hf
    exact h.change ho rfl (hc.fail _ _) (fun hs => (Ledger.fail_again_split hc hs hlt).2)
      (Ledger.tally_fail_again_split hc hs hlt)
  | @giveUp n e hp hf =>
    have ho : (t.account earlier).told = none := Task.told_account (by rw [hp]; rfl)
    obtain ⟨before, after, hs⟩ := h.split ho
    obtain ⟨-, hle⟩ := Ledger.fail_eq_giveUp hc hs hf
    exact h.close ho rfl rfl (hc.fail _ _) (fun hs => (Ledger.fail_giveUp_split hc hs hle).2)
      (fun hs => Ledger.tally_fail_giveUp_split hc hs hle)
  | rested hp =>
    have ho : (t.account earlier).told = none := Task.told_account (by rw [hp]; rfl)
    exact h.change ho rfl (hc.resume _) (fun hs => Ledger.resume_split hc hs (if_pos hp))
      (Ledger.tally_resume _ _)

/-- A turn keeps the ledger a mirror of all tasks. -/
theorem mirrors_take (hn : (d.tasks.map Task.id).Nodup)
    (h : Mirrors l (d.tasks.map (Task.account earlier)) d.ledger) (turn : Turn) :
    Mirrors l ((d.take turn).tasks.map (Task.account earlier)) (d.take turn).ledger := by
  rcases take_cases hn turn with heq | ⟨s, heq⟩ | ⟨front, t, back, hs, t', l', ha, hshifts⟩
  · rwa [heq]
  · rwa [heq]
  · have haccounts := hshifts.map_eq (f := Task.account earlier) fun t p hp =>
      Task.account_setPhase (by simp [hp]) (by simp) (by rw [hp]; rfl) rfl
    rw [haccounts, hshifts.ledger]
    rw [hs] at h
    exact mirrors_advance h ha

/-- Turns keep the ledger a mirror of all tasks. -/
theorem mirrors_takeAll (hn : (d.tasks.map Task.id).Nodup)
    (h : Mirrors l (d.tasks.map (Task.account earlier)) d.ledger) (turns : List Turn) :
    Mirrors l ((d.takeAll turns).tasks.map (Task.account earlier)) (d.takeAll turns).ledger := by
  induction turns generalizing d with
  | nil => exact h
  | cons turn rest ih => exact ih (nodup_take hn turn) (mirrors_take hn h turn)

/-! ### Failed blocks in their order -/

theorem Advance.ascending (h : d.Advance t t' l') (hl : d.ledger.tally.Ascending) : l'.tally.Ascending := by
  cases h with
  | request _ _ | run _ _ | «break» _ => exact hl
  | succeed _ | cancel _ _ => exact Ledger.ascending_complete hl _ _
  | again _ _ | giveUp _ _ _ => exact Ledger.ascending_fail hl _ _
  | rested _ =>
    rw [Ledger.tally_resume]
    exact hl

theorem ascending_takeAll (hn : (d.tasks.map Task.id).Nodup) (h : d.ledger.tally.Ascending)
    (turns : List Turn) : (d.takeAll turns).ledger.tally.Ascending := by
  induction turns generalizing d with
  | nil => exact h
  | cons turn rest ih =>
    refine ih (nodup_take hn turn) ?_
    rcases take_cases hn turn with heq | ⟨s, heq⟩ | ⟨front, t, back, -, t', l', ha, hshifts⟩
    · rwa [heq]
    · rwa [heq]
    · rw [hshifts.ledger]
      exact ha.ascending h

theorem ascending_settleBroken (h : d.ledger.tally.Ascending) : d.settleBroken.tally.Ascending := by
  rw [settleBroken]
  generalize List.filter _ _ = tasks
  generalize d.ledger = l at h ⊢
  induction tasks generalizing l with
  | nil => exact h
  | cons t rest ih => exact ih _ (Ledger.ascending_complete h _ _)

/-! ### The first turn and the last -/

/-- The failed attempts of the moves of a ledger. -/
def attemptsIn (l : Ledger) (id : MoveId) : Nat := (l.get? id).elim 0 Entry.attempts

theorem attemptsIn_eq (h : l.Consistent) {e : Entry} (he : e ∈ l.entries) :
    attemptsIn l e.id = e.attempts := by
  obtain ⟨before, after, hs⟩ := List.append_of_mem he
  rw [attemptsIn, Ledger.get?_split h hs]
  rfl

/-- All pending entries are claimed, and those that were in flight before stay as they are. -/
theorem mirrors_start (h : l.Consistent) (limits : DispatchLimits) (signal : Signal) :
    Mirrors l ((start limits signal l).tasks.map (Task.account (attemptsIn l)))
      (start limits signal l).ledger := by
  have haccounts : (start limits signal l).tasks.map (Task.account (attemptsIn l)) =
      (l.entries.filter fun e => e.state == .pending).map fun e =>
        ⟨{ e with state := .inFlight }, none⟩ := by
    simp only [start, Ledger.claim, List.map_map]
    refine List.map_congr_left fun e he => ?_
    simp only [Function.comp_apply, Task.account, Task.entry, if_true,
      attemptsIn_eq h (List.mem_of_mem_filter he)]
    rfl
  rw [haccounts]
  refine ⟨h.claim, ?_, fun ending => ?_, fun b => ?_⟩
  · have hpending : (l.entries.filter fun e => !(e.state == .inFlight)) =
        l.entries.filter fun e => e.state == .pending :=
      List.filter_congr fun e _ => by cases e.state <;> rfl
    have hinFlight : (l.entries.filter fun e => e.state == .inFlight).map
        (fun e => { e with state := .inFlight }) = l.entries.filter fun e => e.state == .inFlight := by
      refine (List.map_congr_left fun e he => ?_).trans (List.map_id _)
      have hstate : e.state = .inFlight := by simpa using (List.mem_filter.1 he).2
      rw [← hstate]
      rfl
    have hperm := (List.filter_append_perm (fun e : Entry => e.state == .inFlight) l.entries).map
      fun e => { e with state := .inFlight }
    rw [List.map_append, hinFlight, hpending] at hperm
    have hopen : ((l.entries.filter fun e => e.state == .pending).map fun e =>
        Account.mk { e with state := .inFlight } none).filter (fun a => a.told.isNone) =
          (l.entries.filter fun e => e.state == .pending).map fun e =>
            ⟨{ e with state := .inFlight }, none⟩ :=
      List.filter_eq_self.2 fun a ha => by
        obtain ⟨e, -, rfl⟩ := List.mem_map.1 ha
        rfl
    rw [hopen, List.map_map]
    exact hperm.symm
  · simp [start, Ledger.claim, List.countP_map, Function.comp_def]
  · simp [start, Ledger.claim]

/-- The ledger is told of the tasks that have broken down. -/
theorem mirrors_settle {done : List Account} {rest : List Task}
    (h : Mirrors l (done ++ rest.map (Task.account earlier)) l') :
    Mirrors l (done ++ rest.map (Task.finalAccount earlier))
      ((rest.filter fun t => t.phase == .ended .broken).foldl
        (fun l t => (l.complete t.id .failed).1) l') := by
  induction rest generalizing done l' with
  | nil => exact h
  | cons t rest ih =>
    rw [List.map_cons, List.append_cons]
    by_cases hp : t.phase = .ended .broken
    · rw [List.filter_cons_of_pos (by rw [hp]; rfl), List.foldl_cons]
      refine ih ?_
      rw [← List.append_cons]
      exact h.complete (Task.told_account (by rw [hp]; rfl)) (by rw [Task.finalAccount, hp]; rfl) rfl
    · rw [List.filter_cons_of_neg (by simpa using hp)]
      refine ih ?_
      rw [← List.append_cons, Task.finalAccount, Phase.outcome?, if_neg hp]
      exact h

theorem mirrors_settleBroken (h : Mirrors l (d.tasks.map (Task.account earlier)) d.ledger)
    (ho : d.isOver) : Mirrors l (d.tasks.map (Task.finalAccount earlier)) d.settleBroken := by
  have hall : (d.tasks.takeWhile fun t => t.phase.isEnded) = d.tasks :=
    List.takeWhile_eq_self_iff.2 (List.all_eq_true.1 ho)
  have hsettled := @mirrors_settle l d.ledger earlier [] d.tasks h
  rwa [settleBroken, hall]

end Dispatch

end StorageTiering
