import StorageTiering.Proofs.Ledger
/-!
# The count of ended moves

* `Tally.number` — how many moves have ended in one way.
* `Tally.number_count`, `Tally.mem_failedBlocks_count` — what one more ending adds.
* `Tally.Ascending` — each failed block is counted once, in its order.
* `Ledger.tally_complete_split`, `Ledger.tally_fail_again_split`, `Ledger.tally_fail_giveUp_split` — what
  the steps of a move's life add.
-/

namespace StorageTiering

theorem mem_insertAscending {n m : Nat} {ns : List Nat} :
    n ∈ insertAscending m ns ↔ n = m ∨ n ∈ ns := by
  induction ns with
  | nil => simp [insertAscending]
  | cons k rest ih =>
    simp only [insertAscending]
    split
    · rw [List.mem_cons]
    · split
      · rename_i hk
        rw [List.mem_cons, hk]
        exact ⟨.inr, fun h => h.elim .inl id⟩
      · rw [List.mem_cons, List.mem_cons, ih]
        exact or_left_comm

/-- An ascending list with one more member is ascending. -/
theorem pairwise_insertAscending {m : Nat} {ns : List Nat} (h : ns.Pairwise (· < ·)) :
    (insertAscending m ns).Pairwise (· < ·) := by
  induction ns with
  | nil => exact List.pairwise_singleton _ _
  | cons k rest ih =>
    obtain ⟨hk, hrest⟩ := List.pairwise_cons.1 h
    rw [insertAscending]
    split
    · rename_i hlt
      exact h.cons (List.forall_mem_cons.2 ⟨hlt, fun n hn => Nat.lt_trans hlt (hk n hn)⟩)
    · split
      · exact h
      · refine (ih hrest).cons fun n hn => ?_
        rcases mem_insertAscending.1 hn with rfl | hn
        · omega
        · exact hk n hn

namespace Tally

/-- How many moves have ended in one way. -/
def number (t : Tally) : Ending → Nat
  | .succeeded => t.succeeded
  | .failed => t.failed
  | .cancelled => t.cancelled

theorem number_count (t : Tally) (block : BlockId) (ending other : Ending) :
    (t.count block ending).number other = t.number other + if ending = other then 1 else 0 := by
  cases ending <;> cases other <;> rfl

theorem mem_failedBlocks_count {t : Tally} {block b : BlockId} {ending : Ending} :
    b ∈ (t.count block ending).failedBlocks ↔
      b ∈ t.failedBlocks ∨ ending = .failed ∧ block = b := by
  cases ending with
  | succeeded => simp [count]
  | failed =>
    rw [count, mem_insertAscending, or_comm, eq_comm]
    simp
  | cancelled => simp [count]

/-- The failed blocks of a tally are ascending. -/
def Ascending (t : Tally) : Prop := t.failedBlocks.Pairwise (· < ·)

theorem Ascending.count {t : Tally} (h : t.Ascending) (block : BlockId) (ending : Ending) :
    (t.count block ending).Ascending := by
  cases ending with
  | failed => exact pairwise_insertAscending h
  | _ => exact h

end Tally

namespace Ledger

variable {l : Ledger} {id : MoveId} {e : Entry} {front back : List Entry}

/-! ### What single steps count -/

@[simp] theorem lastId_complete (l : Ledger) (id : MoveId) (ending : Ending) :
    (l.complete id ending).1.lastId = l.lastId := by
  rw [complete]
  split <;> rfl

@[simp] theorem lastId_countAttempt (l : Ledger) (id : MoveId) (maxAttempts : Nat) :
    (l.countAttempt id maxAttempts).1.lastId = l.lastId := by
  rw [countAttempt]
  split
  · rfl
  · dsimp only
    split <;> rfl

@[simp] theorem lastId_fail (l : Ledger) (id : MoveId) (maxAttempts : Nat) :
    (l.fail id maxAttempts).1.lastId = l.lastId := by
  have hc := lastId_countAttempt l id maxAttempts
  rw [fail]
  split
  all_goals
    rename_i heq
    rw [heq] at hc
  · exact hc
  · exact hc
  · rw [lastId_complete]
    exact hc

@[simp] theorem lastId_resume (l : Ledger) (id : MoveId) :
    (l.resume id).1.lastId = l.lastId := by
  rw [resume]
  split
  · split <;> rfl
  · rfl

@[simp] theorem tally_resume (l : Ledger) (id : MoveId) : (l.resume id).1.tally = l.tally := by
  rw [resume]
  split
  · split <;> rfl
  · rfl

@[simp] theorem tally_countAttempt (l : Ledger) (id : MoveId) (maxAttempts : Nat) :
    (l.countAttempt id maxAttempts).1.tally = l.tally := by
  rw [countAttempt]
  split
  · rfl
  · dsimp only
    split <;> rfl

theorem ascending_complete (h : l.tally.Ascending) (id : MoveId) (ending : Ending) :
    (l.complete id ending).1.tally.Ascending := by
  rw [complete]
  split
  · exact h
  · exact h.count _ _

theorem ascending_fail (h : l.tally.Ascending) (id : MoveId) (maxAttempts : Nat) :
    (l.fail id maxAttempts).1.tally.Ascending := by
  have hcounted := tally_countAttempt l id maxAttempts
  rw [fail]
  split
  all_goals
    rename_i heq
    rw [heq] at hcounted
    rw [← hcounted] at h
  · exact h
  · exact h
  · exact ascending_complete h _ _

/-- An ended move is counted. -/
theorem tally_complete_split (h : l.Consistent) (he : l.entries = front ++ e :: back)
    (ending : Ending) :
    (l.complete e.id ending).1.tally = l.tally.count e.move.block.id ending := by
  rw [complete, get?_split h he]

theorem tally_fail_again_split {maxAttempts : Nat} (h : l.Consistent)
    (he : l.entries = front ++ e :: back) (hlt : e.attempts + 1 < maxAttempts) :
    (l.fail e.id maxAttempts).1.tally = l.tally := by
  rw [fail, countAttempt, get?_split h he]
  simp only [if_pos hlt]
  rfl

/-- The last failed attempt counts as one failure. -/
theorem tally_fail_giveUp_split {maxAttempts : Nat} (h : l.Consistent)
    (he : l.entries = front ++ e :: back) (hle : maxAttempts ≤ e.attempts + 1) :
    (l.fail e.id maxAttempts).1.tally = l.tally.count e.move.block.id .failed := by
  have hu := update_split h he fun e' => { e' with attempts := e.attempts + 1 }
  have hc : (l.update e.id fun e' => { e' with attempts := e.attempts + 1 }).Consistent :=
    h.update e.id (fun _ => rfl) fun _ => rfl
  rw [fail, countAttempt, get?_split h he]
  simp only [if_neg (Nat.not_lt.2 hle)]
  exact tally_complete_split hc hu .failed

end Ledger

end StorageTiering
