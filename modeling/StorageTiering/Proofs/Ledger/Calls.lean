import StorageTiering.Proofs.Ledger
/-!
# Calls to a ledger

Those who share a ledger know it by its calls and by the answers to them.

* `Ledger.Call`, `Ledger.Answer` — what a ledger can be asked, and what it answers.
* `Ledger.answer`, `Ledger.answerAll` — the answer to one call, and to several one after another.
* `Ledger.Consistent.answer`, `Ledger.consistent_answerAll` — a ledger stays consistent whatever it is
  asked.
-/

namespace StorageTiering.Ledger

/-- What a ledger can be asked. -/
inductive Call
  | insert (move : Move)
  | holds (block : BlockId) (sourceType : StorageType) (targetTypes : List StorageType)
  | claim
  | resume (id : MoveId)
  | fail (id : MoveId) (maxAttempts : Nat)
  | complete (id : MoveId) (ending : Ending)
  | takeTally
  | get (id : MoveId)
  | size
  | countIn (state : EntryState)

/-- What a ledger answers. -/
inductive Answer
  | inserted (id : Option MoveId)
  | held (live : Bool)
  | claimed (moves : List (MoveId × Move))
  | resumed (done : Bool)
  | failed (retry : Retry)
  | completed (entry : Option Entry)
  | tally (tally : Tally)
  | entry (entry : Option Entry)
  | number (n : Nat)
  deriving DecidableEq, Repr

/-- The ledger after a call, and its answer. -/
def answer (l : Ledger) : Call → Ledger × Answer
  | .insert m => ((l.insert m).1, .inserted (l.insert m).2)
  | .holds block sourceType targetTypes => (l, .held (l.holds block sourceType targetTypes))
  | .claim => (l.claim.1, .claimed l.claim.2)
  | .resume id => ((l.resume id).1, .resumed (l.resume id).2)
  | .fail id maxAttempts => ((l.fail id maxAttempts).1, .failed (l.fail id maxAttempts).2)
  | .complete id ending => ((l.complete id ending).1, .completed (l.complete id ending).2)
  | .takeTally => (l.takeTally.1, .tally l.takeTally.2)
  | .get id => (l, .entry (l.get? id))
  | .size => (l, .number l.size)
  | .countIn state => (l, .number (l.countIn state))

/-- The ledger after several calls, and its answers in their order. -/
def answerAll (l : Ledger) : List Call → Ledger × List Answer
  | [] => (l, [])
  | call :: rest => (((l.answer call).1.answerAll rest).1,
      (l.answer call).2 :: ((l.answer call).1.answerAll rest).2)

variable {l : Ledger} {id : MoveId} {e : Entry}

/-- An entry that is found by its number stands somewhere in the table. -/
theorem split_of_get? (hget : l.get? id = some e) :
    e.id = id ∧ ∃ front back, l.entries = front ++ e :: back := by
  have hid : e.id = id := by simpa using List.find?_some hget
  exact ⟨hid, List.append_of_mem (List.mem_of_find?_eq_some hget)⟩

/-! ### Consistency -/

theorem consistent_empty : empty.Consistent := clear_empty.consistent

/-- A refused move changes nothing, and a new one keeps the index right. -/
theorem Consistent.insert_fst (h : l.Consistent) (m : Move) : (l.insert m).1.Consistent := by
  cases hi : (l.insert m).2 with
  | none =>
    rw [Ledger.insert, if_pos (insert_eq_none_iff.1 hi)]
    exact h
  | some id => exact h.insert (Prod.ext rfl hi)

/-- No call makes a ledger inconsistent. -/
theorem Consistent.answer (h : l.Consistent) (call : Call) : (l.answer call).1.Consistent := by
  cases call with
  | insert m => exact h.insert_fst m
  | claim => exact h.claim
  | resume id => exact h.resume id
  | fail id maxAttempts => exact h.fail id maxAttempts
  | complete id ending => exact h.complete id ending
  | takeTally => exact h.congr rfl rfl rfl
  | holds _ _ _ => exact h
  | get _ => exact h
  | size => exact h
  | countIn _ => exact h

theorem Consistent.answerAll (h : l.Consistent) (calls : List Call) :
    (l.answerAll calls).1.Consistent := by
  induction calls generalizing l with
  | nil => exact h
  | cons call rest ih => exact ih (h.answer call)

/-- Every ledger that calls can lead to is consistent. -/
theorem consistent_answerAll (calls : List Call) : (empty.answerAll calls).1.Consistent :=
  consistent_empty.answerAll calls

end StorageTiering.Ledger
