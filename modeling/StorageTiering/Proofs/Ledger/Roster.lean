import StorageTiering.Proofs.Ledger.Calls
import StorageTiering.Proofs.Ledger.Tally
import Mathlib.Data.List.Basic
/-!
# A ledger without an index

What the index of a ledger is for: no call tells it from a plain list of entries that is searched.

* `Roster` — the live entries in the order of their numbers, without an index.
* `Roster.answer`, `Roster.answerAll` — the answers of one who searches the list.
* `Ledger.roster_answer` — a call leads to the same answer with and without the index.
* `Ledger.lookup_keys_iff`, `Ledger.mem_claim_iff` — what the index and a claim hold.
* `Ledger.answerAll_roster` — the same for all calls, and what the index holds after them.
-/

namespace StorageTiering

/-- The live entries in the order of their numbers, the number of the last move that was scheduled, and
the count of the moves that have ended. -/
@[ext]
structure Roster where
  live : List Entry
  lastId : MoveId
  tally : Tally

namespace Roster

/-- Nothing has been scheduled. -/
def empty : Roster := ⟨[], 0, .zero⟩

/-- The live entry with a number. -/
def withId? (r : Roster) (id : MoveId) : Option Entry := r.live.find? fun e => e.id == id

/-- The live entry of a logical move. -/
def withKey? (r : Roster) (key : MoveKey) : Option Entry := r.live.find? fun e => e.move.key == key

/-- The roster with another entry in the place of one. -/
def change (r : Roster) (e e' : Entry) : Roster := { r with live := r.live.replace e e' }

/-- The roster without an entry, which is counted. -/
def strike (r : Roster) (e : Entry) (ending : Ending) : Roster :=
  { r with live := r.live.erase e, tally := r.tally.count e.move.block.id ending }

/-- The roster after a call, and its answer. -/
def answer (r : Roster) : Ledger.Call → Roster × Ledger.Answer
  | .insert m =>
      match r.withKey? m.key with
      | some _ => (r, .inserted none)
      | none =>
          ({ r with
              live := r.live ++ [⟨r.lastId + 1, m, .pending, 0⟩],
              lastId := r.lastId + 1 },
           .inserted (some (r.lastId + 1)))
  | .holds block sourceType targetTypes =>
      (r, .held (targetTypes.any fun t => (r.withKey? ⟨block, sourceType, t⟩).isSome))
  | .claim =>
      ({ r with live := r.live.map fun e => { e with state := .inFlight } },
       .claimed ((r.live.filter fun e => e.state == .pending).map fun e => (e.id, e.move)))
  | .resume id =>
      match r.withId? id with
      | some e =>
          if e.state = .pending then (r.change e { e with state := .inFlight }, .resumed true)
          else (r, .resumed false)
      | none => (r, .resumed false)
  | .fail id maxAttempts =>
      match r.withId? id with
      | some e =>
          if e.attempts + 1 < maxAttempts then
            (r.change e { e with state := .pending, attempts := e.attempts + 1 },
             .failed (.again (e.attempts + 1)))
          else (r.strike e .failed, .failed (.giveUp (e.attempts + 1)))
      | none => (r, .failed (.giveUp 0))
  | .complete id ending =>
      match r.withId? id with
      | some e => (r.strike e ending, .completed (some e))
      | none => (r, .completed none)
  | .takeTally => ({ r with tally := .zero }, .tally r.tally)
  | .get id => (r, .entry (r.withId? id))
  | .size => (r, .number r.live.length)
  | .countIn state => (r, .number (r.live.filter fun e => e.state == state).length)

/-- The roster after several calls, and its answers in their order. -/
def answerAll (r : Roster) : List Ledger.Call → Roster × List Ledger.Answer
  | [] => (r, [])
  | call :: rest => (((r.answer call).1.answerAll rest).1,
      (r.answer call).2 :: ((r.answer call).1.answerAll rest).2)

end Roster

namespace Ledger

variable {l : Ledger} {id : MoveId} {e e' : Entry} {m : Move} {front back : List Entry}

/-- A ledger without its index. -/
def roster (l : Ledger) : Roster := ⟨l.entries, l.lastId, l.tally⟩

/-! ### One call -/

theorem withId?_roster (l : Ledger) (id : MoveId) : l.roster.withId? id = l.get? id := rfl

theorem not_mem_front (h : l.Consistent) (he : l.entries = front ++ e :: back) : e ∉ front := by
  have hn := h.nodup
  rw [he] at hn
  exact fun hm => (Keyed.key_ne hn).1 e hm rfl

theorem entries_replace (h : l.Consistent) (he : l.entries = front ++ e :: back) (e' : Entry) :
    l.entries.replace e e' = front ++ e' :: back := by
  rw [he, List.replace_append_right (not_mem_front h he), List.replace_cons_self]

theorem entries_erase (h : l.Consistent) (he : l.entries = front ++ e :: back) :
    l.entries.erase e = front ++ back := by
  rw [he, List.erase_append_right _ (not_mem_front h he), List.erase_cons_head]

/-- A key is taken if and only if a search for it finds an entry. -/
theorem isSome_withKey? (h : l.Consistent) (key : MoveKey) :
    (l.roster.withKey? key).isSome = l.takes key := by
  rw [Bool.eq_iff_iff, h.takes_iff, Roster.withKey?, List.find?_isSome]
  simp [roster]

theorem roster_insert (h : l.Consistent) (m : Move) :
    l.roster.answer (.insert m) = ((l.insert m).1.roster, .inserted (l.insert m).2) := by
  have hkey := isSome_withKey? h m.key
  rw [Roster.answer]
  cases hfind : l.roster.withKey? m.key with
  | some e =>
    have htaken : l.takes m.key = true := by rw [← hkey, hfind]; rfl
    rw [insert, if_pos htaken]
  | none =>
    have hfree : ¬l.takes m.key = true := by rw [← hkey, hfind]; decide
    rw [insert, if_neg hfree]
    rfl

theorem roster_resume (h : l.Consistent) (id : MoveId) :
    l.roster.answer (.resume id) = ((l.resume id).1.roster, .resumed (l.resume id).2) := by
  rw [Roster.answer, withId?_roster]
  cases hget : l.get? id with
  | none => rw [resume, hget]
  | some e =>
    obtain ⟨rfl, front, back, he⟩ := split_of_get? hget
    rw [resume, hget]
    dsimp only
    split
    · have hentries := update_split h he fun e => { e with state := .inFlight }
      refine Prod.ext (Roster.ext ?_ rfl rfl) rfl
      exact (entries_replace h he _).trans hentries.symm
    · rfl

theorem roster_complete (h : l.Consistent) (id : MoveId) (ending : Ending) :
    l.roster.answer (.complete id ending) =
      ((l.complete id ending).1.roster, .completed (l.complete id ending).2) := by
  rw [Roster.answer, withId?_roster]
  cases hget : l.get? id with
  | none => rw [complete, hget]
  | some e =>
    obtain ⟨rfl, front, back, he⟩ := split_of_get? hget
    have hentries := complete_split h he ending
    rw [complete, hget] at hentries ⊢
    refine Prod.ext (Roster.ext ?_ rfl rfl) rfl
    exact (entries_erase h he).trans hentries.symm

theorem roster_fail (h : l.Consistent) (id : MoveId) (maxAttempts : Nat) :
    l.roster.answer (.fail id maxAttempts) =
      ((l.fail id maxAttempts).1.roster, .failed (l.fail id maxAttempts).2) := by
  rw [Roster.answer, withId?_roster]
  cases hget : l.get? id with
  | none => rw [fail, countAttempt, hget]
  | some e =>
    obtain ⟨rfl, front, back, he⟩ := split_of_get? hget
    dsimp only
    split
    · rename_i hlt
      obtain ⟨hretry, hentries⟩ := fail_again_split h he hlt
      rw [hretry]
      refine Prod.ext (Roster.ext ?_ (lastId_fail _ _ _).symm ?_) rfl
      · exact (entries_replace h he _).trans hentries.symm
      · exact (tally_fail_again_split h he hlt).symm
    · rename_i hge
      obtain ⟨hretry, hentries⟩ := fail_giveUp_split h he (Nat.not_lt.1 hge)
      rw [hretry]
      refine Prod.ext (Roster.ext ?_ (lastId_fail _ _ _).symm ?_) rfl
      · exact (entries_erase h he).trans hentries.symm
      · exact (tally_fail_giveUp_split h he (Nat.not_lt.1 hge)).symm

/-- A call leads to the same answer with and without the index. -/
theorem roster_answer (h : l.Consistent) (call : Call) :
    l.roster.answer call = ((l.answer call).1.roster, (l.answer call).2) := by
  cases call with
  | insert m => exact roster_insert h m
  | holds block sourceType targetTypes =>
    simp only [Roster.answer, answer, holds, isSome_withKey? h]
  | claim => rfl
  | resume id => exact roster_resume h id
  | fail id maxAttempts => exact roster_fail h id maxAttempts
  | complete id ending => exact roster_complete h id ending
  | takeTally => rfl
  | get id => rfl
  | size => rfl
  | countIn state =>
    simp only [Roster.answer, answer, countIn, List.countP_eq_length_filter]
    rfl

theorem roster_answerAll (h : l.Consistent) (calls : List Call) :
    l.roster.answerAll calls = ((l.answerAll calls).1.roster, (l.answerAll calls).2) := by
  induction calls generalizing l with
  | nil => rfl
  | cons call rest ih =>
    simp only [Roster.answerAll, roster_answer h call, ih (h.answer call)]
    rfl

/-! ### What the index holds -/

/-- The index has a number for a key if and only if the entry of this number is live and has the key. -/
theorem lookup_keys_iff (h : l.Consistent) (key : MoveKey) (id : MoveId) :
    l.keys.lookup key = some id ↔ ∃ e ∈ l.entries, e.id = id ∧ e.move.key = key := by
  have hmem : (key, id) ∈ l.keys ↔ ∃ e ∈ l.entries, e.id = id ∧ e.move.key = key := by
    rw [h.indexed.mem_iff, List.mem_map]
    refine exists_congr fun e => and_congr_right fun _ => ?_
    rw [Prod.mk.injEq, and_comm]
  have hkeys : (l.keys.map Prod.fst).Nodup := by
    refine (h.indexed.map Prod.fst).nodup_iff.2 ?_
    rw [List.map_map]
    exact h.distinct
  rw [← hmem]
  exact Keyed.lookup_eq_some_iff hkeys

/-- Every entry is stored under its own number. -/
theorem get?_eq_some_iff (h : l.Consistent) : l.get? id = some e ↔ e ∈ l.entries ∧ e.id = id := by
  constructor
  · intro hget
    exact ⟨List.mem_of_find?_eq_some hget, (split_of_get? hget).1⟩
  · rintro ⟨hmem, rfl⟩
    obtain ⟨front, back, he⟩ := List.append_of_mem hmem
    exact get?_split h he

theorem mem_claim_iff (l : Ledger) (id : MoveId) (m : Move) :
    (id, m) ∈ l.claim.2 ↔ ∃ e ∈ l.entries, e.state = .pending ∧ e.id = id ∧ e.move = m := by
  simp only [claim, List.mem_map, List.mem_filter, beq_iff_eq, Prod.mk.injEq, and_assoc]

/-- A claim is in the order of numbers. -/
theorem Consistent.pairwise_claim (h : l.Consistent) :
    (l.claim.2.map Prod.fst).Pairwise (· < ·) := by
  have hids : l.claim.2.map Prod.fst = (l.entries.filter fun e => e.state == .pending).map Entry.id := by
    simp only [Ledger.claim, List.map_map]
    rfl
  rw [hids]
  exact h.ascending.sublist (List.filter_sublist.map _)

/-- A ledger answers every sequence of calls as one does who searches a plain list of the live entries.
After the calls, the index has exactly the keys of the live entries, every entry is stored under its own
number, numbers ascend, and no two entries have one key: so a move is refused if and only if a move of the
same block between the same types is live, a question for live moves is answered by the entries, and a
claim is all pending entries in the order of their numbers, none of which is pending after it. -/
theorem answerAll_roster (calls : List Call) :
    let l := (empty.answerAll calls).1
    Roster.empty.answerAll calls = (l.roster, (empty.answerAll calls).2) ∧
      (∀ key id, l.keys.lookup key = some id ↔ ∃ e ∈ l.entries, e.id = id ∧ e.move.key = key) ∧
      (∀ id e, l.get? id = some e ↔ e ∈ l.entries ∧ e.id = id) ∧
      (l.entries.map Entry.id).Pairwise (· < ·) ∧ (∀ e ∈ l.entries, e.id ≤ l.lastId) ∧
      (∀ e ∈ l.entries, ∀ e' ∈ l.entries, e.move.key = e'.move.key → e = e') ∧
      (∀ m, (l.insert m).2 = none ↔ ∃ e ∈ l.entries, e.move.block.id = m.block.id ∧
        e.move.source.type = m.source.type ∧ e.move.targetType = m.targetType) ∧
      (∀ block sourceType targetTypes, l.holds block sourceType targetTypes ↔
        ∃ e ∈ l.entries, e.move.block.id = block ∧ e.move.source.type = sourceType ∧
          e.move.targetType ∈ targetTypes) ∧
      (∀ id m, (id, m) ∈ l.claim.2 ↔
        ∃ e ∈ l.entries, e.state = .pending ∧ e.id = id ∧ e.move = m) ∧
      (l.claim.2.map Prod.fst).Pairwise (· < ·) ∧
      ∀ e ∈ l.claim.1.entries, e.state ≠ .pending := by
  intro l
  have h : l.Consistent := consistent_answerAll calls
  have hrefuses : ∀ m, (l.insert m).2 = none ↔ ∃ e ∈ l.entries, e.move.block.id = m.block.id ∧
      e.move.source.type = m.source.type ∧ e.move.targetType = m.targetType := by
    intro m
    rw [insert_eq_none_iff, h.takes_iff]
    simp only [Move.key, MoveKey.mk.injEq]
  have hleft : ∀ e ∈ l.claim.1.entries, e.state ≠ .pending := by
    intro e he
    obtain ⟨o, -, rfl⟩ := List.mem_map.1 he
    show EntryState.inFlight ≠ .pending
    decide
  refine ⟨roster_answerAll consistent_empty calls, lookup_keys_iff h, fun id e => get?_eq_some_iff h,
    h.ascending, h.numbered, fun e he e' he' hkey => ?_, hrefuses, h.holds_iff, mem_claim_iff l,
    h.pairwise_claim, hleft⟩
  exact List.inj_on_of_nodup_map h.distinct he he' hkey

end Ledger

end StorageTiering
