import StorageTiering.Proofs.Ledger.Calls
import StorageTiering.Proofs.Ledger.Tally
import Mathlib.Algebra.GroupWithZero.Nat
import Mathlib.Algebra.Order.BigOperators.Group.List
import Mathlib.Data.List.Range
/-!
# Clients that share a ledger

A call has the ledger to itself for as long as it works on it. Only a failure that uses up the attempts
of a move does so twice: it counts the attempt, lets others come between, and then ends the move.

* `Ledger.Event` — what lasts of a call.
* `Ledger.enter`, `Ledger.conclude` — what a call does while it has the ledger to itself, the first and
  the second time.
* `Client`, `Desk`, `Desk.turn`, `Desk.run` — clients take turns in any order.
* `Ledger.Books` — what a history of events says of the ledger that it has led to.
* `Desk.run_conserves` — no move is lost, counted twice or brought back, whatever the order.
-/

namespace StorageTiering

namespace Ledger

/-- What lasts of a call. -/
inductive Event
  /-- A new entry has got a number. -/
  | inserted (id : MoveId)
  /-- A failed attempt at a live move was counted. -/
  | counted (id : MoveId)
  /-- A move has ended, and its entry has left the table. -/
  | removed (entry : Entry) (ending : Ending)
  /-- The count of ended moves was taken. -/
  | taken (tally : Tally)
  deriving DecidableEq, Repr

namespace Event

/-- The number of a new entry. -/
def inserted? : Event → Option MoveId
  | .inserted id => some id
  | _ => none

/-- The number of an entry that has left the table. -/
def removed? : Event → Option MoveId
  | .removed e _ => some e.id
  | _ => none

/-- How a move has ended. -/
def ending? : Event → Option Ending
  | .removed _ ending => some ending
  | _ => none

/-- The count that was taken. -/
def taken? : Event → Option Tally
  | .taken t => some t
  | _ => none

/-- The number of the move with which something has happened. -/
def about? : Event → Option MoveId
  | .inserted id => some id
  | .counted id => some id
  | .removed e _ => some e.id
  | .taken _ => none

end Event

/-- Ends a move, if it is live. -/
def conclude (l : Ledger) (id : MoveId) (ending : Ending) : Ledger × List Event :=
  ((l.complete id ending).1, (l.complete id ending).2.toList.map fun e => .removed e ending)

/-- What a call does when it first has the ledger to itself, and the move that it has still to end. -/
def enter (l : Ledger) : Call → Ledger × List Event × Option MoveId
  | .insert m => ((l.insert m).1, (l.insert m).2.toList.map .inserted, none)
  | .fail id maxAttempts =>
      match l.countAttempt id maxAttempts with
      | (l, none) => (l, [], none)
      | (l, some (.again _)) => (l, [.counted id], none)
      | (l, some (.giveUp _)) => (l, [.counted id], some id)
  | .complete id ending => ((l.conclude id ending).1, (l.conclude id ending).2, none)
  | .takeTally => (l.takeTally.1, [.taken l.takeTally.2], none)
  | call => ((l.answer call).1, [], none)

end Ledger

/-- A client with the calls it is still going to make, and the move that its last call has still to
end. -/
structure Client where
  calls : List Ledger.Call
  owed : Option MoveId

/-- Clients with the ledger that they share, and all that has happened. -/
structure Desk where
  clients : List Client
  ledger : Ledger
  history : List Ledger.Event

/-- A client has the ledger to itself once. -/
def Client.turn (c : Client) (l : Ledger) : Client × Ledger × List Ledger.Event :=
  match c.owed, c.calls with
  | some id, _ => ({ c with owed := none }, l.conclude id .failed)
  | none, call :: rest => (⟨rest, (l.enter call).2.2⟩, (l.enter call).1, (l.enter call).2.1)
  | none, [] => (c, l, [])

namespace Desk

/-- Clients that are going to make some calls each, and a ledger without entries. -/
def start (programs : List (List Ledger.Call)) : Desk :=
  ⟨programs.map fun calls => ⟨calls, none⟩, .empty, []⟩

/-- One of the clients has the ledger to itself once. -/
def turn (d : Desk) (client : Nat) : Desk :=
  match d.clients[client]? with
  | none => d
  | some c =>
      { clients := d.clients.set client (c.turn d.ledger).1,
        ledger := (c.turn d.ledger).2.1,
        history := d.history ++ (c.turn d.ledger).2.2 }

/-- Clients have the ledger to themselves in some order. -/
def run (d : Desk) (order : List Nat) : Desk := order.foldl turn d

end Desk

namespace Ledger

variable {l l' : Ledger} {id : MoveId} {e : Entry} {m : Move} {front back : List Entry}
  {history : List Event}

/-- A call between whose parts nobody comes is the call as a whole. -/
theorem answer_fst (l : Ledger) (call : Call) : (l.answer call).1 =
    match (l.enter call).2.2 with
    | none => (l.enter call).1
    | some id => ((l.enter call).1.conclude id .failed).1 := by
  cases call with
  | fail id maxAttempts =>
    simp only [answer, enter, fail]
    generalize l.countAttempt id maxAttempts = result
    obtain ⟨l', _ | _ | _⟩ := result <;> rfl
  | _ => rfl

/-- The counts that were taken, and the one that is going on. -/
def tallies (history : List Event) (l : Ledger) : List Tally :=
  history.filterMap Event.taken? ++ [l.tally]

/-- What a history of events says of the ledger that it has led to. -/
structure Books (history : List Event) (l : Ledger) : Prop where
  consistent : l.Consistent
  /-- Numbers were given out one after another. -/
  issued : history.filterMap Event.inserted? = List.range' 1 l.lastId
  /-- Every number belongs to a live entry, or to one that has left the table once. -/
  balanced : (history.filterMap Event.inserted?).Perm
    (l.entries.map Entry.id ++ history.filterMap Event.removed?)
  /-- Nothing happens to a move that has ended. -/
  final : history.Pairwise fun x y => ∀ id, x.removed? = some id → y.about? ≠ some id
  /-- Every ending is in one of the counts. -/
  tallied : ∀ ending, ((tallies history l).map (Tally.number · ending)).sum =
    history.countP fun x => x.ending? == some ending
  blocks : ∀ b, (∃ t ∈ tallies history l, b ∈ t.failedBlocks) ↔
    ∃ e, Event.removed e .failed ∈ history ∧ e.move.block.id = b
  counted : ∀ id, Event.counted id ∈ history → id ≤ l.lastId
  attempts : ∀ e ∈ l.entries, e.attempts = history.count (.counted e.id)

/-! ### Single events -/

theorem filterMap_snoc {β : Type} (f : Event → Option β) (history : List Event) (x : Event) :
    (history ++ [x]).filterMap f = history.filterMap f ++ (f x).toList := by
  rw [List.filterMap_append, List.filterMap_cons, List.filterMap_nil]
  cases f x <;> rfl

theorem count_counted_snoc {x : Event} (hx : ∀ id, x ≠ .counted id) (history : List Event)
    (id : MoveId) : (history ++ [x]).count (.counted id) = history.count (.counted id) := by
  rw [List.count_append, List.count_singleton, if_neg (by simpa using hx id), Nat.add_zero]

theorem exists_removed_snoc {P : Entry → Prop} {x : Event} :
    (∃ e, Event.removed e .failed ∈ history ++ [x] ∧ P e) ↔
      (∃ e, Event.removed e .failed ∈ history ∧ P e) ∨ ∃ e, .removed e .failed = x ∧ P e := by
  simp only [List.mem_append, List.mem_singleton, or_and_right, exists_or]

theorem sum_tallies (history : List Event) (l : Ledger) (f : Tally → Nat) :
    ((tallies history l).map f).sum = ((history.filterMap Event.taken?).map f).sum + f l.tally := by
  rw [tallies, List.map_append, List.sum_append, List.map_singleton, List.sum_singleton]

theorem exists_tallies {P : Tally → Prop} :
    (∃ t ∈ tallies history l, P t) ↔ (∃ t ∈ history.filterMap Event.taken?, P t) ∨ P l.tally := by
  simp only [tallies, List.mem_append, List.mem_singleton, or_and_right, exists_or, exists_eq_left]

theorem Books.le_lastId (h : Books history l) (hid : id ∈ history.filterMap Event.inserted?) :
    id ≤ l.lastId := by
  rw [h.issued, List.mem_range'_1] at hid
  exact Nat.lt_one_add_iff.1 hid.2

/-- A move that has ended had got a number. -/
theorem Books.removed_le (h : Books history l) (hid : id ∈ history.filterMap Event.removed?) :
    id ≤ l.lastId :=
  h.le_lastId (h.balanced.symm.subset (List.mem_append_right _ hid))

/-- A move that has ended is not live. -/
theorem Books.not_live (h : Books history l) (hid : id ∈ history.filterMap Event.removed?) :
    id ∉ l.entries.map Entry.id := by
  have hn : (history.filterMap Event.inserted?).Nodup := by
    rw [h.issued]
    exact List.nodup_range'
  have hdisjoint := (List.nodup_append.1 (h.balanced.nodup_iff.1 hn)).2.2
  exact fun hlive => hdisjoint id hlive id hid rfl

/-- An event about a move that has not ended keeps the end of moves final. -/
theorem Books.final_append (h : Books history l) {x : Event}
    (hx : ∀ id, x.about? = some id → id ∉ history.filterMap Event.removed?) :
    (history ++ [x]).Pairwise fun x y => ∀ id, x.removed? = some id → y.about? ≠ some id := by
  refine List.pairwise_append.2 ⟨h.final, List.pairwise_singleton _ _, ?_⟩
  intro a ha y hy id hremoved habout
  rw [List.mem_singleton.1 hy] at habout
  exact hx id habout (List.mem_filterMap.2 ⟨a, ha, hremoved⟩)

/-- What neither adds nor ends a move, nor counts anything, leaves no trace. -/
theorem Books.silent (h : Books history l) (hc : l'.Consistent)
    (hentries : l'.entries.map (fun e => (e.id, e.attempts)) =
      l.entries.map fun e => (e.id, e.attempts))
    (htally : l'.tally = l.tally) (hlast : l'.lastId = l.lastId) : Books history l' where
  consistent := hc
  issued := by rw [hlast, h.issued]
  balanced := by
    have hids : l'.entries.map Entry.id = l.entries.map Entry.id := by
      simpa [List.map_map, Function.comp_def] using congrArg (List.map Prod.fst) hentries
    rw [hids]
    exact h.balanced
  final := h.final
  tallied := by
    simp only [tallies, htally]
    exact h.tallied
  blocks := by
    simp only [tallies, htally]
    exact h.blocks
  counted := by
    rw [hlast]
    exact h.counted
  attempts := by
    intro e he
    have hm : (e.id, e.attempts) ∈ l.entries.map fun e => (e.id, e.attempts) :=
      hentries ▸ List.mem_map_of_mem he
    obtain ⟨o, ho, heq⟩ := List.mem_map.1 hm
    obtain ⟨hid, hattempts⟩ := Prod.mk.inj heq
    rw [← hattempts, ← hid]
    exact h.attempts o ho

/-- An event that is no ending and takes no count leaves the counts as they are. -/
theorem Books.tallied_snoc (h : Books history l) {x : Event} (htaken : x.taken? = none)
    (hending : x.ending? = none) (htally : l'.tally = l.tally) (ending : Ending) :
    ((tallies (history ++ [x]) l').map (Tally.number · ending)).sum =
      (history ++ [x]).countP fun x => x.ending? == some ending := by
  have ht := h.tallied ending
  rw [sum_tallies] at ht
  rw [sum_tallies, filterMap_snoc, htaken, htally, List.countP_append, ← ht]
  simp [hending]

theorem Books.blocks_snoc (h : Books history l) {x : Event} (htaken : x.taken? = none)
    (hending : x.ending? = none) (htally : l'.tally = l.tally) (b : BlockId) :
    (∃ t ∈ tallies (history ++ [x]) l', b ∈ t.failedBlocks) ↔
      ∃ e, Event.removed e .failed ∈ history ++ [x] ∧ e.move.block.id = b := by
  have hb := h.blocks b
  have hnone : ¬∃ e, Event.removed e .failed = x ∧ e.move.block.id = b := by
    rintro ⟨e, rfl, -⟩
    cases hending
  rw [exists_tallies] at hb
  rw [exists_tallies, filterMap_snoc, htaken, htally, exists_removed_snoc, ← hb, or_iff_left hnone,
    Option.toList_none, List.append_nil]

/-- A new entry gets the next number. -/
theorem Books.inserted (h : Books history l) (hi : l.insert m = (l', some id)) :
    Books (history ++ [.inserted id]) l' := by
  have hc := h.consistent.insert hi
  obtain ⟨-, rfl, rfl⟩ := insert_eq_some hi
  refine ⟨hc, ?_, ?_, h.final_append ?_, h.tallied_snoc rfl rfl rfl, h.blocks_snoc rfl rfl rfl,
    fun id hid => ?_, fun e he => ?_⟩
  · rw [filterMap_snoc, h.issued, List.range'_1_concat, Nat.add_comm]
    rfl
  · simp only [filterMap_snoc, Event.inserted?, Event.removed?, Option.toList_some,
      Option.toList_none, List.append_nil, List.map_append, List.map_cons, List.map_nil]
    refine (h.balanced.append_right _).trans ?_
    rw [List.append_assoc, List.append_assoc]
    exact List.perm_append_comm.append_left _
  · rintro id ⟨⟩ hremoved
    exact absurd (h.removed_le hremoved) (Nat.not_succ_le_self _)
  · have hid : Event.counted id ∈ history := by simpa using hid
    exact Nat.le_succ_of_le (h.counted id hid)
  · rw [count_counted_snoc (x := .inserted _) nofun]
    rcases List.mem_append.1 he with he | he
    · exact h.attempts e he
    · obtain rfl := List.mem_singleton.1 he
      have hnone : Event.counted (l.lastId + 1) ∉ history := fun hid =>
        absurd (h.counted _ hid) (Nat.not_succ_le_self _)
      exact (List.count_eq_zero.2 hnone).symm

/-- A failed attempt at a live move is counted with its entry. -/
theorem Books.counted_snoc {s : EntryState} (h : Books history l) (hc : l'.Consistent)
    (he : l.entries = front ++ e :: back)
    (he' : l'.entries = front ++ { e with attempts := e.attempts + 1, state := s } :: back)
    (htally : l'.tally = l.tally) (hlast : l'.lastId = l.lastId) :
    Books (history ++ [.counted e.id]) l' := by
  have hids : l'.entries.map Entry.id = l.entries.map Entry.id := by
    rw [he, he', List.map_append, List.map_append]
    rfl
  have hlive : e.id ∈ l.entries.map Entry.id := by
    rw [he]
    exact List.mem_map_of_mem (List.mem_append_right _ List.mem_cons_self)
  have hn := h.consistent.nodup
  rw [he] at hn
  obtain ⟨hfront, hback⟩ := Keyed.key_ne hn
  have hcount : ∀ id, (history ++ [Event.counted e.id]).count (.counted id) =
      history.count (.counted id) + if e.id = id then 1 else 0 := by
    intro id
    rw [List.count_append, List.count_singleton]
    simp
  refine ⟨hc, ?_, ?_, h.final_append ?_, h.tallied_snoc rfl rfl htally, h.blocks_snoc rfl rfl htally,
    fun id hid => ?_, fun o ho => ?_⟩
  · rw [filterMap_snoc, hlast, h.issued]
    exact List.append_nil _
  · rw [filterMap_snoc, filterMap_snoc, hids]
    simpa [Event.inserted?, Event.removed?] using h.balanced
  · rintro id ⟨⟩ hremoved
    exact h.not_live hremoved hlive
  · rw [hlast]
    rcases List.mem_append.1 hid with hid | hid
    · exact h.counted id hid
    · obtain ⟨⟩ := List.mem_singleton.1 hid
      obtain ⟨o, ho, hoe⟩ := List.mem_map.1 hlive
      exact hoe ▸ h.consistent.numbered o ho
  · rw [hcount]
    have hold : ∀ o ∈ l.entries, o.id ≠ e.id → o.attempts =
        history.count (.counted o.id) + if e.id = o.id then 1 else 0 := by
      intro o ho hne
      rw [if_neg (Ne.symm hne), Nat.add_zero]
      exact h.attempts o ho
    rw [he'] at ho
    rw [he] at hold
    rcases List.mem_append.1 ho with ho | ho
    · exact hold o (List.mem_append_left _ ho) (hfront o ho)
    · rcases List.mem_cons.1 ho with rfl | ho
      · have hattempts := h.attempts e (he ▸ List.mem_append_right _ List.mem_cons_self)
        rw [if_pos rfl]
        exact congrArg (· + 1) hattempts
      · exact hold o (List.mem_append_right _ (List.mem_cons_of_mem _ ho)) (hback o ho)

/-- A move that has ended is counted in one way, and its entry is gone for good. -/
theorem Books.removed (h : Books history l) (he : l.entries = front ++ e :: back) (ending : Ending) :
    Books (history ++ [.removed e ending]) (l.complete e.id ending).1 := by
  have he' := complete_split h.consistent he ending
  have htally := tally_complete_split h.consistent he ending
  have hmem : ∀ o, o ∈ front ++ back → o ∈ l.entries := by
    rw [he]
    exact (List.sublist_cons_self e back).append_left front |>.subset
  refine ⟨h.consistent.complete e.id ending, ?_, ?_, h.final_append ?_, fun other => ?_, fun b => ?_,
    fun id hid => ?_, fun o ho => ?_⟩
  · rw [filterMap_snoc, lastId_complete, h.issued]
    exact List.append_nil _
  · have hb := h.balanced
    simp only [filterMap_snoc, Event.inserted?, Event.removed?, Option.toList_none,
      Option.toList_some, List.append_nil]
    rw [he']
    rw [he, List.map_append, List.map_cons] at hb
    refine hb.trans ?_
    rw [List.map_append, ← List.append_assoc]
    refine (List.perm_middle.append_right _).trans ?_
    exact (List.perm_append_singleton e.id _).symm
  · rintro id ⟨⟩ hremoved
    refine h.not_live hremoved ?_
    rw [he]
    exact List.mem_map_of_mem (List.mem_append_right _ List.mem_cons_self)
  · have ht := h.tallied other
    rw [sum_tallies] at ht
    rw [sum_tallies, filterMap_snoc, htally, Tally.number_count, List.countP_append,
      List.countP_singleton, ← ht]
    simp [Event.taken?, Event.ending?, Nat.add_assoc]
  · have hb := h.blocks b
    rw [exists_tallies] at hb
    have hlast : (∃ o, Event.removed o .failed = .removed e ending ∧ o.move.block.id = b) ↔
        ending = .failed ∧ e.move.block.id = b := by
      constructor
      · rintro ⟨o, ⟨⟩, hid⟩
        exact ⟨rfl, hid⟩
      · rintro ⟨rfl, hid⟩
        exact ⟨e, rfl, hid⟩
    rw [exists_tallies, filterMap_snoc, htally, Tally.mem_failedBlocks_count, exists_removed_snoc,
      ← hb, hlast]
    simp only [Event.taken?, Option.toList_none, List.append_nil, or_assoc]
  · rw [lastId_complete]
    exact h.counted id (by simpa using hid)
  · rw [he'] at ho
    rw [count_counted_snoc (x := .removed e ending) nofun]
    exact h.attempts o (hmem o ho)

/-- The count of ended moves starts again when it has been taken. -/
theorem Books.taken (h : Books history l) : Books (history ++ [.taken l.tally]) l.takeTally.1 := by
  refine ⟨h.consistent.congr rfl rfl rfl, ?_, ?_, h.final_append nofun, fun ending => ?_, fun b => ?_,
    fun id hid => ?_, fun e he => ?_⟩
  · rw [filterMap_snoc, h.issued]
    exact List.append_nil _
  · simp only [filterMap_snoc, Event.inserted?, Event.removed?, Option.toList_none, List.append_nil]
    exact h.balanced
  · have ht := h.tallied ending
    have hzero : l.takeTally.1.tally.number ending = 0 := by cases ending <;> rfl
    rw [sum_tallies] at ht
    rw [sum_tallies, filterMap_snoc, List.countP_append, ← ht, hzero]
    simp [Event.taken?, Event.ending?]
  · have hb := h.blocks b
    rw [exists_tallies] at hb
    have hzero : b ∉ l.takeTally.1.tally.failedBlocks := List.not_mem_nil
    have hnone : ¬∃ o, Event.removed o .failed = .taken l.tally ∧ o.move.block.id = b := by
      rintro ⟨o, ⟨⟩, -⟩
    rw [exists_tallies, filterMap_snoc, exists_removed_snoc, ← hb, or_iff_left hzero,
      or_iff_left hnone]
    simp only [Event.taken?, Option.toList_some, List.mem_append, List.mem_singleton,
      or_and_right, exists_or, exists_eq_left]
  · exact h.counted id (by simpa using hid)
  · rw [count_counted_snoc (x := .taken l.tally) nofun]
    exact h.attempts e he

/-! ### Whole histories -/

/-- A move that has ended had got its number before, and nothing happens to it afterwards. -/
theorem Books.around_removed (h : Books history l) {before after : List Event} {ending : Ending}
    (hs : history = before ++ .removed e ending :: after) :
    .inserted e.id ∈ before ∧ ∀ x ∈ after, x.about? ≠ some e.id := by
  have hfinal := h.final
  rw [hs] at hfinal
  have hafter : ∀ x ∈ after, x.about? ≠ some e.id := fun x hx =>
    (List.pairwise_cons.1 (List.pairwise_append.1 hfinal).2.1).1 x hx e.id rfl
  have hremoved : e.id ∈ history.filterMap Event.removed? :=
    List.mem_filterMap.2 ⟨_, hs ▸ List.mem_append_right _ List.mem_cons_self, rfl⟩
  have hissued := h.balanced.symm.subset (List.mem_append_right _ hremoved)
  obtain ⟨x, hx, hid⟩ := List.mem_filterMap.1 hissued
  obtain rfl : x = .inserted e.id := by
    cases x <;> cases hid
    rfl
  refine ⟨?_, hafter⟩
  rw [hs] at hx
  rcases List.mem_append.1 hx with hx | hx
  · exact hx
  · rcases List.mem_cons.1 hx with hx | hx
    · cases hx
    · exact absurd rfl (hafter _ hx)

/-- Every move that has ended has done so in one of three ways. -/
theorem length_removed (history : List Event) : (history.filterMap Event.removed?).length =
    (history.countP fun x => x.ending? == some .succeeded) +
      (history.countP fun x => x.ending? == some .failed) +
        history.countP fun x => x.ending? == some .cancelled := by
  induction history with
  | nil => rfl
  | cons x rest ih =>
    rw [List.countP_cons, List.countP_cons, List.countP_cons]
    cases x with
    | removed e ending =>
      show (rest.filterMap Event.removed?).length + 1 = _
      rw [ih]
      cases ending <;> simp [Event.ending?] <;> omega
    | _ => exact ih

/-- No move is lost: each is live, or in one of the counts. -/
theorem Books.length_issued (h : Books history l) : (history.filterMap Event.inserted?).length =
    l.size + ((tallies history l).map fun t => t.succeeded + t.failed + t.cancelled).sum := by
  have hlength := h.balanced.length_eq
  rw [List.length_append, List.length_map, length_removed, ← h.tallied, ← h.tallied, ← h.tallied,
    ← List.sum_map_add, ← List.sum_map_add] at hlength
  exact hlength

/-! ### Turns -/

theorem books_empty : Books [] empty where
  consistent := consistent_empty
  issued := rfl
  balanced := .nil
  final := .nil
  tallied := by
    intro ending
    cases ending <;> rfl
  blocks := by simp [tallies, empty, Tally.zero]
  counted := nofun
  attempts := nofun

theorem Books.conclude (h : Books history l) (id : MoveId) (ending : Ending) :
    Books (history ++ (l.conclude id ending).2) (l.conclude id ending).1 := by
  rw [Ledger.conclude]
  cases hget : l.get? id with
  | none =>
    have hnone : l.complete id ending = (l, none) := by rw [Ledger.complete, hget]
    rw [hnone]
    simpa using h
  | some e =>
    obtain ⟨rfl, front, back, he⟩ := split_of_get? hget
    have hsome : (l.complete e.id ending).2 = some e := by rw [Ledger.complete, hget]
    rw [hsome]
    exact h.removed he ending

theorem Books.countAttempt (h : Books history l) (id : MoveId) (maxAttempts : Nat) :
    (l.countAttempt id maxAttempts = (l, none)) ∨
      (∃ retry, (l.countAttempt id maxAttempts).2 = some retry) ∧
        Books (history ++ [.counted id]) (l.countAttempt id maxAttempts).1 := by
  have hc := h.consistent.countAttempt id maxAttempts
  have htally := tally_countAttempt l id maxAttempts
  have hlast := lastId_countAttempt l id maxAttempts
  rw [Ledger.countAttempt] at *
  cases hget : l.get? id with
  | none => exact .inl rfl
  | some e =>
    rw [hget] at hc htally hlast
    obtain ⟨rfl, front, back, he⟩ := split_of_get? hget
    refine .inr ?_
    dsimp only at hc htally hlast ⊢
    split at hc
    · rename_i hlt
      rw [if_pos hlt] at htally hlast ⊢
      refine ⟨⟨_, rfl⟩, h.counted_snoc (s := .pending) hc he ?_ htally hlast⟩
      exact update_split h.consistent he _
    · rename_i hge
      rw [if_neg hge] at htally hlast ⊢
      refine ⟨⟨_, rfl⟩, h.counted_snoc (s := e.state) hc he ?_ htally hlast⟩
      exact update_split h.consistent he _

/-- A change of one entry keeps what it does not touch. -/
theorem map_update {β : Type} {f : Entry → Entry} {g : Entry → β} (hg : ∀ e, g (f e) = g e) :
    (l.update id f).entries.map g = l.entries.map g := by
  rw [update, List.map_map]
  refine List.map_congr_left fun e _ => ?_
  rw [Function.comp_apply]
  split
  · exact hg e
  · rfl

theorem Books.enter (h : Books history l) (call : Call) :
    Books (history ++ (l.enter call).2.1) (l.enter call).1 := by
  have hsilent : ∀ {l' : Ledger}, Books history l' → Books (history ++ []) l' := by
    intro l' h'
    rw [List.append_nil]
    exact h'
  cases call with
  | insert m =>
    rw [Ledger.enter]
    cases hi : (l.insert m).2 with
    | none =>
      rw [Ledger.insert, if_pos (insert_eq_none_iff.1 hi)]
      exact hsilent h
    | some id => exact h.inserted (Prod.ext rfl hi)
  | fail id maxAttempts =>
    rw [Ledger.enter]
    rcases h.countAttempt id maxAttempts with hnone | ⟨⟨retry, hretry⟩, hbooks⟩
    · rw [hnone]
      exact hsilent h
    · generalize l.countAttempt id maxAttempts = result at *
      obtain ⟨l', answer⟩ := result
      obtain rfl : answer = some retry := hretry
      cases retry <;> exact hbooks
  | complete id ending => exact h.conclude id ending
  | takeTally => exact h.taken
  | claim =>
    refine hsilent (h.silent h.consistent.claim ?_ rfl rfl)
    show List.map _ (List.map _ l.entries) = _
    rw [List.map_map]
    rfl
  | resume id =>
    refine hsilent (h.silent (h.consistent.resume id) ?_ (tally_resume l id) (lastId_resume l id))
    show List.map _ (l.resume id).1.entries = _
    rw [Ledger.resume]
    split
    · split
      · exact map_update fun _ => rfl
      · rfl
    · rfl
  | holds _ _ _ => exact hsilent h
  | get _ => exact hsilent h
  | size => exact hsilent h
  | countIn _ => exact hsilent h

end Ledger

namespace Desk

variable {d : Desk}

/-- The books stay right whichever client has its turn. -/
theorem books_turn (h : Ledger.Books d.history d.ledger) (client : Nat) :
    Ledger.Books (d.turn client).history (d.turn client).ledger := by
  rw [turn]
  split
  · exact h
  · rename_i c _
    dsimp only
    rw [Client.turn]
    split
    · exact h.conclude _ _
    · exact h.enter _
    · simpa using h

theorem books_run (h : Ledger.Books d.history d.ledger) (order : List Nat) :
    Ledger.Books (d.run order).history (d.run order).ledger := by
  induction order generalizing d with
  | nil => exact h
  | cons client rest ih => exact ih (books_turn h client)

/-- Whatever the order in which clients have a ledger to themselves: every new entry has got a number of
its own, which belongs to a live entry or to one that has left the table, once and for good; every move
that has ended is in one of the counts and in the way it has ended, and the blocks of the failed ones are
the failed blocks of the counts; and a live entry has as many attempts as were counted on it. -/
theorem run_conserves (programs : List (List Ledger.Call)) (order : List Nat) :
    let d := (start programs).run order
    let issued := d.history.filterMap Ledger.Event.inserted?
    let removed := d.history.filterMap Ledger.Event.removed?
    let tallies := d.history.filterMap Ledger.Event.taken? ++ [d.ledger.tally]
    issued.length =
        d.ledger.size + (tallies.map fun t => t.succeeded + t.failed + t.cancelled).sum ∧
      issued.Nodup ∧ removed.Nodup ∧
      issued.Perm (d.ledger.entries.map Entry.id ++ removed) ∧
      (∀ before e ending after, d.history = before ++ .removed e ending :: after →
        .inserted e.id ∈ before ∧ ∀ x ∈ after, x.about? ≠ some e.id) ∧
      (∀ ending, (tallies.map (Tally.number · ending)).sum =
        d.history.countP fun x => x.ending? == some ending) ∧
      (∀ b, (∃ t ∈ tallies, b ∈ t.failedBlocks) ↔
        ∃ e, .removed e .failed ∈ d.history ∧ e.move.block.id = b) ∧
      ∀ e ∈ d.ledger.entries, e.attempts = d.history.count (.counted e.id) := by
  intro d issued removed tallies
  have h : Ledger.Books d.history d.ledger := books_run Ledger.books_empty order
  have hissued : issued.Nodup := by
    show (d.history.filterMap _).Nodup
    rw [h.issued]
    exact List.nodup_range'
  have hboth := h.balanced.nodup_iff.1 hissued
  exact ⟨h.length_issued, hissued, (List.nodup_append.1 hboth).2.1, h.balanced,
    fun before e ending after hs => h.around_removed hs, h.tallied, h.blocks, h.attempts⟩

/-- A move that another client completes between the two parts of its last failure has succeeded, and has
not failed. -/
example : ((start [[.insert default, .fail 1 1], [.complete 1 .succeeded]]).run
    [0, 0, 1, 0]).ledger.tally = ⟨1, 0, 0, []⟩ := by decide

end Desk

end StorageTiering
