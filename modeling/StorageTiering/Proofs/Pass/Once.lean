import StorageTiering.Proofs.Ledger.Calls
import StorageTiering.Proofs.Pass.Again
import StorageTiering.Proofs.Pass.Room
/-!
# A replica is scheduled once

A pass shares its ledger with other passes and with those who execute the moves. Two memories keep it from
scheduling a move again: the ledger for as long as the move is live, whoever asks, and the pass itself for
good.

* `Ledger.Follows` — entries keep their numbers and their moves, or leave; new entries get new numbers.
* `Pass.Event`, `Pass.after` — what can happen between two calls of a pass, by whomever.
* `Pass.scheduleReplica_cases` — all that scheduling one replica can come to.
* `Pass.follows_after`, `Pass.committed_after` — what lasts of a move, whatever happens.
* `Pass.scheduleReplica_once` — what is scheduled is not scheduled again.
-/

namespace StorageTiering

namespace Ledger

variable {l l' l'' : Ledger} {id : MoveId} {e : Entry} {m : Move}

/-- What a ledger has become: an entry with an old number was there before, with the same move. -/
structure Follows (l l' : Ledger) : Prop where
  lastId : l.lastId ≤ l'.lastId
  kept : ∀ e' ∈ l'.entries, e'.id ≤ l.lastId → ∃ e ∈ l.entries, e.id = e'.id ∧ e.move = e'.move

theorem Follows.refl (l : Ledger) : l.Follows l := ⟨Nat.le_refl _, fun e he _ => ⟨e, he, rfl, rfl⟩⟩

theorem Follows.trans (h : l.Follows l') (h' : l'.Follows l'') : l.Follows l'' := by
  refine ⟨h.lastId.trans h'.lastId, fun e'' he'' hold => ?_⟩
  obtain ⟨e', he', hid', hmove'⟩ := h'.kept e'' he'' (hold.trans h.lastId)
  obtain ⟨e, he, hid, hmove⟩ := h.kept e' he' (hid' ▸ hold)
  exact ⟨e, he, hid.trans hid', hmove.trans hmove'⟩

/-- Entries that stay what they are but for their state and their attempts. -/
theorem follows_of_map {f : Entry → Entry} (hentries : l'.entries = l.entries.map f)
    (hf : ∀ e, (f e).id = e.id ∧ (f e).move = e.move) (hlast : l'.lastId = l.lastId) : l.Follows l' := by
  refine ⟨hlast.ge, fun e' he' _ => ?_⟩
  rw [hentries] at he'
  obtain ⟨e, he, rfl⟩ := List.mem_map.1 he'
  exact ⟨e, he, (hf e).1.symm, (hf e).2.symm⟩

/-- Entries of which some leave. -/
theorem follows_of_subset (hentries : l'.entries ⊆ l.entries) (hlast : l'.lastId = l.lastId) :
    l.Follows l' :=
  ⟨hlast.ge, fun e he _ => ⟨e, hentries he, rfl, rfl⟩⟩

theorem follows_update (l : Ledger) (id : MoveId) {f : Entry → Entry}
    (hf : ∀ e, (f e).id = e.id ∧ (f e).move = e.move) : l.Follows (l.update id f) := by
  refine follows_of_map rfl (fun e => ?_) rfl
  split
  · exact hf e
  · exact ⟨rfl, rfl⟩

theorem follows_insert (l : Ledger) (m : Move) : l.Follows (l.insert m).1 := by
  rw [insert]
  split
  · exact .refl l
  · refine ⟨Nat.le_succ _, fun e he hold => ?_⟩
    rcases List.mem_append.1 he with he | he
    · exact ⟨e, he, rfl, rfl⟩
    · -- the new number is none of the old ones
      rw [List.mem_singleton.1 he] at hold
      exact absurd hold (Nat.not_succ_le_self _)

theorem follows_resume (l : Ledger) (id : MoveId) : l.Follows (l.resume id).1 := by
  rw [resume]
  split
  · split
    · exact l.follows_update id fun _ => ⟨rfl, rfl⟩
    · exact .refl l
  · exact .refl l

theorem follows_complete (l : Ledger) (id : MoveId) (ending : Ending) : l.Follows (l.complete id ending).1 := by
  rw [complete]
  split
  · exact .refl l
  · exact follows_of_subset List.filter_sublist.subset rfl

theorem follows_countAttempt (l : Ledger) (id : MoveId) (maxAttempts : Nat) :
    l.Follows (l.countAttempt id maxAttempts).1 := by
  rw [countAttempt]
  split
  · exact .refl l
  · dsimp only
    split <;> exact l.follows_update id fun _ => ⟨rfl, rfl⟩

theorem follows_fail (l : Ledger) (id : MoveId) (maxAttempts : Nat) : l.Follows (l.fail id maxAttempts).1 := by
  have hcount := l.follows_countAttempt id maxAttempts
  rw [fail]
  split
  all_goals
    rename_i heq
    rw [heq] at hcount
  · exact hcount
  · exact hcount
  · exact hcount.trans (follows_complete _ id .failed)

/-- The next number is not live. -/
theorem Consistent.get?_succ_lastId (h : l.Consistent) : l.get? (l.lastId + 1) = none := by
  refine List.find?_eq_none.2 fun e he hid => ?_
  have hle := h.numbered e he
  rw [beq_iff_eq.1 hid] at hle
  exact Nat.not_succ_le_self _ hle

/-- Whatever a ledger is asked, numbers keep their moves. -/
theorem follows_answer (l : Ledger) (call : Call) : l.Follows (l.answer call).1 := by
  cases call with
  | insert m => exact l.follows_insert m
  | claim => exact follows_of_map rfl (fun _ => ⟨rfl, rfl⟩) rfl
  | resume id => exact l.follows_resume id
  | fail id maxAttempts => exact l.follows_fail id maxAttempts
  | complete id ending => exact l.follows_complete id ending
  | takeTally => exact follows_of_subset (List.Subset.refl _) rfl
  | holds _ _ _ => exact .refl l
  | get _ => exact .refl l
  | size => exact .refl l
  | countIn _ => exact .refl l

/-- A number that is still live belongs to the move that it had. -/
theorem Follows.move_eq (h : l.Follows l') (hc : l.Consistent) (he : e ∈ l.entries) {e' : Entry}
    (he' : e' ∈ l'.entries) (hid : e'.id = e.id) : e'.move = e.move := by
  obtain ⟨o, ho, hoid, homove⟩ := h.kept e' he' (hid ▸ hc.numbered e he)
  rw [← homove, List.inj_on_of_nodup_map hc.nodup ho he (hoid.trans hid)]

/-- So it keeps the key of this move taken. -/
theorem Follows.holds (h : l.Follows l') (hc : l.Consistent) (hc' : l'.Consistent) (he : e ∈ l.entries)
    (hlive : (l'.get? e.id).isSome) {types : List StorageType} (ht : e.move.targetType ∈ types) :
    l'.holds e.move.block.id e.move.source.type types := by
  obtain ⟨e', hget⟩ := Option.isSome_iff_exists.1 hlive
  obtain ⟨hid, front, back, hsplit⟩ := split_of_get? hget
  have he' : e' ∈ l'.entries := hsplit ▸ List.mem_append_right _ List.mem_cons_self
  have hmove : e'.move = e.move := h.move_eq hc he he' hid
  exact (hc'.holds_iff _ _ _).2 ⟨e', he', by rw [hmove], by rw [hmove], hmove ▸ ht⟩

end Ledger

namespace Pass

/-- The pass with the ledger as others have left it. -/
def withLedger (p : Pass) (l : Ledger) : Pass := { p with ledger := l }

/-- What can happen to a pass and to the ledger that it shares. -/
inductive Event
  /-- The pass is called. -/
  | call (c : Call)
  /-- Another pass over the ledger is called, in whatever state it is. -/
  | other (q : Pass) (c : Call)
  /-- Somebody else calls the ledger. -/
  | ledger (c : Ledger.Call)
  /-- Somebody else counts a failed attempt, and has still to end the move if it was the last. -/
  | attempt (id : MoveId) (maxAttempts : Nat)

/-- The pass and its ledger after an event. -/
def next (p : Pass) : Event → Pass
  | .call c => p.call c
  | .other q c => p.withLedger ((q.withLedger p.ledger).call c).ledger
  | .ledger c => p.withLedger (p.ledger.answer c).1
  | .attempt id maxAttempts => p.withLedger (p.ledger.countAttempt id maxAttempts).1

/-- The pass and its ledger after events, one after another. -/
def after (p : Pass) (events : List Event) : Pass := events.foldl next p

variable {p q : Pass} {b : ListedBlock} {source : Replica} {types : List StorageType} {ms : List Move}
  {G : ListedBlock → Replica → Offer → Prop}

/-! ### One call -/

/-- What scheduling one replica can come to: a move is booked, or nothing has changed. -/
theorem scheduleReplica_cases (p : Pass) (b : ListedBlock) (source : Replica) (types : List StorageType) :
    (∃ o ledger id, o.type ∈ types ∧ p.Books b source o ledger id ∧
      p.scheduleReplica b source types = (p.commit b source o ledger, true)) ∨
    p.scheduleReplica b source types = (p, false) := by
  have htries := p.tries b source types
  rw [scheduleReplica]
  generalize p.tryReplica b source types = result at htries
  cases htries with
  | booked htype hbooks => exact .inl ⟨_, _, _, htype, hbooks, rfl⟩
  | committed _ => exact .inr rfl
  | pending _ => exact .inr rfl
  | noTarget => exact .inr rfl

theorem scheduleReplica_of_committed (h : (b.block.id, source.storage) ∈ p.committed) :
    p.scheduleReplica b source types = (p, false) := by
  rw [scheduleReplica, tryReplica, if_pos (by simpa using h)]

theorem scheduleReplica_of_holds (h : p.ledger.holds b.block.id source.type types) :
    p.scheduleReplica b source types = (p, false) := by
  rw [scheduleReplica, tryReplica]
  by_cases hcommitted : p.committed.contains (b.block.id, source.storage)
  · rw [if_pos hcommitted]
  · rw [if_neg hcommitted, if_pos h]

/-! ### What lasts -/

theorem Schedules.follows (h : Schedules G p ms q) : p.ledger.Follows q.ledger := by
  induction h with
  | nothing => exact .refl _
  | @book ms q b source o ledger id _ _ hb ih =>
    have hinsert := q.ledger.follows_insert (moveTo b source o)
    rw [hb.inserted] at hinsert
    exact ih.trans hinsert
  | note _ _ _ ih => exact ih

theorem Schedules.consistent (h : Schedules G p ms q) (hc : p.ledger.Consistent) : q.ledger.Consistent := by
  induction h with
  | nothing => exact hc
  | book _ _ hb ih => exact ih.insert hb.inserted
  | note _ _ _ ih => exact ih

theorem consistent_call (hc : p.ledger.Consistent) (c : Call) : (p.call c).ledger.Consistent := by
  obtain ⟨ms, hs⟩ := exists_schedules_call p c
  exact hs.consistent hc

theorem follows_call (p : Pass) (c : Call) : p.ledger.Follows (p.call c).ledger := by
  obtain ⟨ms, hs⟩ := exists_schedules_call p c
  exact hs.follows

theorem committed_call (p : Pass) (c : Call) : p.committed ⊆ (p.call c).committed := by
  obtain ⟨ms, hs⟩ := exists_schedules_call p c
  rw [hs.remembers.1]
  exact List.subset_append_right _ _

theorem consistent_next (hc : p.ledger.Consistent) (event : Event) : (p.next event).ledger.Consistent := by
  cases event with
  | call c => exact consistent_call hc c
  | other q c => exact consistent_call (p := q.withLedger p.ledger) hc c
  | ledger c => exact hc.answer c
  | attempt id maxAttempts => exact hc.countAttempt id maxAttempts

theorem follows_next (p : Pass) (event : Event) : p.ledger.Follows (p.next event).ledger := by
  cases event with
  | call c => exact p.follows_call c
  | other q c => exact follows_call (q.withLedger p.ledger) c
  | ledger c => exact p.ledger.follows_answer c
  | attempt id maxAttempts => exact p.ledger.follows_countAttempt id maxAttempts

theorem committed_next (p : Pass) (event : Event) : p.committed ⊆ (p.next event).committed := by
  cases event with
  | call c => exact p.committed_call c
  | other _ _ => exact List.Subset.refl _
  | ledger _ => exact List.Subset.refl _
  | attempt _ _ => exact List.Subset.refl _

/-- Whatever happens, the ledger stays consistent. -/
theorem consistent_after (hc : p.ledger.Consistent) (events : List Event) : (p.after events).ledger.Consistent := by
  induction events generalizing p with
  | nil => exact hc
  | cons event rest ih => exact ih (consistent_next hc event)

/-- Whatever happens, numbers keep their moves. -/
theorem follows_after (p : Pass) (events : List Event) : p.ledger.Follows (p.after events).ledger := by
  induction events generalizing p with
  | nil => exact .refl _
  | cons event rest ih => exact (follows_next p event).trans (ih (p.next event))

/-- Whatever happens, the pass forgets no replica that it moves. -/
theorem committed_after (p : Pass) (events : List Event) : p.committed ⊆ (p.after events).committed := by
  induction events generalizing p with
  | nil => exact List.Subset.refl _
  | cons event rest ih => exact List.Subset.trans (committed_next p event) (ih (p.next event))

/-- As long as an entry is live, no pass over the ledger schedules the same logical move. -/
theorem scheduleReplica_of_live {e : Entry} (hc : p.ledger.Consistent) (he : e ∈ p.ledger.entries)
    (hblock : e.move.block.id = b.block.id) (hsource : e.move.source.type = source.type)
    (htarget : e.move.targetType ∈ types) (events : List Event)
    (hlive : ((p.after events).ledger.get? e.id).isSome) (hq : q.ledger = (p.after events).ledger) :
    q.scheduleReplica b source types = (q, false) := by
  refine scheduleReplica_of_holds ?_
  rw [hq, ← hblock, ← hsource]
  exact (follows_after p events).holds hc (consistent_after hc events) he hlive htarget

/-- A pass does not move a replica again. -/
theorem scheduleReplica_after_of_committed (h : (b.block.id, source.storage) ∈ p.committed)
    (events : List Event) :
    (p.after events).scheduleReplica b source types = (p.after events, false) :=
  scheduleReplica_of_committed (committed_after p events h)

/-- What comes of scheduling one replica, whatever the state of the pass. If a move is scheduled, the ledger
has got one entry, which is pending: it is of this block and this replica, goes to a storage of one of the
types, and has a new number. Whatever happens then, to the pass or by others who use the ledger: as long as the
entry is live, neither the pass nor any other one over the ledger schedules a move of the block from the type of
the replica to types among which is that of the entry; and the pass itself schedules no move of the block from
the storage of the replica, be the entry live or not. If no move is scheduled, neither the ledger nor anything
that the pass knows has changed. -/
theorem scheduleReplica_once (hledger : p.ledger.Consistent) (b : ListedBlock) (source : Replica)
    (types : List StorageType) :
    let result := p.scheduleReplica b source types
    (result.2 = true → ∃ e, result.1.ledger.entries = p.ledger.entries ++ [e] ∧
      e.state = .pending ∧ e.attempts = 0 ∧ p.ledger.get? e.id = none ∧
      e.move.block = b.block ∧ e.move.source = source ∧ e.move.targetType ∈ types ∧
      ∀ (events : List Event) (b' : ListedBlock) (source' : Replica) (types' : List StorageType),
        b'.block.id = b.block.id →
        let later := result.1.after events
        ((later.ledger.get? e.id).isSome → source'.type = source.type → e.move.targetType ∈ types' →
          ∀ q : Pass, q.ledger = later.ledger → q.scheduleReplica b' source' types' = (q, false)) ∧
        (source'.storage = source.storage → later.scheduleReplica b' source' types' = (later, false))) ∧
    (result.2 = false → result.1 = p) := by
  intro result
  rcases p.scheduleReplica_cases b source types with ⟨o, ledger, id, htype, hbooks, hresult⟩ | hresult
  · have hbooked : result = (p.commit b source o ledger, true) := hresult
    obtain ⟨-, hid, hl⟩ := Ledger.insert_eq_some hbooks.inserted
    have hentries : ledger.entries = p.ledger.entries ++ [⟨id, moveTo b source o, .pending, 0⟩] := by rw [hl]
    have hentry : ⟨id, moveTo b source o, .pending, 0⟩ ∈ ledger.entries :=
      hentries ▸ List.mem_append_right _ (List.mem_singleton.2 rfl)
    have hc : (p.commit b source o ledger).ledger.Consistent := hledger.insert hbooks.inserted
    rw [hbooked]
    refine ⟨fun _ => ⟨_, hentries, rfl, rfl, hid ▸ hledger.get?_succ_lastId, rfl, rfl, htype, ?_⟩,
      fun hfalse => nomatch hfalse⟩
    intro events b' source' types' hblock later
    refine ⟨fun hlive hsource htarget q hq => ?_, fun hstorage => ?_⟩
    · exact scheduleReplica_of_live hc hentry hblock.symm hsource.symm htarget events hlive hq
    · refine scheduleReplica_after_of_committed ?_ events
      rw [hblock, hstorage]
      exact List.mem_cons_self
  · have hsame : result = (p, false) := hresult
    rw [hsame]
    exact ⟨fun htrue => (nomatch htrue), fun _ => rfl⟩

/-- The first move of a ledger is claimed, and fails once. -/
def setback : List Event := [.ledger .claim, .ledger (.fail 1 3)]

/-- While the move of one replica waits for its second attempt, another pass schedules none for the other one.
Once it has succeeded another pass would move the same replica again, and the pass itself does not. Where there
is no destination, nothing changes. -/
theorem scheduleReplica_once_setback :
    let fresh := start 5 apart .standard .empty
    let block := twoReplicas 2 .disk .disk
    let source : Replica := ⟨"a", .disk, "a0", none⟩
    let scheduled := (fresh.scheduleReplica block source [.archive]).1
    let waiting := scheduled.after setback
    let done := scheduled.after (setback ++ [.ledger (.complete 1 .succeeded)])
    waiting.ledger.countIn .pending = 1 ∧ done.ledger.size = 0 ∧
    ((fresh.withLedger waiting.ledger).scheduleReplica block ⟨"b", .disk, "b0", none⟩ [.ssd, .archive]).2 = false ∧
    ((fresh.withLedger done.ledger).scheduleReplica block source [.archive]).2 = true ∧
    (done.scheduleReplica block source [.archive]).2 = false ∧
    (fresh.scheduleReplica block source [.provided]).1.ledger = fresh.ledger := by
  intro fresh block source scheduled waiting done
  have hledger : fresh.ledger.Consistent := Ledger.consistent_empty
  obtain ⟨honce, -⟩ := scheduleReplica_once hledger block source [.archive]
  obtain ⟨e, hentries, -, -, -, -, -, -, hlater⟩ := honce (by decide +kernel)
  obtain rfl : e = ⟨1, moveTo block source ⟨"c", "/r", "c0", .archive, 9⟩, .pending, 0⟩ := by
    have hone : scheduled.ledger.entries =
        [⟨1, moveTo block source ⟨"c", "/r", "c0", .archive, 9⟩, .pending, 0⟩] := by decide +kernel
    exact List.singleton_inj.1 (hentries.symm.trans hone)
  obtain ⟨hlive, -⟩ := hlater setback block ⟨"b", .disk, "b0", none⟩ [.ssd, .archive] rfl
  obtain ⟨-, hgone⟩ := hlater (setback ++ [.ledger (.complete 1 .succeeded)]) block source [.archive] rfl
  obtain ⟨-, hnothing⟩ := scheduleReplica_once hledger block source [.provided]
  refine ⟨by decide +kernel, by decide +kernel, ?_, by decide +kernel, ?_, ?_⟩
  · exact congrArg Prod.snd (hlive (by decide +kernel) rfl (by decide) (fresh.withLedger waiting.ledger) rfl)
  · exact congrArg Prod.snd (hgone rfl)
  · exact congrArg Pass.ledger (hnothing (by decide +kernel))

end Pass

end StorageTiering
