import StorageTiering.Ledger
import StorageTiering.Proofs.Keyed
/-!
# The ledger and its index

* `Ledger.Consistent` — numbers ascend, and the index holds the key of every entry and no other.
* `Ledger.Clear` — a ledger without entries and keys; `Ledger.Fresh` — every entry waits for its first
  attempt.
* `Ledger.insert_eq_none_iff`, `Ledger.insert_eq_some` — when a move is refused, and what a new entry
  adds.
* `Ledger.complete_split`, `Ledger.fail_again_split`, `Ledger.fail_giveUp_split`,
  `Ledger.resume_split` — what the steps of a move's life do to its entry, where it stands.
-/

namespace StorageTiering.Ledger

variable {l l' : Ledger} {id : MoveId} {e : Entry} {m : Move} {front back : List Entry}

/-- Numbers ascend, and the index holds the key of every entry and no other. -/
structure Consistent (l : Ledger) : Prop where
  ascending : (l.entries.map Entry.id).Pairwise (· < ·)
  numbered : ∀ e ∈ l.entries, e.id ≤ l.lastId
  indexed : l.keys.Perm (l.entries.map fun e => (e.move.key, e.id))
  distinct : (l.entries.map fun e => e.move.key).Nodup

/-- No move is live, and no key is taken. -/
def Clear (l : Ledger) : Prop := l.entries = [] ∧ l.keys = []

/-- Every live move waits for its first attempt. -/
def Fresh (l : Ledger) : Prop := ∀ e ∈ l.entries, e.state = .pending ∧ e.attempts = 0

theorem clear_empty : Ledger.empty.Clear := ⟨rfl, rfl⟩

theorem Clear.consistent (h : l.Clear) : l.Consistent := by
  obtain ⟨he, hk⟩ := h
  refine ⟨?_, ?_, ?_, ?_⟩ <;> simp [he, hk]

theorem Clear.fresh (h : l.Clear) : l.Fresh := by
  intro e he
  rw [h.1] at he
  exact absurd he List.not_mem_nil

/-- If every live move waits for its first attempt, all of them are claimed. -/
theorem Fresh.claim (h : l.Fresh) : l.claim.2 = l.entries.map fun e => (e.id, e.move) := by
  have hpending : l.entries.filter (fun e => e.state == .pending) = l.entries :=
    List.filter_eq_self.2 fun e he => by simp [(h e he).1]
  rw [Ledger.claim, hpending]

theorem Consistent.nodup (h : l.Consistent) : (l.entries.map Entry.id).Nodup :=
  h.ascending.imp Nat.ne_of_lt

/-- A consistent ledger without entries has no keys either. -/
theorem Consistent.clear (h : l.Consistent) (he : l.entries = []) : l.Clear :=
  ⟨he, List.perm_nil.1 (by simpa [he] using h.indexed)⟩

/-! ### Which keys are taken -/

theorem takes_iff_mem (l : Ledger) (key : MoveKey) : l.takes key ↔ key ∈ l.keys.map Prod.fst := by
  rw [takes]
  induction l.keys with
  | nil => simp
  | cons k rest ih =>
    rw [List.lookup_cons, List.map_cons, List.mem_cons]
    by_cases h : key = k.1
    · simp [h]
    · rw [beq_false_of_ne h]
      simp only [h, false_or]
      exact ih

/-- The keys that are taken are those of the entries. -/
theorem Consistent.takes_iff (h : l.Consistent) (key : MoveKey) :
    l.takes key ↔ ∃ e ∈ l.entries, e.move.key = key := by
  rw [takes_iff_mem, (h.indexed.map Prod.fst).mem_iff]
  simp

theorem Consistent.holds_iff (h : l.Consistent) (block : BlockId) (sourceType : StorageType)
    (targetTypes : List StorageType) : l.holds block sourceType targetTypes ↔
      ∃ e ∈ l.entries, e.move.block.id = block ∧ e.move.source.type = sourceType ∧
        e.move.targetType ∈ targetTypes := by
  simp only [holds, List.any_eq_true, h.takes_iff, Move.key, MoveKey.mk.injEq]
  constructor
  · rintro ⟨t, ht, e, he, hb, hs, rfl⟩
    exact ⟨e, he, hb, hs, ht⟩
  · rintro ⟨e, he, hb, hs, ht⟩
    exact ⟨e.move.targetType, ht, e, he, hb, hs, rfl⟩

/-! ### New entries -/

theorem insert_eq_none_iff : (l.insert m).2 = none ↔ l.takes m.key := by
  rw [insert]
  split <;> simp [*]

/-- A new entry stands behind the others, under a new number and with a free key. -/
theorem insert_eq_some (h : l.insert m = (l', some id)) :
    l.takes m.key = false ∧ id = l.lastId + 1 ∧
      l' = { l with
        entries := l.entries ++ [⟨id, m, .pending, 0⟩],
        keys := (m.key, id) :: l.keys,
        lastId := id } := by
  rw [insert] at h
  split at h
  · cases h
  · rename_i hfree
    cases h
    exact ⟨by simpa using hfree, rfl, rfl⟩

theorem Consistent.insert (h : l.Consistent) (hi : l.insert m = (l', some id)) : l'.Consistent := by
  obtain ⟨hfree, rfl, rfl⟩ := insert_eq_some hi
  refine ⟨?_, fun e he => ?_, ?_, ?_⟩
  · simp only [List.map_append, List.map_cons, List.map_nil, List.pairwise_append]
    refine ⟨h.ascending, List.pairwise_singleton _ _, fun n hn k hk => ?_⟩
    obtain ⟨e, he, rfl⟩ := List.mem_map.1 hn
    rw [List.mem_singleton.1 hk]
    exact Nat.lt_succ_of_le (h.numbered e he)
  · rcases List.mem_append.1 he with he | he
    · exact Nat.le_succ_of_le (h.numbered e he)
    · obtain rfl := List.mem_singleton.1 he
      exact Nat.le_refl _
  · simp only [List.map_append, List.map_cons, List.map_nil]
    exact (h.indexed.cons _).trans (List.perm_append_singleton _ _).symm
  · simp only [List.map_append, List.map_cons, List.map_nil, List.nodup_append]
    refine ⟨h.distinct, List.nodup_singleton _, fun k hk k' hk' he => ?_⟩
    obtain ⟨e, hmem, rfl⟩ := List.mem_map.1 hk
    rw [List.mem_singleton.1 hk'] at he
    rw [(h.takes_iff m.key).2 ⟨e, hmem, he⟩] at hfree
    exact absurd hfree (by decide)

theorem Fresh.insert (h : l.Fresh) (hi : l.insert m = (l', some id)) : l'.Fresh := by
  obtain ⟨-, -, rfl⟩ := insert_eq_some hi
  intro e he
  rcases List.mem_append.1 he with he | he
  · exact h e he
  · rw [List.mem_singleton.1 he]
    exact ⟨rfl, rfl⟩

/-! ### The life of a move -/

theorem get?_split (h : l.Consistent) (he : l.entries = front ++ e :: back) :
    l.get? e.id = some e := by
  have hn := h.nodup
  rw [he] at hn
  rw [get?, he]
  exact Keyed.find?_split hn

/-- The entry of a number changed, where it stands. -/
theorem update_split (h : l.Consistent) (he : l.entries = front ++ e :: back) (f : Entry → Entry) :
    (l.update e.id f).entries = front ++ f e :: back := by
  have hn := h.nodup
  rw [he] at hn
  rw [update]
  dsimp only
  rw [he]
  exact Keyed.map_split hn f

/-- An ended move is gone from the table. -/
theorem complete_split (h : l.Consistent) (he : l.entries = front ++ e :: back) (ending : Ending) :
    (l.complete e.id ending).1.entries = front ++ back := by
  have hn := h.nodup
  rw [he] at hn
  rw [complete, get?_split h he]
  show l.entries.filter (fun o => o.id != e.id) = front ++ back
  rw [he]
  exact Keyed.filter_split hn

/-- A change of entries that keeps their numbers and moves keeps the index right. -/
theorem Consistent.congr (h : l.Consistent)
    (hmap : l'.entries.map (fun e => (e.move, e.id)) = l.entries.map fun e => (e.move, e.id))
    (hkeys : l'.keys = l.keys) (hlast : l'.lastId = l.lastId) : l'.Consistent := by
  have hof : ∀ {β : Type} (g : Move × MoveId → β),
      (l'.entries.map fun e => g (e.move, e.id)) = l.entries.map fun e => g (e.move, e.id) := by
    intro β g
    simpa [List.map_map, Function.comp_def] using congrArg (List.map g) hmap
  refine ⟨?_, fun e he => ?_, ?_, ?_⟩
  · have hid := hof Prod.snd
    exact hid ▸ h.ascending
  · have hm : e.id ∈ l'.entries.map Entry.id := List.mem_map_of_mem he
    have hid : l'.entries.map Entry.id = l.entries.map Entry.id := hof Prod.snd
    rw [hid] at hm
    obtain ⟨o, ho, hoe⟩ := List.mem_map.1 hm
    rw [← hoe, hlast]
    exact h.numbered o ho
  · rw [hkeys, hof fun p => (p.1.key, p.2)]
    exact h.indexed
  · rw [hof fun p => p.1.key]
    exact h.distinct

theorem Consistent.update (h : l.Consistent) (id : MoveId) {f : Entry → Entry}
    (hid : ∀ e, (f e).id = e.id) (hmove : ∀ e, (f e).move = e.move) :
    (l.update id f).Consistent := by
  refine h.congr ?_ rfl rfl
  simp only [Ledger.update, List.map_map]
  refine List.map_congr_left fun e _ => ?_
  simp only [Function.comp_apply]
  split
  · rw [hid, hmove]
  · rfl

theorem Consistent.claim (h : l.Consistent) : l.claim.1.Consistent := by
  refine h.congr ?_ rfl rfl
  simp only [Ledger.claim, List.map_map]
  exact List.map_congr_left fun e _ => rfl

/-- An entry leaves the table together with its key. -/
theorem Consistent.complete (h : l.Consistent) (id : MoveId) (ending : Ending) :
    (l.complete id ending).1.Consistent := by
  rw [Ledger.complete]
  split
  · exact h
  · rename_i e hget
    have hmem : e ∈ l.entries := List.mem_of_find?_eq_some hget
    -- among the entries, those with another number are those with another key
    have hsame : l.entries.filter (fun o => o.id != e.id) =
        l.entries.filter fun o => o.move.key != e.move.key := by
      refine List.filter_congr fun o ho => ?_
      rw [Bool.eq_iff_iff, bne_iff_ne, bne_iff_ne]
      refine not_congr ⟨fun hid => ?_, fun hkey => ?_⟩
      · rw [List.inj_on_of_nodup_map h.nodup ho hmem hid]
      · rw [List.inj_on_of_nodup_map h.distinct ho hmem hkey]
    have hsub : (l.remove e).entries.Sublist l.entries := List.filter_sublist
    refine ⟨h.ascending.sublist (hsub.map _), fun o ho => h.numbered o (hsub.subset ho), ?_,
      h.distinct.sublist (hsub.map _)⟩
    show (l.keys.filter fun k => k.1 != e.move.key).Perm
      ((l.entries.filter fun o => o.id != e.id).map fun o => (o.move.key, o.id))
    rw [hsame]
    refine (h.indexed.filter _).trans (List.Perm.of_eq ?_)
    rw [List.filter_map]
    rfl

theorem Consistent.countAttempt (h : l.Consistent) (id : MoveId) (maxAttempts : Nat) :
    (l.countAttempt id maxAttempts).1.Consistent := by
  rw [Ledger.countAttempt]
  split
  · exact h
  · dsimp only
    split
    · exact h.update id (fun _ => rfl) fun _ => rfl
    · exact h.update id (fun _ => rfl) fun _ => rfl

theorem Consistent.fail (h : l.Consistent) (id : MoveId) (maxAttempts : Nat) :
    (l.fail id maxAttempts).1.Consistent := by
  have hc := h.countAttempt id maxAttempts
  rw [Ledger.fail]
  split
  · rename_i heq
    rw [heq] at hc
    exact hc
  · rename_i heq
    rw [heq] at hc
    exact hc
  · rename_i heq
    rw [heq] at hc
    exact hc.complete id .failed

theorem Consistent.resume (h : l.Consistent) (id : MoveId) : (l.resume id).1.Consistent := by
  rw [Ledger.resume]
  split
  · split
    · exact h.update id (fun _ => rfl) fun _ => rfl
    · exact h
  · exact h

/-- A failed attempt that is not the last leaves the move pending. -/
theorem fail_again_split {maxAttempts : Nat} (h : l.Consistent)
    (he : l.entries = front ++ e :: back) (hlt : e.attempts + 1 < maxAttempts) :
    (l.fail e.id maxAttempts).2 = .again (e.attempts + 1) ∧
      (l.fail e.id maxAttempts).1.entries =
        front ++ { e with attempts := e.attempts + 1, state := .pending } :: back := by
  rw [fail, countAttempt, get?_split h he]
  simp only [if_pos hlt, true_and]
  exact update_split h he _

/-- The last failed attempt ends the move. -/
theorem fail_giveUp_split {maxAttempts : Nat} (h : l.Consistent)
    (he : l.entries = front ++ e :: back) (hle : maxAttempts ≤ e.attempts + 1) :
    (l.fail e.id maxAttempts).2 = .giveUp (e.attempts + 1) ∧
      (l.fail e.id maxAttempts).1.entries = front ++ back := by
  have hu := update_split h he fun e' => { e' with attempts := e.attempts + 1 }
  have hc : (l.update e.id fun e' => { e' with attempts := e.attempts + 1 }).Consistent :=
    h.update e.id (fun _ => rfl) fun _ => rfl
  rw [fail, countAttempt, get?_split h he]
  simp only [if_neg (Nat.not_lt.2 hle), true_and]
  exact complete_split hc hu .failed

/-- A pending move goes back in flight. -/
theorem resume_split (h : l.Consistent) (he : l.entries = front ++ e :: back)
    (hs : e.state = .pending) :
    (l.resume e.id).1.entries = front ++ { e with state := .inFlight } :: back := by
  rw [resume, get?_split h he]
  simp only [if_pos hs]
  exact update_split h he _

end StorageTiering.Ledger
