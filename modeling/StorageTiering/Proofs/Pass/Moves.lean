import StorageTiering.Proofs.Moved
import StorageTiering.Proofs.Pass.Survey
/-!
# The moves of a pass

* `Ledger.since` — the moves that a ledger has got since an earlier state of it.
* `ListedBlock.examined?` — of several records of a block, the one that a pass examines.
* `Move.Sound` — what is true of a single move of a pass.
* `Pass.Schedules.since_eq`, `Pass.Schedules.nodup_keys` — the ledger gets every move of a pass, each
  under a key of its own, whatever the ledger was.
* `Pass.exists_schedules`, `Pass.Schedules.sound`, `Pass.Schedules.plans` — the moves of a pass over listed
  blocks are sound, and those of a block are planned beside each other.
* `Pass.exists_plans_since` — the same of the moves that the ledger has got.
-/

namespace StorageTiering

/-- The moves that a ledger has got since an earlier state of it, in the order of numbers. -/
def Ledger.since (l before : Ledger) : List Move :=
  (l.entries.drop before.entries.length).map Entry.move

namespace ListedBlock

/-- The record of a block that a pass examines: the first of those that are listed. -/
def examined? (blocks : List ListedBlock) (id : BlockId) : Option ListedBlock :=
  blocks.find? fun b => b.block.id == id

variable {b b' : ListedBlock} {blocks : List ListedBlock} {id : BlockId} {suite : Suite}
  {d : Difference}

theorem examined?_cons_self (b : ListedBlock) (blocks : List ListedBlock) :
    examined? (b :: blocks) b.block.id = some b := by
  simp [examined?]

theorem examined?_cons_of_ne (h : b.block.id ≠ id) :
    examined? (b :: blocks) id = examined? blocks id := by
  rw [examined?, List.find?_cons_of_neg (by simpa using h), examined?]

theorem difference?_eq_some (h : b.difference? suite = some d) : ∃ needed,
    suite.resolve b.policy b.layout = .ok (.required needed) ∧ d = .between needed b.types := by
  rw [difference?] at h
  split at h
  · rename_i needed hresolve
    exact ⟨needed, hresolve, (Option.some.inj h).symm⟩
  · cases h

end ListedBlock

/-- What is true of a move of a listed block that needs some types: the replica is one of the record, of
a movable type in surplus, and it goes to an offer of the inventory, of another type that is movable and
missing, on another storage. -/
structure Move.Sound (inventory : Inventory) (needed : List StorageType) (b : ListedBlock) (m : Move) :
    Prop extends b.Carries needed m where
  record : m.path = b.path ∧ m.block = b.block
  movable : m.source.type.isMovable ∧ m.targetType.isMovable
  otherType : m.targetType ≠ m.source.type
  offered : ∃ o ∈ inventory.offers,
    o.node = m.targetNode ∧ o.storage = m.targetStorage ∧ o.type = m.targetType

namespace Pass

variable {p q : Pass} {b : ListedBlock} {needed : List StorageType} {m : Move} {ms : List Move}
  {blocks : List ListedBlock} {suite : Suite} {G : ListedBlock → Replica → Offer → Prop}

/-! ### The ledger of a pass -/

/-- The ledger gets the moves in the order of booking. -/
theorem Schedules.since_eq (h : Schedules G p ms q) : q.ledger.since p.ledger = ms.reverse := by
  have happend : ∃ added, q.ledger.entries = p.ledger.entries ++ added ∧
      added.map Entry.move = ms.reverse := by
    induction h with
    | nothing => exact ⟨[], (List.append_nil _).symm, rfl⟩
    | @book ms q b source o ledger id _ _ hb ih =>
      obtain ⟨added, hentries, hmoves⟩ := ih
      obtain ⟨-, -, he⟩ := Ledger.insert_eq_some hb.inserted
      refine ⟨added ++ [⟨id, moveTo b source o, .pending, 0⟩], ?_, ?_⟩
      · simp only [commit, he, hentries, List.append_assoc]
      · rw [List.map_append, hmoves, List.reverse_cons]
        rfl
    | note _ _ _ ih => exact ih
  obtain ⟨added, hentries, hmoves⟩ := happend
  rw [Ledger.since, hentries, List.drop_left, hmoves]

/-- Every move takes a key that was free. -/
theorem Schedules.nodup_keys (h : Schedules G p ms q) : (ms.map Move.key).Nodup := by
  have hkeys : q.ledger.keys.map Prod.fst = ms.map Move.key ++ p.ledger.keys.map Prod.fst ∧
      (ms.map Move.key).Nodup := by
    induction h with
    | nothing => exact ⟨rfl, List.nodup_nil⟩
    | @book ms q b source o ledger id _ _ hb ih =>
      obtain ⟨hkeys, hnodup⟩ := ih
      obtain ⟨hfree, -, he⟩ := Ledger.insert_eq_some hb.inserted
      refine ⟨?_, List.nodup_cons.2 ⟨fun hmem => ?_, hnodup⟩⟩
      · simp only [commit, he, List.map_cons, hkeys, List.cons_append]
      · have htaken : q.ledger.takes (moveTo b source o).key :=
          (Ledger.takes_iff_mem _ _).2 (hkeys ▸ List.mem_append_left _ hmem)
        exact absurd (htaken.symm.trans hfree) (by decide)
    | note _ _ _ ih => exact ih
  exact hkeys.2

/-! ### The moves of listed blocks -/

/-- What a pass over listed blocks may book: the record is the one that it examines and has no fault, and
a replica of a type in surplus goes to a missing type. -/
def Wants (suite : Suite) (blocks : List ListedBlock) (b : ListedBlock) (source : Replica) (o : Offer) :
    Prop :=
  ListedBlock.examined? blocks b.block.id = some b ∧ b.Valid ∧ source ∈ b.replicas ∧
    ∃ needed, suite.resolve b.policy b.layout = .ok (.required needed) ∧
      source.type ∈ (Difference.between needed b.types).surplus ∧
      o.type ∈ (Difference.between needed b.types).missing

theorem exists_schedules (p : Pass) (blocks : List ListedBlock) :
    ∃ ms, Schedules (fun b source o => b.block.id ∉ p.seen ∧ Wants p.suite blocks b source o) p ms
      (p.scheduleAll blocks) := by
  induction blocks generalizing p with
  | nil => exact ⟨[], .nothing⟩
  | cons b rest ih =>
    show ∃ ms, Schedules _ p ms ((p.scheduleBlock b).1.scheduleAll rest)
    obtain ⟨ms', hrest⟩ := ih (p.scheduleBlock b).1
    obtain ⟨ms₀, hone⟩ := exists_surveys_block p b
    -- the records behind the first one are examined if they are of other blocks
    have hlater : Schedules (fun b' source o => b'.block.id ∉ p.seen ∧
        Wants p.suite (b :: rest) b' source o) (p.scheduleBlock b).1 ms'
        ((p.scheduleBlock b).1.scheduleAll rest) := hrest.mono fun ⟨hseen, hex, hw⟩ => by
      rw [hone.seen, not_or] at hseen
      rw [hone.schedules.frame.2.2] at hw
      refine ⟨hseen.1, (ListedBlock.examined?_cons_of_ne fun he => hseen.2 ?_).trans hex, hw⟩
      exact ⟨b, List.mem_cons_self, he⟩
    by_cases hseen : b.block.id ∈ p.seen
    · rw [scheduleBlock_of_seen hseen] at hlater ⊢
      exact ⟨ms', hlater⟩
    · obtain ⟨ms, q, verdict, hj, he⟩ := scheduleBlock_of_new hseen
      have hfirst : Schedules (fun b' source o => b'.block.id ∉ p.seen ∧
          Wants p.suite (b :: rest) b' source o) p ms q :=
          hj.schedules.mono fun ⟨heq, hsource, hv, d, hd, hsurplus, hmissing⟩ => by
        obtain ⟨needed, hresolve, rfl⟩ := ListedBlock.difference?_eq_some hd
        subst heq
        exact ⟨hseen, ListedBlock.examined?_cons_self _ _, hv, hsource, needed, hresolve, hsurplus, hmissing⟩
      rw [he] at hlater ⊢
      exact ⟨ms' ++ ms, (hfirst.note _ _).trans hlater⟩

/-- Every move of a pass is sound. -/
theorem Schedules.sound (h : Schedules (Wants suite blocks) p ms q) (hm : m ∈ ms) :
    ∃ b needed, ListedBlock.examined? blocks m.block.id = some b ∧
      suite.resolve b.policy b.layout = .ok (.required needed) ∧ m.Sound p.inventory needed b := by
  obtain ⟨b, source, o, rfl, ⟨hex, hv, hsource, needed, hresolve, hsurplus, hmissing⟩, ho, hmovable, hne,
    hnode⟩ := h.offered m hm
  refine ⟨b, needed, hex, hresolve, ⟨hv, hsource, hsurplus, hmissing, hne, ?_⟩, ⟨rfl, rfl⟩, ⟨?_, hmovable⟩,
    fun he => ?_, o, ho, rfl, rfl, rfl⟩
  · refine hnode.imp_right fun hhosts r hr => ?_
    show r.node ≠ o.node
    simpa using List.any_eq_false.1 hhosts r hr
  · exact (Difference.lt_count_of_mem_surplus hsurplus).1
  · have htype : o.type = source.type := he
    exact Difference.not_mem_surplus hmissing (htype ▸ hsurplus)

/-- The moves of a record that a pass examines are planned beside each other. -/
theorem Schedules.plans (h : Schedules (Wants suite blocks) p ms q)
    (hb : ListedBlock.examined? blocks b.block.id = some b)
    (hresolve : suite.resolve b.policy b.layout = .ok (.required needed)) : b.Plans needed ms where
  carries := by
    intro m hm hid
    obtain ⟨b', needed', hex, hresolve', hsound⟩ := h.sound hm
    obtain rfl : b = b' := Option.some.inj (hb.symm.trans (hid ▸ hex))
    obtain rfl : needed = needed' := by simpa [hresolve] using hresolve'
    exact hsound.toCarries
  apart := h.apart

/-- If the policy of the record asks for nothing, there are no such moves. -/
theorem Schedules.exists_plans (h : Schedules (Wants suite blocks) p ms q)
    (hb : ListedBlock.examined? blocks b.block.id = some b) : ∃ needed, b.Plans needed ms := by
  by_cases hnone : ∃ needed, suite.resolve b.policy b.layout = .ok (.required needed)
  · obtain ⟨needed, hresolve⟩ := hnone
    exact ⟨needed, h.plans hb hresolve⟩
  · refine ⟨[], fun m hm hid => ?_, h.apart⟩
    obtain ⟨b', needed, hex, hresolve, -⟩ := h.sound hm
    obtain rfl : b = b' := Option.some.inj (hb.symm.trans (hid ▸ hex))
    exact absurd ⟨needed, hresolve⟩ hnone

/-- So are the moves of such a record that a pass adds to its ledger. -/
theorem exists_plans_since (maxMoves : Nat) (inventory : Inventory) (suite : Suite) (l : Ledger)
    (hb : ListedBlock.examined? blocks b.block.id = some b) :
    ∃ needed, b.Plans needed (((start maxMoves inventory suite l).scheduleAll blocks).ledger.since l) := by
  obtain ⟨booked, hbooked⟩ := exists_schedules (start maxMoves inventory suite l) blocks
  obtain ⟨needed, hplans⟩ := (hbooked.mono fun hG => hG.2).exists_plans hb
  have hsince : ((start maxMoves inventory suite l).scheduleAll blocks).ledger.since l = booked.reverse :=
    hbooked.since_eq
  exact ⟨needed, hsince ▸ hplans.perm (List.reverse_perm booked).symm⟩

end Pass

end StorageTiering
