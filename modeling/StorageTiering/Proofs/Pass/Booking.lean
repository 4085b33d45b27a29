import StorageTiering.Pass
import StorageTiering.Proofs.Cluster.Plan
import StorageTiering.Proofs.Ledger
/-!
# What a pass books

A pass puts moves into its ledger one at a time, and remembers of each of them what keeps later ones
out of its way.

* `Pass.chooseTarget_eq_some` — a destination is an offer of a wanted type, and a good target.
* `Pass.Books` — one move can be booked; `Pass.tries` — all that trying a replica can come to.
* `Pass.Schedules` — the moves that lead from one state of a pass to another, the latest first.
* `Pass.Schedules.remembers`, `Pass.Schedules.apart`, `Pass.Schedules.room` — what is true of all moves
  of a pass together.
-/

namespace StorageTiering

namespace Pass

variable {p q r : Pass} {b : ListedBlock} {source : Replica} {o : Offer} {types : List StorageType}
  {ms ms' : List Move} {node : NodeId} {storage : StorageId}

/-! ### Destinations -/

theorem isGoodTarget_iff : p.isGoodTarget b source o ↔
    o.type.isMovable ∧ o.storage ≠ source.storage ∧ (o.node = source.node ∨ b.hosts o.node = false) ∧
      (b.block.id, o.node) ∉ p.claimed ∧ b.block.len ≤ p.freeOn o := by
  simp [isGoodTarget, and_assoc]

theorem mem_of_best? {offers : List Offer} (h : p.best? offers = some o) : o ∈ offers := by
  induction offers generalizing o with
  | nil => cases h
  | cons first rest ih =>
    rw [best?] at h
    split at h
    · exact Option.some.inj h ▸ List.mem_cons_self
    · rename_i other hother
      split at h
      · exact Option.some.inj h ▸ List.mem_cons_of_mem _ (ih hother)
      · exact Option.some.inj h ▸ List.mem_cons_self

/-- A destination is an offer of a wanted type, and a good target. -/
theorem chooseTarget_eq_some (h : p.chooseTarget b source types = some o) :
    o.type ∈ types ∧ o ∈ p.inventory.offers ∧ p.isGoodTarget b source o := by
  obtain ⟨locality, -, h⟩ := List.exists_of_findSome?_eq_some h
  obtain ⟨type, htype, h⟩ := List.exists_of_findSome?_eq_some h
  obtain ⟨hof, hgood⟩ := List.mem_filter.1 (mem_of_best? h)
  obtain ⟨hoffer, ht⟩ := List.mem_filter.1 hof
  obtain rfl : o.type = type := by simpa using ht
  exact ⟨htype, hoffer, (Bool.and_eq_true _ _ ▸ hgood).2⟩

/-! ### One replica -/

/-- The move of a replica to an offer can be booked. -/
structure Books (p : Pass) (b : ListedBlock) (source : Replica) (o : Offer) (ledger : Ledger)
    (id : MoveId) : Prop where
  fresh : (b.block.id, source.storage) ∉ p.committed
  offered : o ∈ p.inventory.offers
  good : p.isGoodTarget b source o
  inserted : p.ledger.insert (moveTo b source o) = (ledger, some id)

/-- What trying a replica can come to. -/
inductive Tries (p : Pass) (b : ListedBlock) (source : Replica) (types : List StorageType) :
    Pass × Attempted → Prop
  | booked {o : Offer} {ledger : Ledger} {id : MoveId} (htype : o.type ∈ types) (h : p.Books b source o ledger id) :
      Tries p b source types (p.commit b source o ledger, .scheduled o.type)
  | committed (h : (b.block.id, source.storage) ∈ p.committed) : Tries p b source types (p, .committed)
  | pending {type : StorageType} (h : p.ledger.takes ⟨b.block.id, source.type, type⟩) :
      Tries p b source types (p, .alreadyPending)
  | noTarget : Tries p b source types (p, .noTarget)

theorem tries (p : Pass) (b : ListedBlock) (source : Replica) (types : List StorageType) :
    p.Tries b source types (p.tryReplica b source types) := by
  rw [tryReplica]
  split
  · rename_i hc
    exact .committed (by simpa using hc)
  · rename_i hc
    split
    · rename_i hh
      obtain ⟨type, -, ht⟩ := List.any_eq_true.1 hh
      exact .pending ht
    · split
      · exact .noTarget
      · rename_i o ho
        obtain ⟨htype, hoffer, hgood⟩ := chooseTarget_eq_some ho
        split
        · rename_i heq
          exact .pending (Ledger.insert_eq_none_iff.1 (congrArg Prod.snd heq))
        · rename_i heq
          exact .booked htype ⟨by simpa using hc, hoffer, hgood, heq⟩

/-! ### Many replicas -/

/-- The moves that lead from one state of a pass to another, the latest first. What is booked is
within `G`. -/
inductive Schedules (G : ListedBlock → Replica → Offer → Prop) (p : Pass) : List Move → Pass → Prop
  | nothing : Schedules G p [] p
  | book {ms : List Move} {q : Pass} {b : ListedBlock} {source : Replica} {o : Offer}
      {ledger : Ledger} {id : MoveId} (h : Schedules G p ms q) (hg : G b source o)
      (hb : q.Books b source o ledger id) :
      Schedules G p (moveTo b source o :: ms) (q.commit b source o ledger)
  | note {ms : List Move} {q : Pass} (h : Schedules G p ms q) (seen : List BlockId) (report : ScanReport) :
      Schedules G p ms { q with seen := seen, report := report }

variable {G G' : ListedBlock → Replica → Offer → Prop}

theorem Schedules.mono (h : Schedules G p ms q) (hg : ∀ {b source o}, G b source o → G' b source o) :
    Schedules G' p ms q := by
  induction h with
  | nothing => exact .nothing
  | book _ hG hb ih => exact ih.book (hg hG) hb
  | note _ seen report ih => exact ih.note seen report

theorem Schedules.trans (h : Schedules G p ms q) (h' : Schedules G q ms' r) :
    Schedules G p (ms' ++ ms) r := by
  induction h' with
  | nothing => exact h
  | book _ hG hb ih => exact ih.book hG hb
  | note _ seen report ih => exact ih.note seen report

/-- A pass keeps its limit, its inventory and its suite. -/
theorem Schedules.frame (h : Schedules G p ms q) :
    q.maxMoves = p.maxMoves ∧ q.inventory = p.inventory ∧ q.suite = p.suite := by
  induction h with
  | nothing => exact ⟨rfl, rfl, rfl⟩
  | book _ _ _ ih => exact ih
  | note _ _ _ ih => exact ih

/-- A pass remembers every move that it has booked. -/
theorem Schedules.remembers (h : Schedules G p ms q) :
    q.committed = ms.map (fun m => (m.block.id, m.source.storage)) ++ p.committed ∧
      q.claimed = ms.map (fun m => (m.block.id, m.targetNode)) ++ p.claimed := by
  induction h with
  | nothing => exact ⟨rfl, rfl⟩
  | book _ _ _ ih => exact ⟨congrArg (List.cons _) ih.1, congrArg (List.cons _) ih.2⟩
  | note _ _ _ ih => exact ih

/-- The ledger gets the moves in the order of booking. -/
theorem Schedules.booked (h : Schedules G p ms q) :
    q.ledger.entries.map Entry.move = p.ledger.entries.map Entry.move ++ ms.reverse := by
  induction h with
  | nothing => simp
  | book _ _ hb ih =>
    obtain ⟨-, -, he⟩ := Ledger.insert_eq_some hb.inserted
    simp [commit, he, ih]
  | note _ _ _ ih => exact ih

/-- The ledger gets the moves in the order of booking, and stays consistent. -/
theorem Schedules.ledgered (h : Schedules G p ms q) (hc : p.ledger.Consistent) (hf : p.ledger.Fresh) :
    q.ledger.entries.map Entry.move = p.ledger.entries.map Entry.move ++ ms.reverse ∧
      q.ledger.Consistent ∧ q.ledger.Fresh ∧ q.ledger.tally = p.ledger.tally := by
  refine ⟨h.booked, ?_⟩
  induction h with
  | nothing => exact ⟨hc, hf, rfl⟩
  | book _ _ hb ih =>
    obtain ⟨hcons, hfresh, htally⟩ := ih
    obtain ⟨-, -, he⟩ := Ledger.insert_eq_some hb.inserted
    exact ⟨hcons.insert hb.inserted, hfresh.insert hb.inserted, he ▸ htally⟩
  | note _ _ _ ih => exact ih

/-- A pass that has booked nothing has learned nothing. -/
theorem Schedules.eq_of_nil (h : Schedules G p ms q) (hn : ms = []) :
    q.committed = p.committed ∧ q.ledger = p.ledger := by
  induction h with
  | nothing => exact ⟨rfl, rfl⟩
  | book _ _ _ _ => cases hn
  | note _ _ _ ih => exact ih hn

/-- Every move of a pass goes to an offer that was a good target when the move was booked. -/
theorem Schedules.offered (h : Schedules G p ms q) : ∀ m ∈ ms, ∃ b source o,
    m = moveTo b source o ∧ G b source o ∧ o ∈ p.inventory.offers ∧ o.type.isMovable ∧
      o.storage ≠ source.storage ∧ (o.node = source.node ∨ b.hosts o.node = false) := by
  induction h with
  | nothing =>
    intro m hm
    exact absurd hm List.not_mem_nil
  | @book ms q b source o ledger id h hG hb ih =>
    intro m hm
    rcases List.mem_cons.1 hm with rfl | hm
    · obtain ⟨hmov, hne, hnode, -, -⟩ := isGoodTarget_iff.1 hb.good
      exact ⟨b, source, o, rfl, hG, h.frame.2.1 ▸ hb.offered, hmov, hne, hnode⟩
    · exact ih m hm
  | note _ _ _ ih => exact ih

/-- The moves of a pass do not get in each other's way: a replica is moved once, and a node receives
one replica of a block. -/
theorem Schedules.apart (h : Schedules G p ms q) : ms.Pairwise Move.Apart := by
  induction h with
  | nothing => exact List.Pairwise.nil
  | @book ms q b source o ledger id h _ hb ih =>
    obtain ⟨hcommitted, hclaimed⟩ := h.remembers
    obtain ⟨-, -, -, hclaim, -⟩ := isGoodTarget_iff.1 hb.good
    refine ih.cons fun m hm hid => ⟨fun hs => hb.fresh ?_, fun hn => hclaim ?_⟩
    · rw [hcommitted]
      exact List.mem_append_left _ (List.mem_map.2 ⟨m, hm, Prod.ext hid.symm hs.symm⟩)
    · rw [hclaimed]
      exact List.mem_append_left _ (List.mem_map.2 ⟨m, hm, Prod.ext hid.symm hn.symm⟩)
  | note _ _ _ ih => exact ih

/-! ### Room for all moves -/

theorem incomingTo_commit (p : Pass) (b : ListedBlock) (source : Replica) (o : Offer)
    (ledger : Ledger) (storage : StorageId) :
    (p.commit b source o ledger).incomingTo storage =
      (if storage = o.storage then b.block.len else 0) + p.incomingTo storage := by
  have hadd : ∀ (l : List (StorageId × Nat)) (n : Nat),
      l.foldl (fun total i => if i.1 == storage then total + i.2 else total) n =
        n + l.foldl (fun total i => if i.1 == storage then total + i.2 else total) 0 := by
    intro l
    induction l with
    | nil => intro n; rfl
    | cons i rest ih =>
      intro n
      rw [List.foldl_cons, List.foldl_cons, ih, ih (if i.1 == storage then 0 + i.2 else 0)]
      split <;> omega
  simp only [incomingTo, commit, List.foldl_cons]
  rw [hadd]
  by_cases h : o.storage = storage
  · simp [h]
  · simp [h, Ne.symm h]

/-- The moves of a pass to a storage bring no more bytes than the pass has counted under its name. -/
theorem Schedules.load_le_incomingTo (h : Schedules G p ms q) (node : NodeId) (storage : StorageId) :
    Move.load ms node storage ≤ q.incomingTo storage := by
  induction h with
  | nothing => exact Nat.zero_le _
  | @book ms q b source o ledger id _ _ _ ih =>
    rw [Move.load_cons, incomingTo_commit]
    refine Nat.add_le_add ?_ ih
    split
    · rename_i heq
      rw [if_pos (show storage = o.storage from heq.2)]
      exact Nat.le_refl _
    · exact Nat.zero_le _
  | note _ _ _ ih => exact ih

/-- The moves of a pass to an offer bring no more bytes than were free there, if no node lists a
storage in two ways. -/
theorem Schedules.room (h : Schedules G p ms q)
    (hd : ∀ o ∈ p.inventory.offers, ∀ o' ∈ p.inventory.offers,
      o.node = o'.node → o.storage = o'.storage → o = o') :
    ∀ o ∈ p.inventory.offers, Move.load ms o.node o.storage ≤ o.remaining := by
  induction h with
  | nothing => exact fun o _ => Nat.zero_le _
  | @book ms q b source target ledger id h _ hb ih =>
    intro o ho
    have hle := ih o ho
    rw [Move.load_cons]
    split
    · rename_i heq
      have htarget : target ∈ p.inventory.offers := h.frame.2.1 ▸ hb.offered
      obtain rfl := hd o ho target htarget heq.1 heq.2
      obtain ⟨-, -, -, -, hfree⟩ := isGoodTarget_iff.1 hb.good
      have hin := h.load_le_incomingTo o.node o.storage
      rw [freeOn] at hfree
      show b.block.len + _ ≤ _
      omega
    · omega
  | note _ _ _ ih => exact ih

end Pass

end StorageTiering
