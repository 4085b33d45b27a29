import StorageTiering.Proofs.Pass.Moves
/-!
# The space that a pass uses

A pass counts the bytes that it has scheduled under the name of a storage, whatever the node, and a
destination has room beside what is counted under its name.

* `Pass.Call`, `Pass.callAll` — what a pass can be asked for, blocks and single replicas.
* `Move.bytesTo` — the bytes that moves bring to storages of a name; `Pass.Schedules.incomingTo_eq` — a
  pass counts exactly these.
* `Pass.Schedules.bytesTo_le_remaining` — every length that a pass adds leaves the count within what
  the chosen storage had free.
* `Pass.callAll_room` — a pass overcommits no storage, and its counters stay within eight bytes.
-/

namespace StorageTiering

namespace Move

/-- The bytes that moves bring to the storages of a name. -/
def bytesTo (ms : List Move) (storage : StorageId) : Nat :=
  ((ms.filter fun m => m.targetStorage == storage).map fun m => m.block.len).sum

variable {m : Move} {ms ms' : List Move} {storage : StorageId}

theorem bytesTo_cons (m : Move) (ms : List Move) (storage : StorageId) :
    bytesTo (m :: ms) storage =
      (if storage = m.targetStorage then m.block.len else 0) + bytesTo ms storage := by
  rw [bytesTo, List.filter_cons]
  by_cases h : m.targetStorage = storage
  · simp [h, bytesTo]
  · simp [h, Ne.symm h, bytesTo]

theorem bytesTo_perm (h : ms.Perm ms') : bytesTo ms storage = bytesTo ms' storage :=
  ((h.filter _).map _).sum_eq

end Move

namespace Pass

/-- What a pass can be asked for: to examine a listed block, or to schedule the move of one replica to
a storage of one of the types. -/
inductive Call
  | block (b : ListedBlock)
  | replica (b : ListedBlock) (source : Replica) (types : List StorageType)

/-- The pass after a call. -/
def call (p : Pass) : Call → Pass
  | .block b => (p.scheduleBlock b).1
  | .replica b source types => (p.scheduleReplica b source types).1

/-- The pass after calls, one after another. -/
def callAll (p : Pass) (calls : List Call) : Pass := calls.foldl call p

variable {p q : Pass} {ms earlier : List Move} {m : Move} {storage : StorageId}
  {G : ListedBlock → Replica → Offer → Prop}

/-- A call books moves one at a time. -/
theorem exists_schedules_call (p : Pass) (c : Call) :
    ∃ ms, Schedules (fun _ _ _ => True) p ms (p.call c) := by
  cases c with
  | block b =>
    obtain ⟨ms, hs⟩ := exists_surveys_block p b
    exact ⟨ms, hs.schedules.mono fun _ => trivial⟩
  | replica b source types =>
    have hsame : p.call (.replica b source types) = (p.tryReplica b source types).1 := by
      rw [call, scheduleReplica]
      split <;> rename_i heq <;> rw [heq]
    rw [hsame]
    have htries := p.tries b source types
    generalize p.tryReplica b source types = result at htries
    cases htries with
    | booked _ hbooks => exact ⟨_, Schedules.nothing.book trivial hbooks⟩
    | committed _ => exact ⟨[], .nothing⟩
    | pending _ => exact ⟨[], .nothing⟩
    | noTarget => exact ⟨[], .nothing⟩

theorem exists_schedules_callAll (p : Pass) (calls : List Call) :
    ∃ ms, Schedules (fun _ _ _ => True) p ms (p.callAll calls) := by
  induction calls generalizing p with
  | nil => exact ⟨[], .nothing⟩
  | cons c rest ih =>
    obtain ⟨ms, hone⟩ := exists_schedules_call p c
    obtain ⟨ms', hrest⟩ := ih (p.call c)
    exact ⟨ms' ++ ms, hone.trans hrest⟩

/-! ### The counters -/

/-- A pass that starts from nothing has counted the bytes of its moves under the names of their
storages. -/
theorem Schedules.incomingTo_eq (h : Schedules G p ms q) (hp : p.incoming = []) (storage : StorageId) :
    q.incomingTo storage = Move.bytesTo ms storage := by
  induction h with
  | nothing => rw [incomingTo, hp]; rfl
  | book _ _ _ ih => rw [incomingTo_commit, ih, Move.bytesTo_cons]; rfl
  | note _ _ _ ih => exact ih

/-- A move that brings any bytes leaves the count under the name of its storage within what this
storage had free. -/
theorem Schedules.bytesTo_le_remaining (h : Schedules G p ms q) (hp : p.incoming = [])
    (hm : m :: earlier <:+ ms) (hlen : m.block.len ≠ 0) :
    ∃ o ∈ p.inventory.offers, o.node = m.targetNode ∧ o.storage = m.targetStorage ∧
      o.type = m.targetType ∧ Move.bytesTo earlier m.targetStorage + m.block.len ≤ o.remaining := by
  induction h with
  | nothing => exact absurd (List.suffix_nil.1 hm) (List.cons_ne_nil _ _)
  | @book ms q b source o ledger id h _ hb ih =>
    rcases List.suffix_cons_iff.1 hm with heq | hm
    · obtain ⟨rfl, rfl⟩ := List.cons.inj heq
      obtain ⟨-, -, -, -, hfree⟩ := isGoodTarget_iff.1 hb.good
      rw [freeOn, h.incomingTo_eq hp] at hfree
      refine ⟨o, h.frame.2.1 ▸ hb.offered, rfl, rfl, rfl, ?_⟩
      -- only a block of no length fits beside a count that is over what is free
      have hpos : b.block.len ≠ 0 := hlen
      show Move.bytesTo earlier o.storage + b.block.len ≤ o.remaining
      omega
    · exact ih hm
  | note _ _ _ ih => exact ih hm

/-- At every moment a count is zero or within what some storage of its name had free. -/
theorem Schedules.bytesTo_eq_zero_or_le (h : Schedules G p ms q) (hp : p.incoming = [])
    (he : earlier <:+ ms) : Move.bytesTo earlier storage = 0 ∨
      ∃ o ∈ p.inventory.offers, o.storage = storage ∧ Move.bytesTo earlier storage ≤ o.remaining := by
  induction earlier with
  | nil => exact .inl rfl
  | cons m earlier ih =>
    rw [Move.bytesTo_cons]
    by_cases hadds : storage = m.targetStorage ∧ m.block.len ≠ 0
    · obtain ⟨rfl, hlen⟩ := hadds
      obtain ⟨o, ho, -, hs, -, hle⟩ := h.bytesTo_le_remaining hp he hlen
      exact .inr ⟨o, ho, hs, by rw [if_pos rfl, Nat.add_comm]; exact hle⟩
    · have hnone : (if storage = m.targetStorage then m.block.len else 0) = 0 := by
        split
        · rename_i hs
          exact not_not.1 (not_and.1 hadds hs)
        · rfl
      rw [hnone, Nat.zero_add]
      exact ih ((List.suffix_cons m earlier).trans he)

/-- So no sum reaches a bound that no free space reaches. -/
theorem Schedules.bytesTo_lt (h : Schedules G p ms q) (hp : p.incoming = []) (hm : m :: earlier <:+ ms)
    {bound : Nat} (hpos : 0 < bound) (hbound : ∀ o ∈ p.inventory.offers, o.remaining < bound) :
    Move.bytesTo earlier m.targetStorage + m.block.len < bound := by
  have hsum : Move.bytesTo (m :: earlier) m.targetStorage =
      Move.bytesTo earlier m.targetStorage + m.block.len := by
    rw [Move.bytesTo_cons, if_pos rfl, Nat.add_comm]
  rw [← hsum]
  rcases h.bytesTo_eq_zero_or_le hp hm with hzero | ⟨o, ho, -, hle⟩
  · rw [hzero]
    exact hpos
  · exact Nat.lt_of_le_of_lt hle (hbound o ho)

/-- However a pass is called, with any ledger, it schedules no more bytes onto a storage than were free
there, if no node offers two storages of one name. Its counter of a name is the sum of the lengths that it
has scheduled onto storages of this name. A length that is added, if it is not zero, leaves the counter
within what the chosen storage had free, and no sum needs more than eight bytes if no free space does. -/
theorem callAll_room (maxMoves : Nat) (inventory : Inventory) (suite : Suite) (l : Ledger)
    (calls : List Call) (hdistinct : ∀ o ∈ inventory.offers, ∀ o' ∈ inventory.offers,
      o.node = o'.node → o.storage = o'.storage → o = o') :
    let p := (start maxMoves inventory suite l).callAll calls
    let ms := p.ledger.since l
    (∀ o ∈ inventory.offers, Move.load ms o.node o.storage ≤ o.remaining) ∧
    (∀ storage, p.incomingTo storage = Move.bytesTo ms storage) ∧
    ∀ front m back, ms = front ++ m :: back →
      (m.block.len ≠ 0 → ∃ o ∈ inventory.offers, o.node = m.targetNode ∧ o.storage = m.targetStorage ∧
        o.type = m.targetType ∧ Move.bytesTo front m.targetStorage + m.block.len ≤ o.remaining) ∧
      ((∀ o ∈ inventory.offers, o.remaining < Text.byteBound 8) →
        Move.bytesTo front m.targetStorage + m.block.len < Text.byteBound 8) := by
  obtain ⟨booked, hs⟩ := exists_schedules_callAll (start maxMoves inventory suite l) calls
  intro p ms
  have hms : ms = booked.reverse := hs.since_eq
  have hperm : ms.Perm booked := hms ▸ List.reverse_perm booked
  refine ⟨fun o ho => ?_, fun storage => ?_, fun front m back hsplit => ?_⟩
  · rw [Move.load_perm hperm]
    exact hs.room hdistinct o ho
  · rw [Move.bytesTo_perm hperm]
    exact hs.incomingTo_eq rfl storage
  · have hbooked : m :: front.reverse <:+ booked := by
      refine ⟨back.reverse, ?_⟩
      rw [← List.reverse_reverse booked, ← hms, hsplit, List.reverse_append, List.reverse_cons,
        List.append_assoc, List.singleton_append]
    rw [← Move.bytesTo_perm (List.reverse_perm front)]
    exact ⟨hs.bytesTo_le_remaining rfl hbooked, hs.bytesTo_lt rfl hbooked (by decide)⟩

/-- Two nodes whose archive storages have one name. -/
def namesakes : Inventory :=
  ⟨[("a", "/r"), ("b", "/r")],
   [⟨"a", "/r", "s0", .disk, 2⟩, ⟨"a", "/r", "s1", .archive, 5⟩, ⟨"b", "/r", "s1", .archive, 3⟩,
    ⟨"b", "/r", "s2", .disk, 0⟩]⟩

/-- A block of one replica on disk. -/
def onDisk (id : BlockId) (len : Nat) (node : NodeId) (storage : StorageId) : ListedBlock :=
  ⟨"/f", "COLD", ⟨id, len, 1⟩, .contiguous 1, [⟨node, .disk, storage, none⟩]⟩

/-- Calls for a block on one node, for one without bytes on the other, and for two single replicas of
which the second finds no room. -/
def namesakeCalls : List Call :=
  [.block (onDisk 1 4 "a" "s0"), .block (onDisk 2 0 "b" "s2"),
   .replica (onDisk 3 1 "a" "s0") ⟨"a", .disk, "s0", none⟩ [.archive],
   .replica (onDisk 4 1 "b" "s2") ⟨"b", .disk, "s2", none⟩ [.archive]]

/-- The block without bytes goes where the counter of the name is over what is free, and the last call
uses the space of the first node up. -/
theorem callAll_room_namesakes : ∃ m m' m'',
    ((start 9 namesakes .standard .empty).callAll namesakeCalls).ledger.since .empty = [m, m', m''] ∧
    (m'.targetNode = "b" ∧ m'.block.len = 0) ∧ (m''.targetNode = "a" ∧ m''.block.len = 1) ∧
    (∀ o ∈ namesakes.offers, Move.load [m, m', m''] o.node o.storage ≤ o.remaining) ∧
    ((start 9 namesakes .standard .empty).callAll namesakeCalls).incomingTo "s1" =
      Move.bytesTo [m, m', m''] "s1" ∧
    (∃ o ∈ namesakes.offers, o.node = "a" ∧ o.storage = "s1" ∧ o.type = .archive ∧
      Move.bytesTo [m, m'] "s1" + 1 ≤ o.remaining) ∧
    Move.bytesTo [m, m'] "s1" + 1 < Text.byteBound 8 := by
  have hms : ((start 9 namesakes .standard .empty).callAll namesakeCalls).ledger.since .empty =
      [⟨"/f", ⟨1, 4, 1⟩, ⟨"a", .disk, "s0", none⟩, .archive, "a", "s1"⟩,
       ⟨"/f", ⟨2, 0, 1⟩, ⟨"b", .disk, "s2", none⟩, .archive, "b", "s1"⟩,
       ⟨"/f", ⟨3, 1, 1⟩, ⟨"a", .disk, "s0", none⟩, .archive, "a", "s1"⟩] := by
    decide +kernel
  obtain ⟨hroom, hcount, hupdates⟩ :=
    callAll_room 9 namesakes .standard .empty namesakeCalls (by decide +kernel)
  rw [hms] at hroom hcount hupdates
  obtain ⟨hchosen, hbound⟩ := hupdates [_, _] _ [] rfl
  exact ⟨_, _, _, hms, ⟨rfl, rfl⟩, ⟨rfl, rfl⟩, hroom, hcount "s1", hchosen (by decide),
    hbound (by decide +kernel)⟩

end Pass

end StorageTiering
