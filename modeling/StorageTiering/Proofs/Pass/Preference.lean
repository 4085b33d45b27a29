import StorageTiering.Proofs.Pass.Room
import StorageTiering.Proofs.Pass.Stuck
import Mathlib.Data.Prod.Lex
import Mathlib.Data.String.Basic
import Mathlib.Order.OrderDual
/-!
# Which destination is preferred

A destination is looked for degree by degree of nearness, then type by type, and among the offers that are
left the best is taken. What is found is the least of all good targets in one order.

* `Pass.spaceKey`, `Pass.preference` — what offers are compared by, within one type and degree and in all.
* `Pass.best?_least` — the best of a list of offers is the least of them; `Pass.idxOf_le_of_findSome?` — what
  a search finds first stands at the least position.
* `Pass.chooseTarget_least` — the destination of a replica is the least of all good targets.
-/

namespace StorageTiering

/-- The degrees are ranked as they are listed. -/
theorem Locality.rank_eq_idxOf (locality : Locality) : locality.rank = Locality.all.idxOf locality := by
  cases locality <;> rfl

namespace Pass

variable {p : Pass} {b : ListedBlock} {source : Replica} {types : List StorageType} {o o' : Offer}
  {offers : List Offer}

/-! ### One type at one degree -/

/-- What offers of one type and degree are compared by: the more free bytes beside what the pass has
scheduled the better, then the node, then the storage. -/
def spaceKey (p : Pass) (o : Offer) : Natᵒᵈ ×ₗ NodeId ×ₗ StorageId :=
  toLex (OrderDual.toDual (p.freeOn o), toLex (o.node, o.storage))

theorem isBetter_iff : p.isBetter o o' ↔ p.spaceKey o < p.spaceKey o' := by
  simp only [isBetter, spaceKey, Prod.Lex.toLex_lt_toLex, OrderDual.toDual_lt_toDual, Bool.or_eq_true,
    Bool.and_eq_true, decide_eq_true_eq, beq_iff_eq, OrderDual.toDual_inj]
  rw [@eq_comm _ (p.freeOn o')]

/-- The best of a list of offers is the least of them. -/
theorem best?_least (h : p.best? offers = some o) : ∀ o' ∈ offers, p.spaceKey o ≤ p.spaceKey o' := by
  induction offers generalizing o with
  | nil => cases h
  | cons first rest ih =>
    rw [best?] at h
    cases hrest : p.best? rest with
    | none =>
      rw [hrest] at h
      obtain rfl := Option.some.inj h
      rw [best?_eq_none_iff.1 hrest]
      exact fun o' ho' => (List.mem_singleton.1 ho' ▸ le_refl _)
    | some other =>
      rw [hrest] at h
      have hother := ih hrest
      dsimp only at h
      split at h
      · rename_i hbetter
        obtain rfl := Option.some.inj h
        exact List.forall_mem_cons.2 ⟨(isBetter_iff.1 hbetter).le, hother⟩
      · rename_i hbetter
        obtain rfl := Option.some.inj h
        have hle := not_lt.1 fun hlt => hbetter (isBetter_iff.2 hlt)
        exact List.forall_mem_cons.2 ⟨le_refl _, fun o' ho' => hle.trans (hother o' ho')⟩

theorem mem_candidates_iff {locality : Locality} {type : StorageType} :
    o ∈ p.candidates b source locality type ↔
      o ∈ p.inventory.offers ∧ o.type = type ∧ p.localityOf source o = locality ∧ p.isGoodTarget b source o := by
  simp only [candidates, Inventory.ofType, List.mem_filter, Bool.and_eq_true, beq_iff_eq, and_assoc]

/-! ### All types at all degrees -/

/-- A search stops at the first position at which anything is found. -/
theorem idxOf_le_of_findSome? {α β : Type} [DecidableEq α] {l : List α} {f : α → Option β} {y : β}
    (h : l.findSome? f = some y) :
    ∃ x ∈ l, f x = some y ∧ ∀ x' ∈ l, f x' ≠ none → l.idxOf x ≤ l.idxOf x' := by
  induction l with
  | nil => cases h
  | cons first rest ih =>
    rw [List.findSome?_cons] at h
    cases hfirst : f first with
    | some z =>
      rw [hfirst] at h
      refine ⟨first, List.mem_cons_self, hfirst.trans h, fun x' _ _ => ?_⟩
      rw [List.idxOf_cons_self]
      exact Nat.zero_le _
    | none =>
      rw [hfirst] at h
      obtain ⟨x, hx, hfound, hleast⟩ := ih h
      have hne : ∀ {x'}, f x' ≠ none → first ≠ x' := fun hsome he => hsome (he ▸ hfirst)
      refine ⟨x, List.mem_cons_of_mem _ hx, hfound, fun x' hx' hsome => ?_⟩
      have hlater : x' ∈ rest := (List.mem_cons.1 hx').resolve_left (hne hsome).symm
      rw [List.idxOf_cons_ne _ (hne hsome), List.idxOf_cons_ne _ (hne (by simp [hfound]))]
      exact Nat.succ_le_succ (hleast x' hlater hsome)

/-- What the destinations of a replica are compared by: how near they are to it, then at which position
their type is listed first, then their free bytes, their node and their storage. -/
def preference (p : Pass) (source : Replica) (types : List StorageType) (o : Offer) :
    Nat ×ₗ Nat ×ₗ Natᵒᵈ ×ₗ NodeId ×ₗ StorageId :=
  toLex ((p.localityOf source o).rank, toLex (types.idxOf o.type, p.spaceKey o))

theorem preference_le_iff : p.preference source types o ≤ p.preference source types o' ↔
    (p.localityOf source o).rank < (p.localityOf source o').rank ∨
      (p.localityOf source o).rank = (p.localityOf source o').rank ∧
        (types.idxOf o.type < types.idxOf o'.type ∨
          types.idxOf o.type = types.idxOf o'.type ∧ p.spaceKey o ≤ p.spaceKey o') := by
  simp only [preference, Prod.Lex.toLex_le_toLex]

theorem best?_candidates_ne_none (ho : o ∈ p.inventory.offers) (hgood : p.isGoodTarget b source o) :
    p.best? (p.candidates b source (p.localityOf source o) o.type) ≠ none := by
  intro hnone
  have hmem : o ∈ p.candidates b source (p.localityOf source o) o.type :=
    mem_candidates_iff.2 ⟨ho, rfl, rfl, hgood⟩
  rw [best?_eq_none_iff.1 hnone] at hmem
  exact List.not_mem_nil hmem

/-- A destination is preferred to every other good target. -/
theorem preference_le_of_chooseTarget (h : p.chooseTarget b source types = some o)
    (ho' : o' ∈ p.inventory.offers) (htype' : o'.type ∈ types) (hgood' : p.isGoodTarget b source o') :
    p.preference source types o ≤ p.preference source types o' := by
  -- one search over degrees, and one over types at the degree at which the first ends
  obtain ⟨locality, -, h, hnearest⟩ := idxOf_le_of_findSome? h
  obtain ⟨type, htype, h, hfirst⟩ := idxOf_le_of_findSome? h
  obtain ⟨-, rfl, rfl, -⟩ := mem_candidates_iff.1 (mem_of_best? h)
  have hfound' := best?_candidates_ne_none ho' hgood'
  have hrank : (p.localityOf source o).rank ≤ (p.localityOf source o').rank := by
    rw [Locality.rank_eq_idxOf, Locality.rank_eq_idxOf]
    refine hnearest _ (mem_all_localities _) fun hnone => ?_
    exact hfound' (List.findSome?_eq_none_iff.1 hnone o'.type htype')
  rw [preference_le_iff]
  refine hrank.lt_or_eq.imp_right fun heq => ⟨heq, ?_⟩
  have hsame : p.localityOf source o = p.localityOf source o' := by
    rw [Locality.rank_eq_idxOf, Locality.rank_eq_idxOf] at heq
    exact (List.idxOf_inj (mem_all_localities _)).1 heq
  rw [hsame] at h hfirst
  refine (hfirst o'.type htype' hfound').lt_or_eq.imp_right fun heq => ⟨heq, ?_⟩
  rw [(List.idxOf_inj htype).1 heq] at h
  exact best?_least h o' (mem_candidates_iff.2 ⟨ho', rfl, rfl, hgood'⟩)

/-- Whatever the state of a pass, the record and the types, a replica has no destination exactly if no offer
of a listed type is a good target. Otherwise its destination is a good target of a listed type, and the
least of all of these in the lexicographic order of nearness, the first position of the type in the list, the
free bytes beside what the pass has scheduled (the more the better), the node and the storage. -/
theorem chooseTarget_least (p : Pass) (b : ListedBlock) (source : Replica) (types : List StorageType) :
    (p.chooseTarget b source types = none ↔
      ∀ o ∈ p.inventory.offers, o.type ∈ types → ¬p.isGoodTarget b source o) ∧
    ∀ o, p.chooseTarget b source types = some o →
      o ∈ p.inventory.offers ∧ o.type ∈ types ∧ p.isGoodTarget b source o ∧
      ∀ o' ∈ p.inventory.offers, o'.type ∈ types → p.isGoodTarget b source o' →
        p.preference source types o ≤ p.preference source types o' := by
  refine ⟨chooseTarget_eq_none_iff, fun o h => ?_⟩
  obtain ⟨htype, hoffer, hgood⟩ := chooseTarget_eq_some h
  exact ⟨hoffer, htype, hgood, fun o' ho' htype' hgood' => preference_le_of_chooseTarget h ho' htype' hgood'⟩

/-- Three nodes in one rack, two of them with archives, and one in another rack with a large flash storage. -/
def mixedRacks : Inventory :=
  ⟨[("a", "/r"), ("b", "/r"), ("c", "/r"), ("d", "/q")],
   [⟨"a", "/r", "a0", .disk, 9⟩, ⟨"b", "/r", "b0", .archive, 9⟩, ⟨"b", "/r", "b1", .archive, 9⟩,
    ⟨"c", "/r", "c0", .archive, 12⟩, ⟨"c", "/r", "c1", .disk, 9⟩, ⟨"d", "/q", "d0", .ssd, 50⟩]⟩

/-- The largest archive has got a block, and has less free space than the others since. Flash is listed
first, but an archive is nearer; of two with as much free space the first by name is chosen. -/
theorem chooseTarget_least_mixedRacks :
    let p := ((start 9 mixedRacks .standard .empty).scheduleBlock (onDisk 1 4 "c" "c1")).1
    let source : Replica := ⟨"a", .disk, "a0", none⟩
    let types : List StorageType := [.ssd, .archive]
    let near : Offer := ⟨"b", "/r", "b0", .archive, 9⟩
    let far : Offer := ⟨"d", "/q", "d0", .ssd, 50⟩
    p.chooseTarget (onDisk 2 4 "a" "a0") source types = some near ∧
    p.isGoodTarget (onDisk 2 4 "a" "a0") source far ∧
    p.preference source types near ≤ p.preference source types far ∧
    p.chooseTarget (onDisk 2 60 "a" "a0") source types = none := by
  intro p source types near far
  have hnear : p.chooseTarget (onDisk 2 4 "a" "a0") source types = some near := by decide +kernel
  have hfar : p.isGoodTarget (onDisk 2 4 "a" "a0") source far := by decide +kernel
  obtain ⟨-, -, -, hleast⟩ := (chooseTarget_least p (onDisk 2 4 "a" "a0") source types).2 near hnear
  refine ⟨hnear, hfar, hleast far (by decide +kernel) (by decide) hfar, ?_⟩
  exact (chooseTarget_least p (onDisk 2 60 "a" "a0") source types).1.2 (by decide +kernel)

end Pass

end StorageTiering
