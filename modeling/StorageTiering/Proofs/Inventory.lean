import StorageTiering.Inventory
import Mathlib.Data.List.Sort
import Mathlib.Data.Prod.Lex
import Mathlib.Data.String.Basic
/-!
# Offers in their order

* `Offer.precedes_iff` — the order of offers is that of pairs of node and storage.
* `Offer.sort_perm`, `Offer.pairwise_sort` — sorting offers only puts them in order.
-/

namespace StorageTiering.Offer

variable {o o' : Offer} {offers : List Offer}

/-- The order of offers is that of pairs of node and storage. -/
theorem precedes_iff : o.precedes o' ↔ toLex (o.node, o.storage) ≤ toLex (o'.node, o'.storage) := by
  simp [precedes, Prod.Lex.toLex_le_toLex]

instance : IsTrans Offer fun o o' => o.precedes o' where
  trans _ _ _ h h' := precedes_iff.2 ((precedes_iff.1 h).trans (precedes_iff.1 h'))

instance : Std.Total fun o o' : Offer => o.precedes o' where
  total _ _ := by simpa only [precedes_iff] using le_total _ _

theorem insert_eq (o : Offer) (offers : List Offer) :
    o.insert offers = offers.orderedInsert (fun o o' => o.precedes o') o := by
  induction offers with
  | nil => rfl
  | cons first rest ih => rw [insert, List.orderedInsert, ih]

theorem sort_eq (offers : List Offer) : sort offers = offers.insertionSort fun o o' => o.precedes o' := by
  rw [sort, List.insertionSort]
  exact congrArg (fun f => offers.foldr f []) (funext₂ insert_eq)

theorem sort_perm (offers : List Offer) : (sort offers).Perm offers := by
  rw [sort_eq]
  exact List.perm_insertionSort _ offers

theorem mem_sort : o ∈ sort offers ↔ o ∈ offers := (sort_perm offers).mem_iff

theorem pairwise_sort (offers : List Offer) : (sort offers).Pairwise fun o o' => o.precedes o' := by
  rw [sort_eq]
  exact List.pairwise_insertionSort _ offers

end StorageTiering.Offer
