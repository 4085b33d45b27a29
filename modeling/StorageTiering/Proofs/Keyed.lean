import Mathlib.Data.List.Nodup
/-!
# Lists whose members have keys of their own

* `Keyed.find?_split`, `Keyed.filter_split`, `Keyed.map_split` — a member is found, taken out and
  changed by its key, where it stands.
* `Keyed.lookup_eq_some_iff` — in a list of pairs exactly the pairs are found.
-/

namespace StorageTiering.Keyed

variable {α κ : Type} {key : α → κ} {front back : List α} {x : α}

theorem key_ne (h : ((front ++ x :: back).map key).Nodup) :
    (∀ y ∈ front, key y ≠ key x) ∧ ∀ y ∈ back, key y ≠ key x := by
  rw [List.map_append, List.map_cons, List.nodup_append, List.nodup_cons] at h
  obtain ⟨_, ⟨hback, _⟩, hfront⟩ := h
  refine ⟨fun y hy => hfront _ (List.mem_map_of_mem hy) _ List.mem_cons_self, fun y hy he => ?_⟩
  exact hback (he ▸ List.mem_map_of_mem hy)

variable [DecidableEq κ]

/-- A member is found by its key. -/
theorem find?_split (h : ((front ++ x :: back).map key).Nodup) :
    (front ++ x :: back).find? (fun y => key y == key x) = some x := by
  have hf : front.find? (fun y => key y == key x) = none :=
    List.find?_eq_none.2 fun y hy => by simpa using (key_ne h).1 y hy
  rw [List.find?_append, hf, Option.none_or, List.find?_cons_of_pos (by simp)]

/-- The others are those that have another key. -/
theorem filter_split (h : ((front ++ x :: back).map key).Nodup) :
    (front ++ x :: back).filter (fun y => key y != key x) = front ++ back := by
  have hf : front.filter (fun y => key y != key x) = front :=
    List.filter_eq_self.2 fun y hy => by simpa using (key_ne h).1 y hy
  have hb : back.filter (fun y => key y != key x) = back :=
    List.filter_eq_self.2 fun y hy => by simpa using (key_ne h).2 y hy
  rw [List.filter_append, List.filter_cons_of_neg (by simp), hf, hb]

/-- A change of what has a key changes one member. -/
theorem map_split (h : ((front ++ x :: back).map key).Nodup) (f : α → α) :
    (front ++ x :: back).map (fun y => if key y == key x then f y else y) =
      front ++ f x :: back := by
  have hf : front.map (fun y => if key y == key x then f y else y) = front :=
    (List.map_congr_left fun y hy => by simp [(key_ne h).1 y hy]).trans (List.map_id front)
  have hb : back.map (fun y => if key y == key x then f y else y) = back :=
    (List.map_congr_left fun y hy => by simp [(key_ne h).2 y hy]).trans (List.map_id back)
  rw [List.map_append, List.map_cons, hf, hb, if_pos (by simp)]

/-- In pairs with keys of their own a look-up finds exactly the pairs. -/
theorem lookup_eq_some_iff {β : Type} {pairs : List (κ × β)} (h : (pairs.map Prod.fst).Nodup) {k : κ}
    {value : β} : pairs.lookup k = some value ↔ (k, value) ∈ pairs := by
  constructor
  · intro hl
    obtain ⟨front, back, rfl, -⟩ := List.lookup_eq_some_iff.1 hl
    exact List.mem_append_right _ List.mem_cons_self
  · intro hm
    obtain ⟨front, back, rfl⟩ := List.append_of_mem hm
    refine List.lookup_eq_some_iff.2 ⟨front, back, rfl, fun p hp => ?_⟩
    simpa using ((key_ne h).1 p hp).symm

end StorageTiering.Keyed
