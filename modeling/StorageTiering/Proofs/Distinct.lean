import Mathlib.Data.List.Nodup
/-!
# Lists without repetitions

What is left of a list when every member stays only where it first appears.

* `Distinct.nodup_eraseDups`, `Distinct.eraseDups_eq_nil_iff` — it has no repetitions, and all members.
* `Distinct.eraseDups_filter` — members may be left out before or after.
* `Distinct.eraseDups_append`, `Distinct.eraseDups_concat` — of two lists, the second one adds what is new.
-/

namespace StorageTiering.Distinct

variable {α : Type} [BEq α] [LawfulBEq α]

theorem nodup_eraseDups : ∀ l : List α, l.eraseDups.Nodup
  | [] => List.nodup_nil
  | x :: l => by
    rw [List.eraseDups_cons, List.nodup_cons, List.mem_eraseDups]
    exact ⟨by simp, nodup_eraseDups (l.filter fun y => !y == x)⟩
termination_by l => l.length
decreasing_by exact Nat.lt_succ_of_le (List.length_filter_le _ _)

omit [LawfulBEq α] in
theorem eraseDups_eq_nil_iff {l : List α} : l.eraseDups = [] ↔ l = [] := by
  cases l with
  | nil => exact ⟨fun _ => rfl, fun _ => rfl⟩
  | cons x l => simp [List.eraseDups_cons]

/-- It is the same whether members are left out before or after the repetitions. -/
theorem eraseDups_filter (p : α → Bool) : ∀ l : List α, (l.filter p).eraseDups = l.eraseDups.filter p
  | [] => rfl
  | x :: l => by
    have ih := eraseDups_filter p (l.filter fun y => !y == x)
    rw [List.eraseDups_cons, List.filter_cons, List.filter_cons, ← ih]
    split
    · rw [List.eraseDups_cons, List.filter_filter, List.filter_filter]
      simp only [Bool.and_comm]
    · rename_i hx
      rw [List.filter_filter]
      congr 1
      refine List.filter_congr fun y _ => ?_
      by_cases hy : y = x
      · simp [hy, hx]
      · simp [hy]
termination_by l => l.length
decreasing_by exact Nat.lt_succ_of_le (List.length_filter_le _ _)

/-- The second of two lists adds what is new. -/
theorem eraseDups_append (l r : List α) :
    (l ++ r).eraseDups = l.eraseDups ++ r.eraseDups.filter fun x => !l.eraseDups.contains x := by
  rw [List.eraseDups_append, List.removeAll, eraseDups_filter]
  congr 1
  exact List.filter_congr fun y _ => by simp [List.mem_eraseDups]

theorem eraseDups_concat (l : List α) (x : α) :
    (l ++ [x]).eraseDups = if l.contains x then l.eraseDups else l.eraseDups ++ [x] := by
  rw [eraseDups_append]
  by_cases hx : x ∈ l <;> simp [hx, List.mem_eraseDups, List.eraseDups_cons]

end StorageTiering.Distinct
