import StorageTiering.Text.Digits
import Mathlib.Algebra.GroupWithZero.Nat
import Mathlib.Algebra.Order.BigOperators.Group.List
import Mathlib.Data.List.Basic
/-!
# Written numbers

* `decimal_toDigits`, `natural?_toDigits` — the digits of a number are read back as that number,
  unless it is beyond the bound.
* `held_eq_iff`, `held_foldl_add` — numbers in so many bytes: the ones below the bound are held as they
  are, and a sum that is held at each step is the sum held once.
* `append_toDigits_inj` — a text that ends in a mark and the digits of a number tells both what is in
  front of the mark and the number.
-/

namespace StorageTiering.Text

theorem isDigit_of_mem_toDigits {c : Char} {n : Nat} (h : c ∈ Nat.toDigits 10 n) : c.isDigit :=
  Nat.isDigit_of_mem_toDigits (by decide) (by decide) h

theorem decimal_toDigits (n : Nat) : decimal (Nat.toDigits 10 n) = n := by
  have h := Nat.ofDigitChars_ten_toDigits (n := n)
  rw [Nat.ofDigitChars_eq_foldl] at h
  simpa only [decimal, Nat.mul_comm] using h

theorem byteBound_pos (bytes : Nat) : 0 < byteBound bytes := Nat.pow_pos (by decide)

theorem held_lt (bytes n : Nat) : held bytes n < byteBound bytes := Nat.mod_lt _ (byteBound_pos bytes)

theorem held_le (bytes n : Nat) : held bytes n ≤ n := Nat.mod_le _ _

theorem held_of_lt {bytes n : Nat} (h : n < byteBound bytes) : held bytes n = n := Nat.mod_eq_of_lt h

theorem held_eq_iff {bytes n : Nat} : held bytes n = n ↔ n < byteBound bytes :=
  ⟨fun h => h ▸ held_lt bytes n, held_of_lt⟩

/-- A sum that is held at each step is the sum held once. -/
theorem held_foldl_add (bytes : Nat) (xs : List Nat) :
    xs.foldl (fun total x => held bytes (total + x)) 0 = held bytes xs.sum := by
  suffices h : ∀ total, xs.foldl (fun total x => held bytes (total + x)) (held bytes total) =
      held bytes (total + xs.sum) by
    have hzero := h 0
    rwa [held_of_lt (byteBound_pos bytes), Nat.zero_add] at hzero
  induction xs with
  | nil => exact fun total => rfl
  | cons x rest ih =>
    intro total
    have hstep : held bytes (held bytes total + x) = held bytes (total + x) := Nat.mod_add_mod _ _ _
    rw [List.foldl_cons, hstep, ih, List.sum_cons, Nat.add_assoc]

/-- The digits of a number are read back, if the number is below the bound. -/
theorem natural?_toDigits (bound n : Nat) :
    natural? bound (Nat.toDigits 10 n) = if n < bound then some n else none := by
  have hd : (Nat.toDigits 10 n).all Char.isDigit :=
    List.all_eq_true.2 fun _ => isDigit_of_mem_toDigits
  have hne : (Nat.toDigits 10 n).isEmpty = false := by
    simp
  have hplus : ∀ rest, Nat.toDigits 10 n ≠ '+' :: rest := fun rest h => by
    have := isDigit_of_mem_toDigits (n := n) (c := '+') (h ▸ List.mem_cons_self)
    exact absurd this (by decide)
  rw [natural?]
  · simp only [hne, hd, Bool.not_true, Bool.or_self, Bool.false_eq_true, if_false, decimal_toDigits]
  · exact hplus

theorem toDigits_inj {i j : Nat} (h : Nat.toDigits 10 i = Nat.toDigits 10 j) : i = j := by
  rw [← decimal_toDigits i, h, decimal_toDigits]

/-- What is in front of a mark and the digits behind it are both told by the whole. -/
theorem append_toDigits_inj {c : Char} (hc : c.isDigit = false) {a b : List Char} {i j : Nat}
    (h : a ++ c :: Nat.toDigits 10 i = b ++ c :: Nat.toDigits 10 j) : a = b ∧ i = j := by
  have back : ∀ (p : List Char) (n : Nat),
      (p ++ c :: Nat.toDigits 10 n).reverse.takeWhile Char.isDigit = (Nat.toDigits 10 n).reverse := by
    intro p n
    rw [List.reverse_append, List.reverse_cons, List.append_assoc,
      List.takeWhile_append_of_pos fun x hx => isDigit_of_mem_toDigits (List.mem_reverse.1 hx)]
    simp [hc]
  have hij : i = j := by
    have := back a i
    rw [h, back b j, List.reverse_inj] at this
    exact (toDigits_inj this).symm
  subst hij
  exact ⟨List.append_cancel_right h, rfl⟩

end StorageTiering.Text
