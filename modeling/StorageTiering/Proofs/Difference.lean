import StorageTiering.Difference
import Mathlib.Data.List.Perm.Subperm
/-!
# Missing and surplus types, counted

* `count_cancel_fst`, `count_cancel_snd` — cancelling is the difference of multisets, on either side.
* `Difference.count_missing`, `Difference.count_surplus` — the same of movable types alone.
* `Difference.missing_exchange`, `Difference.surplus_exchange`, `Difference.matched_exchange` — what is
  left when replicas go from types in surplus to missing ones.
* `Difference.missing_swap`, `Difference.surplus_swap` — the same of one replica.
* `Difference.deficit_swap` — the block is then nearer to what it needs, by exactly one move.
-/

namespace StorageTiering

theorem count_cancel_fst (needed present : List StorageType) (x : StorageType) :
    (cancel needed present).1.count x = needed.count x - present.count x := by
  induction present generalizing needed with
  | nil => rfl
  | cons t present ih =>
    rw [cancel, List.count_cons]
    split
    · rw [ih, List.count_erase, Nat.sub_sub, Nat.add_comm]
    · rename_i ht
      have hzero : needed.count t = 0 := List.count_eq_zero.2 ht
      rw [ih]
      by_cases hx : t = x
      · rw [← hx, hzero, Nat.zero_sub, Nat.zero_sub]
      · rw [beq_false_of_ne hx, if_neg Bool.false_ne_true, Nat.add_zero]

theorem count_cancel_snd (needed present : List StorageType) (x : StorageType) :
    (cancel needed present).2.count x = present.count x - needed.count x := by
  induction present generalizing needed with
  | nil => simp [cancel]
  | cons t present ih =>
    rw [cancel, List.count_cons]
    split
    · rename_i ht
      have hpos : 0 < needed.count t := List.count_pos_iff.2 ht
      rw [ih, List.count_erase]
      by_cases hx : t = x
      · rw [hx, beq_self_eq_true, if_pos rfl]
        rw [hx] at hpos
        omega
      · rw [beq_false_of_ne hx, if_neg Bool.false_ne_true, Nat.sub_zero, Nat.add_zero]
    · rename_i ht
      have hzero : needed.count t = 0 := List.count_eq_zero.2 ht
      rw [List.count_cons, ih]
      by_cases hx : t = x
      · rw [← hx, hzero, Nat.sub_zero, Nat.sub_zero]
      · rw [beq_false_of_ne hx, if_neg Bool.false_ne_true, Nat.add_zero, Nat.add_zero]

namespace Difference

variable {needed present present' rest : List StorageType} {s t x : StorageType}

theorem count_missing (needed present : List StorageType) (x : StorageType) :
    (between needed present).missing.count x =
      if x.isMovable then needed.count x - present.count x else 0 := by
  split
  · rename_i hx
    rw [between, List.count_filter hx, count_cancel_fst]
  · rename_i hx
    exact List.count_eq_zero.2 fun h => hx (List.mem_filter.1 h).2

theorem count_surplus (needed present : List StorageType) (x : StorageType) :
    (between needed present).surplus.count x =
      if x.isMovable then present.count x - needed.count x else 0 := by
  split
  · rename_i hx
    rw [between, List.count_filter hx, count_cancel_snd]
  · rename_i hx
    exact List.count_eq_zero.2 fun h => hx (List.mem_filter.1 h).2

/-- A type in surplus is movable and held more often than needed. -/
theorem lt_count_of_mem_surplus (h : s ∈ (between needed present).surplus) :
    s.isMovable ∧ needed.count s < present.count s := by
  have hpos := List.count_pos_iff.2 h
  rw [count_surplus] at hpos
  split at hpos
  · exact ⟨‹_›, by omega⟩
  · omega

/-- A missing type is movable and needed more often than held. -/
theorem lt_count_of_mem_missing (h : t ∈ (between needed present).missing) :
    t.isMovable ∧ present.count t < needed.count t := by
  have hpos := List.count_pos_iff.2 h
  rw [count_missing] at hpos
  split at hpos
  · exact ⟨‹_›, by omega⟩
  · omega

/-- No type is missing and in surplus. -/
theorem not_mem_surplus (h : x ∈ (between needed present).missing) :
    x ∉ (between needed present).surplus := by
  intro hs
  have hless := (lt_count_of_mem_missing h).2
  have hmore := (lt_count_of_mem_surplus hs).2
  omega

/-! ### Replicas go from surplus types to missing ones -/

section Exchange

variable {sources targets restMissing restSurplus : List StorageType}
  (hp : (present' ++ sources).Perm (present ++ targets))
  (ht : (targets ++ restMissing).Perm (between needed present).missing)
  (hs : (sources ++ restSurplus).Perm (between needed present).surplus)

include hp ht hs

/-- What replicas that go from surplus types to missing ones do to the count of a type: it is a type that
they leave or one that they go to, and neither further than needed. -/
theorem count_exchange (x : StorageType) :
    present'.count x + sources.count x = present.count x + targets.count x ∧
    (targets.count x + restMissing.count x = if x.isMovable then needed.count x - present.count x else 0) ∧
    (sources.count x + restSurplus.count x =
      if x.isMovable then present.count x - needed.count x else 0) := by
  rw [← count_missing, ← count_surplus, ← ht.count_eq, ← hs.count_eq, ← List.count_append,
    ← List.count_append, ← List.count_append, ← List.count_append]
  exact ⟨hp.count_eq x, rfl, rfl⟩

/-- What is still missing is what no replica has gone to. -/
theorem missing_exchange : (between needed present').missing.Perm restMissing := by
  refine List.perm_iff_count.2 fun x => ?_
  obtain ⟨hcount, htargets, hsources⟩ := count_exchange hp ht hs x
  rw [count_missing]
  by_cases hx : x.isMovable
  · rw [if_pos hx] at htargets hsources ⊢
    omega
  · rw [if_neg hx] at htargets hsources ⊢
    omega

/-- What is still in surplus is what no replica has left. -/
theorem surplus_exchange : (between needed present').surplus.Perm restSurplus := by
  refine List.perm_iff_count.2 fun x => ?_
  obtain ⟨hcount, htargets, hsources⟩ := count_exchange hp ht hs x
  rw [count_surplus]
  by_cases hx : x.isMovable
  · rw [if_pos hx] at htargets hsources ⊢
    omega
  · rw [if_neg hx] at htargets hsources ⊢
    omega

/-- No slot that was filled is left empty. -/
theorem matched_exchange (x : StorageType) :
    min (needed.count x) (present.count x) ≤ min (needed.count x) (present'.count x) := by
  obtain ⟨hcount, htargets, hsources⟩ := count_exchange hp ht hs x
  by_cases hx : x.isMovable
  · rw [if_pos hx] at hsources
    omega
  · rw [if_neg hx] at hsources
    omega

end Exchange

/-! ### One replica goes from a surplus type to a missing one -/

section Swap

theorem perm_of_swap (hp : present.Perm (s :: rest)) (hp' : present'.Perm (t :: rest)) :
    (present' ++ [s]).Perm (present ++ [t]) := by
  refine List.perm_iff_count.2 fun x => ?_
  rw [List.count_append, List.count_append, hp.count_eq, hp'.count_eq]
  simp only [List.count_cons, List.count_nil]
  omega

variable (hp : present.Perm (s :: rest)) (hp' : present'.Perm (t :: rest))
  (hs : s ∈ (between needed present).surplus) (ht : t ∈ (between needed present).missing)

include hp hp' hs ht

/-- A replica that goes to a missing type fills one slot of it. -/
theorem missing_swap :
    (between needed present').missing.Perm ((between needed present).missing.erase t) :=
  missing_exchange (perm_of_swap hp hp') (List.perm_cons_erase ht).symm (List.perm_cons_erase hs).symm

/-- A replica that leaves a type in surplus takes one unit of it away. -/
theorem surplus_swap :
    (between needed present').surplus.Perm ((between needed present).surplus.erase s) :=
  surplus_exchange (perm_of_swap hp hp') (List.perm_cons_erase ht).symm (List.perm_cons_erase hs).symm

/-- A replica that goes from a surplus type to a missing one brings its block one move nearer to what
it needs. -/
theorem deficit_swap :
    (between needed present').deficit + 1 = (between needed present).deficit := by
  have hm := (missing_swap hp hp' hs ht).length_eq
  have hl := (surplus_swap hp hp' hs ht).length_eq
  rw [List.length_erase_of_mem ht] at hm
  rw [List.length_erase_of_mem hs] at hl
  have hmp := List.length_pos_of_mem ht
  have hsp := List.length_pos_of_mem hs
  simp only [deficit]
  omega

end Swap

theorem isSettled_congr {d d' : Difference} (hm : d.missing.Perm d'.missing)
    (hs : d.surplus.Perm d'.surplus) : d.isSettled = d'.isSettled := by
  rw [isSettled, isSettled, hm.isEmpty_eq, hs.isEmpty_eq]

end Difference

end StorageTiering
