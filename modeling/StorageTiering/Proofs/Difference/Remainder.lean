import StorageTiering.Proofs.Difference
/-!
# The difference as a remainder

What the two sides do not have in common is the difference of two multisets, with the types that cannot be
moved left out. What is left stands in the order in which it stood.

* `cancel_fst_sublist`, `cancel_snd_sublist` — cancelling only takes away.
* `cancel_eq_self` — where nothing is in common, nothing is taken away.
* `Difference.IsRemainder` — what is left of two sides.
* `Difference.missing_eq_nil_iff`, `Difference.surplus_eq_nil_iff` — when nothing is left of a side.
* `Difference.between_remainder` — the difference is the remainder, in whatever order the two sides come, and
  there is nothing more to take away from it.
-/

namespace StorageTiering

theorem cancel_fst_sublist (needed present : List StorageType) :
    (cancel needed present).1.Sublist needed := by
  induction present generalizing needed with
  | nil => exact List.Sublist.refl _
  | cons t present ih =>
    rw [cancel]
    split
    · exact (ih (needed.erase t)).trans List.erase_sublist
    · exact ih needed

theorem cancel_snd_sublist (needed present : List StorageType) :
    (cancel needed present).2.Sublist present := by
  induction present generalizing needed with
  | nil => exact List.Sublist.refl _
  | cons t present ih =>
    rw [cancel]
    split
    · exact (ih (needed.erase t)).cons t
    · exact (ih needed).cons_cons t

/-- Sides that have nothing in common stay as they are. -/
theorem cancel_eq_self {needed present : List StorageType} (h : ∀ t ∈ present, t ∉ needed) :
    cancel needed present = (needed, present) := by
  induction present with
  | nil => rfl
  | cons t present ih =>
    obtain ⟨ht, hpresent⟩ := List.forall_mem_cons.1 h
    rw [cancel, if_neg ht, ih hpresent]

namespace Difference

variable {needed present needed' present' : List StorageType} {d d' : Difference}

/-- What is left of two sides: of every movable type as many as one side has more than the other, of the
others none, and all of it in the order in which it stood. -/
structure IsRemainder (needed present : List StorageType) (d : Difference) : Prop where
  missing_sublist : d.missing.Sublist needed
  surplus_sublist : d.surplus.Sublist present
  count_missing : ∀ t, d.missing.count t =
    if t.isMovable then needed.count t - present.count t else 0
  count_surplus : ∀ t, d.surplus.count t =
    if t.isMovable then present.count t - needed.count t else 0

theorem isRemainder_between (needed present : List StorageType) :
    IsRemainder needed present (between needed present) where
  missing_sublist := List.filter_sublist.trans (cancel_fst_sublist needed present)
  surplus_sublist := List.filter_sublist.trans (cancel_snd_sublist needed present)
  count_missing := Difference.count_missing needed present
  count_surplus := Difference.count_surplus needed present

/-- A remainder is the same multiset whatever the order of the two sides. -/
theorem IsRemainder.perm (h : IsRemainder needed present d) (h' : IsRemainder needed' present' d')
    (hn : needed'.Perm needed) (hp : present'.Perm present) :
    d'.missing.Perm d.missing ∧ d'.surplus.Perm d.surplus := by
  constructor
  · refine List.perm_iff_count.2 fun t => ?_
    rw [h'.count_missing, h.count_missing, hn.count_eq, hp.count_eq]
  · refine List.perm_iff_count.2 fun t => ?_
    rw [h'.count_surplus, h.count_surplus, hn.count_eq, hp.count_eq]

/-- The two sides of a difference are their own difference. -/
theorem between_missing_surplus (needed present : List StorageType) :
    between (between needed present).missing (between needed present).surplus = between needed present := by
  have hcancel : cancel (between needed present).missing (between needed present).surplus =
      ((between needed present).missing, (between needed present).surplus) :=
    cancel_eq_self fun t hs hm => not_mem_surplus hm hs
  rw [between, hcancel, List.filter_eq_self.2 fun t ht => (lt_count_of_mem_missing ht).1,
    List.filter_eq_self.2 fun t ht => (lt_count_of_mem_surplus ht).1]

/-- Nothing is missing if there is enough of every movable type. -/
theorem missing_eq_nil_iff : (between needed present).missing = [] ↔
    ∀ t : StorageType, t.isMovable → needed.count t ≤ present.count t := by
  constructor
  · intro h t ht
    have hcount := count_missing needed present t
    rw [h, List.count_nil, if_pos ht] at hcount
    omega
  · intro h
    refine List.eq_nil_iff_forall_not_mem.2 fun t ht => ?_
    obtain ⟨hmovable, hless⟩ := lt_count_of_mem_missing ht
    exact Nat.not_lt.2 (h t hmovable) hless

/-- Nothing is in surplus if there is no more than needed of any movable type. -/
theorem surplus_eq_nil_iff : (between needed present).surplus = [] ↔
    ∀ t : StorageType, t.isMovable → present.count t ≤ needed.count t := by
  constructor
  · intro h t ht
    have hcount := count_surplus needed present t
    rw [h, List.count_nil, if_pos ht] at hcount
    omega
  · intro h
    refine List.eq_nil_iff_forall_not_mem.2 fun t ht => ?_
    obtain ⟨hmovable, hmore⟩ := lt_count_of_mem_surplus ht
    exact Nat.not_lt.2 (h t hmovable) hmore

/-- The difference of two sides is their remainder, so that no type is left on both sides. As multisets its two
sides do not depend on the order of what is given, and neither does the question whether it is settled: it is
if one side is empty, which is to say that there is enough of every movable type, or too much of none. There is
nothing more to take away from it. -/
theorem between_remainder (needed present : List StorageType) :
    let d := between needed present
    IsRemainder needed present d ∧ (∀ t ∈ d.missing, t ∉ d.surplus) ∧
    (∀ needed' present', needed'.Perm needed → present'.Perm present →
      let d' := between needed' present'
      d'.missing.Perm d.missing ∧ d'.surplus.Perm d.surplus ∧ d'.isSettled = d.isSettled) ∧
    (d.isSettled ↔ d.missing = [] ∨ d.surplus = []) ∧
    (d.isSettled ↔ (∀ t : StorageType, t.isMovable → needed.count t ≤ present.count t) ∨
      ∀ t : StorageType, t.isMovable → present.count t ≤ needed.count t) ∧
    between d.missing d.surplus = d := by
  intro d
  have hempty : d.isSettled ↔ d.missing = [] ∨ d.surplus = [] := by
    rw [isSettled, Bool.or_eq_true, List.isEmpty_iff, List.isEmpty_iff]
  refine ⟨isRemainder_between needed present, fun t => not_mem_surplus, ?_, hempty, ?_,
    between_missing_surplus needed present⟩
  · intro needed' present' hn hp d'
    obtain ⟨hmissing, hsurplus⟩ :=
      (isRemainder_between needed present).perm (isRemainder_between needed' present') hn hp
    exact ⟨hmissing, hsurplus, isSettled_congr hmissing hsurplus⟩
  · rw [hempty, missing_eq_nil_iff, surplus_eq_nil_iff]

example : between [.provided, .disk, .archive, .archive] [.disk, .ssd, .ramDisk, .disk] =
    ⟨[.archive, .archive], [.ssd, .disk]⟩ := by
  decide

end Difference

end StorageTiering
