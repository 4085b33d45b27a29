import StorageTiering.SortedTable
import Mathlib.Data.List.Basic
import Mathlib.Data.List.Sort
import Mathlib.Data.String.Basic
/-!
# Laws of tables in the order of their keys

* `SortedTable.Ascending` — the keys ascend, so each of them occurs once.
* `SortedTable.find?_eq_some_iff` — in such a table a look-up finds exactly the entries.
* `SortedTable.Ascending.ext` — such a table is known from its look-ups.
* `SortedTable.Ascending.put`, `SortedTable.Ascending.put_perm` — what a new entry does to a table.
* `SortedTable.find?_adjust` — what a change of one value does to look-ups.
-/

namespace StorageTiering.SortedTable

variable {α : Type} {t : SortedTable α} {key other : String} {value : α}

/-- The keys of a table ascend. -/
def Ascending (t : SortedTable α) : Prop := t.Pairwise fun a b => a.1 < b.1

theorem ascending_nil : Ascending ([] : SortedTable α) := List.Pairwise.nil

theorem mem_of_find? (h : t.find? key = some value) : (key, value) ∈ t := by
  obtain ⟨⟨k, v⟩, hf, hv⟩ := Option.map_eq_some_iff.1 h
  have hk : k = key := by simpa using List.find?_some hf
  have hv : v = value := hv
  rw [← hk, ← hv]
  exact List.mem_of_find?_eq_some hf

/-- Two entries of an ascending table with one key are the same entry. -/
theorem Ascending.eq_of_key (h : t.Ascending) {a b : String × α} (ha : a ∈ t) (hb : b ∈ t)
    (hk : a.1 = b.1) : a = b := by
  induction h with
  | nil => cases ha
  | @cons x rest hx _ ih =>
    rcases List.mem_cons.1 ha with ea | ha <;> rcases List.mem_cons.1 hb with eb | hb
    · rw [ea, eb]
    · exact absurd (hx b hb) (by rw [← ea, hk]; exact String.lt_irrefl _)
    · exact absurd (hx a ha) (by rw [← eb, hk]; exact String.lt_irrefl _)
    · exact ih ha hb

/-- In an ascending table a look-up finds exactly the entries. -/
theorem Ascending.find?_eq_some_iff (h : t.Ascending) :
    t.find? key = some value ↔ (key, value) ∈ t := by
  refine ⟨mem_of_find?, fun hm => ?_⟩
  have hs : (List.find? (fun entry => entry.1 == key) t).isSome :=
    List.find?_isSome.2 ⟨_, hm, by simp⟩
  obtain ⟨⟨k, v⟩, hf⟩ := Option.isSome_iff_exists.1 hs
  have hk : k = key := by simpa using List.find?_some hf
  have he := h.eq_of_key (List.mem_of_find?_eq_some hf) hm hk
  rw [find?, hf, he]
  rfl

/-- Two tables in which the same keys have the same values are the same. -/
theorem Ascending.ext {t t' : SortedTable α} (h : t.Ascending) (h' : t'.Ascending)
    (hfind : ∀ key, t.find? key = t'.find? key) : t = t' := by
  have : Std.Irrefl fun a b : String × α => a.1 < b.1 := ⟨fun a => String.lt_irrefl a.1⟩
  have : Std.Antisymm fun a b : String × α => a.1 < b.1 :=
    ⟨fun a b hab hba => absurd (String.lt_trans hab hba) (String.lt_irrefl a.1)⟩
  refine List.Pairwise.eq_of_mem_iff h h' fun ⟨key, value⟩ => ?_
  rw [← h.find?_eq_some_iff, ← h'.find?_eq_some_iff, hfind]

theorem find?_eq_none_iff : t.find? key = none ↔ ∀ e ∈ t, e.1 ≠ key := by
  simp [find?]

theorem find?_cons (e : String × α) (t : SortedTable α) (key : String) :
    find? (e :: t) key = if e.1 = key then some e.2 else find? t key := by
  simp only [find?, List.find?_cons]
  split <;> simp_all

/-- A look-up in a table of which all values were changed. -/
theorem find?_map_values {β : Type} (f : α → β) (t : SortedTable α) (key : String) :
    find? (t.map fun e => (e.1, f e.2)) key = (t.find? key).map f := by
  induction t with
  | nil => rfl
  | cons e rest ih =>
    rw [List.map_cons, find?_cons, find?_cons, ih]
    split <;> rfl

/-! ### A new entry -/

/-- The entries of a table with a new one are this one and old ones of other keys. -/
theorem mem_put {e : String × α} (h : e ∈ t.put key value) : e = (key, value) ∨ e ∈ t := by
  induction t with
  | nil => exact .inl (by simpa [put] using h)
  | cons x rest ih =>
    obtain ⟨k, v⟩ := x
    simp only [put] at h
    split at h
    · rcases List.mem_cons.1 h with rfl | h
      · exact .inl rfl
      · exact .inr (List.mem_cons_of_mem _ h)
    · split at h
      · rcases List.mem_cons.1 h with rfl | h
        · exact .inl rfl
        · exact .inr h
      · rcases List.mem_cons.1 h with rfl | h
        · exact .inr List.mem_cons_self
        · exact (ih h).imp_right (List.mem_cons_of_mem _)

/-- A look-up in a table with a new entry. -/
theorem find?_put : (t.put key value).find? other = if other = key then some value else t.find? other := by
  induction t with
  | nil => simp [put, find?_cons, eq_comm]
  | cons x rest ih =>
    obtain ⟨k, v⟩ := x
    by_cases ho : other = key
    · subst ho
      rw [if_pos rfl] at ih ⊢
      rw [put]
      split
      · rw [find?_cons, if_pos rfl]
      · split
        · rw [find?_cons, if_pos rfl]
        · rename_i hk _
          rw [find?_cons, if_neg (Ne.symm hk), ih]
    · rw [if_neg ho] at ih ⊢
      have hne : ∀ rest : SortedTable α, find? ((key, value) :: rest) other = find? rest other := fun rest => by
        rw [find?_cons, if_neg (Ne.symm ho)]
      rw [put]
      split
      · rename_i hk
        subst hk
        rw [hne, find?_cons, if_neg (Ne.symm ho)]
      · split
        · rw [hne]
        · rw [find?_cons, ih, find?_cons]

/-- A new entry keeps the keys in order. -/
theorem Ascending.put (h : t.Ascending) : (t.put key value).Ascending := by
  induction h with
  | nil => exact List.pairwise_singleton _ _
  | @cons x rest hx hrest ih =>
    obtain ⟨k, v⟩ := x
    simp only [SortedTable.put]
    split
    · rename_i hk
      exact List.Pairwise.cons (fun e he => hk ▸ hx e he) hrest
    · split
      · rename_i hlt
        refine List.Pairwise.cons (fun e he => ?_) (List.Pairwise.cons hx hrest)
        rcases List.mem_cons.1 he with rfl | he
        · exact hlt
        · exact String.lt_trans hlt (hx e he)
      · rename_i hne hnlt
        refine List.Pairwise.cons (fun e he => ?_) ih
        -- the new key comes behind the first one, because it neither equals nor precedes it
        rcases mem_put he with rfl | he
        · exact lt_of_le_of_ne (not_lt.1 hnlt) (Ne.symm hne)
        · exact hx e he

/-- A new entry stands beside the old ones, or takes the place of the one with its key. -/
theorem Ascending.put_perm (h : t.Ascending) (key : String) (value : α) :
    (t.find? key = none ∧ (t.put key value).Perm ((key, value) :: t)) ∨
      ∃ old rest, t.find? key = some old ∧ t.Perm ((key, old) :: rest) ∧
        (t.put key value).Perm ((key, value) :: rest) := by
  induction h with
  | nil => exact .inl ⟨rfl, .refl _⟩
  | @cons x rest hx _ ih =>
    obtain ⟨k, v⟩ := x
    rw [find?_cons, SortedTable.put]
    by_cases hk : key = k
    · subst hk
      exact .inr ⟨v, rest, by simp, .refl _, by simp⟩
    · rw [if_neg hk, if_neg (Ne.symm hk)]
      split
      · rename_i hlt
        refine .inl ⟨find?_eq_none_iff.2 fun e he heq => ?_, .refl _⟩
        exact String.lt_irrefl _ (String.lt_trans hlt (heq ▸ hx e he))
      · rcases ih with ⟨hn, hp⟩ | ⟨old, others, hf, ht, hp⟩
        · exact .inl ⟨hn, (hp.cons _).trans (.swap _ _ _)⟩
        · exact .inr ⟨old, (k, v) :: others, hf, (ht.cons _).trans (.swap _ _ _),
            (hp.cons _).trans (.swap _ _ _)⟩

/-! ### A changed value -/

variable {f : α → α}

/-- A look-up in a table of which one value was changed. -/
theorem find?_adjust :
    (t.adjust key f).find? other = if other = key then (t.find? other).map f else t.find? other := by
  induction t with
  | nil => simp [SortedTable.adjust, find?]
  | cons x rest ih =>
    obtain ⟨k, v⟩ := x
    simp only [SortedTable.adjust, find?, List.map_cons, List.find?_cons] at ih ⊢
    by_cases hk : k = key <;> by_cases ho : k = other <;> grind

end StorageTiering.SortedTable
