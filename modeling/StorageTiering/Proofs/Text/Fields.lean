import StorageTiering.Text.Fields
import Mathlib.Data.List.Basic
/-!
# Fields of a text

* `joined_map_fields`, `joined_fields` — fields that are changed character by character, or not at all, and
  joined again.
* `fields_joined` — parts without a separator, joined and cut again.
-/

namespace StorageTiering.Text

variable {separator c : Char} {cs field : List Char} {parts : List (List Char)}

theorem fields_ne_nil (separator : Char) (cs : List Char) : fields separator cs ≠ [] := by
  cases cs with
  | nil => exact List.cons_ne_nil _ _
  | cons c cs =>
    rw [fields]
    split
    · exact List.cons_ne_nil _ _
    · split <;> exact List.cons_ne_nil _ _

/-- Fields in which every character is written in its own way, but the separator stays, are joined to the text
that is written so. -/
theorem joined_map_fields {written : Char → List Char} (h : written separator = [separator]) (cs : List Char) :
    joined separator ((fields separator cs).map fun field => field.flatMap written) =
      separator :: cs.flatMap written := by
  induction cs with
  | nil => rfl
  | cons c cs ih =>
    rw [fields, List.flatMap_cons]
    split
    · rename_i hc
      rw [hc, h, List.singleton_append, ← ih]
      rfl
    · obtain ⟨field, rest, hfields⟩ := List.exists_cons_of_ne_nil (fields_ne_nil separator cs)
      rw [hfields] at ih ⊢
      simp only [joined, List.map_cons, List.flatMap_cons, List.cons_append, List.cons.injEq, true_and,
        List.append_assoc] at ih ⊢
      rw [ih]

theorem joined_fields (separator : Char) (cs : List Char) :
    joined separator (fields separator cs) = separator :: cs := by
  have h := @joined_map_fields separator (fun c => [c]) rfl cs
  simpa using h

/-- The characters of a field are those of the text, and none is the separator. -/
theorem mem_of_mem_fields (hf : field ∈ fields separator cs) (hc : c ∈ field) : c ≠ separator ∧ c ∈ cs := by
  induction cs generalizing field with
  | nil =>
    rw [List.mem_singleton.1 hf] at hc
    cases hc
  | cons d cs ih =>
    rw [fields] at hf
    split at hf
    · rcases List.mem_cons.1 hf with rfl | hf
      · cases hc
      · exact (ih hf hc).imp_right (List.mem_cons_of_mem d)
    · rename_i hd
      obtain ⟨first, rest, hfields⟩ := List.exists_cons_of_ne_nil (fields_ne_nil separator cs)
      rw [hfields] at hf ih
      rcases List.mem_cons.1 hf with rfl | hf
      · rcases List.mem_cons.1 hc with rfl | hc
        · exact ⟨hd, List.mem_cons_self⟩
        · exact (ih List.mem_cons_self hc).imp_right (List.mem_cons_of_mem d)
      · exact (ih (List.mem_cons_of_mem _ hf) hc).imp_right (List.mem_cons_of_mem d)

theorem fields_append (h : separator ∉ field) (cs : List Char) :
    fields separator (field ++ separator :: cs) = field :: fields separator cs := by
  induction field with
  | nil => exact if_pos rfl
  | cons c field ih =>
    obtain ⟨hc, hfield⟩ := not_or.1 (mt List.mem_cons.2 h)
    rw [List.cons_append, fields, if_neg (Ne.symm hc), ih hfield]

theorem fields_of_not_mem (h : separator ∉ field) : fields separator field = [field] := by
  induction field with
  | nil => rfl
  | cons c field ih =>
    obtain ⟨hc, hfield⟩ := not_or.1 (mt List.mem_cons.2 h)
    rw [fields, if_neg (Ne.symm hc), ih hfield]

/-- Parts without a separator are the fields of what stands behind the first separator of the text they are
joined to. -/
theorem fields_joined (hne : parts ≠ []) (h : ∀ part ∈ parts, separator ∉ part) :
    ∃ cs, joined separator parts = separator :: cs ∧ fields separator cs = parts := by
  obtain ⟨part, rest, rfl⟩ := List.exists_cons_of_ne_nil hne
  refine ⟨part ++ joined separator rest, rfl, ?_⟩
  induction rest generalizing part with
  | nil =>
    rw [joined, List.flatMap_nil, List.append_nil]
    exact fields_of_not_mem (h part List.mem_cons_self)
  | cons next rest ih =>
    obtain ⟨hpart, hrest⟩ := List.forall_mem_cons.1 h
    have hjoined : joined separator (next :: rest) = separator :: (next ++ joined separator rest) := rfl
    rw [hjoined, fields_append hpart, ih next (List.cons_ne_nil _ _) hrest]

end StorageTiering.Text
