import StorageTiering.Url.Percent
import Mathlib.Data.List.Basic
/-!
# Percent encoding

* `percentEncode_cons` — one character after another.
* `percentEncode_eq_self_iff` — a text is its own encoding if and only if it has nothing to encode, since every
  character that is encoded takes more room.
-/

namespace StorageTiering.Url

variable {keeps : Char → Bool} {cs : List Char}

theorem percentEncode_cons (keeps : Char → Bool) (c : Char) (cs : List Char) :
    percentEncode keeps (c :: cs) =
      (if keeps c then [c] else (String.utf8EncodeChar c).flatMap percentByte) ++ percentEncode keeps cs :=
  List.flatMap_cons ..

theorem percentEncode_eq_self (h : ∀ c ∈ cs, keeps c) : percentEncode keeps cs = cs := by
  induction cs with
  | nil => rfl
  | cons c cs ih =>
    obtain ⟨hc, hcs⟩ := List.forall_mem_cons.1 h
    rw [percentEncode_cons, if_pos hc, ih hcs]
    rfl

/-- A character that is encoded takes three times as many characters as it has bytes. -/
theorem length_flatMap_percentByte (bytes : List UInt8) : (bytes.flatMap percentByte).length = 3 * bytes.length := by
  induction bytes with
  | nil => rfl
  | cons b bytes ih =>
    rw [List.flatMap_cons, List.length_append, ih, List.length_cons, percentByte, Nat.mul_succ, Nat.add_comm]
    rfl

theorem length_le_length_percentEncode (keeps : Char → Bool) (cs : List Char) :
    cs.length ≤ (percentEncode keeps cs).length := by
  induction cs with
  | nil => exact Nat.le_refl 0
  | cons c cs ih =>
    rw [percentEncode_cons, List.length_append, List.length_cons]
    split
    · rw [List.length_singleton]
      omega
    · have hbytes := c.utf8Size_pos
      rw [length_flatMap_percentByte, String.length_utf8EncodeChar]
      omega

/-- A text is its own encoding if and only if it has nothing to encode. -/
theorem percentEncode_eq_self_iff : percentEncode keeps cs = cs ↔ ∀ c ∈ cs, keeps c := by
  refine ⟨fun h => ?_, percentEncode_eq_self⟩
  induction cs with
  | nil => exact fun _ hc => nomatch hc
  | cons c cs ih =>
    rw [percentEncode_cons] at h
    by_cases hc : keeps c
    · rw [if_pos hc, List.singleton_append] at h
      exact List.forall_mem_cons.2 ⟨hc, ih (List.tail_eq_of_cons_eq h)⟩
    · have hlength := congrArg List.length h
      have hbytes := c.utf8Size_pos
      have hrest := length_le_length_percentEncode keeps cs
      rw [if_neg hc, List.length_append, length_flatMap_percentByte, String.length_utf8EncodeChar,
        List.length_cons] at hlength
      omega

end StorageTiering.Url
