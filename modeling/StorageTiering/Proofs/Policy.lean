import StorageTiering.Policy
import Mathlib.Data.List.Basic
/-!
# How a policy fills slots

The lasting types of a policy fill the first slots, one each, and the last type of the policy fills the slots
behind them, unless it is transient. More slots leave the earlier ones as they are.

* `Policy.getElem?_choose` — the type of each slot.
* `Policy.Fills` — types that fill slots; `Policy.fills_choose`, `Policy.choose_prefix`.
* `Suite.get?_eq_some_iff` — a name stands for the first policy that has it, in any case of its letters.
* `Suite.resolve_fills` — what a suite answers for a name that it knows.
-/

namespace StorageTiering

/-- Two texts are the same up to the case of ASCII letters if they are the same in upper case. -/
theorem Text.sameLetters_iff {a b : String} :
    sameLetters a b ↔ a.toList.map Char.toUpper = b.toList.map Char.toUpper := by
  rw [sameLetters, beq_iff_eq, ← String.toList_inj, upperAscii, upperAscii, String.toList_map, String.toList_map]

namespace Policy

variable {p : Policy} {last : StorageType} {i slots more : Nat}

theorem filler?_eq (h : p.types.getLast? = some last) :
    p.filler? = if last.isTransient then none else some last := by
  rw [filler?, h, Option.filter_some]
  cases last.isTransient <;> rfl

/-- The type of a slot: the lasting types come first, and then the filler. -/
theorem getElem?_choose (p : Policy) (slots i : Nat) :
    (p.choose slots)[i]? = if i < slots then p.lasting[i]?.or p.filler? else none := by
  rw [choose]
  cases p.filler? with
  | none => rw [Option.or_none, List.getElem?_take]
  | some last =>
    dsimp only
    rw [List.getElem?_append, List.getElem?_take, List.getElem?_replicate, List.length_take]
    by_cases hlasting : i < p.lasting.length
    · rw [List.getElem?_eq_getElem hlasting, Option.some_or]
      by_cases hslot : i < slots
      · rw [if_pos (by omega), if_pos hslot]
      · rw [if_neg (by omega), if_neg (by omega), if_neg hslot]
    · rw [List.getElem?_eq_none (by omega), Option.none_or, if_neg (by omega)]
      exact if_congr (by omega) rfl rfl

/-- A filler leaves no slot empty. Without one there are as many types as lasting ones. -/
theorem length_choose (p : Policy) (slots : Nat) :
    (p.choose slots).length = if p.filler?.isSome then slots else min slots p.lasting.length := by
  rw [choose]
  cases p.filler? with
  | none => rw [List.length_take, if_neg (by simp)]
  | some last =>
    rw [List.length_append, List.length_replicate, List.length_take, Option.isSome_some, if_pos rfl]
    omega

/-- The types for fewer slots are the first of those for more. -/
theorem choose_prefix (p : Policy) (h : slots ≤ more) : p.choose slots <+: p.choose more := by
  refine List.prefix_iff_getElem?.2 fun i hi => ?_
  have hchosen := getElem?_choose p slots i
  rw [List.getElem?_eq_getElem hi] at hchosen
  have hslot : i < slots := by
    by_contra hslot
    rw [if_neg hslot] at hchosen
    cases hchosen
  rw [getElem?_choose, if_pos (Nat.lt_of_lt_of_le hslot h), hchosen, if_pos hslot]

/-- Types that fill slots under a policy, of which the last declared type is given: memory is not among them,
there is one for every slot or, if the last type is transient, for as many as there are lasting types, and the
lasting types come first, in their order. -/
structure Fills (p : Policy) (last : StorageType) (slots : Nat) (types : List StorageType) : Prop where
  lasting : StorageType.ramDisk ∉ types
  length : types.length = if last.isTransient then min slots p.lasting.length else slots
  slot : ∀ i, (h : i < types.length) → types[i] = p.lasting[i]?.getD last

theorem isTransient_of_mem_choose {t : StorageType} (h : t ∈ p.choose slots) : t.isTransient = false := by
  have hlasting : ∀ t ∈ p.lasting, t.isTransient = false := fun t ht => by
    simpa using (List.mem_filter.1 ht).2
  rw [choose] at h
  split at h
  · rename_i last hfiller
    rcases List.mem_append.1 h with ht | ht
    · exact hlasting t (List.mem_of_mem_take ht)
    · rw [List.eq_of_mem_replicate ht]
      simpa using (Option.filter_eq_some_iff.1 hfiller).2
  · exact hlasting t (List.mem_of_mem_take h)

theorem fills_choose (h : p.types.getLast? = some last) (slots : Nat) : p.Fills last slots (p.choose slots) where
  lasting hmem := nomatch isTransient_of_mem_choose hmem
  length := by
    rw [length_choose, filler?_eq h]
    cases last.isTransient <;> rfl
  slot i hi := by
    have hchosen := getElem?_choose p slots i
    rw [List.getElem?_eq_getElem hi, filler?_eq h] at hchosen
    split at hchosen
    · cases hlasting : p.lasting[i]? with
      | some t =>
        rw [hlasting, Option.some_or] at hchosen
        exact Option.some.inj hchosen
      | none =>
        rw [hlasting, Option.none_or] at hchosen
        split at hchosen
        · cases hchosen
        · exact Option.some.inj hchosen
    · cases hchosen

end Policy

namespace Suite

variable {policies : List Policy} {s : Suite} {p : Policy} {name : String}

/-- A suite that is accepted has the policies that were given. -/
theorem policies_of_ofPolicies (h : ofPolicies policies = .ok s) : s.policies = policies := by
  rw [ofPolicies] at h
  split at h
  · cases h
  · exact congrArg Suite.policies (Except.ok.inj h).symm

/-- A name stands for the first policy that has it, in any case of its letters. -/
theorem get?_eq_some_iff : s.get? name = some p ↔ Text.sameLetters p.name name ∧
    ∃ before after, s.policies = before ++ p :: after ∧ ∀ q ∈ before, Text.sameLetters q.name name = false := by
  simp only [get?, List.find?_eq_some_iff_append, Bool.not_eq_true']

theorem resolve_of_get? {layout : Layout} (h : s.get? name = some p)
    (hlayout : layout.isStriped = false ∨ p.striped) :
    s.resolve name layout = .ok (.required (p.choose layout.slots)) := by
  have hfits : ¬(layout.isStriped && !p.striped) := by
    rcases hlayout with hlayout | hlayout <;> simp [hlayout]
  simp only [resolve, h, if_neg hfits]

/-- A name that a suite knows, in any case of its letters, stands for the first policy that has it. For every
layout that this policy may be used for the suite answers the types that fill the slots of the layout; those
for fewer slots are the first of those for more. -/
theorem resolve_fills (hs : ofPolicies policies = .ok s)
    (hname : ∃ p ∈ policies, Text.sameLetters p.name name) :
    ∃ before p after last, policies = before ++ p :: after ∧ Text.sameLetters p.name name ∧
      (∀ q ∈ before, Text.sameLetters q.name name = false) ∧ p.types.getLast? = some last ∧
      ∀ layout : Layout, layout.isStriped = false ∨ p.striped →
        ∃ types, s.resolve name layout = .ok (.required types) ∧ p.Fills last layout.slots types ∧
          ∀ layout' : Layout, layout'.isStriped = false ∨ p.striped → layout.slots ≤ layout'.slots →
            ∃ types', s.resolve name layout' = .ok (.required types') ∧ types <+: types' := by
  have hpolicies := policies_of_ofPolicies hs
  obtain ⟨p, hp⟩ : ∃ p, s.get? name = some p := by
    rw [← Option.isSome_iff_exists, get?, List.find?_isSome, hpolicies]
    exact hname
  obtain ⟨hletters, before, after, hsplit, hbefore⟩ := get?_eq_some_iff.1 hp
  have hdeclared : p.types ≠ [] := s.declared p (hsplit ▸ List.mem_append_right _ List.mem_cons_self)
  have hlast := List.getLast?_eq_some_getLast hdeclared
  refine ⟨before, p, after, _, hpolicies ▸ hsplit, hletters, hbefore, hlast, fun layout hlayout => ?_⟩
  exact ⟨_, resolve_of_get? hp hlayout, Policy.fills_choose hlast layout.slots,
    fun layout' hlayout' hslots => ⟨_, resolve_of_get? hp hlayout', Policy.choose_prefix p hslots⟩⟩

/-- A policy that starts and ends in memory. -/
def mixedPolicy : Policy := ⟨1, "Mixed", [.ramDisk, .disk, .ramDisk, .ssd, .ramDisk], false⟩

/-- A suite with this policy, and with another one of the same name behind it. -/
def mixedSuite : Suite := ⟨[mixedPolicy, ⟨2, "MIXED", [.archive], true⟩], by decide⟩

/-- Three slots get the two lasting types of the first policy, and nothing more. -/
theorem resolve_fills_mixed :
    ofPolicies mixedSuite.policies = .ok mixedSuite ∧
    (∃ p ∈ mixedSuite.policies, Text.sameLetters p.name "mIXED") ∧
    ∃ before p after last, mixedSuite.policies = before ++ p :: after ∧ p.types.getLast? = some last ∧
      p.Fills last 3 [.disk, .ssd] ∧
      mixedSuite.resolve "mIXED" (.contiguous 3) = .ok (.required [.disk, .ssd]) := by
  have hs : ofPolicies mixedSuite.policies = .ok mixedSuite := rfl
  have hletters : Text.sameLetters mixedPolicy.name "mIXED" := Text.sameLetters_iff.2 (by decide)
  have hname : ∃ p ∈ mixedSuite.policies, Text.sameLetters p.name "mIXED" :=
    ⟨mixedPolicy, List.mem_cons_self, hletters⟩
  obtain ⟨before, p, after, last, hsplit, -, -, hlast, hall⟩ := resolve_fills hs hname
  obtain ⟨types, htypes, hfills, -⟩ := hall (.contiguous 3) (.inl rfl)
  have hfirst : mixedSuite.get? "mIXED" = some mixedPolicy := List.find?_cons_of_pos hletters
  have hanswer : mixedSuite.resolve "mIXED" (.contiguous 3) = .ok (.required [.disk, .ssd]) :=
    resolve_of_get? hfirst (.inl rfl)
  obtain rfl : [.disk, .ssd] = types :=
    Resolution.required.inj (Except.ok.inj (hanswer.symm.trans htypes))
  exact ⟨hs, hname, before, p, after, last, hsplit, hlast, hfills, hanswer⟩

end Suite

end StorageTiering
