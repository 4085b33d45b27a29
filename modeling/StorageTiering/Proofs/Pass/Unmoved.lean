import StorageTiering.Proofs.Dispatch.Moves
import StorageTiering.Proofs.Pass.Survey
/-!
# Blocks that passes leave alone

* `ListedBlock.Unmoved` — a block with a faulty record, without a policy, or with nothing to move.
* `Pass.Draws` — what a pass puts into its ledger is for other blocks than these;
  `Pass.draws_scheduleAll`.
-/

namespace StorageTiering

/-- A block that is left where it is: its record is faulty, its policy is unknown, or it is settled. -/
def ListedBlock.Unmoved (suite : Suite) (b : ListedBlock) : Prop :=
  ¬b.Valid ∨ (∃ fault, suite.resolve b.policy b.layout = .error fault) ∨ b.Settled suite

/-- A block with a type in surplus and another one missing is not left where it is. -/
theorem ListedBlock.not_unmoved {suite : Suite} {b : ListedBlock} {d : Difference} {s t : StorageType}
    (hv : b.Valid) (hd : b.difference? suite = some d) (hs : s ∈ d.surplus) (ht : t ∈ d.missing) :
    ¬b.Unmoved suite := by
  rw [ListedBlock.difference?] at hd
  split at hd
  · rename_i types hresolve
    obtain rfl := Option.some.inj hd
    rintro (hfaulty | ⟨fault, herror⟩ | ⟨-, ⟨policy, huntouched⟩ | ⟨types', hrequired, hsettled⟩⟩)
    · exact hfaulty hv
    · cases hresolve.symm.trans herror
    · cases hresolve.symm.trans huntouched
    · cases hresolve.symm.trans hrequired
      rcases Bool.or_eq_true _ _ ▸ hsettled with hempty | hempty
      · exact List.ne_nil_of_mem ht (List.isEmpty_iff.1 hempty)
      · exact List.ne_nil_of_mem hs (List.isEmpty_iff.1 hempty)
  · cases hd

namespace Pass

variable {p q r : Pass} {blocks blocks' : List ListedBlock}

/-- What a pass puts into its ledger is for listed blocks that are not left where they are. -/
structure Draws (blocks : List ListedBlock) (p q : Pass) : Prop where
  suite : q.suite = p.suite
  moves : ∀ m ∈ q.ledger.moves, m ∈ p.ledger.moves ∨ ∃ b ∈ blocks, m.block = b.block ∧ ¬b.Unmoved p.suite

theorem Draws.refl (blocks : List ListedBlock) (p : Pass) : p.Draws blocks p := ⟨rfl, fun _ hm => .inl hm⟩

theorem Draws.trans (h : p.Draws blocks q) (h' : q.Draws blocks r) : p.Draws blocks r := by
  refine ⟨h'.suite.trans h.suite, fun m hm => ?_⟩
  rcases h'.moves m hm with hm | hb
  · exact h.moves m hm
  · exact .inr (h.suite ▸ hb)

theorem Draws.mono (h : p.Draws blocks q) (hsub : blocks ⊆ blocks') : p.Draws blocks' q :=
  ⟨h.suite, fun m hm => (h.moves m hm).imp_right fun ⟨b, hb, hrest⟩ => ⟨b, hsub hb, hrest⟩⟩

theorem draws_scheduleAll (p : Pass) (blocks : List ListedBlock) : p.Draws blocks (p.scheduleAll blocks) := by
  obtain ⟨ms, hsurveys⟩ := exists_surveys p blocks
  refine ⟨hsurveys.schedules.frame.2.2, fun m hm => ?_⟩
  rw [Ledger.moves, hsurveys.schedules.booked] at hm
  refine (List.mem_append.1 hm).imp_right fun hm => ?_
  obtain ⟨b, source, o, rfl, ⟨hb, -, hv, d, hd, hsurplus, hmissing⟩, -⟩ :=
    hsurveys.schedules.offered m (List.mem_reverse.1 hm)
  exact ⟨b, hb, rfl, ListedBlock.not_unmoved hv hd hsurplus hmissing⟩

end Pass

end StorageTiering
