import Mathlib.Data.List.Nodup
import StorageTiering.Cluster.Lease
/-!
# Whose lease it is

Movers know the lease of a namespace by its calls and by the answers to them. What a token is worth
can be read off that history alone, whoever else has called in between.

* `LeaseCall`, `LeaseAnswer`, `Cluster.answerLeases` — calls about the lease, by anyone and in any order.
* `LeaseHistory.Stands` — a token that was granted, and nothing after it took the lease away.
* `Cluster.Tenure` — what a history says of the lease, kept by `Cluster.Tenure.answerLease`.
* `Cluster.answerLeases_exclusive` — a free lease is granted and a held one is not; only the token that
  stands is honoured, and a call that is refused changes nothing.
-/

namespace StorageTiering

/-- A call about the lease, or what is done to it from outside. -/
inductive LeaseCall
  | acquire (holder : String)
  | renew (token : LeaseToken)
  | release (token : LeaseToken)
  | hold (holder : String) (bySatisfier : Bool)
  | rejectRenewal (rejects : Bool)
  deriving DecidableEq, Repr

/-- What is answered to a call about the lease. -/
inductive LeaseAnswer
  | granted (token : LeaseToken)
  | done
  | refused (e : LeaseError)
  deriving DecidableEq, Repr

/-- Calls about the lease with their answers, in their order. -/
abbrev LeaseHistory := List (LeaseCall × LeaseAnswer)

namespace LeaseAnswer

/-- The answer to a call that has no result. -/
def ofUnit : Except LeaseError Unit → LeaseAnswer
  | .error e => .refused e
  | .ok () => .done

/-- The answer to a call for the lease. -/
def ofToken : Except LeaseError LeaseToken → LeaseAnswer
  | .error e => .refused e
  | .ok token => .granted token

/-- The token that an answer hands out. -/
def token? : LeaseAnswer → Option LeaseToken
  | .granted token => some token
  | .done => none
  | .refused _ => none

end LeaseAnswer

namespace LeaseHistory

/-- The tokens that have been granted, in their order. -/
def issued (history : LeaseHistory) : List LeaseToken := history.filterMap fun x => x.2.token?

/-- Whether an exchange takes the lease away from a token: it is given to someone else, or given back. -/
def Ends (token : LeaseToken) : LeaseCall × LeaseAnswer → Prop
  | (.acquire _, .granted _) => True
  | (.hold _ _, _) => True
  | (.release other, .done) => other.serial = token.serial
  | _ => False

/-- A token that was granted, and nothing after it took the lease away. -/
def Stands (history : LeaseHistory) (token : LeaseToken) : Prop :=
  ∃ before holder after, history = before ++ (.acquire holder, .granted token) :: after ∧
    ∀ x ∈ after, ¬Ends token x

/-- The lease was put into the hands of someone who has no token. -/
def Usurped (history : LeaseHistory) : Prop :=
  ∃ holder bySatisfier answer, (LeaseCall.hold holder bySatisfier, answer) ∈ history

variable {history before after : LeaseHistory} {x : LeaseCall × LeaseAnswer} {token : LeaseToken}

theorem issued_append (before after : LeaseHistory) :
    issued (before ++ after) = issued before ++ issued after := by
  rw [issued, List.filterMap_append]
  rfl

theorem usurped_snoc_iff {call : LeaseCall} {answer : LeaseAnswer} :
    Usurped (history ++ [(call, answer)]) ↔ Usurped history ∨ ∃ holder b, call = .hold holder b := by
  constructor
  · rintro ⟨holder, b, other, hmem⟩
    rcases List.mem_append.1 hmem with hmem | hmem
    · exact .inl ⟨holder, b, other, hmem⟩
    · exact .inr ⟨holder, b, (Prod.ext_iff.1 (List.mem_singleton.1 hmem)).1.symm⟩
  · rintro (⟨holder, b, other, hmem⟩ | ⟨holder, b, rfl⟩)
    · exact ⟨holder, b, other, List.mem_append_left _ hmem⟩
    · exact ⟨holder, b, answer, by simp⟩

theorem Stands.mem_issued (h : Stands history token) : token ∈ issued history := by
  obtain ⟨before, holder, after, rfl, -⟩ := h
  rw [issued_append]
  exact List.mem_append_right _ List.mem_cons_self

theorem not_stands_nil : ¬Stands [] token := by
  rintro ⟨before, holder, after, h, -⟩
  simp at h

/-- What one more exchange makes of the tokens that stand. -/
theorem stands_snoc_iff : Stands (history ++ [x]) token ↔
    (∃ holder, x = (.acquire holder, .granted token)) ∨ (Stands history token ∧ ¬Ends token x) := by
  constructor
  · rintro ⟨before, holder, after, hsplit, hafter⟩
    -- Either the last exchange is the grant, or it is the last of those that come after it.
    rcases List.eq_nil_or_concat after with rfl | ⟨rest, last, rfl⟩
    · exact .inl ⟨holder, (List.append_inj' hsplit rfl).2 |> List.singleton_inj.1⟩
    · rw [List.concat_eq_append, ← List.cons_append, ← List.append_assoc] at hsplit
      obtain ⟨rfl, hlast⟩ := List.append_inj' hsplit rfl
      obtain rfl := List.singleton_inj.1 hlast
      exact .inr ⟨⟨before, holder, rest, rfl, fun y hy => hafter y (by simp [hy])⟩,
        hafter x (by simp)⟩
  · rintro (⟨holder, rfl⟩ | ⟨⟨before, holder, after, rfl, hafter⟩, hx⟩)
    · exact ⟨history, holder, [], rfl, by simp⟩
    · refine ⟨before, holder, after ++ [x], by simp, fun y hy => ?_⟩
      rcases List.mem_append.1 hy with hy | hy
      · exact hafter y hy
      · rwa [List.mem_singleton.1 hy]

/-- A token does not stand any more after an exchange that took the lease away from it. -/
theorem not_stands_of_ends (hdistinct : (issued (before ++ x :: after)).Nodup)
    (hissued : token ∈ issued before) (hx : Ends token x) : ¬Stands (before ++ x :: after) token := by
  rintro ⟨front, holder, back, hsplit, hback⟩
  have hfront : token ∉ issued front := by
    rw [hsplit, issued_append] at hdistinct
    exact fun hmem => (List.nodup_append.1 hdistinct).2.2 token hmem token List.mem_cons_self rfl
  -- There is one grant only, and it comes before the exchange.
  rcases List.append_eq_append_iff.1 hsplit with ⟨rest, rfl, -⟩ | ⟨rest, rfl, hrest⟩
  · exact hfront (by rw [issued_append]; exact List.mem_append_left _ hissued)
  · cases rest with
    | nil => exact hfront (by simpa using hissued)
    | cons g rest =>
      obtain ⟨-, rfl⟩ := List.cons.inj hrest
      exact hback x (by simp) hx

end LeaseHistory

namespace Cluster

open LeaseHistory

/-- The cluster after a call about its lease, and the answer. -/
def answerLease (c : Cluster) : LeaseCall → Cluster × LeaseAnswer
  | .acquire holder => ((c.acquireLease holder).1, .ofToken (c.acquireLease holder).2)
  | .renew token => (c, .ofUnit (c.renewLease token.serial))
  | .release token => ((c.releaseLease token.serial).1, .ofUnit (c.releaseLease token.serial).2)
  | .hold holder bySatisfier => (c.holdLease holder bySatisfier, .done)
  | .rejectRenewal rejects => (c.setRejectsRenewal rejects, .done)

/-- The cluster after several calls about its lease, and their history. -/
def answerLeases (c : Cluster) : List LeaseCall → Cluster × LeaseHistory
  | [] => (c, [])
  | call :: rest => (((c.answerLease call).1.answerLeases rest).1,
      (call, (c.answerLease call).2) :: ((c.answerLease call).1.answerLeases rest).2)

/-- A token is good for a renewal or for giving the lease back. -/
def Honours (c : Cluster) (token : LeaseToken) : Prop :=
  c.renewLease token.serial = .ok () ∨ (c.releaseLease token.serial).2 = .ok ()

/-- The lease is in the hands of someone who has no token. -/
def InOtherHands (c : Cluster) : Prop := ∃ lease, c.lease = some lease ∧ lease.serial = none

variable {c c₀ : Cluster} {serial other : Nat} {history : LeaseHistory} {call : LeaseCall}
  {token : LeaseToken} {e : LeaseError} {holder : String}

/-! ### Single calls -/

theorem accepts_iff : c.accepts serial = true ↔
    ∃ lease, c.lease = some lease ∧ lease.serial = some serial := by
  cases hlease : c.lease with
  | none => simp [accepts, hlease]
  | some lease => simp [accepts, hlease]

/-- No two tokens are accepted. -/
theorem accepts_unique (h : c.accepts serial = true) (ho : c.accepts other = true) : serial = other := by
  obtain ⟨lease, hlease, hserial⟩ := accepts_iff.1 h
  obtain ⟨lease', hlease', hserial'⟩ := accepts_iff.1 ho
  obtain rfl := Option.some.inj (hlease.symm.trans hlease')
  exact Option.some.inj (hserial.symm.trans hserial')

theorem accepts_congr {d : Cluster} (h : d.lease = c.lease) : d.accepts serial = c.accepts serial := by
  rw [accepts, accepts, h]

/-- A lease is free, held with a token, or in other hands. -/
theorem lease_eq_none_iff :
    c.lease = none ↔ ¬c.InOtherHands ∧ ∀ serial, c.accepts serial = false := by
  constructor
  · intro hfree
    exact ⟨fun ⟨lease, hlease, _⟩ => by simp [hfree] at hlease, fun serial => by simp [accepts, hfree]⟩
  · rintro ⟨hhands, haccepts⟩
    cases hlease : c.lease with
    | none => rfl
    | some lease =>
      cases hserial : lease.serial with
      | none => exact absurd ⟨lease, hlease, hserial⟩ hhands
      | some serial => exact absurd (accepts_iff.2 ⟨lease, hlease, hserial⟩) (by simp [haccepts])

theorem acquireLease_ok_iff : (∃ token, (c.acquireLease holder).2 = .ok token) ↔ c.lease = none := by
  cases hlease : c.lease with
  | none => simp [acquireLease, hlease]
  | some lease => simp [acquireLease, hlease]

theorem releaseLease_ok_iff : (c.releaseLease serial).2 = .ok () ↔ c.accepts serial = true := by
  rw [releaseLease]
  split <;> simp_all

theorem renewLease_ok_iff :
    c.renewLease serial = .ok () ↔ c.accepts serial = true ∧ c.rejectsRenewal = false := by
  have herror : c.renewLease serial = .ok () ↔ c.renewalError? serial = none := by
    rw [renewLease]
    split <;> simp_all
  rw [herror, renewalError?, accepts_iff]
  cases c.rejectsRenewal with
  | true => simp
  | false => cases hlease : c.lease <;> simp

theorem Honours.accepts (h : c.Honours token) : c.accepts token.serial = true := by
  rcases h with h | h
  · exact (renewLease_ok_iff.1 h).1
  · exact releaseLease_ok_iff.1 h

/-- A call that is refused leaves the cluster as it is. -/
theorem answerLease_refused (h : (c.answerLease call).2 = .refused e) : (c.answerLease call).1 = c := by
  cases call with
  | acquire holder =>
    cases hlease : c.lease with
    | none => simp [answerLease, acquireLease, hlease, LeaseAnswer.ofToken] at h
    | some lease => simp [answerLease, acquireLease, hlease]
  | renew token => rfl
  | release token =>
    cases haccepts : c.accepts token.serial with
    | true => simp [answerLease, releaseLease, haccepts, LeaseAnswer.ofUnit] at h
    | false => simp [answerLease, releaseLease, haccepts]
  | hold holder bySatisfier => simp [answerLease] at h
  | rejectRenewal rejects => simp [answerLease] at h

/-! ### Histories -/

/-- What the history since a cluster says of its lease. -/
structure Tenure (c₀ : Cluster) (history : LeaseHistory) (c : Cluster) : Prop where
  distinct : ((issued history).map LeaseToken.serial).Nodup
  granted : ∀ token ∈ issued history, token.serial ≤ c.granted
  /-- Only the token that stands is accepted. -/
  accepted : ∀ serial, c.accepts serial = true ↔ ∃ token, Stands history token ∧ token.serial = serial
  /-- Nobody takes the lease from someone who has no token. -/
  usurped : c.InOtherHands ↔ c₀.InOtherHands ∨ Usurped history

namespace Tenure

theorem nil (hstart : ∀ serial, c₀.accepts serial = false) : c₀.Tenure [] c₀ where
  distinct := List.nodup_nil
  granted := by simp [issued]
  accepted serial := by simp [hstart, not_stands_nil]
  usurped := by simp [Usurped]

theorem accepts_iff_stands (h : c₀.Tenure history c) (hissued : token ∈ issued history) :
    c.accepts token.serial = true ↔ Stands history token := by
  rw [h.accepted]
  constructor
  · rintro ⟨other, hstands, hserial⟩
    rwa [← List.inj_on_of_nodup_map h.distinct hstands.mem_issued hissued hserial]
  · exact fun hstands => ⟨token, hstands, rfl⟩

/-- An exchange that leaves the lease as it is, and neither hands out a token nor takes one away. -/
theorem idle {answer : LeaseAnswer} {d : Cluster} (h : c₀.Tenure history c) (hanswer : answer.token? = none)
    (hends : ∀ token, ¬Ends token (call, answer)) (hlease : d.lease = c.lease)
    (hgranted : d.granted = c.granted) : c₀.Tenure (history ++ [(call, answer)]) d := by
  have hissued : issued (history ++ [(call, answer)]) = issued history := by
    simp [issued, hanswer]
  have hstands : ∀ token, Stands (history ++ [(call, answer)]) token ↔ Stands history token := by
    intro token
    rw [stands_snoc_iff, and_iff_left (hends token)]
    refine or_iff_right fun ⟨holder, hx⟩ => ?_
    obtain ⟨rfl, rfl⟩ := Prod.ext_iff.1 hx
    cases hanswer
  have husurped : Usurped (history ++ [(call, answer)]) ↔ Usurped history := by
    rw [usurped_snoc_iff]
    refine or_iff_left fun ⟨holder, b, hcall⟩ => hends ⟨holder, 0⟩ ?_
    rw [hcall]
    trivial
  refine ⟨hissued ▸ h.distinct, by rw [hissued, hgranted]; exact h.granted, fun serial => ?_, ?_⟩
  · simp only [accepts_congr hlease, h.accepted, hstands]
  · rw [husurped, ← h.usurped, InOtherHands, InOtherHands, hlease]

/-- A free lease goes to the one who asks, with a token that there has not been yet. -/
theorem grant (h : c₀.Tenure history c) (hfree : c.lease = none) (holder : String) :
    c₀.Tenure (history ++ [(.acquire holder, .granted ⟨holder, c.granted + 1⟩)]) (c.acquireLease holder).1 := by
  obtain ⟨hhands, haccepts⟩ := lease_eq_none_iff.1 hfree
  have hissued : issued (history ++ [(.acquire holder, .granted ⟨holder, c.granted + 1⟩)]) =
      issued history ++ [⟨holder, c.granted + 1⟩] := by
    rw [issued_append]
    rfl
  have hnew : ∀ token ∈ issued history, token.serial < c.granted + 1 := fun token hmem =>
    Nat.lt_succ_of_le (h.granted token hmem)
  have hacquired : (c.acquireLease holder).1 =
      { c with lease := some ⟨holder, some (c.granted + 1), false⟩, granted := c.granted + 1 } := by
    simp [acquireLease, hfree]
  have hstands : ∀ token, Stands (history ++ [(.acquire holder, .granted ⟨holder, c.granted + 1⟩)]) token ↔
      token = ⟨holder, c.granted + 1⟩ := by
    intro token
    rw [stands_snoc_iff]
    simp [Ends, eq_comm]
  rw [hacquired]
  refine ⟨?_, fun token hmem => ?_, fun serial => ?_, ?_⟩
  · rw [hissued, List.map_append, List.nodup_append]
    refine ⟨h.distinct, List.nodup_singleton _, fun serial hserial other hother => ?_⟩
    obtain ⟨token, hmem, rfl⟩ := List.mem_map.1 hserial
    rw [List.mem_singleton.1 hother]
    exact Nat.ne_of_lt (hnew token hmem)
  · rcases List.mem_append.1 (hissued ▸ hmem) with hmem | hmem
    · exact Nat.le_of_lt (hnew token hmem)
    · exact Nat.le_of_eq (congrArg LeaseToken.serial (List.mem_singleton.1 hmem))
  · rw [accepts_iff]
    simp [hstands]
  · have hhands' : ¬(c₀.InOtherHands ∨ Usurped history) := fun hu => hhands (h.usurped.2 hu)
    rw [usurped_snoc_iff, ← or_assoc]
    refine iff_of_false (by simp [InOtherHands]) ?_
    rintro (hu | ⟨_, _, hcall⟩)
    · exact hhands' hu
    · cases hcall

/-- Whoever shows the token of the lease gives it back. -/
theorem release (h : c₀.Tenure history c) (haccepts : c.accepts token.serial = true) :
    c₀.Tenure (history ++ [(.release token, .done)]) { c with lease := none } := by
  have hissued : issued (history ++ [(.release token, .done)]) = issued history := by
    simp [issued, LeaseAnswer.token?]
  have hstands : ∀ other, ¬Stands (history ++ [(.release token, .done)]) other := by
    intro other
    rw [stands_snoc_iff]
    rintro (⟨holder, hx⟩ | ⟨hother, hends⟩)
    · cases hx
    · exact hends (accepts_unique haccepts ((h.accepted other.serial).2 ⟨other, hother, rfl⟩))
  have hhands : ¬c.InOtherHands := by
    rintro ⟨lease, hlease, hserial⟩
    obtain ⟨lease', hlease', hserial'⟩ := accepts_iff.1 haccepts
    obtain rfl := Option.some.inj (hlease.symm.trans hlease')
    simp [hserial] at hserial'
  refine ⟨hissued ▸ h.distinct, by rw [hissued]; exact h.granted, fun serial => ?_, ?_⟩
  · simp [accepts, hstands]
  · rw [usurped_snoc_iff, ← or_assoc, ← h.usurped]
    exact iff_of_false (by simp [InOtherHands]) (by simp [hhands])

/-- The lease is put into other hands, whoever has it. -/
theorem hold (h : c₀.Tenure history c) (holder : String) (bySatisfier : Bool) :
    c₀.Tenure (history ++ [(.hold holder bySatisfier, .done)]) (c.holdLease holder bySatisfier) := by
  have hissued : issued (history ++ [(.hold holder bySatisfier, .done)]) = issued history := by
    simp [issued, LeaseAnswer.token?]
  have hstands : ∀ token, ¬Stands (history ++ [(.hold holder bySatisfier, .done)]) token := by
    intro token
    rw [stands_snoc_iff]
    simp [Ends]
  refine ⟨hissued ▸ h.distinct, by rw [hissued]; exact h.granted, fun serial => ?_, ?_⟩
  · simp [accepts, holdLease, hstands]
  · rw [usurped_snoc_iff]
    exact iff_of_true ⟨_, rfl, rfl⟩ (.inr (.inr ⟨holder, bySatisfier, rfl⟩))

/-- Whatever is called, the history still says whose lease it is. -/
theorem answerLease (h : c₀.Tenure history c) (call : LeaseCall) :
    c₀.Tenure (history ++ [(call, (c.answerLease call).2)]) (c.answerLease call).1 := by
  cases call with
  | acquire holder =>
    cases hlease : c.lease with
    | none => simpa [Cluster.answerLease, acquireLease, hlease, LeaseAnswer.ofToken] using h.grant hlease holder
    | some lease =>
      refine h.idle ?_ ?_ ?_ ?_ <;>
        simp [Cluster.answerLease, acquireLease, hlease, LeaseAnswer.ofToken, LeaseAnswer.token?, Ends]
  | renew token =>
    rw [Cluster.answerLease]
    refine h.idle ?_ (fun _ => id) rfl rfl
    cases c.renewLease token.serial <;> rfl
  | release token =>
    cases haccepts : c.accepts token.serial with
    | true =>
      simpa [Cluster.answerLease, releaseLease, haccepts, LeaseAnswer.ofUnit] using h.release haccepts
    | false =>
      refine h.idle ?_ ?_ ?_ ?_ <;>
        simp [Cluster.answerLease, releaseLease, haccepts, LeaseAnswer.ofUnit, LeaseAnswer.token?, Ends]
  | hold holder bySatisfier => exact h.hold holder bySatisfier
  | rejectRenewal rejects => exact h.idle rfl (fun _ => id) rfl rfl

theorem answerLeases (h : c₀.Tenure history c) (calls : List LeaseCall) :
    c₀.Tenure (history ++ (c.answerLeases calls).2) (c.answerLeases calls).1 := by
  induction calls generalizing c history with
  | nil => simpa [Cluster.answerLeases] using h
  | cons call rest ih => simpa [Cluster.answerLeases] using ih (h.answerLease call)

end Tenure

/-- On a namespace whose lease, if anyone has it, is not held with a token, and after any calls about
the lease: a free lease is granted and a held one is not, and it is free when nobody was put in
possession of it and no token stands. The token that stands can give the lease back, and be renewed
unless renewals are rejected; no other can. No two tokens are honoured, and none is that was given back
or displaced before. A call that is refused changes nothing. -/
theorem answerLeases_exclusive (hstart : ∀ serial, c.accepts serial = false) (calls : List LeaseCall) :
    let c' := (c.answerLeases calls).1
    let history := (c.answerLeases calls).2
    (∀ holder, (∃ token, (c'.acquireLease holder).2 = .ok token) ↔ c'.lease = none) ∧
    (c'.lease = none ↔ c.lease = none ∧ ¬Usurped history ∧ ∀ token, ¬Stands history token) ∧
    (∀ token ∈ issued history,
      ((c'.releaseLease token.serial).2 = .ok () ↔ Stands history token) ∧
      (c'.renewLease token.serial = .ok () ↔ Stands history token ∧ c'.rejectsRenewal = false)) ∧
    (∀ token ∈ issued history, ∀ other ∈ issued history,
      c'.Honours token → c'.Honours other → token = other) ∧
    (∀ before x after token, history = before ++ x :: after → token ∈ issued before → Ends token x →
      ¬c'.Honours token) ∧
    (∀ call e, (c'.answerLease call).2 = .refused e → (c'.answerLease call).1 = c') := by
  intro c' history
  have h : c.Tenure history c' := by simpa using (Tenure.nil hstart).answerLeases calls
  refine ⟨fun holder => acquireLease_ok_iff, ?_, fun token hissued => ⟨?_, ?_⟩,
    fun token hissued other hother hhonours hhonours' => ?_,
    fun before x after token hsplit hissued hends => ?_, fun call e => answerLease_refused⟩
  · have hstart' : c.lease = none ↔ ¬c.InOtherHands := by
      rw [lease_eq_none_iff]
      exact and_iff_left hstart
    have hstands : (∀ serial, c'.accepts serial = false) ↔ ∀ token, ¬Stands history token := by
      constructor
      · intro hno token hstands
        have haccepts := (h.accepted token.serial).2 ⟨token, hstands, rfl⟩
        simp [hno] at haccepts
      · intro hno serial
        rw [Bool.eq_false_iff, ne_eq, h.accepted]
        exact fun ⟨token, hstands, _⟩ => hno token hstands
    rw [lease_eq_none_iff, h.usurped, hstart', hstands, not_or, and_assoc]
  · rw [releaseLease_ok_iff, h.accepts_iff_stands hissued]
  · rw [renewLease_ok_iff, h.accepts_iff_stands hissued]
  · exact List.inj_on_of_nodup_map h.distinct hissued hother (accepts_unique hhonours.accepts hhonours'.accepts)
  · intro hhonours
    have hmem : token ∈ issued history := by
      rw [hsplit, issued_append]
      exact List.mem_append_left _ hissued
    have hstands := (h.accepts_iff_stands hmem).1 hhonours.accepts
    rw [hsplit] at hstands
    exact not_stands_of_ends (hsplit ▸ h.distinct.of_map _) hissued hends hstands

/-- Two movers take turns: the first gives the lease back, and tries that again once the second has it. -/
def alternatingCalls : List LeaseCall :=
  [.acquire "first", .acquire "second", .release ⟨"first", 1⟩, .acquire "second", .release ⟨"first", 1⟩]

/-- The token of the first mover is worth nothing any more, the one of the second is. -/
theorem answerLeases_exclusive_alternating :
    ((empty "ns").answerLeases alternatingCalls).2.issued = [⟨"first", 1⟩, ⟨"second", 2⟩] ∧
    ¬((empty "ns").answerLeases alternatingCalls).1.Honours ⟨"first", 1⟩ ∧
    (((empty "ns").answerLeases alternatingCalls).1.releaseLease 2).2 = .ok () := by
  obtain ⟨-, -, hissued, -, hended, -⟩ :=
    answerLeases_exclusive (c := empty "ns") (fun _ => rfl) alternatingCalls
  refine ⟨by decide, hended [_, _] (.release ⟨"first", 1⟩, .done) _ ⟨"first", 1⟩ rfl (by decide) rfl, ?_⟩
  refine (hissued ⟨"second", 2⟩ (by decide)).1.2 ⟨[_, _, _], "second", [_], rfl, fun x hx => ?_⟩
  rw [List.mem_singleton.1 hx]
  exact id

end Cluster

end StorageTiering
