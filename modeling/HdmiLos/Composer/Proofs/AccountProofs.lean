import HdmiLos.Composer.Proofs.DeviceProofs

/-!
# The account of the leases

The leases of a device that were created and not revoked since are outstanding. The map accounts
for them as long as each is in an active entry; what a deal and a change of an entry do to the
account is said once here.
-/

namespace HdmiLos.Composer

open Interaction Prog List

variable {ω : Type} {s t u : Sys ω}

/-! ## Outstanding leases -/

/-- What a deal does to the leases. -/
def dealStep (device : Nat) (lessees : List UInt32) : Deal → List UInt32
  | .created d lessee => if d = device then lessee :: lessees else lessees
  | .revoked d lessee => if d = device then lessees.filter (· ≠ lessee) else lessees
  | .refused _ _ => lessees

/-- The lessees of a device that were created and not revoked since. -/
def outstanding (device : Nat) (ds : List Deal) : List UInt32 :=
  ds.foldl (dealStep device) []

theorem outstanding_append (device : Nat) (ds : List Deal) (x : Deal) :
    outstanding device (ds ++ [x]) = dealStep device (outstanding device ds) x := by
  simp [outstanding]

variable {device : Nat}

theorem mem_foldl_dealStep {lessee : UInt32} {ds : List Deal}
    {lessees : List UInt32} (h : lessee ∈ lessees) (hds : Deal.revoked device lessee ∉ ds) :
    lessee ∈ ds.foldl (dealStep device) lessees := by
  induction ds generalizing lessees with
  | nil => exact h
  | cons x ds ih =>
    have hx : x ≠ .revoked device lessee := fun h => hds (h ▸ mem_cons_self)
    refine ih ?_ fun h => hds (mem_cons_of_mem _ h)
    cases x with
    | created d l =>
      simp only [dealStep]
      split
      · exact mem_cons_of_mem _ h
      · exact h
    | revoked d l =>
      simp only [dealStep]
      split
      · rename_i hd
        refine mem_filter.2 ⟨h, ?_⟩
        simp only [ne_eq, decide_eq_true_eq]
        rintro rfl
        exact hx (by rw [hd])
      · exact h
    | refused d l => exact h

variable {x : Answered Io.Ans}

theorem dealOf_revoked {lessee : UInt32}
    (h : dealOf x = some (.revoked device lessee)) :
    ∃ a, a ≠ RevokeAnswer.failed ∧ x = ⟨.revokeLease device lessee, a⟩ := by
  obtain ⟨c, a⟩ := x
  cases c with
  | createLease d objects => rcases a with _ | ⟨fd, l⟩ <;> cases h
  | revokeLease d l =>
    cases a with
    | failed => cases h
    | revoked =>
      cases h
      exact ⟨_, by decide, rfl⟩
    | noEntry =>
      cases h
      exact ⟨_, by decide, rfl⟩
  | _ => cases h

theorem dealOf_refused {lessee : UInt32}
    (h : dealOf x = some (.refused device lessee)) :
    ∃ a, x = ⟨.revokeLease device lessee, a⟩ := by
  obtain ⟨c, a⟩ := x
  cases c with
  | createLease d objects => rcases a with _ | ⟨fd, l⟩ <;> cases h
  | revokeLease d l =>
    cases a with
    | failed =>
      cases h
      exact ⟨_, rfl⟩
    | revoked => cases h
    | noEntry => cases h
  | _ => cases h

theorem dealOf_created {lessee : UInt32}
    (h : dealOf x = some (.created device lessee)) :
    ∃ objects fd, x = ⟨.createLease device objects, some (fd, lessee)⟩ := by
  obtain ⟨c, a⟩ := x
  cases c with
  | createLease d objects =>
    rcases a with _ | ⟨fd, l⟩
    · cases h
    · cases h
      exact ⟨objects, fd, rfl⟩
  | revokeLease d l => cases a <;> cases h
  | _ => cases h

theorem dealOf_revokeLease {lessee : UInt32} {a : RevokeAnswer}
    (h : a ≠ .failed) : dealOf ⟨.revokeLease device lessee, a⟩ = some (.revoked device lessee) := by
  cases a with
  | failed => exact absurd rfl h
  | revoked => rfl
  | noEntry => rfl

variable {log : List (Answered Io.Ans)}

theorem recovered_of_outstanding
    (h : outstanding device (deals log) = []) : Recovered device log := by
  rintro before after objects fd lessee rfl
  by_contra hnone
  have hnot : Deal.revoked device lessee ∉ deals after := by
    intro hmem
    obtain ⟨x, hx, hdeal⟩ := mem_filterMap.1 hmem
    obtain ⟨a, ha, rfl⟩ := dealOf_revoked hdeal
    exact hnone ⟨a, ha, hx⟩
  have hstart : lessee ∈ dealStep device (outstanding device (deals before))
      (.created device lessee) := by
    simp [dealStep]
  have hmem := mem_foldl_dealStep hstart hnot
  rw [deals_append, outstanding, foldl_append] at h
  have hcons : deals (⟨.createLease device objects, some (fd, lessee)⟩ :: after) =
      .created device lessee :: deals after := rfl
  rw [hcons, foldl_cons] at h
  rw [outstanding] at hmem
  rw [h] at hmem
  cases hmem

theorem not_recovered (lessee : UInt32)
    (hcreated : Deal.created device lessee ∈ deals log)
    (hrevoked : Deal.revoked device lessee ∉ deals log) : ¬Recovered device log := by
  intro h
  obtain ⟨x, hx, hdeal⟩ := mem_filterMap.1 hcreated
  obtain ⟨objects, fd, rfl⟩ := dealOf_created hdeal
  obtain ⟨before, after, hlog⟩ := append_of_mem hx
  obtain ⟨a, ha, hmem⟩ := h before after objects fd lessee hlog
  refine hrevoked (mem_filterMap.2 ⟨_, ?_, dealOf_revokeLease ha⟩)
  rw [hlog]
  exact mem_append_right _ (mem_cons_of_mem _ hmem)

/-! ## The account -/

/-- Every outstanding lease is in an active entry of the map. -/
def Account (s : Sys ω) : Prop :=
  ∀ device lessee, lessee ∈ outstanding device (deals s.log) →
    ∃ e, s.vars.leases device = some e ∧ e.active = true ∧ e.lesseeId = lessee

/-- No lease is outstanding. -/
def Clear (s : Sys ω) : Prop :=
  ∀ device, outstanding device (deals s.log) = []

theorem Clear.account (h : Clear s) : Account s := by
  intro device lessee hmem
  rw [h device] at hmem
  cases hmem

theorem Clear.same (h : Clear s) (ht : deals t.log = deals s.log) : Clear t := by
  intro device
  rw [ht]
  exact h device

theorem Account.idle (h : Account s)
    (hidle : ∀ e, s.vars.leases device = some e → e.active = false) :
    outstanding device (deals s.log) = [] := by
  refine eq_nil_iff_forall_not_mem.2 fun lessee hmem => ?_
  obtain ⟨e, he, hactive, -⟩ := h device lessee hmem
  rw [hidle e he] at hactive
  cases hactive

theorem Account.clear (h : Account s)
    (hidle : ∀ device e, s.vars.leases device = some e → e.active = false) : Clear s :=
  fun device => h.idle (hidle device)

theorem Account.same (h : Account s) (ht : Same s t) : Account t := by
  intro device lessee hmem
  rw [ht.2] at hmem
  rw [ht.1]
  exact h device lessee hmem

variable {e : LeaseState}

theorem Clear.created (h : Clear s) {lessee : UInt32}
    (he : t.vars.leases device = some e) (ha : e.active = true) (hl : e.lesseeId = lessee)
    (hd : deals t.log = deals s.log ++ [.created device lessee]) : Account t := by
  intro device' lessee' hmem
  rw [hd, outstanding_append, h device', dealStep] at hmem
  split at hmem
  · rename_i heq
    subst heq
    obtain rfl := mem_singleton.1 hmem
    exact ⟨e, he, ha, hl⟩
  · cases hmem

theorem Account.lessee (h : Account s) {lessee : UInt32}
    (he : s.vars.leases device = some e) (hmem : lessee ∈ outstanding device (deals s.log)) :
    lessee = e.lesseeId := by
  obtain ⟨e', he', -, hl⟩ := h device lessee hmem
  rw [he] at he'
  cases he'
  exact hl.symm

/-- Revoking the lessee of the only active entry clears the account. -/
theorem Account.revoked (h : Account s) (he : s.vars.leases device = some e)
    (hother : ∀ other, other ≠ device → s.vars.leases other = none)
    (hd : deals t.log = deals s.log ++ [.revoked device e.lesseeId]) : Clear t := by
  intro device'
  rw [hd, outstanding_append, dealStep]
  split
  · rename_i heq
    subst heq
    rw [filter_eq_nil_iff]
    intro lessee hmem
    simp [h.lessee he hmem]
  · rename_i hne
    refine h.idle fun e' he' => ?_
    rw [hother device' (Ne.symm hne)] at he'
    cases he'

theorem Account.refused (h : Account s) {lessee : UInt32} (hvars : t.vars.leases = s.vars.leases)
    (hd : deals t.log = deals s.log ++ [.refused device lessee]) : Account t := by
  intro device' lessee' hmem
  rw [hd, outstanding_append] at hmem
  rw [hvars]
  exact h device' lessee' hmem

end HdmiLos.Composer
