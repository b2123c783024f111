import HdmiLos.Composer.Proofs.AcquireProofs

/-!
# What a release and the end of a display do

A release empties the map. If the lease could not be revoked the entry goes all the same, and the
lease is forgotten: then all deals of the step were refused.
-/

namespace HdmiLos.Composer

open Interaction Prog

variable {ω : Type} {env : Env ω} {H : Sys ω → Prop} {s t u : Sys ω} {gone : Prop}

/-- Since `s` the kernel has refused to revoke a lease, and has done nothing else. -/
def Forgot (s t : Sys ω) : Prop :=
  ∃ device lessee n, deals t.log = deals s.log ++ List.replicate (n + 1) (.refused device lessee)

/-- Only the map has changed, and it accounts for all leases unless one was forgotten. -/
def Midway (s t : Sys ω) : Prop :=
  (∃ leases, t.vars = { s.vars with leases := leases }) ∧ (Account t ∨ Forgot s t)

/-- The map has been emptied. -/
def Ended (s t : Sys ω) : Prop :=
  t.vars.NoLease ∧ (∃ leases, t.vars = { s.vars with leases := leases }) ∧ (Clear t ∨ Forgot s t)

theorem Forgot.same (h : Forgot s t) (hu : deals u.log = deals t.log) : Forgot s u := by
  obtain ⟨device, lessee, n, h⟩ := h
  exact ⟨device, lessee, n, hu.trans h⟩

theorem Midway.same (h : Midway s t) (hu : Same t u) : Midway s u := by
  obtain ⟨⟨leases, hvars⟩, h⟩ := h
  exact ⟨⟨leases, hu.1.trans hvars⟩, h.imp (Account.same · hu) (Forgot.same · hu.2)⟩

theorem Ended.same (h : Ended s t) (hu : Same t u) : Ended s u := by
  obtain ⟨hno, ⟨leases, hvars⟩, h⟩ := h
  refine ⟨?_, ⟨leases, hu.1.trans hvars⟩, h.imp (Clear.same · hu.2) (Forgot.same · hu.2)⟩
  rw [hu.1]
  exact hno

theorem Ended.midway (h : Ended s t) : Midway s t :=
  ⟨h.2.1, h.2.2.imp_left Clear.account⟩

theorem Account.midway (h : Account s) (ht : Same s t) : Midway s t :=
  ⟨⟨s.vars.leases, ht.1⟩, .inl (h.same ht)⟩

/-! ## The lease -/

theorem only_isLeaseConnected (display : Display) :
    (isLeaseConnected display).Uses (Only Io.quiet) := by
  unfold isLeaseConnected
  cases display.leaseDevice with
  | error e => trivial
  | ok d => exact uses_bind (only_isExternalDisplayLeaseConnected d) fun _ => trivial

variable {d : Device} {e : LeaseState}

theorem Tried.account (h : Account s) (he : s.vars.leases d.id = some e)
    (hother : ∀ other, other ≠ d.id → s.vars.leases other = none) (ht : Tried d e s t) :
    Account t := by
  rcases ht with ⟨hvars, hdeals⟩ | ⟨-, hdeals⟩
  · exact h.refused (by rw [hvars]) hdeals
  · exact (h.revoked he hother hdeals).account

theorem Tried.leases (ht : Tried d e s t) :
    ∃ leases, t.vars = { s.vars with leases := leases } := by
  rcases ht with ⟨hvars, -⟩ | ⟨hvars, -⟩
  · exact ⟨_, hvars⟩
  · exact ⟨_, hvars⟩

theorem noLease_setLease {s : Session}
    (h : ∀ other, other ≠ d.id → s.leases other = none) : (s.setLease d.id none).NoLease := by
  intro device
  by_cases hd : device = d.id
  · rw [hd]
    exact setLease_self ..
  · simp only [Session.setLease, Function.update_of_ne hd]
    exact h device hd

theorem wp_resetRefused (h : Account s) (he : s.vars.leases d.id = some e) (ha : e.active = true)
    (hother : ∀ other, other ≠ d.id → s.vars.leases other = none) (hvars : t.vars = s.vars)
    (hdeals : deals t.log = deals s.log ++ [.refused d.id e.lesseeId]) :
    wp (sysHandler env) (resetDeviceLease d) (fun _ u => Ended s u) t (Midway s) := by
  rw [← hvars] at he hother
  have ht : Account t := h.refused (by rw [hvars]) hdeals
  refine wp_mono (wp_resetDeviceLease_active he ha) (fun _ u hu => ?_) fun v hv => ?_
  · obtain ⟨huvars, hu⟩ := hu
    rw [hvars] at huvars
    refine ⟨?_, ⟨_, huvars⟩, ?_⟩
    · rw [huvars, ← hvars]
      exact noLease_setLease hother
    · rcases hu with hu | hu
      · exact .inr ⟨d.id, e.lesseeId, 1, by rw [hu, hdeals, List.append_assoc]; rfl⟩
      · exact .inl (ht.revoked he hother hu)
  · obtain ⟨u, hu, hsame⟩ := hv
    rcases hu with rfl | hu
    · exact Midway.same ⟨⟨_, hvars⟩, .inl ht⟩ hsame
    · obtain ⟨leases, huvars⟩ := hu.leases
      rw [hvars] at huvars
      exact Midway.same ⟨⟨leases, huvars⟩, .inl (hu.account ht he hother)⟩ hsame

variable {display : Display}

theorem wp_releaseCreated (h : Account s)
    (hd : display.leaseDevice = .ok d) (he : s.vars.leases d.id = some e) (ha : e.active = true)
    (hother : ∀ other, other ≠ d.id → s.vars.leases other = none) :
    wp (sysHandler env) (releaseLease acquireCreate display) (fun _ t => Ended s t) s
      (Midway s) := by
  rw [releaseLease, wp_ite, if_pos rfl, revokeExternalDisplayLease, resetExternalDisplayLease, hd]
  simp only [wp_bind, wp_pure]
  refine wp_mono (wp_revokeDeviceLease_active he ha) (fun _ t ht => ?_) fun t ht => h.midway ht
  refine wp_mono (wp_quiet (only_isLeaseConnected display)) (fun _ u hu => ?_) fun u hu =>
    Midway.same ⟨ht.leases, .inl (ht.account h he hother)⟩ hu
  rcases ht with ⟨hvars, hdeals⟩ | ⟨hvars, hdeals⟩
  · exact wp_resetRefused h he ha hother (hu.1.trans hvars) (hu.2.trans hdeals)
  · -- the entry is inactive now
    have huvars := hu.1.trans hvars
    have hclear : Clear u := h.revoked he hother (hu.2.trans hdeals)
    have heu : u.vars.leases d.id = some { e with active := false } := by
      rw [huvars, setLease_self]
    refine wp_mono (wp_resetDeviceLease_idle heu rfl) (fun _ v hv => ?_) fun v hv =>
      Midway.same ⟨⟨_, huvars⟩, .inl hclear.account⟩ hv
    rw [huvars, setLease_setLease] at hv
    refine ⟨?_, ⟨_, hv.1⟩, .inl (hclear.same hv.2)⟩
    rw [hv.1]
    exact noLease_setLease hother

theorem wp_releaseNothing (phase : UInt32) (display : Display) (h : Account s)
    (hno : s.vars.NoLease) :
    wp (sysHandler env) (releaseLease phase display) (fun _ t => Ended s t) s (Midway s) := by
  have hended : ∀ {t : Sys ω}, Same s t → Ended s t := fun {t} ht => by
    refine ⟨?_, ⟨s.vars.leases, ht.1⟩, .inl ((h.clear_of_noLease hno).same ht.2)⟩
    rw [ht.1]
    exact hno
  rw [releaseLease, revokeExternalDisplayLease, resetExternalDisplayLease,
    abortExternalDisplayLeasePreparation, wp_ite]
  split
  · cases display.leaseDevice with
    | error e =>
      simp only [wp_bind, wp_pure]
      exact wp_mono (wp_quiet (only_isLeaseConnected display)) (fun _ _ => hended) fun _ => h.midway
    | ok d =>
      simp only [wp_bind, wp_pure]
      rw [wp_revokeDeviceLease_idle _ fun e he => by rw [hno d.id] at he; cases he]
      refine wp_mono (wp_quiet (only_isLeaseConnected display)) (fun _ t ht => ?_) fun _ => h.midway
      rw [wp_resetDeviceLease_none _ (by rw [ht.1]; exact hno d.id)]
      exact hended ht
  · refine wp_quiet_bind (only_isLeaseConnected display) (fun _ => h.midway) fun _ t ht => ?_
    cases display.leaseDevice with
    | error e => exact hended ht
    | ok d =>
      simp only [wp_bind, wp_pure]
      rw [wp_abortDevicePreparation_none _ (by rw [ht.1]; exact hno d.id)]
      exact hended ht

variable {slot : Slot}

theorem wp_releasePrepared {phase : UInt32} (h : Account s) (hphase : phase ≠ acquireCreate)
    (hp : s.vars.Prepared gone) (hidx : s.vars.displayIdx = some slot)
    (hdisplay : s.vars.displays slot = some display) :
    wp (sysHandler env) (releaseLease phase display) (fun _ t => Ended s t) s (Midway s) := by
  rw [releaseLease, wp_ite, if_neg hphase]
  refine wp_quiet_bind (only_isLeaseConnected display) (fun _ => h.midway) fun _ t ht => ?_
  rw [← ht.1] at hp hidx hdisplay
  refine wp_seq (wp_abortExternalDisplayLeasePreparation hp hidx hdisplay) ?_
  rintro _ u ⟨hno, ⟨leases, hvars⟩, hdeals⟩
  rw [ht.1] at hvars
  exact ⟨hno, ⟨leases, hvars⟩, .inl (((h.same ht).clear_of_prepared hp).same hdeals)⟩

/-! ## The release -/

theorem inert_resumeUpdates (phase : UInt32) (slot : Slot) :
    (resumeUpdates phase slot).Uses Inert :=
  uses_ite (uses_bind (inert_call rfl) fun _ => uses_bind (inert_call rfl) fun _ => trivial)
    (inert_call rfl)

theorem wp_restoreDisplay {phase : UInt32}
    (h : wp (sysHandler env) (releaseLease phase display) (fun _ t => Ended s t) s (Midway s)) :
    wp (sysHandler env) (restoreDisplay phase slot display) (fun _ t => Ended s t) s
      (Midway s) := by
  rw [restoreDisplay, wp_bind]
  refine wp_post h fun r t ht => ?_
  obtain ⟨ok, connected⟩ := r
  simp only [wp_ite]
  split
  · exact wp_inert_bind (inert_resumeUpdates phase slot) (fun _ hu => (ht.same hu).midway)
      fun _ _ hu => ht.same hu
  · exact ht

/-- Every point of a release or of the end of a display. -/
def Safe (s t : Sys ω) : Prop :=
  (t.vars.state = stateAndroid → t.vars.NoLease) ∧ (Account t ∨ Forgot s t)

/-- What a release guarantees when it returns. -/
structure Finished (s t : Sys ω) : Prop where
  stage : Stage.android.Holds t.vars ∨ Stage.error.Holds t.vars
  account : Account t ∨ Forgot s t
  displays : t.vars.displays = s.vars.displays

theorem Midway.safe {state : UInt32} (hstate : state ≠ stateAndroid) (hs : s.vars.state = state)
    (h : Midway s t) : Safe s t := by
  obtain ⟨⟨leases, hvars⟩, h⟩ := h
  refine ⟨fun ht => ?_, h⟩
  rw [hvars] at ht
  exact absurd (hs.symm.trans ht) hstate

theorem wp_finishRelease (ok connected : Bool) (h : Ended s t)
    (hidx : s.vars.displayIdx = some slot) (hphase : s.vars.phase ≠ acquireNone) :
    wp (sysHandler env) (finishRelease ok connected) (fun _ u => Finished s u) t (Safe s) := by
  obtain ⟨hno, ⟨leases, hvars⟩, haccount⟩ := h
  have hreleased : Finished s { t with vars := t.vars.released ok connected } := by
    refine ⟨?_, haccount.imp_left Clear.account, ?_⟩
    · unfold Session.released
      split
      · exact .inl ⟨rfl, rfl, rfl, rfl, hno⟩
      · refine .inr ⟨rfl, ?_, ⟨slot, ?_⟩, hno⟩
        · show t.vars.phase ≠ _
          rw [hvars]
          exact hphase
        · show t.vars.displayIdx = _
          rw [hvars]
          exact hidx
    · show (t.vars.released ok connected).displays = _
      unfold Session.released
      rw [hvars]
      split
      · rfl
      · rfl
  rw [finishRelease, wp_bind, wp_update, wp_bind, followRelease]
  cases connected with
  | true =>
    refine wp_mono (wp_inert (inert_call rfl)) (fun _ u hu => ?_) fun u hu => ?_
    · refine ⟨?_, hreleased.account.imp (Account.same · hu) (Forgot.same · hu.2), ?_⟩
      · rw [hu.1]
        exact hreleased.stage
      · rw [hu.1]
        exact hreleased.displays
    · refine ⟨fun _ => ?_, hreleased.account.imp (Account.same · hu) (Forgot.same · hu.2)⟩
      rw [hu.1]
      exact hreleased.stage.elim (fun h => h.2.2.2.2) fun h => h.2.2.2
  | false => exact ⟨hreleased.stage, hreleased.account, hreleased.displays⟩

theorem Session.OnlyLease.selected {s : Session} (h : s.OnlyLease e) :
    ∃ slot display d, s.displayIdx = some slot ∧ s.displays slot = some display ∧
      s.selectedDisplay = some (slot, display) ∧ display.leaseDevice = .ok d ∧
      s.leases d.id = some e ∧ ∀ other, other ≠ d.id → s.leases other = none := by
  obtain ⟨slot, display, d, hidx, hslot, hdisplay, hd, -, he, hother⟩ := h
  refine ⟨slot, display, d, hidx, hdisplay, ?_, hd, he, hother⟩
  simp [Session.selectedDisplay, hidx, hslot, hdisplay]

/-- A session with something to release. -/
structure Takeover (gone : Prop) (s : Session) : Prop where
  displayIdx : ∃ slot, s.displayIdx = some slot
  phase : s.phase ≠ acquireNone
  lease : (s.phase ≠ acquireCreate ∧ s.Prepared gone) ∨
    (s.phase = acquireCreate ∧ ∃ e, s.OnlyLease e ∧ e.active = true) ∨ s.NoLease

theorem Inv.takeover {s : Session} (h : Inv gone s)
    (hbusy : ¬(s.state = stateAndroid ∧ s.phase = acquireNone ∧ s.displayIdx = none)) :
    Takeover gone s := by
  rcases h with ⟨hs, hphase, hidx, -⟩ | ⟨-, hphase, hidx, hp⟩ | ⟨-, hphase, hidx, ha⟩ |
    ⟨-, hphase, hidx, hno⟩
  · exact absurd ⟨hs, hphase, hidx⟩ hbusy
  · rcases hphase with hphase | hphase
    · exact ⟨hidx, by rw [hphase]; decide, .inl ⟨by rw [hphase]; decide, hp⟩⟩
    · exact ⟨hidx, by rw [hphase]; decide, .inl ⟨by rw [hphase]; decide, hp⟩⟩
  · refine ⟨hidx, by rw [hphase]; decide, .inr ?_⟩
    rcases ha with ⟨e, he, ha, -⟩ | ⟨-, hno⟩
    · exact .inl ⟨hphase, e, he, ha⟩
    · exact .inr hno
  · exact ⟨hidx, hphase, .inr (.inr hno)⟩

theorem Takeover.noLease {s : Session} (h : Takeover gone s) (hselected : s.selectedDisplay = none) :
    s.NoLease := by
  have honly : ∀ e, ¬s.OnlyLease e := by
    intro e he
    obtain ⟨_, _, _, -, -, hsome, -⟩ := he.selected
    rw [hselected] at hsome
    cases hsome
  rcases h.lease with ⟨-, ⟨e, he, -⟩ | ⟨-, hno⟩⟩ | ⟨-, e, he, -⟩ | hno
  · exact absurd he (honly e)
  · exact hno
  · exact absurd he (honly e)
  · exact hno

theorem wp_releaseSelected (h : Account s) (htakeover : Takeover gone s.vars)
    (hselected : s.vars.selectedDisplay = some (slot, display)) :
    wp (sysHandler env) (releaseLease s.vars.phase display) (fun _ t => Ended s t) s
      (Midway s) := by
  rcases htakeover.lease with ⟨hcreate, ⟨e, he, hp⟩ | ⟨-, hno⟩⟩ | ⟨hcreate, e, he, ha⟩ | hno
  · obtain ⟨slot', display', d, hidx, hdisplay, hsome, -⟩ := he.selected
    rw [hselected] at hsome
    cases hsome
    exact wp_releasePrepared h hcreate (.inl ⟨e, he, hp⟩ : s.vars.Prepared gone) hidx hdisplay
  · exact wp_releaseNothing _ _ h hno
  · obtain ⟨slot', display', d, hidx, hdisplay, hsome, hd, he', hother⟩ := he.selected
    rw [hselected] at hsome
    cases hsome
    rw [hcreate]
    exact wp_releaseCreated h hd he' ha hother
  · exact wp_releaseNothing _ _ h hno

/-- A release of a takeover, from the point where the state is `RESTORING`. -/
theorem wp_releaseTakeover (h : Account s) (hs : s.vars.state = stateRestoring)
    (htakeover : Takeover gone s.vars) :
    wp (sysHandler env) (match s.vars.selectedDisplay with
      | none => finishRelease true false
      | some (slot, display) => do
        let (ok, connected) ← restoreDisplay s.vars.phase slot display
        finishRelease ok connected)
      (fun _ t => Finished s t) s (Safe s) := by
  obtain ⟨slot, hidx⟩ := htakeover.displayIdx
  cases hselected : s.vars.selectedDisplay with
  | none =>
    have hno := htakeover.noLease hselected
    exact wp_finishRelease true false ⟨hno, ⟨_, rfl⟩, .inl (h.clear_of_noLease hno)⟩ hidx
      htakeover.phase
  | some x =>
    obtain ⟨slot', display⟩ := x
    dsimp only
    rw [wp_bind]
    refine wp_mono (wp_restoreDisplay (wp_releaseSelected h htakeover hselected))
      (fun r t ht => ?_) fun t ht => ht.safe (by decide) hs
    exact wp_finishRelease r.1 r.2 ht hidx htakeover.phase

/-- `ReleaseHdmiLease` ends a takeover in Android's stage or in the error stage. -/
theorem wp_releaseHdmiLease (reason : String) (hinv : Inv gone s.vars) (haccount : Account s) :
    wp (sysHandler env) (releaseHdmiLease reason) (fun _ t => Finished s t) s (Safe s) := by
  rw [releaseHdmiLease, wp_bind, wp_getSession, wp_ite]
  split
  · rename_i hidle
    exact ⟨.inl (hinv.android hidle.1), .inl haccount, rfl⟩
  · rename_i hbusy
    rw [wp_bind, wp_update]
    obtain ⟨hidx, hphase, hlease⟩ := hinv.takeover hbusy
    exact wp_mono (wp_releaseTakeover
      (s := { s with vars := { s.vars with state := stateRestoring, detail := reason } })
      haccount rfl ⟨hidx, hphase, hlease⟩) (fun _ t h => ⟨h.stage, h.account, h.displays⟩)
      fun t h => h

/-! ## Displays that come and go -/

/-- The lease part of `HWDeviceDRM::Deinit` on a device that has no entry. -/
theorem wp_deinitDevice_none (h : s.vars.leases d.id = none)
    {Q : DisplayError → Sys ω → Prop} (hQ : ∀ r, Q r s) :
    wp (sysHandler env) (deinitDevice d) Q s H := by
  rw [deinitDevice, wp_ite]
  split
  · rw [wp_bind, wp_revokeDeviceLease_idle _ (by simp [h]), wp_bind, wp_update, setLease_eq h]
    exact hQ _
  · exact hQ _

theorem wp_deinitDevice_entry (h : Account s) (htv : d.tv = true) (he : s.vars.leases d.id = some e)
    (hother : ∀ other, other ≠ d.id → s.vars.leases other = none) :
    wp (sysHandler env) (deinitDevice d) (fun _ t => Ended s t) s (Midway s) := by
  rw [deinitDevice, htv, wp_ite, if_pos rfl, wp_bind]
  cases ha : e.active with
  | false =>
    rw [wp_revokeDeviceLease_idle _ fun e' he' => by rw [he] at he'; cases he'; exact ha]
    have hclear : Clear s := h.clear fun device e' he' => by
      by_cases hd : device = d.id
      · rw [hd, he] at he'
        cases he'
        exact ha
      · rw [hother device hd] at he'
        cases he'
    exact ⟨noLease_setLease hother, ⟨_, rfl⟩, .inl hclear⟩
  | true =>
    refine wp_mono (wp_revokeDeviceLease_active he ha) (fun r t ht => ?_) fun t ht => h.midway ht
    rw [wp_bind, wp_update]
    have hended : Ended s { t with vars := t.vars.setLease d.id none } := by
      rcases ht with ⟨hvars, hdeals⟩ | ⟨hvars, hdeals⟩
      · refine ⟨?_, ⟨_, by rw [hvars]; rfl⟩, .inr ⟨d.id, e.lesseeId, 0, hdeals⟩⟩
        show (t.vars.setLease d.id none).NoLease
        rw [hvars]
        exact noLease_setLease hother
      · refine ⟨?_, ⟨_, by rw [hvars, setLease_setLease]; rfl⟩, .inl (h.revoked he hother hdeals)⟩
        show (t.vars.setLease d.id none).NoLease
        rw [hvars, setLease_setLease]
        exact noLease_setLease hother
    rw [wp_ite]
    split
    · exact hended
    · exact hended

end HdmiLos.Composer
