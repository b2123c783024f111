import HdmiLos.Composer.Proofs.AccountProofs

/-!
# What an acquire does

The invariant of the session between two events, and what each phase of an acquire does to it. All
calls of an acquire are made while no lease is outstanding: the one that creates a lease is the
last.
-/

namespace HdmiLos.Composer

open Interaction Prog

variable {ω α β : Type} {env : Env ω} {H : Sys ω → Prop} {s t u : Sys ω} {gone : Prop}

/-! ## Rules -/

theorem Same.trans (h : Same s t) (h' : Same t u) : Same s u :=
  ⟨h'.1.trans h.1, h'.2.trans h.2⟩

variable {Q : β → Sys ω → Prop} {f : α → SessionProg β}

theorem wp_inert_bind {p : SessionProg α}
    (hp : p.Uses Inert) (hH : ∀ t, Same s t → H t)
    (hf : ∀ a t, Same s t → wp (sysHandler env) (f a) Q t H) :
    wp (sysHandler env) (p >>= f) Q s H := by
  rw [wp_bind]
  exact wp_mono (wp_inert hp) hf hH

theorem wp_quiet_bind {p : SessionProg α}
    (hp : p.Uses (Only Io.quiet)) (hH : ∀ t, Same s t → H t)
    (hf : ∀ a t, Same s t → wp (sysHandler env) (f a) Q t H) :
    wp (sysHandler env) (p >>= f) Q s H :=
  wp_inert_bind (inert_of_quiet hp) hH hf

theorem only_isLeaseReady (slot : Slot) : (isLeaseReady slot).Uses (Only Io.quiet) :=
  uses_bind (only_call rfl) fun _ => uses_ite trivial (only_call rfl)

theorem only_leasingForbidden : leasingForbidden.Uses (Only Io.quiet) :=
  uses_bind (only_call rfl) fun _ => uses_ite
    (uses_bind (only_call rfl) fun _ => uses_ite trivial (only_call rfl)) trivial

theorem only_takeoverForbidden : takeoverForbidden.Uses (Only Io.quiet) :=
  uses_bind (only_call rfl) fun _ => uses_ite trivial (only_call rfl)

theorem inert_resumePaused (slot : Slot) (paused : Bool) : (resumePaused slot paused).Uses Inert :=
  uses_ite (uses_bind (inert_call rfl) fun _ => trivial) trivial

theorem only_refreshIf (refresh : Bool) : (refreshIf refresh).Uses (Only Io.quiet) :=
  uses_ite (only_call rfl) trivial

/-! ## The invariant -/

/-- The entry of a takeover that has not created its lease. It may be missing if the selected
    display can be gone. -/
def Session.Prepared (gone : Prop) (s : Session) : Prop :=
  (∃ e, s.OnlyLease e ∧ e.prepared = true ∧ e.active = false ∧ e.lesseeId = 0) ∨ (gone ∧ s.NoLease)

/-- The entry of a completed takeover, likewise. -/
def Session.Active (gone : Prop) (s : Session) : Prop :=
  (∃ e, s.OnlyLease e ∧ e.active = true ∧ e.lesseeId = s.info.lesseeId) ∨ (gone ∧ s.NoLease)

/-- The session between two events. `gone` says whether the selected display can be gone. -/
def Inv (gone : Prop) (s : Session) : Prop :=
  Stage.android.Holds s ∨
    (s.state = stateDraining ∧ (s.phase = acquirePrepare ∨ s.phase = acquirePause) ∧
      (∃ slot, s.displayIdx = some slot) ∧ s.Prepared gone) ∨
    (s.state = stateLeased ∧ s.phase = acquireCreate ∧ (∃ slot, s.displayIdx = some slot) ∧
      s.Active gone) ∨
    Stage.error.Holds s

theorem Inv.android {s : Session} (h : Inv gone s) (hs : s.state = stateAndroid) :
    Stage.android.Holds s := by
  rcases h with h | ⟨hd, -⟩ | ⟨hl, -⟩ | ⟨he, -⟩
  · exact h
  · exact absurd (hd.symm.trans hs) (by decide)
  · exact absurd (hl.symm.trans hs) (by decide)
  · exact absurd (he.symm.trans hs) (by decide)

theorem Inv.draining {s : Session} (h : Inv gone s) (hs : s.state = stateDraining) :
    s.Prepared gone := by
  rcases h with ⟨ha, -⟩ | ⟨-, -, -, h⟩ | ⟨hl, -⟩ | ⟨he, -⟩
  · exact absurd (ha.symm.trans hs) (by decide)
  · exact h
  · exact absurd (hl.symm.trans hs) (by decide)
  · exact absurd (he.symm.trans hs) (by decide)

theorem Session.OnlyLease.eq {s : Session} {e e' : LeaseState} {device : Nat}
    (h : s.OnlyLease e) (he : s.leases device = some e') : e' = e := by
  obtain ⟨slot, display, d, -, -, -, -, -, hd, hother⟩ := h
  by_cases hdevice : device = d.id
  · rw [hdevice, hd] at he
    exact (Option.some.inj he).symm
  · rw [hother device hdevice] at he
    cases he

theorem Account.clear_of_noLease (h : Account s) (hno : s.vars.NoLease) : Clear s :=
  h.clear fun device e he => by
    rw [hno device] at he
    cases he

theorem Account.clear_of_prepared (h : Account s) (hp : s.vars.Prepared gone) : Clear s := by
  rcases hp with ⟨e, he, -, ha, -⟩ | ⟨-, hno⟩
  · refine h.clear fun device e' he' => ?_
    rw [he.eq he', ha]
  · exact h.clear_of_noLease hno

/-- Every point of an acquire before the lease is created: nothing is outstanding, and while the
    display is Android's the map is empty. -/
def Calm (t : Sys ω) : Prop :=
  (t.vars.state = stateAndroid → t.vars.NoLease) ∧ Clear t

theorem Calm.same (h : Calm t) (hu : Same t u) : Calm u := by
  refine ⟨?_, h.2.same hu.2⟩
  rw [hu.1]
  exact h.1

/-- How a successful acquire goes on from the phase before. -/
def Follows (phase : UInt32) (s t : Session) : Prop :=
  (phase = acquirePrepare ∧ s.state = stateAndroid ∧ t.state = stateDraining ∧
      t.phase = acquirePrepare) ∨
    (phase = acquirePause ∧ s.state = stateDraining ∧ s.phase = acquirePrepare ∧
      t.state = stateDraining ∧ t.phase = acquirePause) ∨
    (phase = acquireCreate ∧ s.state = stateDraining ∧ s.phase = acquirePause ∧
      t.state = stateLeased ∧ t.phase = acquireCreate)

/-- An acquire succeeds and goes on to its phase, or it fails and leaves the stage as it was or
    gives the display back to Android. -/
def Advance (phase : UInt32) (s : Session) (result : Int) (t : Session) : Prop :=
  (result = statusOk ∧ Follows phase s t) ∨
    (result ≠ statusOk ∧ ((t.state = s.state ∧ t.phase = s.phase) ∨
      (s.state ≠ stateError ∧ t.state = stateAndroid)))

/-- What an acquire guarantees when it returns. -/
structure Stepped (gone : Prop) (phase : UInt32) (s : Sys ω) (r : Acquired) (t : Sys ω) :
    Prop where
  inv : Inv gone t.vars
  account : Account t
  displays : t.vars.displays = s.vars.displays
  advance : Advance phase s.vars r.result t.vars

variable {phase : UInt32} {status : Message} {detail : String} {result : Int}

theorem wp_acquireRefused (hresult : result ≠ statusOk) (hinv : Inv gone t.vars)
    (haccount : Account t) (hvars : t.vars = s.vars) :
    wp (sysHandler env) (acquireRefused status result detail) (Stepped gone phase s) t H := by
  refine ⟨hinv, haccount, by rw [← hvars], .inr ⟨hresult, .inl ⟨?_, ?_⟩⟩⟩
  · rw [← hvars]
  · rw [← hvars]

theorem wp_acquireFailed (hresult : result ≠ statusOk) (hs : s.vars.state ≠ stateError)
    (hno : t.vars.NoLease) (hclear : Clear t) (hdisplays : t.vars.displays = s.vars.displays) :
    wp (sysHandler env) (acquireFailed status result detail) (Stepped gone phase s) t H :=
  ⟨.inl ⟨rfl, rfl, rfl, rfl, hno⟩, fun d l => hclear.account d l, hdisplays,
    .inr ⟨hresult, .inr ⟨hs, rfl⟩⟩⟩

/-! ## The first phase -/

theorem wp_prepareExternalDisplayLease (slot : Slot) (display : Display) (lease : LeaseInfo)
    (h : s.vars.NoLease) :
    wp (sysHandler env) (prepareExternalDisplayLease slot display lease)
      (fun r t => r = none ∧ Same s t ∨
        ∃ lease' d plane, r = some lease' ∧ display.leaseDevice = .ok d ∧ d.tv = true ∧
          t.vars = s.vars.setLease d.id (some { planeId := plane, prepared := true }) ∧
          deals t.log = deals s.log)
      s (Same s) := by
  refine wp_quiet_bind (only_isLeaseReady slot) (fun _ h => h) fun ready t ht => ?_
  rw [wp_ite]
  split
  · cases hd : display.leaseDevice with
    | error e => exact .inl ⟨rfl, ht⟩
    | ok d =>
      simp only [wp_bind]
      have hnone : t.vars.leases d.id = none := by rw [ht.1, h]
      refine wp_mono (wp_prepareDeviceLease lease hnone) (fun r u hu => ?_) fun u hu => ht.trans hu
      rcases hu with ⟨⟨e, rfl⟩, hsame⟩ | ⟨lease', plane, rfl, htv, hvars, hdeals⟩
      · exact .inl ⟨rfl, ht.trans hsame⟩
      · exact .inr ⟨lease', d, plane, rfl, rfl, htv, by rw [hvars, ht.1], hdeals.trans ht.2⟩
  · exact .inl ⟨rfl, ht⟩

theorem NoLease.setLease {s : Session} (h : s.NoLease) {device other : Nat}
    (e : Option LeaseState) (hne : other ≠ device) : (s.setLease device e).leases other = none := by
  simp only [Session.setLease, Function.update_of_ne hne]
  exact h other

variable {slot : Slot} {display : Display}

theorem wp_prepareSelected (hs : s.vars.state = stateAndroid)
    (hslot : slot < t.vars.numDisplays) (hdisplay : t.vars.displays slot = some display)
    (hstate : t.vars.state = stateDraining) (hno : t.vars.NoLease) (hclear : Clear t)
    (hdisplays : t.vars.displays = s.vars.displays) :
    wp (sysHandler env) (prepareSelected status slot display) (Stepped gone acquirePrepare s) t
      Calm := by
  have hs' : s.vars.state ≠ stateError := by rw [hs]; decide
  have hcalm : Calm t := ⟨fun _ => hno, hclear⟩
  have hfailed : ∀ {u : Sys ω} {detail : String}, Same t u →
      wp (sysHandler env) (acquireFailed status errUnavailable detail)
        (Stepped gone acquirePrepare s) u Calm := fun hu =>
    wp_acquireFailed (by decide) hs' (by rw [hu.1]; exact hno) (hclear.same hu.2)
      (by rw [hu.1, hdisplays])
  refine wp_quiet_bind (only_isLeaseReady slot) (fun _ h => hcalm.same h) fun ready u hu => ?_
  rw [wp_ite]
  split
  · simp only [wp_bind]
    have hno' : u.vars.NoLease := by rw [hu.1]; exact hno
    refine wp_mono (wp_prepareExternalDisplayLease slot display {} hno') (fun r v hv => ?_)
      fun v hv => hcalm.same (hu.trans hv)
    rcases hv with ⟨rfl, hsame⟩ | ⟨lease, d, plane, rfl, hd, htv, hvars, hdeals⟩
    · exact hfailed (hu.trans hsame)
    · -- the display is selected and its entry is the only one
      have hv' : v.vars = t.vars.setLease d.id (some { planeId := plane, prepared := true }) := by
        rw [hvars, hu.1]
      have hv_displays : v.vars.displays = t.vars.displays := by rw [hv']; rfl
      have hv_state : v.vars.state = t.vars.state := by rw [hv']; rfl
      have hv_num : v.vars.numDisplays = t.vars.numDisplays := by rw [hv']; rfl
      refine ⟨.inr (.inl ⟨hv_state.trans hstate, .inl rfl, ⟨slot, rfl⟩, .inl ?_⟩),
        fun d l => (hclear.same (hdeals.trans hu.2)).account d l, hv_displays.trans hdisplays,
        .inl ⟨rfl, .inl ⟨rfl, hs, hv_state.trans hstate, rfl⟩⟩⟩
      refine ⟨{ planeId := plane, prepared := true },
        ⟨slot, display, d, rfl, hv_num ▸ hslot, ?_, hd, htv, ?_, ?_⟩, rfl, rfl, rfl⟩
      · show v.vars.displays slot = _
        rw [hv_displays, hdisplay]
      · show v.vars.leases d.id = _
        rw [hv', setLease_self]
      · intro other hother
        show v.vars.leases other = _
        rw [hv']
        exact NoLease.setLease hno _ hother
  · exact hfailed hu

theorem wp_acquirePreparePhase (hinv : Inv gone s.vars) (haccount : Account s) :
    wp (sysHandler env) (acquirePreparePhase status) (Stepped gone acquirePrepare s) s Calm := by
  rw [acquirePreparePhase, wp_bind, wp_getSession, wp_ite]
  split
  · exact wp_acquireRefused (by decide) hinv haccount rfl
  · rename_i hidle
    have hstate : s.vars.state = stateAndroid := by
      by_contra h
      exact hidle (.inl h)
    obtain ⟨-, -, -, -, hno⟩ := hinv.android hstate
    have hcalm : Calm s := ⟨fun _ => hno, haccount.clear_of_noLease hno⟩
    refine wp_quiet_bind only_leasingForbidden (fun _ h => hcalm.same h) fun forbidden t ht => ?_
    rw [wp_ite]
    split
    · exact wp_acquireRefused (by decide) (by rw [ht.1]; exact hinv) (haccount.same ht) ht.1
    · simp only [wp_bind, wp_update, wp_getSession]
      have hno' : t.vars.NoLease := by rw [ht.1]; exact hno
      have hclear' : Clear t := hcalm.2.same ht.2
      have hdisplays : t.vars.displays = s.vars.displays := by rw [ht.1]
      have hfailed : ∀ {detail : String},
          wp (sysHandler env) (acquireFailed status errUnavailable detail)
            (Stepped gone acquirePrepare s) { t with vars := { t.vars with
              state := stateDraining
              detail := "selecting Android external display" } }
            Calm :=
        wp_acquireFailed (by decide) (by rw [hstate]; decide) hno' hclear' hdisplays
      split
      · rename_i slot hcandidates
        have hmem : slot ∈ t.vars.candidates := by
          show slot ∈ ({ t.vars with
            state := stateDraining
            detail := "selecting Android external display" } : Session).candidates
          rw [hcandidates]
          exact List.mem_singleton_self slot
        have hslot : slot < t.vars.numDisplays := by
          have h := (List.mem_filter.1 hmem).2
          simp only [Bool.and_eq_true, decide_eq_true_eq] at h
          exact h.1
        split
        · exact hfailed
        · rename_i display hdisplay
          exact wp_prepareSelected hstate hslot hdisplay rfl hno' hclear' hdisplays
      · exact hfailed

/-! ## The second and the third phase -/

/-- The session in a takeover that has not created its lease. -/
structure Draining (gone : Prop) (slot : Slot) (s : Sys ω) : Prop where
  state : s.vars.state = stateDraining
  displayIdx : s.vars.displayIdx = some slot
  prepared : s.vars.Prepared gone
  clear : Clear s

theorem Draining.calm (h : Draining gone slot s) : Calm s :=
  ⟨fun hs => absurd (h.state.symm.trans hs) (by decide), h.clear⟩

theorem Draining.same (h : Draining gone slot s) (ht : Same s t) : Draining gone slot t := by
  refine ⟨?_, ?_, ?_, h.clear.same ht.2⟩
  · rw [ht.1]
    exact h.state
  · rw [ht.1]
    exact h.displayIdx
  · rw [ht.1]
    exact h.prepared

/-- The map is empty, and nothing else has changed. -/
def Cleared (s t : Sys ω) : Prop :=
  t.vars.NoLease ∧ (∃ leases, t.vars = { s.vars with leases := leases }) ∧ deals t.log = deals s.log

theorem cleared_setLease {d : Device} (h : ∀ other, other ≠ d.id → s.vars.leases other = none) :
    Cleared s { s with vars := s.vars.setLease d.id none } := by
  refine ⟨fun device => ?_, ⟨_, rfl⟩, rfl⟩
  by_cases hd : device = d.id
  · rw [hd]
    exact setLease_self ..
  · simp only [Session.setLease, Function.update_of_ne hd]
    exact h device hd

theorem wp_abortExternalDisplayLeasePreparation
    (h : s.vars.Prepared gone) (hidx : s.vars.displayIdx = some slot)
    (hdisplay : s.vars.displays slot = some display) :
    wp (sysHandler env) (abortExternalDisplayLeasePreparation display) (fun _ t => Cleared s t) s
      H := by
  rcases h with ⟨e, ⟨slot', display', d, hidx', -, hdisplay', hd, -, he, hother⟩, -, ha, hl⟩ |
    ⟨-, hno⟩
  · obtain rfl : slot' = slot := Option.some.inj (hidx'.symm.trans hidx)
    obtain rfl : display' = display := Option.some.inj (hdisplay'.symm.trans hdisplay)
    rw [abortExternalDisplayLeasePreparation, hd]
    simp only [wp_bind]
    rw [wp_abortDevicePreparation_fresh _ he ha hl]
    exact cleared_setLease hother
  · rw [abortExternalDisplayLeasePreparation]
    have hcleared : Cleared s s := ⟨hno, ⟨_, rfl⟩, rfl⟩
    cases display.leaseDevice with
    | error e => exact hcleared
    | ok d =>
      simp only [wp_bind]
      rw [wp_abortDevicePreparation_none _ (hno d.id)]
      exact hcleared

theorem wp_abandonTakeover {paused refresh : Bool} (hresult : result ≠ statusOk)
    (h : Draining gone slot t) (hdisplay : t.vars.displays slot = some display)
    (hs : s.vars.state ≠ stateError) (hdisplays : t.vars.displays = s.vars.displays) :
    wp (sysHandler env) (abandonTakeover status slot display result detail paused refresh)
      (Stepped gone phase s) t Calm := by
  rw [abandonTakeover]
  refine wp_seq (wp_abortExternalDisplayLeasePreparation h.prepared h.displayIdx hdisplay) ?_
  rintro _ u ⟨hno, ⟨leases, hvars⟩, hdeals⟩
  have hclear : Clear u := h.clear.same hdeals
  have hcalm : Calm u := ⟨fun _ => hno, hclear⟩
  refine wp_inert_bind (inert_resumePaused slot paused) (fun _ h => hcalm.same h) fun _ v hv => ?_
  rw [wp_bind, wp_update]
  have hno' : v.vars.NoLease := by rw [hv.1]; exact hno
  have hdisplays' : v.vars.displays = s.vars.displays := by rw [hv.1, hvars]; exact hdisplays
  have hclear' : Clear v := hclear.same hv.2
  refine wp_quiet_bind (only_refreshIf refresh)
    (fun x hx => Calm.same (t := { v with vars := { v.vars.resetTransition with detail := detail } })
      ⟨fun _ => hno', hclear'⟩ hx) fun _ x hx => ?_
  refine ⟨.inl ?_, fun d l => (hclear'.same hx.2).account d l, ?_, .inr ⟨hresult, .inr ⟨hs, ?_⟩⟩⟩
  · show Stage.android.Holds x.vars
    rw [hx.1]
    exact ⟨rfl, rfl, rfl, rfl, hno'⟩
  · show x.vars.displays = _
    rw [hx.1]
    exact hdisplays'
  · show x.vars.state = _
    rw [hx.1]
    rfl

theorem wp_pauseSelected (h : Draining gone slot t)
    (hdisplay : t.vars.displays slot = some display) (hs : s.vars.state = stateDraining)
    (hphase : s.vars.phase = acquirePrepare) (hdisplays : t.vars.displays = s.vars.displays) :
    wp (sysHandler env) (pauseSelected status slot display) (Stepped gone acquirePause s) t
      Calm := by
  have hs' : s.vars.state ≠ stateError := by rw [hs]; decide
  refine wp_inert_bind (inert_call rfl) (fun _ hu => h.calm.same hu) fun paused u hu => ?_
  have hu' := h.same hu
  rw [wp_ite]
  split
  · rw [wp_bind, wp_update]
    refine wp_inert_bind (inert_call rfl) (fun v hv => ?_) fun _ v hv => ?_
    · refine Calm.same ?_ hv
      exact ⟨fun hstate => absurd (hu'.state.symm.trans hstate) (by decide), hu'.clear⟩
    · have hstate : v.vars.state = stateDraining := by rw [hv.1]; exact hu'.state
      have hphase' : v.vars.phase = acquirePause := by rw [hv.1]
      refine ⟨.inr (.inl ⟨hstate, .inr hphase', ⟨slot, ?_⟩, ?_⟩),
        fun d l => (hu'.clear.same hv.2).account d l, ?_,
        .inl ⟨rfl, .inr (.inl ⟨rfl, hs, hphase, hstate, hphase'⟩)⟩⟩
      · show v.vars.displayIdx = _
        rw [hv.1]
        exact hu'.displayIdx
      · show v.vars.Prepared gone
        rw [hv.1]
        exact hu'.prepared
      · show v.vars.displays = _
        rw [hv.1]
        show u.vars.displays = _
        rw [hu.1, hdisplays]
  · exact wp_abandonTakeover (by decide) hu' (by rw [hu.1]; exact hdisplay) hs'
      (by rw [hu.1, hdisplays])

/-- The session after the call that creates the lease. -/
def Handed (s : Sys ω) (lease : LeaseInfo) (t : Sys ω) : Prop :=
  (∃ fd, lease.leaseFd = some fd) ∧ (∃ leases, t.vars = { s.vars with leases := leases }) ∧
    Account t ∧ ∃ e, t.vars.OnlyLease e ∧ e.active = true ∧ e.lesseeId = lease.lesseeId

/-- The lease of the device is created, or the takeover is still prepared. -/
theorem wp_createDevice {d : Device} {e : LeaseState}
    (lease : LeaseInfo) (h : Draining gone slot s) (hslot : slot < s.vars.numDisplays)
    (hdisplay : s.vars.displays slot = some display) (hd : display.leaseDevice = .ok d)
    (htv : d.tv = true) (he : s.vars.leases d.id = some e)
    (hother : ∀ other, other ≠ d.id → s.vars.leases other = none) (hp : e.prepared = true)
    (ha : e.active = false) (hl : e.lesseeId = 0) :
    wp (sysHandler env) (createDeviceLease d lease)
      (fun r t => (∃ error, r = .error error) ∧ Draining gone slot t ∧
          t.vars.displays = s.vars.displays ∨
        ∃ lease', r = .ok lease' ∧ Handed s lease' t)
      s Calm := by
  have honly : ∀ {t : Sys ω} (e' : LeaseState), t.vars = s.vars.setLease d.id (some e') →
      t.vars.OnlyLease e' := fun {t} e' ht => by
    rw [ht]
    refine ⟨slot, display, d, h.displayIdx, hslot, hdisplay, hd, htv, setLease_self .., ?_⟩
    intro other hne
    simp only [Session.setLease, Function.update_of_ne hne]
    exact hother other hne
  have hrefreshed : ∀ {t : Sys ω}, Refreshed d e s t → Draining gone slot t := fun {t} ht => by
    obtain ⟨plane, hvars, hdeals⟩ := ht
    refine ⟨?_, ?_, .inl ⟨_, honly _ hvars, hp, ha, hl⟩, h.clear.same hdeals⟩
    · rw [hvars]
      exact h.state
    · rw [hvars]
      exact h.displayIdx
  refine wp_mono (wp_createDeviceLease lease he) (fun r t ht => ?_) fun t ht => (hrefreshed ht).calm
  rcases ht with ⟨hr, ht⟩ | ⟨lease', fd, plane, lessee, rfl, hfd, hlessee, hvars, hdeals⟩
  · refine .inl ⟨hr, hrefreshed ht, ?_⟩
    obtain ⟨plane, hvars, -⟩ := ht
    rw [hvars]
    rfl
  · refine .inr ⟨lease', rfl, ⟨fd, hfd⟩, ⟨_, hvars⟩, ?_, _, honly _ hvars, rfl, hlessee.symm⟩
    exact h.clear.created (by rw [hvars, setLease_self]) rfl rfl hdeals

theorem wp_createExternalDisplayLease (lease : LeaseInfo)
    (h : Draining gone slot s) (hdisplay : s.vars.displays slot = some display) :
    wp (sysHandler env) (createExternalDisplayLease slot display lease)
      (fun r t => r = none ∧ Draining gone slot t ∧ t.vars.displays = s.vars.displays ∨
        ∃ lease', r = some lease' ∧ Handed s lease' t)
      s Calm := by
  refine wp_inert_bind (inert_call rfl) (fun _ ht => h.calm.same ht) fun paused t ht => ?_
  have ht' := h.same ht
  have hdisplay' : t.vars.displays slot = some display := by rw [ht.1]; exact hdisplay
  have hdisplays : t.vars.displays = s.vars.displays := by rw [ht.1]
  rw [wp_ite]
  split
  · cases hd : display.leaseDevice with
    | error error => exact .inl ⟨rfl, ht', hdisplays⟩
    | ok d =>
      simp only [wp_bind]
      rcases ht'.prepared with
        ⟨e, ⟨slot', display', d', hidx, hslot, hdisplay'', hd', htv, he, hother⟩, hp, ha, hl⟩ |
        ⟨-, hno⟩
      · obtain rfl : slot' = slot := Option.some.inj (hidx.symm.trans ht'.displayIdx)
        obtain rfl : display' = display := Option.some.inj (hdisplay''.symm.trans hdisplay')
        obtain rfl : d' = d := by
          rw [hd'] at hd
          exact Except.ok.inj hd
        refine wp_post (wp_createDevice lease ht' hslot hdisplay' hd' htv he hother hp ha hl) ?_
        rintro r u (⟨⟨error, rfl⟩, hu, hu'⟩ | ⟨lease', rfl, hfd, ⟨leases, hvars⟩, hu⟩)
        · exact .inl ⟨rfl, hu, hu'.trans hdisplays⟩
        · exact .inr ⟨lease', rfl, hfd, ⟨leases, by rw [hvars, ht.1]⟩, hu⟩
      · rw [wp_createDeviceLease_none _ _ (hno d.id)]
        exact .inl ⟨rfl, ht', hdisplays⟩
  · exact .inl ⟨rfl, ht', hdisplays⟩

theorem wp_createSelected (h : Draining gone slot t)
    (hdisplay : t.vars.displays slot = some display) (hs : s.vars.state = stateDraining)
    (hphase : s.vars.phase = acquirePause) (hdisplays : t.vars.displays = s.vars.displays) :
    wp (sysHandler env) (createSelected status slot display) (Stepped gone acquireCreate s) t
      Calm := by
  have hs' : s.vars.state ≠ stateError := by rw [hs]; decide
  rw [createSelected, wp_bind, wp_getSession]
  refine wp_seq (wp_createExternalDisplayLease t.vars.info h hdisplay) ?_
  rintro r u (⟨rfl, hu, hu'⟩ | ⟨lease, rfl, ⟨fd, hfd⟩, ⟨leases, hvars⟩, haccount, e, he, ha, hl⟩)
  · exact wp_abandonTakeover (by decide) hu (by rw [hu']; exact hdisplay) hs' (hu'.trans hdisplays)
  · simp only [hfd]
    refine ⟨.inr (.inr (.inl ⟨rfl, rfl, ⟨slot, ?_⟩, .inl ⟨e, he, ha, hl⟩⟩)), haccount, ?_,
      .inl ⟨rfl, .inr (.inr ⟨rfl, hs, hphase, rfl, rfl⟩)⟩⟩
    · show u.vars.displayIdx = _
      rw [hvars]
      exact h.displayIdx
    · show u.vars.displays = _
      rw [hvars]
      exact hdisplays

theorem wp_acquireSelected (h : Draining gone slot s)
    (hphase : (phase = acquirePause ∧ s.vars.phase = acquirePrepare) ∨
      (phase = acquireCreate ∧ s.vars.phase = acquirePause)) :
    wp (sysHandler env) (acquireSelected phase status slot) (Stepped gone phase s) s Calm := by
  have hs' : s.vars.state ≠ stateError := by rw [h.state]; decide
  rw [acquireSelected, wp_bind, wp_getSession]
  cases hdisplay : s.vars.displays slot with
  | none =>
    -- the entry belonged to a display that is gone
    have hno : s.vars.NoLease := by
      rcases h.prepared with ⟨e, ⟨slot', display', d, hidx, -, hdisplay', -⟩, -⟩ | ⟨-, hno⟩
      · obtain rfl : slot' = slot := Option.some.inj (hidx.symm.trans h.displayIdx)
        rw [hdisplay] at hdisplay'
        cases hdisplay'
      · exact hno
    exact wp_acquireFailed (by decide) hs' hno h.clear rfl
  | some display =>
    refine wp_quiet_bind only_takeoverForbidden (fun _ ht => h.calm.same ht) fun _ t ht => ?_
    have ht' := h.same ht
    have hdisplay' : t.vars.displays slot = some display := by rw [ht.1]; exact hdisplay
    have hdisplays : t.vars.displays = s.vars.displays := by rw [ht.1]
    rw [wp_ite]
    split
    · exact wp_abandonTakeover (by decide) ht' hdisplay' hs' hdisplays
    · rcases hphase with ⟨rfl, hphase⟩ | ⟨rfl, hphase⟩
      · exact wp_pauseSelected ht' hdisplay' h.state hphase hdisplays
      · exact wp_createSelected ht' hdisplay' h.state hphase hdisplays

/-- An acquire is one of the first phase, it is refused, or it goes on with the selected display. -/
theorem wp_acquireHdmiLease_cases {Q : Acquired → Sys ω → Prop}
    (hprepare : phase = acquirePrepare → wp (sysHandler env) (acquirePreparePhase status) Q s H)
    (hrefused : ∀ result detail, result ≠ statusOk →
      wp (sysHandler env) (acquireRefused status result detail) Q s H)
    (hselected : ∀ slot, s.vars.displayIdx = some slot → s.vars.state = stateDraining →
      (phase = acquirePause ∧ s.vars.phase = acquirePrepare) ∨
        (phase = acquireCreate ∧ s.vars.phase = acquirePause) →
      wp (sysHandler env) (acquireSelected phase status slot) Q s H) :
    wp (sysHandler env) (acquireHdmiLease phase status) Q s H := by
  rw [acquireHdmiLease, wp_ite]
  split
  · rename_i hphase
    exact hprepare hphase
  · rw [wp_ite]
    split
    · exact hrefused _ _ (by decide)
    · rename_i hphase
      rw [wp_bind, wp_getSession]
      cases hidx : s.vars.displayIdx with
      | none =>
        dsimp only
        exact hrefused _ _ (by decide)
      | some slot =>
        dsimp only
        generalize hrequired : (if phase = acquirePause then acquirePrepare else
          acquirePause) = required
        rw [wp_ite]
        split
        · exact hrefused _ _ (by decide)
        · rename_i hsequence
          simp only [not_or, not_not] at hsequence
          refine hselected slot hidx hsequence.1 ?_
          by_cases hpause : phase = acquirePause
          · rw [if_pos hpause] at hrequired
            exact .inl ⟨hpause, hsequence.2.trans hrequired.symm⟩
          · rw [if_neg hpause] at hrequired
            refine .inr ⟨?_, hsequence.2.trans hrequired.symm⟩
            by_contra hcreate
            exact hphase ⟨hpause, hcreate⟩

/-- `AcquireHdmiLease` keeps the invariant and follows the order of the phases. -/
theorem wp_acquireHdmiLease (hinv : Inv gone s.vars) (haccount : Account s) :
    wp (sysHandler env) (acquireHdmiLease phase status) (Stepped gone phase s) s Calm := by
  refine wp_acquireHdmiLease_cases ?_ (fun _ _ hresult => ?_) fun slot hidx hs hphase => ?_
  · rintro rfl
    exact wp_acquirePreparePhase hinv haccount
  · exact wp_acquireRefused hresult hinv haccount rfl
  · have hprepared := hinv.draining hs
    exact wp_acquireSelected ⟨hs, hidx, hprepared, haccount.clear_of_prepared hprepared⟩ hphase

end HdmiLos.Composer
