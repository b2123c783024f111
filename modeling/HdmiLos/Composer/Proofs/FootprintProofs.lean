import HdmiLos.Composer.Proofs.ReleaseProofs

/-!
# Footprints of the lease functions

The functions of the DRM layer assign the map of the leases only. Those of the session leave the
displays and the reserved plane alone. Which of them create a lease, and which of them switch the
updates of a display, is read from the calls they can make.
-/

namespace HdmiLos.Composer

open Interaction Prog

variable {ω α : Type} {env : Env ω} {s t : Sys ω} {K K' : Io → Bool}

/-! ## Calls -/

/-- The calls that do not create a lease. -/
def Io.uncreating : Io → Bool
  | createLease _ _ => false
  | _ => true

/-- The calls that do not switch the updates of a display. -/
def Io.unswitching : Io → Bool
  | toggleScreenUpdates _ _ => false
  | setDisplayStatus _ _ => false
  | _ => true

/-- The calls that do neither. -/
def Io.mild (c : Io) : Bool :=
  c.uncreating && c.unswitching

variable {c : Io}

theorem mild_of_quiet (h : c.quiet = true) : c.mild = true := by
  cases c <;> first | rfl | cases h

/-! ## The DRM layer -/

/-- Only the map of the leases has changed. -/
def Remapped (s t : Session) : Prop :=
  ∃ leases, t = { s with leases := leases }

/-- The footprint of the functions that assign the map only and make only calls with `K`. -/
def OnDevice (K : Io → Bool) : Act Session Io → Prop
  | .modify f => ∀ s, Remapped s (f s)
  | .io c => K c = true
  | _ => True

variable {p : SessionProg α}

theorem onDevice_mono (hK : ∀ c, K c = true → K' c = true)
    (hp : p.Uses (OnDevice K)) : p.Uses (OnDevice K') := by
  refine uses_mono (fun op h => ?_) hp
  cases op with
  | io c => exact hK c h
  | _ => exact h

theorem onDevice_of_only (hK : ∀ c, K c = true → K' c = true)
    (hp : p.Uses (Only K)) : p.Uses (OnDevice K') := by
  refine uses_mono (fun op h => ?_) hp
  cases op with
  | modify f => exact h.elim
  | io c => exact hK c h
  | _ => trivial

theorem mildDevice (hp : p.Uses (Only Io.quiet)) : p.Uses (OnDevice Io.mild) :=
  onDevice_of_only (fun _ => mild_of_quiet) hp

theorem onDevice_setLease (device : Nat) (e : Option LeaseState) :
    (update fun s => s.setLease device e).Uses (OnDevice K) :=
  uses_perform fun _ => ⟨_, rfl⟩

theorem onDevice_getSession : getSession.Uses (OnDevice K) := uses_perform trivial

theorem onDevice_call (hc : K c = true) : (call c).Uses (OnDevice K) := uses_perform hc

theorem onDevice_prepareFixedPrimary (d : Device) (lease : LeaseInfo) :
    (prepareFixedPrimary d lease).Uses (OnDevice Io.mild) := by
  refine uses_bind (mildDevice (only_getFixedPrimaryPlane _)) fun _ => uses_ite trivial ?_
  refine uses_bind onDevice_getSession fun _ => uses_ite trivial ?_
  exact uses_bind (onDevice_setLease _ _) fun _ => trivial

theorem onDevice_prepareDeviceLease (d : Device) (lease : LeaseInfo) :
    (prepareDeviceLease d lease).Uses (OnDevice Io.mild) := by
  refine uses_ite trivial (uses_bind (onDevice_call rfl) fun _ => uses_ite ?_ trivial)
  exact uses_bind onDevice_getSession fun _ =>
    uses_ite trivial (onDevice_prepareFixedPrimary d lease)

theorem onDevice_createResolvedLease (d : Device) (e : LeaseState) (lease : LeaseInfo) :
    (createResolvedLease d e lease).Uses (OnDevice Io.unswitching) := by
  refine uses_bind (onDevice_call rfl) fun a => ?_
  cases a with
  | none => trivial
  | some x => exact uses_bind (onDevice_setLease _ _) fun _ => trivial

theorem unswitching_of_mild (c : Io) (h : c.mild = true) : c.unswitching = true :=
  (Bool.and_eq_true _ _ ▸ h).2

theorem uncreating_of_mild (c : Io) (h : c.mild = true) : c.uncreating = true :=
  (Bool.and_eq_true _ _ ▸ h).1

theorem onDevice_createConnectedLease (d : Device) (e : LeaseState) (lease : LeaseInfo) :
    (createConnectedLease d e lease).Uses (OnDevice Io.unswitching) := by
  have hquiet : ∀ {α : Type} {p : SessionProg α}, p.Uses (Only Io.quiet) →
      p.Uses (OnDevice Io.unswitching) :=
    fun hp => onDevice_mono unswitching_of_mild (mildDevice hp)
  refine uses_bind (hquiet (only_getFixedPrimaryPlane _)) fun _ => uses_ite trivial ?_
  refine uses_bind onDevice_getSession fun _ => uses_ite trivial ?_
  refine uses_bind (onDevice_setLease _ _) fun _ => uses_ite trivial ?_
  exact uses_bind (hquiet (only_sanitizeExternalPlanesForLease _ _)) fun _ =>
    uses_ite trivial (onDevice_createResolvedLease _ _ _)

theorem onDevice_createDeviceLease (d : Device) (lease : LeaseInfo) :
    (createDeviceLease d lease).Uses (OnDevice Io.unswitching) := by
  refine uses_bind onDevice_getSession fun s => ?_
  cases s.leases d.id with
  | none => trivial
  | some e =>
    refine uses_ite trivial (uses_bind (onDevice_mono unswitching_of_mild
      (mildDevice (only_isExternalDisplayLeaseConnected d))) fun _ => ?_)
    exact uses_ite trivial (onDevice_createConnectedLease _ _ _)

theorem onDevice_revokeDeviceLease (d : Device) :
    (revokeDeviceLease d).Uses (OnDevice Io.mild) := by
  refine uses_bind onDevice_getSession fun s => ?_
  cases s.leases d.id with
  | none => trivial
  | some e =>
    refine uses_ite (uses_bind (onDevice_call rfl) fun a => ?_) trivial
    cases a with
    | failed => trivial
    | revoked => exact uses_bind (onDevice_setLease _ _) fun _ => trivial
    | noEntry => exact uses_bind (onDevice_setLease _ _) fun _ => trivial

theorem onDevice_abortDevicePreparation (d : Device) :
    (abortDevicePreparation d).Uses (OnDevice Io.mild) := by
  refine uses_bind onDevice_getSession fun s => ?_
  cases s.leases d.id with
  | none => trivial
  | some e => exact uses_ite trivial (uses_bind (onDevice_setLease _ _) fun _ => trivial)

theorem onDevice_resetDeviceLease (d : Device) : (resetDeviceLease d).Uses (OnDevice Io.mild) := by
  refine uses_bind (onDevice_revokeDeviceLease d) fun _ => ?_
  refine uses_bind onDevice_getSession fun s => ?_
  cases s.leases d.id with
  | none => trivial
  | some e =>
    refine uses_bind (mildDevice (only_resetPipeline d e _)) fun _ => ?_
    exact uses_bind (onDevice_setLease _ _) fun _ => trivial

theorem onDevice_deinitDevice (d : Device) : (deinitDevice d).Uses (OnDevice Io.mild) :=
  uses_ite (uses_bind (onDevice_revokeDeviceLease d) fun _ =>
    uses_bind (onDevice_setLease _ _) fun _ => uses_ite trivial trivial) trivial

/-! ## Displays -/

theorem onDevice_prepareExternalDisplayLease (slot : Slot) (display : Display) (lease : LeaseInfo) :
    (prepareExternalDisplayLease slot display lease).Uses (OnDevice Io.mild) := by
  refine uses_bind (mildDevice (only_isLeaseReady slot)) fun _ => uses_ite ?_ trivial
  cases display.leaseDevice with
  | error e => trivial
  | ok d =>
    refine uses_bind (onDevice_prepareDeviceLease d lease) fun r => ?_
    cases r <;> trivial

theorem onDevice_createExternalDisplayLease (slot : Slot) (display : Display) (lease : LeaseInfo) :
    (createExternalDisplayLease slot display lease).Uses (OnDevice Io.unswitching) := by
  refine uses_bind (onDevice_call rfl) fun _ => uses_ite ?_ trivial
  cases display.leaseDevice with
  | error e => trivial
  | ok d =>
    refine uses_bind (onDevice_createDeviceLease d lease) fun r => ?_
    cases r <;> trivial

theorem onDevice_revokeExternalDisplayLease (display : Display) :
    (revokeExternalDisplayLease display).Uses (OnDevice Io.mild) := by
  unfold revokeExternalDisplayLease
  cases display.leaseDevice with
  | error e => trivial
  | ok d => exact uses_bind (onDevice_revokeDeviceLease d) fun _ => trivial

theorem onDevice_abortExternalDisplayLeasePreparation (display : Display) :
    (abortExternalDisplayLeasePreparation display).Uses (OnDevice Io.mild) := by
  unfold abortExternalDisplayLeasePreparation
  cases display.leaseDevice with
  | error e => trivial
  | ok d => exact uses_bind (onDevice_abortDevicePreparation d) fun _ => trivial

theorem onDevice_resetExternalDisplayLease (display : Display) :
    (resetExternalDisplayLease display).Uses (OnDevice Io.mild) := by
  unfold resetExternalDisplayLease
  cases display.leaseDevice with
  | error e => trivial
  | ok d => exact uses_bind (onDevice_resetDeviceLease d) fun _ => trivial

theorem onDevice_releaseLease (phase : UInt32) (display : Display) :
    (releaseLease phase display).Uses (OnDevice Io.mild) := by
  refine uses_ite ?_ ?_
  · refine uses_bind (onDevice_revokeExternalDisplayLease display) fun _ => ?_
    refine uses_bind (mildDevice (only_isLeaseConnected display)) fun _ => ?_
    exact uses_bind (onDevice_resetExternalDisplayLease display) fun _ => trivial
  · refine uses_bind (mildDevice (only_isLeaseConnected display)) fun _ => ?_
    exact uses_bind (onDevice_abortExternalDisplayLeasePreparation display) fun _ => trivial

theorem onDevice_deinitDisplay (display : Option Display) :
    (deinitDisplay display).Uses (OnDevice Io.mild) := by
  unfold deinitDisplay
  cases display.bind Display.device with
  | none => trivial
  | some d => exact uses_bind (onDevice_deinitDevice d) fun _ => trivial

/-! ## The session -/

/-- The displays and the reserved plane are as before. -/
structure Frame (s t : Session) : Prop where
  displays : t.displays = s.displays
  numDisplays : t.numDisplays = s.numDisplays
  reservedPlane : t.reservedPlane = s.reservedPlane

/-- The footprint of the functions that leave the displays and the reserved plane alone and make
    only calls with `K`. -/
def Framed (K : Io → Bool) : Act Session Io → Prop
  | .modify f => ∀ s, Frame s (f s)
  | .io c => K c = true
  | _ => True

theorem framed_of_onDevice (hK : ∀ c, K c = true → K' c = true)
    (hp : p.Uses (OnDevice K)) : p.Uses (Framed K') := by
  refine uses_mono (fun op h => ?_) hp
  cases op with
  | modify f =>
    intro s
    obtain ⟨leases, hf⟩ := h s
    rw [hf]
    exact ⟨rfl, rfl, rfl⟩
  | io c => exact hK c h
  | _ => trivial

theorem framed_mono (hK : ∀ c, K c = true → K' c = true)
    (hp : p.Uses (Framed K)) : p.Uses (Framed K') := by
  refine uses_mono (fun op h => ?_) hp
  cases op with
  | io c => exact hK c h
  | _ => exact h

theorem framed_getSession : getSession.Uses (Framed K) := uses_perform trivial

theorem framed_call (hc : K c = true) : (call c).Uses (Framed K) := uses_perform hc

theorem framed_update {f : Session → Session} (hf : ∀ s, Frame s (f s)) :
    (update f).Uses (Framed K) := uses_perform hf

theorem framed_fillStatus (status : Message) (result : Int) :
    (fillStatus status result).Uses (Framed K) :=
  uses_bind framed_getSession fun _ => trivial

theorem framed_acquireRefused (status : Message) (result : Int) (detail : String) :
    (acquireRefused status result detail).Uses (Framed K) :=
  uses_bind (framed_update fun _ => ⟨rfl, rfl, rfl⟩) fun _ => framed_fillStatus status result

theorem framed_acquireFailed (status : Message) (result : Int) (detail : String) :
    (acquireFailed status result detail).Uses (Framed K) :=
  uses_bind (framed_update fun _ => ⟨rfl, rfl, rfl⟩) fun _ => framed_fillStatus status result

theorem framed_of_quiet (hp : p.Uses (Only Io.quiet)) : p.Uses (Framed Io.mild) :=
  framed_of_onDevice (fun _ h => h) (mildDevice hp)

theorem framed_prepareSelected (status : Message) (slot : Slot) (display : Display) :
    (prepareSelected status slot display).Uses (Framed Io.mild) := by
  refine uses_bind (framed_of_quiet (only_isLeaseReady slot)) fun _ =>
    uses_ite ?_ (framed_acquireFailed _ _ _)
  refine uses_bind (framed_of_onDevice (fun _ h => h)
    (onDevice_prepareExternalDisplayLease slot display {})) fun r => ?_
  cases r with
  | none => exact framed_acquireFailed _ _ _
  | some lease =>
    exact uses_bind (framed_update fun _ => ⟨rfl, rfl, rfl⟩) fun _ => framed_fillStatus _ _

theorem framed_acquirePreparePhase (status : Message) :
    (acquirePreparePhase status).Uses (Framed Io.mild) := by
  refine uses_bind framed_getSession fun _ => uses_ite (framed_acquireRefused _ _ _) ?_
  refine uses_bind (framed_of_quiet only_leasingForbidden) fun _ =>
    uses_ite (framed_acquireRefused _ _ _) ?_
  refine uses_bind (framed_update fun _ => ⟨rfl, rfl, rfl⟩) fun _ => ?_
  refine uses_bind framed_getSession fun s => ?_
  split
  · split
    · exact framed_acquireFailed _ _ _
    · exact framed_prepareSelected _ _ _
  · exact framed_acquireFailed _ _ _

theorem framed_abandonTakeover (status : Message) (slot : Slot) (display : Display) (result : Int)
    (detail : String) (paused refresh : Bool) :
    (abandonTakeover status slot display result detail paused refresh).Uses
      (Framed Io.uncreating) := by
  refine uses_bind (framed_of_onDevice uncreating_of_mild
    (onDevice_abortExternalDisplayLeasePreparation display)) fun _ => ?_
  refine uses_bind (uses_ite (uses_bind (framed_call rfl) fun _ => trivial) trivial) fun _ => ?_
  refine uses_bind (framed_update fun _ => ⟨rfl, rfl, rfl⟩) fun _ => ?_
  exact uses_bind (uses_ite (framed_call rfl) trivial) fun _ => framed_fillStatus _ _

theorem framed_pauseSelected (status : Message) (slot : Slot) (display : Display) :
    (pauseSelected status slot display).Uses (Framed Io.uncreating) := by
  refine uses_bind (framed_call rfl) fun _ => uses_ite ?_ (framed_abandonTakeover _ _ _ _ _ _ _)
  refine uses_bind (framed_update fun _ => ⟨rfl, rfl, rfl⟩) fun _ => ?_
  exact uses_bind (framed_call rfl) fun _ => framed_fillStatus _ _

theorem framed_resumeUpdates (phase : UInt32) (slot : Slot) :
    (resumeUpdates phase slot).Uses (Framed Io.uncreating) :=
  uses_ite (uses_bind (framed_call rfl) fun _ => uses_bind (framed_call rfl) fun _ => trivial)
    (framed_call rfl)

theorem framed_finishRelease (ok connected : Bool) :
    (finishRelease ok connected).Uses (Framed Io.mild) := by
  refine uses_bind (framed_update fun s => ?_) fun _ => uses_bind ?_ fun _ => trivial
  · unfold Session.released
    split
    · exact ⟨rfl, rfl, rfl⟩
    · exact ⟨rfl, rfl, rfl⟩
  · exact uses_ite (framed_call rfl) (framed_update fun _ => ⟨rfl, rfl, rfl⟩)

theorem framed_releaseHdmiLease (reason : String) :
    (releaseHdmiLease reason).Uses (Framed Io.uncreating) := by
  refine uses_bind framed_getSession fun s => uses_ite trivial ?_
  refine uses_bind (framed_update fun _ => ⟨rfl, rfl, rfl⟩) fun _ => ?_
  cases s.selectedDisplay with
  | none => exact framed_mono uncreating_of_mild (framed_finishRelease true false)
  | some x =>
    refine uses_bind ?_ fun _ => framed_mono uncreating_of_mild (framed_finishRelease _ _)
    refine uses_bind (framed_of_onDevice uncreating_of_mild (onDevice_releaseLease _ _)) fun _ => ?_
    exact uses_ite (uses_bind (framed_resumeUpdates _ _) fun _ => trivial) trivial

theorem wp_framed (hp : p.Uses (Framed K)) :
    wp (sysHandler env) p (fun _ t => Frame s.vars t.vars ∧ Process.Grown (Framed K) s t)
      s (fun t => Frame s.vars t.vars ∧ Process.Grown (Framed K) s t) := by
  refine wp_and (wp_process_invariant (I := fun t => Frame s.vars t.vars) ?_ (fun _ _ h => h)
    (fun _ _ _ _ _ h _ => h) hp ⟨rfl, rfl, rfl⟩) (wp_log_uses hp)
  intro t f hf ht
  exact ⟨(hf t.vars).displays.trans ht.displays, (hf t.vars).numDisplays.trans ht.numDisplays,
    (hf t.vars).reservedPlane.trans ht.reservedPlane⟩

theorem wp_onDevice (hp : p.Uses (OnDevice K)) :
    wp (sysHandler env) p (fun _ t => Remapped s.vars t.vars ∧ Process.Grown (OnDevice K) s t)
      s (fun t => Remapped s.vars t.vars ∧ Process.Grown (OnDevice K) s t) := by
  refine wp_and (wp_process_invariant (I := fun t => Remapped s.vars t.vars) ?_ (fun _ _ h => h)
    (fun _ _ _ _ _ h _ => h) hp ⟨_, rfl⟩) (wp_log_uses hp)
  rintro t f hf ⟨leases, ht⟩
  obtain ⟨leases', hf'⟩ := hf t.vars
  refine ⟨leases', ?_⟩
  show f t.vars = _
  rw [hf', ht]

end HdmiLos.Composer
