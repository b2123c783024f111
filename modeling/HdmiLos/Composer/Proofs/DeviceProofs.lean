import HdmiLos.Composer.Takeover
import HdmiLos.Interaction.Proofs.MachineProofs

/-!
# What the lease functions do to the map

Most functions of the takeover change neither the session nor a lease: they are inert. The others
are described by what they do to the entry of a device and by the deals they make with the kernel.
-/

namespace HdmiLos.Composer

open Interaction Prog

variable {ω α : Type} {env : Env ω} {H : Sys ω → Prop} {s t u : Sys ω}

/-! ## Weakest preconditions -/

@[simp] theorem wp_getSession (Q : Session → Sys ω → Prop) :
    wp (sysHandler env) getSession Q s H = Q s.vars s := rfl

@[simp] theorem wp_update (f : Session → Session) (Q : Unit → Sys ω → Prop) :
    wp (sysHandler env) (update f) Q s H = Q () { s with vars := f s.vars } := rfl

/-! ## Deals -/

/-- The calls that make or end a lease, with their outcome. -/
inductive Deal where
  | created (device : Nat) (lessee : UInt32)
  | revoked (device : Nat) (lessee : UInt32)
  | refused (device : Nat) (lessee : UInt32)
  deriving DecidableEq, Repr

/-- The deal that a call makes, if it makes one. -/
def dealOf : Answered Io.Ans → Option Deal
  | ⟨.createLease device _, some (_, lessee)⟩ => some (.created device lessee)
  | ⟨.revokeLease device lessee, .failed⟩ => some (.refused device lessee)
  | ⟨.revokeLease device lessee, _⟩ => some (.revoked device lessee)
  | _ => none

/-- The deals with the kernel. -/
def deals (log : List (Answered Io.Ans)) : List Deal :=
  log.filterMap dealOf

/-- A call that makes no deal. -/
def Io.plain : Io → Bool
  | createLease _ _ => false
  | revokeLease _ _ => false
  | _ => true

variable {c : Io}

theorem dealOf_plain (hc : c.plain = true) (a : c.Ans) : dealOf ⟨c, a⟩ = none := by
  cases c <;> first | rfl | cases hc

theorem deals_append (log log' : List (Answered Io.Ans)) :
    deals (log ++ log') = deals log ++ deals log' := List.filterMap_append

theorem deals_plain (hc : c.plain = true) {a : c.Ans} (log : List (Answered Io.Ans)) :
    deals (log ++ [⟨c, a⟩]) = deals log := by
  unfold deals
  rw [List.filterMap_append, List.filterMap_cons_none (dealOf_plain hc a), List.filterMap_nil,
    List.append_nil]

/-! ## Inert functions -/

/-- The footprint of the functions that assign nothing and make no deal. -/
def Inert : Act Session Io → Prop
  | .get => True
  | .modify _ => False
  | .fresh => True
  | .io c => c.plain = true

/-- The session and the deals are as before. -/
def Same (s t : Sys ω) : Prop :=
  t.vars = s.vars ∧ deals t.log = deals s.log

variable {p : SessionProg α}

theorem wp_inert (hp : p.Uses Inert) : wp (sysHandler env) p (fun _ t => Same s t) s (Same s) := by
  refine wp_process_invariant (I := Same s) ?_ (fun _ _ h => h) ?_ hp ⟨rfl, rfl⟩
  · intro t f hf
    exact hf.elim
  · intro t c a w hc ht _
    refine ⟨ht.1, ?_⟩
    show deals (t.log ++ [⟨c, a⟩]) = _
    rw [deals_plain hc]
    exact ht.2

theorem inert_call (hc : c.plain = true) : (call c).Uses Inert := uses_perform hc

/-! ## Footprints -/

/-- The calls that look at the properties of a plane or set them. -/
def Io.onProperty : Io → Bool
  | objectProperties _ => true
  | getProperty _ => true
  | atomicAlloc => true
  | atomicAdd _ _ _ => true
  | atomicCommit _ => true
  | _ => false

/-- The calls that neither make a deal nor switch the updates of a display. -/
def Io.quiet : Io → Bool
  | toggleScreenUpdates _ _ => false
  | setDisplayStatus _ _ => false
  | createLease _ _ => false
  | revokeLease _ _ => false
  | _ => true

/-- The footprint of the functions that assign nothing and make only calls with `K`. -/
def Only (K : Io → Bool) : Act Session Io → Prop
  | .modify _ => False
  | .io c => K c = true
  | _ => True

theorem only_call {K : Io → Bool} (hc : K c = true) : (call c).Uses (Only K) :=
  uses_perform hc

theorem only_getSession {K : Io → Bool} : getSession.Uses (Only K) := uses_perform trivial

theorem quiet_of_property (hp : p.Uses (Only Io.onProperty)) : p.Uses (Only Io.quiet) := by
  refine uses_mono (fun op h => ?_) hp
  cases op with
  | io c => cases c <;> first | rfl | cases h
  | _ => exact h

theorem inert_of_quiet (hp : p.Uses (Only Io.quiet)) : p.Uses Inert := by
  refine uses_mono (fun op h => ?_) hp
  cases op with
  | io c => cases c <;> first | rfl | cases h
  | _ => exact h

theorem wp_quiet (hp : p.Uses (Only Io.quiet)) :
    wp (sysHandler env) p (fun _ t => Same s t) s (Same s) :=
  wp_inert (inert_of_quiet hp)

theorem only_findProperty (name : String) (properties : List (UInt32 × UInt64)) :
    (findProperty name properties).Uses (Only Io.onProperty) := by
  induction properties with
  | nil => trivial
  | cons x rest ih =>
    obtain ⟨id, value⟩ := x
    refine uses_bind (only_call rfl) fun a => ?_
    cases a with
    | none => exact ih
    | some property => exact uses_ite trivial ih

theorem only_getDrmProperty (object : UInt32) (name : String) :
    (getDrmProperty object name).Uses (Only Io.onProperty) := by
  refine uses_bind (only_call rfl) fun a => ?_
  cases a with
  | none => trivial
  | some properties => exact only_findProperty name properties

theorem only_isPrimaryPlane (plane : Plane) : (isPrimaryPlane plane).Uses (Only Io.onProperty) := by
  refine uses_bind (only_getDrmProperty _ _) fun a => ?_
  cases a <;> trivial

theorem only_scanPrimaryPlanes (planes : List UInt32) (i : UInt32) (out : FixedPrimary) :
    (scanPrimaryPlanes planes i out).Uses (Only Io.quiet) := by
  induction planes generalizing i out with
  | nil => trivial
  | cons id rest ih =>
    refine uses_bind (only_call rfl) fun a => ?_
    cases a with
    | none => exact ih i out
    | some plane =>
      refine uses_bind (quiet_of_property (only_isPrimaryPlane plane)) fun _ => uses_ite ?_ (ih i out)
      exact uses_ite (uses_ite trivial (ih _ _)) (ih _ _)

theorem only_getFixedPrimaryPlane (crtc : UInt32) :
    (getFixedPrimaryPlane crtc).Uses (Only Io.quiet) := by
  refine uses_bind (only_call rfl) fun a => ?_
  cases a with
  | none => trivial
  | some crtcs =>
    refine uses_ite trivial (uses_bind (only_call rfl) fun a => ?_)
    cases a with
    | none => trivial
    | some planes =>
      exact uses_bind (only_scanPrimaryPlanes _ _ _) fun _ => uses_ite trivial trivial

theorem only_collectPlanes (leased crtc : UInt32) (ids : List UInt32) (found : Bool)
    (planes : List UInt32) : (collectPlanes leased crtc ids found planes).Uses (Only Io.quiet) := by
  induction ids generalizing found planes with
  | nil => trivial
  | cons id rest ih =>
    refine uses_bind (only_call rfl) fun a => ?_
    cases a with
    | none => trivial
    | some plane => exact uses_ite trivial (uses_ite (ih _ _) (ih _ _))

theorem only_addResets (plane : UInt32) (resets done : List PlanePropertyReset) :
    (addResets plane resets done).Uses (Only Io.onProperty) := by
  induction resets generalizing done with
  | nil => trivial
  | cons reset rest ih =>
    refine uses_bind (only_getDrmProperty _ _) fun a => ?_
    cases a with
    | none => exact uses_ite trivial (ih _)
    | some property => exact uses_bind (only_call rfl) fun _ => uses_ite (ih _) trivial

theorem only_addPlanes (planes : List UInt32) (done : List (UInt32 × List PlanePropertyReset)) :
    (addPlanes planes done).Uses (Only Io.onProperty) := by
  induction planes generalizing done with
  | nil => trivial
  | cons plane rest ih =>
    refine uses_bind (only_addResets _ _ _) fun a => ?_
    cases a with
    | error e => trivial
    | ok resets => exact ih _

theorem only_verifyResets (plane : UInt32) (resets : List PlanePropertyReset) :
    (verifyResets plane resets).Uses (Only Io.onProperty) := by
  induction resets with
  | nil => trivial
  | cons reset rest ih =>
    refine uses_ite ih (uses_bind (only_getDrmProperty _ _) fun a => ?_)
    cases a with
    | none => trivial
    | some property => exact uses_ite ih trivial

theorem only_verifyPlanes (planes : List (UInt32 × List PlanePropertyReset)) :
    (verifyPlanes planes).Uses (Only Io.onProperty) := by
  induction planes with
  | nil => trivial
  | cons plane rest ih =>
    exact uses_bind (only_verifyResets _ _) fun _ => uses_ite ih trivial

theorem only_sanitizePlanes (planes : List UInt32) :
    (sanitizePlanes planes).Uses (Only Io.onProperty) := by
  refine uses_bind (only_call rfl) fun _ => uses_ite ?_ trivial
  refine uses_bind (only_addPlanes _ _) fun a => ?_
  cases a with
  | error e => trivial
  | ok written =>
    refine uses_bind (only_call rfl) fun _ => uses_ite ?_ trivial
    refine uses_bind (only_call rfl) fun _ => uses_ite ?_ trivial
    exact uses_bind (only_verifyPlanes _) fun _ => uses_ite trivial trivial

theorem only_sanitizeExternalPlanesForLease (leased crtc : UInt32) :
    (sanitizeExternalPlanesForLease leased crtc).Uses (Only Io.quiet) := by
  refine uses_bind (only_call rfl) fun a => ?_
  cases a with
  | none => trivial
  | some ids =>
    refine uses_bind (only_collectPlanes _ _ _ _ _) fun a => ?_
    cases a with
    | error e => trivial
    | ok r => exact uses_ite (quiet_of_property (only_sanitizePlanes _)) trivial

theorem only_isExternalDisplayLeaseConnected (d : Device) :
    (isExternalDisplayLeaseConnected d).Uses (Only Io.quiet) := by
  refine uses_ite trivial (uses_bind (only_call rfl) fun a => ?_)
  cases a <;> trivial

theorem only_detachPlane (plane crtc fb : UInt32) :
    (detachPlane plane crtc fb).Uses (Only Io.onProperty) :=
  uses_bind (only_call rfl) fun _ => uses_ite (uses_bind (only_call rfl) fun _ => uses_ite
    (uses_bind (only_call rfl) fun _ => uses_ite (uses_bind (only_call rfl) fun _ => uses_ite
      (only_call rfl) trivial) trivial) trivial) trivial

theorem only_detachLeasedPlane (e : LeaseState) (result : DisplayError) :
    (detachLeasedPlane e result).Uses (Only Io.onProperty) := by
  refine uses_ite (uses_bind (only_getDrmProperty _ _) fun a => ?_) trivial
  cases a with
  | none => trivial
  | some crtc =>
    refine uses_bind (only_getDrmProperty _ _) fun a => ?_
    cases a with
    | none => trivial
    | some fb => exact uses_bind (only_detachPlane _ _ _) fun _ => uses_ite trivial trivial

theorem only_resetConnectedDisplay (d : Device) (result : DisplayError) :
    (resetConnectedDisplay d result).Uses (Only Io.quiet) := by
  refine uses_bind (only_call rfl) fun _ => uses_bind (only_call rfl) fun _ => ?_
  refine uses_bind (only_call rfl) fun _ => uses_bind (only_call rfl) fun _ => ?_
  refine uses_bind (only_call rfl) fun _ => uses_bind (only_call rfl) fun _ => ?_
  exact uses_bind (only_call rfl) fun _ => uses_ite trivial trivial

theorem only_resetPipeline (d : Device) (e : LeaseState) (result : DisplayError) :
    (resetPipeline d e result).Uses (Only Io.quiet) :=
  uses_bind (quiet_of_property (only_detachLeasedPlane _ _)) fun _ =>
    uses_bind (only_isExternalDisplayLeaseConnected _) fun _ =>
      uses_ite (only_resetConnectedDisplay _ _) trivial

/-! ## The functions that change an entry -/

@[simp] theorem setLease_self (s : Session) (device : Nat) (e : Option LeaseState) :
    (s.setLease device e).leases device = e := Function.update_self ..

theorem setLease_setLease (s : Session) (device : Nat) (e e' : Option LeaseState) :
    (s.setLease device e).setLease device e' = s.setLease device e' := by
  simp [Session.setLease]

theorem setLease_eq {s : Session} {device : Nat} {e : Option LeaseState}
    (h : s.leases device = e) : s.setLease device e = s := by
  simp [Session.setLease, ← h]

/-- A revocation of the lease `e` of `d` that failed, or that ended it. -/
def Tried (d : Device) (e : LeaseState) (s t : Sys ω) : Prop :=
  (t.vars = s.vars ∧ deals t.log = deals s.log ++ [.refused d.id e.lesseeId]) ∨
    (t.vars = s.vars.setLease d.id (some { e with active := false }) ∧
      deals t.log = deals s.log ++ [.revoked d.id e.lesseeId])

variable {d : Device}

theorem wp_revokeDeviceLease_idle (Q : DisplayError → Sys ω → Prop)
    (h : ∀ e, s.vars.leases d.id = some e → e.active = false) :
    wp (sysHandler env) (revokeDeviceLease d) Q s H = Q .noError s := by
  rw [revokeDeviceLease, wp_bind, wp_getSession]
  cases he : s.vars.leases d.id with
  | none => rfl
  | some e => simp [h e he]

variable {e : LeaseState}

theorem wp_revokeDeviceLease_active (h : s.vars.leases d.id = some e) (he : e.active = true) :
    wp (sysHandler env) (revokeDeviceLease d) (fun _ t => Tried d e s t) s (Same s) := by
  rw [revokeDeviceLease, wp_bind, wp_getSession]
  simp only [h, he, if_true, wp_bind]
  refine wp_io _ ⟨rfl, rfl⟩ fun a w _ => ?_
  cases a with
  | failed => exact Or.inl ⟨rfl, deals_append _ _⟩
  | revoked => exact Or.inr ⟨rfl, deals_append _ _⟩
  | noEntry => exact Or.inr ⟨rfl, deals_append _ _⟩

theorem wp_abortDevicePreparation_none (Q : DisplayError → Sys ω → Prop)
    (h : s.vars.leases d.id = none) :
    wp (sysHandler env) (abortDevicePreparation d) Q s H = Q .noError s := by
  rw [abortDevicePreparation, wp_bind, wp_getSession]
  simp only [h, wp_pure]

theorem wp_abortDevicePreparation_fresh
    (Q : DisplayError → Sys ω → Prop) (h : s.vars.leases d.id = some e) (ha : e.active = false)
    (hl : e.lesseeId = 0) :
    wp (sysHandler env) (abortDevicePreparation d) Q s H =
      Q .noError { s with vars := s.vars.setLease d.id none } := by
  rw [abortDevicePreparation, wp_bind, wp_getSession]
  simp [h, ha, hl]

theorem wp_resetEntry (result : DisplayError) (h : s.vars.leases d.id = some e) :
    wp (sysHandler env) (do
      match (← getSession).leases d.id with
      | none => pure result
      | some e => do
        let result ← resetPipeline d e result
        update fun s => s.setLease d.id none
        pure result)
      (fun _ t => t.vars = s.vars.setLease d.id none ∧ deals t.log = deals s.log) s (Same s) := by
  rw [wp_bind, wp_getSession]
  simp only [h, wp_bind]
  refine wp_post (wp_quiet (only_resetPipeline d e result)) fun _ t ht => ?_
  exact ⟨by rw [← ht.1], ht.2⟩

theorem wp_resetDeviceLease_none (Q : DisplayError → Sys ω → Prop) (h : s.vars.leases d.id = none) :
    wp (sysHandler env) (resetDeviceLease d) Q s H = Q .noError s := by
  rw [resetDeviceLease, wp_bind, wp_revokeDeviceLease_idle _ (by simp [h]), wp_bind, wp_getSession]
  simp only [h, wp_pure]

theorem wp_resetDeviceLease_idle (h : s.vars.leases d.id = some e) (he : e.active = false) :
    wp (sysHandler env) (resetDeviceLease d)
      (fun _ t => t.vars = s.vars.setLease d.id none ∧ deals t.log = deals s.log) s (Same s) := by
  rw [resetDeviceLease, wp_bind, wp_revokeDeviceLease_idle _ (by simp [h, he])]
  exact wp_resetEntry .noError h

theorem wp_resetDeviceLease_active (h : s.vars.leases d.id = some e) (he : e.active = true) :
    wp (sysHandler env) (resetDeviceLease d) (fun _ t => t.vars = s.vars.setLease d.id none ∧
        (deals t.log = deals s.log ++ [.refused d.id e.lesseeId] ∨
          deals t.log = deals s.log ++ [.revoked d.id e.lesseeId]))
      s (fun t => ∃ u, (u = s ∨ Tried d e s u) ∧ Same u t) := by
  rw [resetDeviceLease, wp_bind]
  refine wp_mono (wp_revokeDeviceLease_active h he) (fun r t ht => ?_) fun t ht => ⟨s, .inl rfl, ht⟩
  rcases ht with ⟨hvars, hdeals⟩ | ⟨hvars, hdeals⟩
  · have hentry : t.vars.leases d.id = some e := by rw [hvars, h]
    refine wp_mono (wp_resetEntry r hentry) (fun _ u hu => ?_)
      fun u hu => ⟨t, .inr (.inl ⟨hvars, hdeals⟩), hu⟩
    exact ⟨by rw [hu.1, hvars], .inl (by rw [hu.2, hdeals])⟩
  · have hentry : t.vars.leases d.id = some { e with active := false } := by
      rw [hvars, setLease_self]
    refine wp_mono (wp_resetEntry r hentry) (fun _ u hu => ?_)
      fun u hu => ⟨t, .inr (.inr ⟨hvars, hdeals⟩), hu⟩
    exact ⟨by rw [hu.1, hvars, setLease_setLease], .inr (by rw [hu.2, hdeals])⟩

/-- A preparation that failed changes nothing; one that succeeded leaves a prepared entry. -/
theorem wp_prepareDeviceLease (lease : LeaseInfo) (h : s.vars.leases d.id = none) :
    wp (sysHandler env) (prepareDeviceLease d lease) (fun r t => (∃ e, r = .error e) ∧ Same s t ∨
        ∃ lease' plane, r = .ok lease' ∧ d.tv = true ∧
          t.vars = s.vars.setLease d.id (some { planeId := plane, prepared := true }) ∧
          deals t.log = deals s.log)
      s (Same s) := by
  rw [prepareDeviceLease, wp_ite]
  split
  · exact .inl ⟨⟨_, rfl⟩, rfl, rfl⟩
  · rename_i htv
    have htv : d.tv = true := by
      cases hd : d.tv
      · simp [hd] at htv
      · rfl
    refine wp_seq (wp_inert (inert_call rfl)) fun master t ht => ?_
    rw [wp_ite]
    split
    · rw [wp_bind, wp_getSession, ht.1, h]
      simp only [Option.any_none, Bool.false_eq_true, if_false]
      rw [prepareFixedPrimary, wp_bind]
      refine wp_mono (wp_quiet (only_getFixedPrimaryPlane _)) (fun r u hu => ?_)
        fun u hu => ⟨hu.1.trans ht.1, hu.2.trans ht.2⟩
      have hsame : Same s u := ⟨hu.1.trans ht.1, hu.2.trans ht.2⟩
      obtain ⟨error, fixed⟩ := r
      simp only [wp_ite]
      split
      · exact .inl ⟨⟨_, rfl⟩, hsame⟩
      · simp only [wp_bind, wp_getSession, wp_ite]
        split
        · exact .inl ⟨⟨_, rfl⟩, hsame⟩
        · refine .inr ⟨_, fixed.planeId, rfl, htv, ?_, hsame.2⟩
          show u.vars.setLease _ _ = _
          rw [hsame.1, h]
          rfl
    · exact .inl ⟨⟨_, rfl⟩, ht⟩

/-- Only the plane of the entry may have changed. -/
def Refreshed (d : Device) (e : LeaseState) (s t : Sys ω) : Prop :=
  ∃ plane, t.vars = s.vars.setLease d.id (some { e with planeId := plane }) ∧
    deals t.log = deals s.log

theorem Same.refreshed (h : s.vars.leases d.id = some e) (ht : Same s t) : Refreshed d e s t :=
  ⟨e.planeId, by rw [setLease_eq h, ht.1], ht.2⟩

theorem Refreshed.same (h : Refreshed d e s t) (ht : Same t u) : Refreshed d e s u := by
  obtain ⟨plane, hvars, hdeals⟩ := h
  exact ⟨plane, ht.1.trans hvars, ht.2.trans hdeals⟩

/-- The result of a creation: a lease in the entry of the device, or an entry as it was prepared. -/
def Created (d : Device) (e : LeaseState) (s : Sys ω) (r : Except DisplayError LeaseInfo)
    (t : Sys ω) : Prop :=
  (∃ error, r = .error error) ∧ Refreshed d e s t ∨
    ∃ lease fd plane lessee, r = .ok lease ∧ lease.leaseFd = some fd ∧ lease.lesseeId = lessee ∧
      t.vars = s.vars.setLease d.id
        (some { e with planeId := plane, active := true, lesseeId := lessee }) ∧
      deals t.log = deals s.log ++ [.created d.id lessee]

theorem wp_createResolvedLease {e' : LeaseState} {plane : UInt32}
    (lease : LeaseInfo) (he : e' = { e with planeId := plane })
    (hvars : t.vars = s.vars.setLease d.id (some e')) (hdeals : deals t.log = deals s.log) :
    wp (sysHandler env) (createResolvedLease d e' lease) (Created d e s) t (Refreshed d e s) := by
  have hrefreshed : Refreshed d e s t := ⟨plane, by rw [hvars, he], hdeals⟩
  rw [createResolvedLease, wp_bind]
  refine wp_io _ hrefreshed fun a w _ => ?_
  cases a with
  | none => exact .inl ⟨⟨_, rfl⟩, plane, by rw [hvars, he], by rw [deals_append, hdeals]; simp
      [deals, dealOf]⟩
  | some r =>
    obtain ⟨fd, lessee⟩ := r
    refine .inr ⟨_, fd, plane, lessee, rfl, rfl, rfl, ?_, by rw [deals_append, hdeals]; rfl⟩
    show t.vars.setLease _ _ = _
    rw [hvars, setLease_setLease, he]

theorem wp_createConnectedLease (lease : LeaseInfo) (h : s.vars.leases d.id = some e) :
    wp (sysHandler env) (createConnectedLease d e lease) (Created d e s) s (Refreshed d e s) := by
  rw [createConnectedLease, wp_bind]
  refine wp_mono (wp_quiet (only_getFixedPrimaryPlane _)) (fun r t ht => ?_)
    fun t ht => ht.refreshed h
  obtain ⟨error, fixed⟩ := r
  simp only [wp_ite]
  split
  · exact .inl ⟨⟨_, rfl⟩, ht.refreshed h⟩
  · simp only [wp_bind, wp_getSession, wp_ite]
    split
    · exact .inl ⟨⟨_, rfl⟩, ht.refreshed h⟩
    · have hentry : Refreshed d e s
          { t with vars := t.vars.setLease d.id (some { e with planeId := fixed.planeId }) } :=
        ⟨fixed.planeId, by simp only [ht.1], ht.2⟩
      simp only [wp_update]
      split
      · exact .inl ⟨⟨_, rfl⟩, hentry⟩
      · refine wp_mono (wp_quiet (only_sanitizeExternalPlanesForLease _ _)) (fun r u hu => ?_)
          fun u hu => hentry.same hu
        split
        · exact .inl ⟨⟨_, rfl⟩, hentry.same hu⟩
        · refine wp_createResolvedLease lease rfl ?_ (hu.2.trans ht.2)
          rw [hu.1]
          show t.vars.setLease _ _ = _
          rw [ht.1]

theorem wp_createDeviceLease (lease : LeaseInfo) (h : s.vars.leases d.id = some e) :
    wp (sysHandler env) (createDeviceLease d lease) (Created d e s) s (Refreshed d e s) := by
  have hsame : Same s s := ⟨rfl, rfl⟩
  rw [createDeviceLease, wp_bind, wp_getSession]
  simp only [h, wp_ite]
  split
  · exact .inl ⟨⟨_, rfl⟩, hsame.refreshed h⟩
  · rw [wp_bind]
    refine wp_mono (wp_quiet (only_isExternalDisplayLeaseConnected d)) (fun r t ht => ?_)
      fun t ht => ht.refreshed h
    obtain ⟨error, connected⟩ := r
    simp only [wp_ite]
    split
    · exact .inl ⟨⟨_, rfl⟩, ht.refreshed h⟩
    · have hentry : t.vars.leases d.id = some e := by rw [ht.1, h]
      refine wp_mono (wp_createConnectedLease lease hentry) (fun r u hu => ?_) fun u hu => ?_
      · rcases hu with ⟨hr, plane, hvars, hdeals⟩ | ⟨lease', fd, plane, lessee, hr, hfd, hl,
          hvars, hdeals⟩
        · exact .inl ⟨hr, plane, by rw [hvars, ht.1], hdeals.trans ht.2⟩
        · exact .inr ⟨lease', fd, plane, lessee, hr, hfd, hl, by rw [hvars, ht.1],
            by rw [hdeals, ht.2]⟩
      · obtain ⟨plane, hvars, hdeals⟩ := hu
        exact ⟨plane, by rw [hvars, ht.1], hdeals.trans ht.2⟩

theorem wp_createDeviceLease_none (lease : LeaseInfo)
    (Q : Except DisplayError LeaseInfo → Sys ω → Prop) (h : s.vars.leases d.id = none) :
    wp (sysHandler env) (createDeviceLease d lease) Q s H = Q (.error .parameters) s := by
  rw [createDeviceLease, wp_bind, wp_getSession]
  simp only [h, wp_pure]

end HdmiLos.Composer
