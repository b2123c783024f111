import HdmiLos.Composer.Bench
import HdmiLos.Composer.Planes
import HdmiLos.Composer.Proofs.FootprintProofs
import HdmiLos.Composer.Proofs.TakeoverProofs

/-!
# The leased plane is the reserved one

The reservation and the lease functions use the same resolver, at different times and on whatever
the hardware then looks like. What they have in common is the id that the reservation has stored.
-/

namespace HdmiLos.Composer

open Interaction Prog List

variable {ω α : Type} {env : Env ω} {s t u : Sys ω}

/-! ## Reading the planes -/

variable {reserved : UInt32}

theorem not_reserved_of_mem_pushPipes {skips : List Pipe → Pipe → Bool}
    {planes seen pushed : List Pipe} (hpushed : ∀ pipe ∈ pushed, pipe.reservedBy reserved = false) :
    ∀ pipe ∈ pushPipes reserved skips planes seen pushed, pipe.reservedBy reserved = false := by
  induction planes generalizing seen pushed with
  | nil => exact hpushed
  | cons pipe rest ih =>
    unfold pushPipes
    split
    · exact ih hpushed
    · rename_i hfree
      split
      · exact ih hpushed
      · refine ih fun x hx => ?_
        rcases mem_append.1 hx with hx | hx
        · exact hpushed x hx
        · rw [mem_singleton.1 hx]
          simpa using hfree

theorem Pipe.ne_of_reservedBy {pipe : Pipe} (hreserved : reserved ≠ 0)
    (h : pipe.reservedBy reserved = false) :
    pipe.id ≠ reserved ∧ pipe.masterPlaneId ≠ reserved := by
  simpa [Pipe.reservedBy, hreserved] using h

/-- The pipes that Android has are apart from the plane that is reserved. -/
def Apart (pipes : List Pipe) (s : Session) : Prop :=
  s.reservedPlane ≠ 0 →
    ∀ pipe ∈ pipes, pipe.id ≠ s.reservedPlane ∧ pipe.masterPlaneId ≠ s.reservedPlane

theorem only_reservePrimary (hw : HWPlanes) : (reservePrimary hw).Uses (Only Io.quiet) := by
  refine uses_ite (uses_bind (only_call rfl) fun crtcs => ?_) trivial
  dsimp only
  split
  · exact uses_bind (only_getFixedPrimaryPlane _) fun _ => uses_ite trivial trivial
  · trivial

theorem wp_getHWPlanesInfo (hw : HWPlanes) :
    wp (sysHandler env) (getHWPlanesInfo hw) (fun pipes t => Apart pipes t.vars) s := by
  rw [getHWPlanesInfo, wp_bind]
  refine wp_returns (wp_quiet (only_reservePrimary hw)) fun reserved t _ => ?_
  intro hreserved pipe hpipe
  refine Pipe.ne_of_reservedBy hreserved (not_reserved_of_mem_pushPipes ?_ pipe hpipe)
  exact fun x hx => by cases hx

/-! ## Resolving the plane -/

/-- The plane was found on `crtc`, and only properties were looked at since. -/
def FoundOn (plane crtc : UInt32) (new : List (Answered Io.Ans)) : Prop :=
  ∃ early id found late, new = early ++ ⟨.getPlane id, some found⟩ :: late ∧
    found.planeId = plane ∧ found.crtcId = crtc ∧ ∀ x ∈ late, x.1.onProperty = true

variable {new : List (Answered Io.Ans)} {crtc plane : UInt32}

theorem FoundOn.prepend (h : FoundOn plane crtc new) (first : List (Answered Io.Ans)) :
    FoundOn plane crtc (first ++ new) := by
  obtain ⟨early, id, found, late, rfl, hfound⟩ := h
  exact ⟨first ++ early, id, found, late, by simp, hfound⟩

/-- A run has looked at the plane that it returns. -/
def Resolves (s : Sys ω) (fixed : FixedPrimary) (t : Sys ω) : Prop :=
  fixed.planeId ≠ 0 → ∃ new, t.log = s.log ++ new ∧ FoundOn fixed.planeId fixed.planeCrtcId new

variable {first : List (Answered Io.Ans)}

theorem Resolves.of_extends {fixed : FixedPrimary}
    (hs : t.log = s.log ++ first) (h : Resolves t fixed u) : Resolves s fixed u := by
  intro hplane
  obtain ⟨new, hnew, hfound⟩ := h hplane
  exact ⟨first ++ new, by rw [hnew, hs, append_assoc], hfound.prepend first⟩

theorem wp_scanPrimaryPlanes (planes : List UInt32) (i : UInt32) (out : FixedPrimary)
    (hout : out.planeId = 0) :
    wp (sysHandler env) (scanPrimaryPlanes planes i out) (Resolves s) s := by
  induction planes generalizing s i out with
  | nil => exact fun hplane => absurd hout hplane
  | cons id rest ih =>
    rw [scanPrimaryPlanes, wp_bind]
    refine wp_io _ trivial fun a w _ => ?_
    cases a with
    | none => exact wp_post (ih i out hout) fun _ _ h => h.of_extends rfl
    | some plane =>
      rw [wp_bind]
      refine wp_returns (wp_log_uses (only_isPrimaryPlane plane)) fun primary t ht => ?_
      obtain ⟨new, hnew, hproperty⟩ := ht
      have hlog : t.log = s.log ++ (⟨.getPlane id, some plane⟩ :: new) := by
        rw [hnew, append_assoc]
        rfl
      have hrest : ∀ (i : UInt32) (out : FixedPrimary), out.planeId = 0 →
          wp (sysHandler env) (scanPrimaryPlanes rest i out) (Resolves s) t :=
        fun i out hout => wp_post (ih i out hout) fun _ _ h => h.of_extends hlog
      simp only [wp_ite]
      split
      · split
        · split
          · exact fun _ => ⟨_, hlog, [], id, plane, new, rfl, rfl, rfl, hproperty⟩
          · rename_i hzero
            exact hrest _ _ (by simpa using hzero)
        · exact hrest _ _ hout
      · exact hrest _ _ hout

/-- `GetFixedPrimaryPlane` returns a plane that it has looked at. -/
theorem wp_getFixedPrimaryPlane (crtc : UInt32) : wp (sysHandler env) (getFixedPrimaryPlane crtc)
      (fun r t => r.1 = .noError → r.2.planeId ≠ 0 ∧ Resolves s r.2 t) s := by
  rw [getFixedPrimaryPlane, wp_bind]
  refine wp_io _ trivial fun a w _ => ?_
  cases a with
  | none => exact fun h => by cases h
  | some crtcs =>
    simp only [wp_ite, wp_bind]
    split
    · exact fun h => by cases h
    · refine wp_io _ trivial fun a w' _ => ?_
      cases a with
      | none => exact fun h => by cases h
      | some planes =>
        simp only [wp_bind, wp_ite]
        refine wp_post (wp_scanPrimaryPlanes planes 0 _ rfl) fun out t ht => ?_
        split
        · exact fun h => by cases h
        · rename_i hplane
          exact fun _ => ⟨hplane, ht.of_extends (append_assoc _ _ _)⟩

/-! ## Clearing the planes -/

/-- Whenever the plane was looked at, it was on no CRTC but `crtc`. -/
def SeenOn (plane crtc : UInt32) (new : List (Answered Io.Ans)) : Prop :=
  ∀ id found, (⟨.getPlane id, some found⟩ : Answered Io.Ans) ∈ new → found.planeId = plane →
    found.crtcId = 0 ∨ found.crtcId = crtc

variable {new' : List (Answered Io.Ans)}

theorem SeenOn.append (h : SeenOn plane crtc new)
    (h' : SeenOn plane crtc new') : SeenOn plane crtc (new ++ new') := by
  intro id found hmem
  rcases mem_append.1 hmem with hmem | hmem
  · exact h id found hmem
  · exact h' id found hmem

theorem seenOn_of_property (h : ∀ x ∈ new, x.1.onProperty = true) : SeenOn plane crtc new := by
  intro id found hmem
  cases h _ hmem

theorem FoundOn.resolvedOn {at₀ : UInt32}
    (h : FoundOn plane at₀ new) (hcrtc : at₀ = 0 ∨ at₀ = crtc) (h' : SeenOn plane crtc new') :
    ResolvedOn plane crtc (new ++ new') := by
  obtain ⟨early, id, found, late, rfl, hplane, rfl, hlate⟩ := h
  exact ⟨early, id, found, late ++ new', by simp, hplane, hcrtc,
    (seenOn_of_property hlate).append h'⟩

/-- A run that has seen the plane on no other CRTC. -/
def Sees (plane crtc : UInt32) (s t : Sys ω) : Prop :=
  ∃ new, t.log = s.log ++ new ∧ SeenOn plane crtc new

theorem Sees.of_extends (hs : t.log = s.log ++ first)
    (hfirst : SeenOn plane crtc first) (h : Sees plane crtc t u) : Sees plane crtc s u := by
  obtain ⟨new, hnew, hseen⟩ := h
  exact ⟨first ++ new, by rw [hnew, hs, append_assoc], hfirst.append hseen⟩

theorem wp_collectPlanes (leased crtc : UInt32) (ids : List UInt32) (found : Bool)
    (planes : List UInt32) :
    wp (sysHandler env) (collectPlanes leased crtc ids found planes)
      (fun r t => r = .error .noError ∨ (∃ x, r = .ok x) → Sees leased crtc s t) s := by
  induction ids generalizing s found planes with
  | nil => exact fun _ => ⟨[], by simp, fun id found hmem => by cases hmem⟩
  | cons id rest ih =>
    rw [collectPlanes, wp_bind]
    refine wp_io _ trivial fun a w _ => ?_
    cases a with
    | none => simp
    | some plane =>
      simp only [wp_ite]
      split
      · simp
      · rename_i hplane
        have hseen : SeenOn leased crtc [⟨.getPlane id, some plane⟩] := by
          intro id' found' hmem hleased
          cases mem_singleton.1 hmem
          by_contra hother
          exact hplane ⟨hleased, not_or.1 hother⟩
        split
        · exact wp_post (ih _ _) fun r t ht hr => (ht hr).of_extends rfl hseen
        · exact wp_post (ih _ _) fun r t ht hr => (ht hr).of_extends rfl hseen

theorem wp_sanitizeExternalPlanesForLease (leased crtc : UInt32) :
    wp (sysHandler env) (sanitizeExternalPlanesForLease leased crtc)
      (fun r t => r = .noError → Sees leased crtc s t) s := by
  rw [sanitizeExternalPlanesForLease, wp_bind]
  refine wp_io _ trivial fun a w _ => ?_
  cases a with
  | none => exact fun h => by cases h
  | some ids =>
    simp only [wp_bind]
    refine wp_post (wp_collectPlanes leased crtc ids false []) fun r t ht => ?_
    have hfirst : SeenOn leased crtc [⟨.getPlaneResources, some ids⟩] := by
      intro id found' hmem
      cases mem_singleton.1 hmem
    cases r with
    | error e =>
      rintro rfl
      exact (ht (.inl rfl)).of_extends rfl hfirst
    | ok x =>
      obtain ⟨new, hnew, hseen⟩ := (ht (.inr ⟨x, rfl⟩)).of_extends (s := s) rfl hfirst
      obtain ⟨found, planes⟩ := x
      simp only [wp_ite]
      split
      · refine wp_returns (wp_log_uses (only_sanitizePlanes planes)) fun r u hu _ => ?_
        obtain ⟨new', hnew', hproperty⟩ := hu
        exact ⟨new ++ new', by rw [hnew', hnew, append_assoc],
          hseen.append (seenOn_of_property hproperty)⟩
      · exact fun _ => ⟨new, hnew, hseen⟩

/-! ## Creating the lease -/

/-- Every lease of the calls is one of the reserved plane, which was resolved before. -/
def Planned (reserved : UInt32) (new : List (Answered Io.Ans)) : Prop :=
  ∀ before device objects answer after,
    new = before ++ ⟨.createLease device objects, answer⟩ :: after →
    reserved ≠ 0 ∧ ∃ conn crtc, objects = [conn, crtc, reserved] ∧ ResolvedOn reserved crtc before

theorem planned_nil (reserved : UInt32) : Planned reserved [] := by
  intro before device objects answer after h
  cases before <;> cases h

theorem Planned.snoc {c : Io} {a : c.Ans} (h : Planned reserved new)
    (hx : ∀ device objects, c = .createLease device objects → reserved ≠ 0 ∧
      ∃ conn crtc, objects = [conn, crtc, reserved] ∧ ResolvedOn reserved crtc new) :
    Planned reserved (new ++ [⟨c, a⟩]) := by
  intro before device objects answer after heq
  rcases split_snoc heq with ⟨-, rfl, hcall⟩ | ⟨after', -, hnew⟩
  · cases hcall
    exact hx device objects rfl
  · exact h before device objects answer after' hnew

/-- The reservation of `s` still stands, and the leases since then are of the reserved plane. -/
def Kept (s t : Sys ω) : Prop :=
  t.vars.reservedPlane = s.vars.reservedPlane ∧
    ∃ new, t.log = s.log ++ new ∧ Planned s.vars.reservedPlane new

theorem Kept.refl (s : Sys ω) : Kept s s := ⟨rfl, [], by simp, planned_nil _⟩

theorem kept_framed {p : SessionProg α} (hp : p.Uses (Framed Io.uncreating)) :
    Preserves (sysHandler env) (Kept s) α p := by
  intro t ht
  refine wp_process_invariant (I := Kept s) ?_ (fun _ _ h => h) ?_ hp ht
  · intro u f hf hu
    exact ⟨(hf u.vars).reservedPlane.trans hu.1, hu.2⟩
  · rintro u c a w hc ⟨hreserved, new, hnew, hplanned⟩ -
    refine ⟨hreserved, new ++ [⟨c, a⟩], ?_, hplanned.snoc ?_⟩
    · show u.log ++ [⟨c, a⟩] = _
      rw [hnew, append_assoc]
    · rintro device objects rfl
      cases hc

theorem kept_onDevice {p : SessionProg α} (hp : p.Uses (OnDevice Io.mild)) :
    Preserves (sysHandler env) (Kept s) α p :=
  kept_framed (framed_of_onDevice uncreating_of_mild hp)

theorem kept_createResolvedLease {d : Device} {e : LeaseState} {lease : LeaseInfo}
    (hreserved : t.vars.reservedPlane = s.vars.reservedPlane)
    (hnew : t.log = s.log ++ new) (hplanned : Planned s.vars.reservedPlane new)
    (hplane : e.planeId = s.vars.reservedPlane) (hzero : s.vars.reservedPlane ≠ 0)
    (hresolved : ResolvedOn s.vars.reservedPlane d.crtcId new) :
    wp (sysHandler env) (createResolvedLease d e lease) (fun _ u => Kept s u) t (Kept s) := by
  rw [createResolvedLease, wp_bind]
  refine wp_io _ ⟨hreserved, new, hnew, hplanned⟩ fun a w _ => ?_
  have hcreated : Planned s.vars.reservedPlane
      (new ++ [⟨.createLease d.id [d.connId, d.crtcId, e.planeId], a⟩]) := by
    refine hplanned.snoc fun device objects h => ⟨hzero, d.connId, d.crtcId, ?_, hresolved⟩
    cases h
    rw [hplane]
  have hlog : t.log ++ [⟨.createLease d.id [d.connId, d.crtcId, e.planeId], a⟩] =
      s.log ++ (new ++ [⟨.createLease d.id [d.connId, d.crtcId, e.planeId], a⟩]) := by
    rw [hnew, append_assoc]
  cases a with
  | none => exact ⟨hreserved, _, hlog, hcreated⟩
  | some x => exact ⟨hreserved, _, hlog, hcreated⟩

theorem ResolvedOn.prepend (h : ResolvedOn plane crtc new) (first : List (Answered Io.Ans)) :
    ResolvedOn plane crtc (first ++ new) := by
  obtain ⟨early, id, found, late, rfl, hfound⟩ := h
  exact ⟨first ++ early, id, found, late, by simp, hfound⟩

theorem kept_createConnectedLease (d : Device) (e : LeaseState) (lease : LeaseInfo) :
    Preserves (sysHandler env) (Kept s) _ (createConnectedLease d e lease) := by
  intro t ht
  rw [createConnectedLease, wp_bind]
  refine wp_mono (wp_and (kept_onDevice (mildDevice (only_getFixedPrimaryPlane d.crtcId)) t ht)
    (wp_getFixedPrimaryPlane d.crtcId)) (fun r u hu => ?_) fun u hu => hu.1
  obtain ⟨error, fixed⟩ := r
  obtain ⟨hkept, hresolves⟩ := hu
  simp only [wp_ite, wp_bind, wp_getSession, wp_update]
  split
  · exact hkept
  · rename_i herror
    obtain ⟨hzero, hresolves⟩ := hresolves (not_not.1 herror)
    split
    · exact hkept
    · rename_i hplane
      have hplane : fixed.planeId = s.vars.reservedPlane := (not_not.1 hplane).trans hkept.1
      split
      · exact hkept
      · rename_i hcrtc
        -- the entry is stored, and the planes are cleared
        refine wp_mono (wp_and (kept_onDevice (s := s)
          (mildDevice (only_sanitizeExternalPlanesForLease fixed.planeId d.crtcId)) _ hkept)
          (wp_sanitizeExternalPlanesForLease fixed.planeId d.crtcId)) (fun r v hv => ?_)
          fun v hv => hv.1
        obtain ⟨⟨hreserved, new, hnew, hplanned⟩, hsees⟩ := hv
        split
        · exact ⟨hreserved, new, hnew, hplanned⟩
        · rename_i herror'
          obtain ⟨new₀, hnew₀, -⟩ := ht.2
          obtain ⟨new₁, hnew₁, hfound⟩ := hresolves hzero
          obtain ⟨new₂, hnew₂, hseen⟩ := hsees (not_not.1 herror')
          have hlog : s.log ++ new = s.log ++ (new₀ ++ (new₁ ++ new₂)) := by
            rw [← hnew, hnew₂, hnew₁, hnew₀, append_assoc, append_assoc]
          refine kept_createResolvedLease hreserved hnew hplanned hplane (hplane ▸ hzero) ?_
          rw [append_cancel_left hlog, ← hplane]
          refine ResolvedOn.prepend (hfound.resolvedOn ?_ hseen) new₀
          by_contra hother
          exact hcrtc (not_or.1 hother)

theorem kept_createDeviceLease (d : Device) (lease : LeaseInfo) :
    Preserves (sysHandler env) (Kept s) _ (createDeviceLease d lease) := by
  have hparts := preserves_compositional (sysHandler env) (Kept s)
  refine hparts.bind (kept_framed framed_getSession) fun v => ?_
  cases v.leases d.id with
  | none => exact hparts.pure _
  | some e =>
    refine hparts.ite (hparts.pure _) (hparts.bind
      (kept_onDevice (mildDevice (only_isExternalDisplayLeaseConnected d))) fun _ => ?_)
    exact hparts.ite (hparts.pure _) (kept_createConnectedLease d e lease)

theorem kept_createExternalDisplayLease (slot : Slot) (display : Display) (lease : LeaseInfo) :
    Preserves (sysHandler env) (Kept s) _ (createExternalDisplayLease slot display lease) := by
  have hparts := preserves_compositional (sysHandler env) (Kept s)
  refine hparts.bind (kept_framed (framed_call rfl)) fun _ => hparts.ite ?_ (hparts.pure _)
  cases display.leaseDevice with
  | error e => exact hparts.pure _
  | ok d =>
    refine hparts.bind (kept_createDeviceLease d lease) fun r => ?_
    cases r <;> exact hparts.pure _

/-! ## The session -/

theorem kept_createSelected (status : Message) (slot : Slot) (display : Display) :
    Preserves (sysHandler env) (Kept s) _ (createSelected status slot display) := by
  have hparts := preserves_compositional (sysHandler env) (Kept s)
  refine hparts.bind (kept_framed framed_getSession) fun v => ?_
  refine hparts.bind (kept_createExternalDisplayLease slot display v.info) fun r => ?_
  cases r with
  | none => exact kept_framed (framed_abandonTakeover _ _ _ _ _ _ _)
  | some lease =>
    dsimp only
    cases lease.leaseFd with
    | none => exact kept_framed (framed_abandonTakeover _ _ _ _ _ _ _)
    | some fd =>
      refine hparts.bind (kept_framed (framed_update fun _ => ⟨rfl, rfl, rfl⟩)) fun _ => ?_
      exact hparts.bind (kept_framed (framed_fillStatus _ _)) fun _ => hparts.pure _

theorem kept_acquireHdmiLease (phase : UInt32) (status : Message) :
    Preserves (sysHandler env) (Kept s) _ (acquireHdmiLease phase status) := by
  have hparts := preserves_compositional (sysHandler env) (Kept s)
  have hrefused : ∀ result detail,
      Preserves (sysHandler env) (Kept s) _ (acquireRefused status result detail) :=
    fun _ _ => kept_framed (framed_acquireRefused _ _ _)
  refine hparts.ite (kept_framed (framed_mono uncreating_of_mild (framed_acquirePreparePhase _)))
    (hparts.ite (hrefused _ _) (hparts.bind (kept_framed framed_getSession) fun v => ?_))
  dsimp only
  cases v.displayIdx with
  | none => exact hrefused _ _
  | some slot =>
    refine hparts.ite (hrefused _ _) (hparts.bind (kept_framed framed_getSession) fun v => ?_)
    cases v.displays slot with
    | none => exact kept_framed (framed_acquireFailed _ _ _)
    | some display =>
      refine hparts.bind (kept_onDevice (mildDevice only_takeoverForbidden)) fun _ => ?_
      refine hparts.ite (kept_framed (framed_abandonTakeover _ _ _ _ _ _ _)) (hparts.ite ?_ ?_)
      · exact kept_framed (framed_pauseSelected _ _ _)
      · exact kept_createSelected _ _ _

theorem kept_event (e : Event) : Preserves (sysHandler env) (Kept s) _ e.prog := by
  have hparts := preserves_compositional (sysHandler env) (Kept s)
  have hupdate : ∀ f : Session → Session, (∀ v, (f v).reservedPlane = v.reservedPlane) →
      Preserves (sysHandler env) (Kept s) _ (update f) :=
    fun f hf t ht => ⟨(hf t.vars).trans ht.1, ht.2⟩
  cases e with
  | acquire phase response =>
    exact hparts.bind (kept_acquireHdmiLease phase response) fun _ => hparts.pure _
  | release reason => exact kept_framed (framed_releaseHdmiLease reason)
  | status =>
    exact hparts.bind (kept_onDevice (mildDevice (only_getHdmiLeaseStatus {}))) fun _ =>
      hparts.pure _
  | mapPluggable slots => exact hparts.bind (hupdate _ fun _ => rfl) fun _ => hparts.pure _
  | attach slot display => exact hparts.bind (hupdate _ fun _ => rfl) fun _ => hparts.pure _
  | destroy slot =>
    refine hparts.bind (hparts.bind (kept_framed framed_getSession) fun v => ?_) fun _ =>
      hparts.pure _
    exact hparts.bind (kept_onDevice (onDevice_deinitDisplay _)) fun _ => hupdate _ fun _ => rfl

/-! ## Runs -/

/-- Over a run no pipe uses the reserved plane. -/
theorem apart_of_run {pipes : List Pipe} (h : PlaneRun env pipes s) : Apart pipes s.vars := by
  induction h with
  | start hs => exact fun hne => absurd hs hne
  | event _ run ih =>
    obtain ⟨hreserved, -⟩ := wp_returned (kept_event _ _ (Kept.refl _)) run
    unfold Apart at ih ⊢
    rw [hreserved]
    exact ih
  | read _ run => exact wp_returned (wp_getHWPlanesInfo _) run

/-- Every lease that is created is one of the reserved plane. Android has no pipe of this plane, and
    the plane was on no other CRTC when it was last resolved. Without a reservation no lease is
    created. -/
theorem leased_plane_reserved {pipes : List Pipe} {e : Event} {r : Option Int}
    (h : PlaneRun env pipes s) (hrun : e.prog.run (sysHandler env) s = (r, t))
    (before : List (Answered Io.Ans)) (device : Nat) (objects : List UInt32)
    (answer : Option (Fd × UInt32)) (after : List (Answered Io.Ans))
    (hcall : t.log.drop s.log.length = before ++ ⟨.createLease device objects, answer⟩ :: after) :
    s.vars.reservedPlane ≠ 0 ∧
      ∃ conn crtc plane, objects = [conn, crtc, plane] ∧ plane = s.vars.reservedPlane ∧
        (∀ pipe ∈ pipes, pipe.id ≠ plane ∧ pipe.masterPlaneId ≠ plane) ∧
        ResolvedOn plane crtc before := by
  have hkept : Kept s t := by
    have hevent : wp (sysHandler env) e.prog _ s _ := kept_event e s (Kept.refl s)
    rw [wp, hrun] at hevent
    cases r with
    | none => exact hevent
    | some r => exact hevent
  obtain ⟨-, new, hnew, hplanned⟩ := hkept
  rw [hnew, drop_left] at hcall
  obtain ⟨hzero, conn, crtc, hobjects, hresolved⟩ :=
    hplanned before device objects answer after hcall
  exact ⟨hzero, conn, crtc, _, hobjects, rfl, apart_of_run h hzero, hresolved⟩

/-- The planes of the bench: one of Android's and the reserved one, each with a virtual pipe. -/
def benchPlanes : HWPlanes :=
  { planes := [{ id := 1 }, { id := 2 }, { id := 3, masterPlaneId := 1 },
      { id := 4, masterPlaneId := 2 }] }

/-- The session before they have been read. -/
def unreadStart : Sys BenchWorld :=
  { benchStart with vars := { benchSession with reservedPlane := 0 } }

/-- The state after these events, oldest first, if all of them return. -/
def afterEvents (env : Env BenchWorld) : List Event → Sys BenchWorld → Option (Sys BenchWorld)
  | [], s => some s
  | e :: events, s =>
    match e.prog.run (sysHandler env) s with
    | (some _, t) => afterEvents env events t
    | (none, _) => none

theorem run_afterEvents {env : Env BenchWorld} {events : List Event} {pipes : List Pipe}
    {s t : Sys BenchWorld} (hs : PlaneRun env pipes s) (h : afterEvents env events s = some t) :
    PlaneRun env pipes t := by
  induction events generalizing s with
  | nil =>
    cases h
    exact hs
  | cons e events ih =>
    unfold afterEvents at h
    split at h
    · rename_i u hu
      exact ih (.event hs hu) h
    · cases h

/-- On the bench the planes are read, and then a lease of the reserved plane is created. -/
theorem leased_plane_reserved_bench :
    ∃ pipes s t r device objects answer, PlaneRun (benchEnv .revoked false) pipes s ∧
      (Event.acquire acquireCreate {}).prog.run (sysHandler (benchEnv .revoked false)) s = (r, t) ∧
      (⟨.createLease device objects, answer⟩ : Answered Io.Ans) ∈ t.log.drop s.log.length ∧
      pipes = [{ id := 1 }, { id := 3, masterPlaneId := 1 }] ∧
      ∃ conn crtc plane, objects = [conn, crtc, plane] ∧ plane = s.vars.reservedPlane := by
  have hread : (((getHWPlanesInfo benchPlanes).run (sysHandler (benchEnv .revoked false))
      unreadStart).1 == some [{ id := 1 }, { id := 3, masterPlaneId := 1 }]) = true := by
    decide +kernel
  have hcreate : (afterEvents (benchEnv .revoked false)
      [.acquire acquirePrepare {}, .acquire acquirePause {}]
      ((getHWPlanesInfo benchPlanes).run (sysHandler (benchEnv .revoked false))
        unreadStart).2).any (fun s => (((Event.acquire acquireCreate {}).prog.run
          (sysHandler (benchEnv .revoked false)) s).2.log.drop s.log.length).any
            fun x => !x.1.uncreating) = true := by
    decide +kernel
  obtain ⟨s, hs, hany⟩ := (Option.any_eq_true _ _).1 hcreate
  obtain ⟨⟨c, a⟩, hmem, hc⟩ := any_eq_true.1 hany
  have hrun : PlaneRun (benchEnv .revoked false) [{ id := 1 }, { id := 3, masterPlaneId := 1 }] s :=
    run_afterEvents (.read (.start rfl) (Prod.ext (beq_iff_eq.1 hread) rfl)) hs
  cases c with
  | createLease device objects =>
    obtain ⟨before, after, hsplit⟩ := append_of_mem hmem
    obtain ⟨-, conn, crtc, plane, hobjects, hplane, -⟩ :=
      leased_plane_reserved hrun rfl before device objects a after hsplit
    exact ⟨_, s, _, _, device, objects, a, hrun, rfl, hmem, rfl, conn, crtc, plane, hobjects, hplane⟩
  | _ => cases hc

end HdmiLos.Composer
