import HdmiLos.Composer.Bench
import HdmiLos.Composer.Updates
import HdmiLos.Composer.Proofs.FootprintProofs
import HdmiLos.Composer.Proofs.TakeoverProofs

/-!
# Android drives the display again

Between two events only the display of a takeover that has paused it can have its updates disabled.
This holds as long as a takeover that is given up lets the updates go on, and as long as the display
is connected when it is released.
-/

namespace HdmiLos.Composer

open Interaction Prog List

variable {ω α : Type} {env : Env ω} {s t u : Sys ω} {up : Updates}

/-! ## Calls -/

theorem Updates.after_append (up : Updates) (calls calls' : List (Answered Io.Ans)) :
    up.after (calls ++ calls') = (up.after calls).after calls' := by
  funext slot
  exact foldl_append

theorem Switch.step_unswitching {c : Io} (h : c.unswitching = true) (slot : Slot) (u : Switch)
    (a : c.Ans) : u.step slot ⟨c, a⟩ = u := by
  cases c with
  | toggleScreenUpdates i on => cases h
  | setDisplayStatus i status => cases h
  | _ => rfl

theorem Updates.after_unswitching {calls : List (Answered Io.Ans)}
    (h : ∀ x ∈ calls, x.1.unswitching = true) : up.after calls = up := by
  funext slot
  show calls.foldl (Switch.step slot) (up slot) = up slot
  induction calls with
  | nil => rfl
  | cons x calls ih =>
    rw [foldl_cons, Switch.step_unswitching (h x mem_cons_self)]
    exact ih fun y hy => h y (mem_cons_of_mem _ hy)

/-! ## The invariant -/

/-- The updates of all displays are enabled. -/
def Session.Enabled (up : Updates) (s : Session) : Prop :=
  ∀ slot, (s.displays slot).isSome = true → (up slot).enabled = true

/-- The selected display has a slot. -/
def Session.Bound (s : Session) : Prop :=
  ∀ slot, s.displayIdx = some slot → slot < s.numDisplays

/-- Only the selected display of a takeover that has paused it may have its updates disabled. -/
structure Session.Resumable (up : Updates) (s : Session) : Prop where
  bound : s.Bound
  dark : ∀ slot, (s.displays slot).isSome = true → (up slot).enabled = false →
    s.displayIdx = some slot ∧ (s.phase = acquirePause ∨ s.phase = acquireCreate)

theorem Session.Enabled.resumable {s : Session} (h : s.Enabled up) (hbound : s.Bound) :
    s.Resumable up :=
  ⟨hbound, fun slot hslot hdark => by rw [h slot hslot] at hdark; cases hdark⟩

/-- Before the second phase all updates are enabled. -/
theorem Session.Resumable.enabled {s : Session} (h : s.Resumable up)
    (hphase : s.phase ≠ acquirePause ∧ s.phase ≠ acquireCreate) : s.Enabled up := by
  intro slot hslot
  by_contra hdark
  obtain ⟨-, hpaused⟩ := h.dark slot hslot (by simpa using hdark)
  exact hpaused.elim hphase.1 hphase.2

theorem Session.Enabled.congr {s t : Session} (h : s.Enabled up)
    (hdisplays : t.displays = s.displays) :
    t.Enabled up := by
  intro slot hslot
  rw [hdisplays] at hslot
  exact h slot hslot

theorem Session.Resumable.congr {s t : Session} (h : s.Resumable up)
    (hdisplays : t.displays = s.displays) (hnum : t.numDisplays = s.numDisplays)
    (hidx : t.displayIdx = s.displayIdx) (hphase : t.phase = s.phase) : t.Resumable up := by
  refine ⟨fun slot hslot => ?_, fun slot hslot hdark => ?_⟩
  · rw [hnum]
    exact h.bound slot (hidx ▸ hslot)
  · rw [hidx, hphase]
    exact h.dark slot (hdisplays ▸ hslot) hdark

/-! ## Parts of an event -/

/-- The calls since `s` have not touched the updates. -/
def Unswitched (s t : Sys ω) : Prop :=
  ∃ calls, t.log = s.log ++ calls ∧ ∀ up : Updates, up.after calls = up

theorem Unswitched.refl (s : Sys ω) : Unswitched s s := ⟨[], by simp, fun _ => rfl⟩

theorem unswitched_of_grown {P : Act Session Io → Prop}
    (hP : ∀ c, P (.io c) → c.unswitching = true) (h : Process.Grown P s t) : Unswitched s t := by
  obtain ⟨calls, hcalls, hall⟩ := h
  exact ⟨calls, hcalls, fun up => Updates.after_unswitching fun x hx => hP x.1 (hall x hx)⟩

variable {p : SessionProg α}

theorem wp_unswitched (hp : p.Uses (OnDevice Io.unswitching)) :
    wp (sysHandler env) p (fun _ t => Remapped s.vars t.vars ∧ Unswitched s t) s :=
  wp_returns (wp_onDevice hp) fun _ _ h => ⟨h.1, unswitched_of_grown (fun _ h => h) h.2⟩

theorem wp_mild (hp : p.Uses (OnDevice Io.mild)) :
    wp (sysHandler env) p (fun _ t => Remapped s.vars t.vars ∧ Unswitched s t) s :=
  wp_unswitched (onDevice_mono unswitching_of_mild hp)

theorem wp_quiet_unswitched (hp : p.Uses (Only Io.quiet)) :
    wp (sysHandler env) p (fun _ t => t.vars = s.vars ∧ Unswitched s t) s :=
  wp_returns (wp_and (wp_quiet hp) (wp_mild (mildDevice hp))) fun _ _ h => ⟨h.1.1, h.2.2⟩

/-- If no attempt to let updates go on has failed since `s`, the invariant holds in `t`. -/
def Lights (up : Updates) (s t : Sys ω) : Prop :=
  ∃ calls, t.log = s.log ++ calls ∧ (Resumes calls → t.vars.Resumable (up.after calls))

theorem Session.Resumable.lights (h : t.vars.Resumable up) (ht : Unswitched s t) :
    Lights up s t := by
  obtain ⟨calls, hcalls, hup⟩ := ht
  exact ⟨calls, hcalls, fun _ => by rw [hup]; exact h⟩

theorem Lights.of_extends {first : List (Answered Io.Ans)} (hs : t.log = s.log ++ first)
    (h : Lights (up.after first) t u) : Lights up s u := by
  obtain ⟨calls, hcalls, hlights⟩ := h
  refine ⟨first ++ calls, by rw [hcalls, hs, append_assoc], fun hresumes => ?_⟩
  rw [Updates.after_append]
  exact hlights fun slot hmem => hresumes slot (mem_append_right _ hmem)

theorem Lights.unswitched (hs : Unswitched s t) (h : Lights up t u) : Lights up s u := by
  obtain ⟨first, hfirst, hup⟩ := hs
  exact Lights.of_extends hfirst (by rw [hup]; exact h)

theorem wp_lights_of_failed {slot : Slot}
    (hs : t.log = s.log ++ [⟨.toggleScreenUpdates slot true, false⟩]) :
    wp (sysHandler env) p (fun _ u => Lights up s u) t := by
  refine wp_returns (wp_log_extends p) fun _ u hu => ?_
  obtain ⟨calls, hcalls⟩ := hu
  refine ⟨[⟨.toggleScreenUpdates slot true, false⟩] ++ calls, ?_, fun hresumes => ?_⟩
  · rw [← hcalls, hs, append_assoc]
  · exact absurd (mem_append_left _ mem_cons_self) (hresumes slot)

/-! ## Acquiring -/

variable {status : Message} {slot : Slot} {display : Display}

theorem bound_of_none {s : Session} (h : s.displayIdx = none) : s.Bound := by
  intro slot hslot
  rw [h] at hslot
  cases hslot

variable {detail : String} {result : Int}

theorem wp_giveUp {refresh : Bool} (h : s.vars.Enabled up) : wp (sysHandler env) (do
      update fun s => { s.resetTransition with detail := detail }
      refreshIf refresh
      fillStatus status result) (fun _ t => Lights up s t) s := by
  rw [wp_bind, wp_update, wp_bind]
  refine wp_returns (wp_quiet_unswitched (only_refreshIf refresh)) fun _ t ht => ?_
  obtain ⟨hvars, hunswitched⟩ := ht
  refine Session.Resumable.lights (t := t) ?_ hunswitched
  rw [hvars]
  exact Session.Enabled.resumable (h.congr rfl) (bound_of_none rfl)

/-- A takeover that is given up lets the updates go on if it has paused them. -/
theorem wp_abandonTakeover_lights {paused refresh : Bool}
    (hdark : ∀ i, (s.vars.displays i).isSome = true → (up i).enabled = false →
      i = slot ∧ paused = true) :
    wp (sysHandler env) (abandonTakeover status slot display result detail paused refresh)
      (fun _ t => Lights up s t) s := by
  rw [abandonTakeover, wp_bind]
  refine wp_returns (wp_mild (onDevice_abortExternalDisplayLeasePreparation display))
    fun _ t ht => ?_
  obtain ⟨⟨leases, hvars⟩, hunswitched⟩ := ht
  have hdisplays : t.vars.displays = s.vars.displays := by rw [hvars]
  rw [wp_bind, resumePaused]
  cases paused with
  | false =>
    have henabled : t.vars.Enabled up := by
      intro i hi
      by_contra hne
      cases (hdark i (hdisplays ▸ hi) (by simpa using hne)).2
    rw [if_neg (by decide), wp_pure]
    exact wp_post (wp_giveUp henabled) fun _ _ h => h.unswitched hunswitched
  | true =>
    rw [if_pos rfl, wp_bind]
    refine wp_io _ trivial fun ok w _ => ?_
    rw [wp_pure]
    cases ok with
    | false => exact wp_post (wp_lights_of_failed rfl) fun _ _ h => h.unswitched hunswitched
    | true =>
      have henabled : t.vars.Enabled (up.after [⟨.toggleScreenUpdates slot true, true⟩]) := by
        intro i hi
        by_cases hslot : slot = i
        · simp [Updates.after, Switch.step, hslot]
        · simp only [Updates.after, foldl_cons, foldl_nil, Switch.step, if_neg hslot]
          by_contra hne
          exact hslot (hdark i (hdisplays ▸ hi) (by simpa using hne)).1.symm
      exact wp_post (wp_giveUp henabled) fun _ _ h =>
        (Lights.of_extends rfl h).unswitched hunswitched

theorem after_pause (i : Slot) (ok : Bool) (hne : slot ≠ i) :
    up.after [⟨.toggleScreenUpdates slot false, ok⟩] i = up i := by
  simp [Updates.after, Switch.step, hne]

theorem wp_pauseSelected_lights (h : s.vars.Enabled up) (hbound : s.vars.Bound)
    (hidx : s.vars.displayIdx = some slot) :
    wp (sysHandler env) (pauseSelected status slot display) (fun _ t => Lights up s t) s := by
  rw [pauseSelected, wp_bind]
  refine wp_io _ trivial fun ok w _ => ?_
  have hdark : ∀ i, (s.vars.displays i).isSome = true →
      (up.after [⟨.toggleScreenUpdates slot false, ok⟩] i).enabled = false → i = slot := by
    intro i hi hdark
    by_contra hne
    rw [after_pause i ok (Ne.symm hne), h i hi] at hdark
    cases hdark
  rw [wp_ite]
  split
  · rw [wp_bind, wp_update, wp_bind]
    refine wp_returns (wp_quiet_unswitched (only_call rfl)) fun _ t ht => ?_
    obtain ⟨hvars, hunswitched⟩ := ht
    refine Lights.of_extends rfl (Session.Resumable.lights (t := t) ?_ hunswitched)
    rw [hvars]
    refine ⟨hbound, fun i hi hi' => ⟨?_, .inl rfl⟩⟩
    rw [hdark i hi hi']
    exact hidx
  · refine wp_post (wp_abandonTakeover_lights fun i hi hi' => ⟨hdark i hi hi', rfl⟩) fun _ _ h => ?_
    exact Lights.of_extends rfl h

theorem wp_createSelected_lights (h : s.vars.Resumable up) (hidx : s.vars.displayIdx = some slot) :
    wp (sysHandler env) (createSelected status slot display) (fun _ t => Lights up s t) s := by
  rw [createSelected, wp_bind, wp_getSession, wp_bind]
  refine wp_returns (wp_unswitched (onDevice_createExternalDisplayLease slot display _))
    fun r t ht => ?_
  obtain ⟨⟨leases, hvars⟩, hunswitched⟩ := ht
  have hdark : ∀ i, (t.vars.displays i).isSome = true → (up i).enabled = false → i = slot := by
    intro i hi hi'
    rw [hvars] at hi
    exact Option.some.inj ((h.dark i hi hi').1.symm.trans hidx)
  have hgiveUp : wp (sysHandler env) (abandonTakeover status slot display errIo
      "DRM lease creation failed; Android was resumed" true true) (fun _ u => Lights up t u) t :=
    wp_abandonTakeover_lights fun i hi hi' => ⟨hdark i hi hi', rfl⟩
  cases r with
  | none => exact wp_post hgiveUp fun _ _ h => h.unswitched hunswitched
  | some lease =>
    dsimp only
    cases lease.leaseFd with
    | none => exact wp_post hgiveUp fun _ _ h => h.unswitched hunswitched
    | some fd =>
      refine Lights.unswitched hunswitched (Session.Resumable.lights ?_ (Unswitched.refl _))
      have hidx' : t.vars.displayIdx = some slot := by rw [hvars]; exact hidx
      refine ⟨fun i hi => ?_, fun i hi hi' => ⟨?_, .inr rfl⟩⟩
      · show i < t.vars.numDisplays
        rw [hvars]
        exact h.bound i (by rw [hidx, ← hidx']; exact hi)
      · show t.vars.displayIdx = some i
        rw [hdark i hi hi']
        exact hidx'

theorem wp_acquireSelected_lights {phase : UInt32} (h : s.vars.Resumable up)
    (hidx : s.vars.displayIdx = some slot)
    (hphase : (phase = acquirePause ∧ s.vars.phase = acquirePrepare) ∨
      (phase = acquireCreate ∧ s.vars.phase = acquirePause)) :
    wp (sysHandler env) (acquireSelected phase status slot) (fun _ t => Lights up s t) s := by
  have hslot : ∀ i, (s.vars.displays i).isSome = true → (up i).enabled = false → i = slot :=
    fun i hi hi' => Option.some.inj ((h.dark i hi hi').1.symm.trans hidx)
  rw [acquireSelected, wp_bind, wp_getSession]
  cases hdisplay : s.vars.displays slot with
  | none =>
    -- the only display whose updates may be disabled is gone
    have henabled : s.vars.Enabled up := by
      intro i hi
      by_contra hne
      rw [hslot i hi (by simpa using hne), hdisplay] at hi
      cases hi
    rw [acquireFailed, wp_bind, wp_update, fillStatus, wp_bind, wp_getSession, wp_pure]
    exact Session.Resumable.lights (Session.Enabled.resumable (henabled.congr rfl)
      (bound_of_none rfl)) (Unswitched.refl s)
  | some display =>
    simp only [wp_bind, wp_ite]
    refine wp_returns (wp_quiet_unswitched only_takeoverForbidden) fun _ t ht => ?_
    obtain ⟨hvars, hunswitched⟩ := ht
    have ht : t.vars.Resumable up := by rw [hvars]; exact h
    have hidx' : t.vars.displayIdx = some slot := by rw [hvars]; exact hidx
    split
    · refine wp_post (wp_abandonTakeover_lights fun i hi hi' => ?_) fun _ _ h =>
        h.unswitched hunswitched
      rw [hvars] at hi
      refine ⟨hslot i hi hi', ?_⟩
      rcases (h.dark i hi hi').2 with hpause | hcreate
      · simp [hpause]
      · rcases hphase with ⟨-, hphase⟩ | ⟨-, hphase⟩
        · exact absurd (hphase.symm.trans hcreate) (by decide)
        · exact absurd (hphase.symm.trans hcreate) (by decide)
    · rcases hphase with ⟨rfl, hphase⟩ | ⟨rfl, hphase⟩
      · rw [if_pos rfl]
        refine wp_post (wp_pauseSelected_lights (ht.enabled ?_) ht.bound hidx') fun _ _ h =>
          h.unswitched hunswitched
        rw [hvars, hphase]
        decide
      · rw [if_neg (by decide)]
        exact wp_post (wp_createSelected_lights ht hidx') fun _ _ h => h.unswitched hunswitched

theorem wp_prepareSelected_bound (hslot : slot < s.vars.numDisplays) :
    wp (sysHandler env) (prepareSelected status slot display) (fun _ t => t.vars.Bound) s := by
  rw [prepareSelected, wp_bind]
  refine wp_returns (wp_quiet (only_isLeaseReady slot)) fun _ t ht => ?_
  rw [wp_ite]
  split
  · rw [wp_bind]
    refine wp_returns (wp_mild (onDevice_prepareExternalDisplayLease slot display {}))
      fun r u hu => ?_
    obtain ⟨⟨leases, hvars⟩, -⟩ := hu
    cases r with
    | none => exact bound_of_none rfl
    | some lease =>
      intro i hi
      cases hi
      show slot < u.vars.numDisplays
      rw [hvars, ht.1]
      exact hslot
  · exact bound_of_none rfl

theorem wp_acquirePreparePhase_bound (h : s.vars.Bound) :
    wp (sysHandler env) (acquirePreparePhase status) (fun _ t => t.vars.Bound) s := by
  rw [acquirePreparePhase, wp_bind, wp_getSession, wp_ite]
  split
  · exact h
  · rw [wp_bind]
    refine wp_returns (wp_quiet only_leasingForbidden) fun _ t ht => ?_
    have hbound : t.vars.Bound := by rw [ht.1]; exact h
    rw [wp_ite]
    split
    · exact hbound
    · rw [wp_bind, wp_update, wp_bind, wp_getSession]
      split
      · rename_i slot hcandidates
        have hslot : slot < t.vars.numDisplays := by
          have hmem : slot ∈ ({ t.vars with
              state := stateDraining, detail := "selecting Android external display" } :
                Session).candidates := by
            rw [hcandidates]
            exact mem_cons_self
          have hboth := (mem_filter.1 hmem).2
          simp only [Bool.and_eq_true, decide_eq_true_eq] at hboth
          exact hboth.1
        split
        · exact bound_of_none rfl
        · exact wp_prepareSelected_bound hslot
      · exact bound_of_none rfl

theorem wp_acquireRefused_lights (h : s.vars.Resumable up) :
    wp (sysHandler env) (acquireRefused status result detail) (fun _ t => Lights up s t) s := by
  rw [acquireRefused, wp_bind, wp_update, fillStatus, wp_bind, wp_getSession, wp_pure]
  exact Session.Resumable.lights (h.congr rfl rfl rfl rfl) (Unswitched.refl s)

theorem wp_acquirePreparePhase_lights (h : s.vars.Resumable up) :
    wp (sysHandler env) (acquirePreparePhase status) (fun _ t => Lights up s t) s := by
  by_cases hbusy : s.vars.state ≠ stateAndroid ∨ s.vars.phase ≠ acquireNone
  · rw [acquirePreparePhase, wp_bind, wp_getSession, wp_ite, if_pos hbusy]
    exact wp_acquireRefused_lights h
  · obtain ⟨-, hphase⟩ := not_or.1 hbusy
    have henabled : s.vars.Enabled up := h.enabled (by rw [not_not.1 hphase]; decide)
    refine wp_returns (wp_and (wp_framed (framed_acquirePreparePhase status))
      (wp_acquirePreparePhase_bound h.bound)) fun _ t ht => ?_
    obtain ⟨⟨hframe, hgrown⟩, hbound⟩ := ht
    exact ((henabled.congr hframe.displays).resumable hbound).lights
      (unswitched_of_grown (fun c hc => unswitching_of_mild c hc) hgrown)

theorem wp_acquireHdmiLease_lights {phase : UInt32} (h : s.vars.Resumable up) :
    wp (sysHandler env) (acquireHdmiLease phase status) (fun _ t => Lights up s t) s :=
  wp_acquireHdmiLease_cases (fun _ => wp_acquirePreparePhase_lights h)
    (fun _ _ _ => wp_acquireRefused_lights h) fun _ hidx _ hphase =>
      wp_acquireSelected_lights h hidx hphase

/-! ## Releasing -/

/-- The calls since `s` have not touched the updates, and the connector was found connected if it
    was so in all of them. -/
def Queried (display : Display) (s : Sys ω) (connected : Bool) (t : Sys ω) : Prop :=
  ∃ calls, t.log = s.log ++ calls ∧ (∀ up : Updates, up.after calls = up) ∧
    (FoundConnected display calls → connected = true)

theorem FoundConnected.mono {calls calls' : List (Answered Io.Ans)}
    (h : FoundConnected display calls) (hsub : calls' ⊆ calls) : FoundConnected display calls' := by
  obtain ⟨d, hd, hopened, hconn, hall⟩ := h
  exact ⟨d, hd, hopened, hconn, fun a ha => hall a (hsub ha)⟩

variable {connected : Bool}

theorem Queried.before (h : Queried display t connected u) (hs : Unswitched s t) :
    Queried display s connected u := by
  obtain ⟨first, hfirst, hup⟩ := hs
  obtain ⟨calls, hcalls, hup', hconnected⟩ := h
  refine ⟨first ++ calls, by rw [hcalls, hfirst, append_assoc], fun up => ?_, fun hfound => ?_⟩
  · rw [Updates.after_append, hup, hup']
  · exact hconnected (hfound.mono (subset_append_right _ _))

theorem Queried.after (h : Queried display s connected t) (ht : Unswitched t u) :
    Queried display s connected u := by
  obtain ⟨calls, hcalls, hup, hconnected⟩ := h
  obtain ⟨last, hlast, hup'⟩ := ht
  refine ⟨calls ++ last, by rw [hlast, hcalls, append_assoc], fun up => ?_, fun hfound => ?_⟩
  · rw [Updates.after_append, hup, hup']
  · exact hconnected (hfound.mono (subset_append_left _ _))

theorem wp_isLeaseConnected (display : Display) :
    wp (sysHandler env) (isLeaseConnected display) (Queried display s) s := by
  rw [isLeaseConnected]
  cases hdevice : display.leaseDevice with
  | error e =>
    refine ⟨[], by simp, fun _ => rfl, ?_⟩
    rintro ⟨d, hd, -⟩
    rw [hdevice] at hd
    cases hd
  | ok d =>
    simp only [wp_bind, isExternalDisplayLeaseConnected, wp_ite]
    split
    · rename_i hclosed
      refine ⟨[], by simp, fun _ => rfl, ?_⟩
      rintro ⟨d', hd', hopened, hconn, -⟩
      rw [hdevice] at hd'
      cases hd'
      simp [hopened, hconn] at hclosed
    · refine wp_io _ trivial fun a w _ => ?_
      have hfound : FoundConnected display [⟨.getConnector d.connId, a⟩] → a = some true := by
        rintro ⟨d', hd', -, -, hall⟩
        rw [hdevice] at hd'
        cases hd'
        exact hall a mem_cons_self
      cases a with
      | none => exact ⟨_, rfl, fun _ => rfl, fun h => by cases hfound h⟩
      | some connected =>
        refine ⟨_, rfl, fun _ => rfl, fun h => ?_⟩
        cases hfound h
        rfl

theorem wp_releaseLease_connected (phase : UInt32) (display : Display) :
    wp (sysHandler env) (releaseLease phase display)
      (fun r t => Remapped s.vars t.vars ∧ Queried display s r.2 t) s := by
  have hqueried : wp (sysHandler env) (releaseLease phase display)
      (fun r t => Queried display s r.2 t) s := by
    rw [releaseLease, wp_ite]
    split
    · simp only [wp_bind]
      refine wp_returns (wp_mild (onDevice_revokeExternalDisplayLease display)) fun _ t ht => ?_
      refine wp_post (wp_isLeaseConnected display) fun connected u hu => ?_
      refine wp_returns (wp_mild (onDevice_resetExternalDisplayLease display)) fun _ v hv => ?_
      exact (hu.before ht.2).after hv.2
    · simp only [wp_bind]
      refine wp_post (wp_isLeaseConnected display) fun connected t ht => ?_
      refine wp_returns (wp_mild (onDevice_abortExternalDisplayLeasePreparation display))
        fun _ u hu => ?_
      exact ht.after hu.2
  exact wp_returns (wp_and (wp_mild (onDevice_releaseLease phase display)) hqueried)
    fun _ _ h => ⟨h.1.1, h.2⟩

/-- An attempt to let the updates go on disables none, and enables those of the display if it
    succeeds. -/
theorem wp_resumeUpdates (up : Updates) (phase : UInt32) (slot : Slot) :
    wp (sysHandler env) (resumeUpdates phase slot)
      (fun r t => t.vars = s.vars ∧ ∃ calls, t.log = s.log ++ calls ∧
        (∀ i, (up i).enabled = true → (up.after calls i).enabled = true) ∧
        (r = true → (up.after calls slot).enabled = true)) s := by
  rw [resumeUpdates, wp_ite]
  split
  · rw [wp_bind]
    refine wp_io _ trivial fun paused w _ => ?_
    rw [wp_bind]
    refine wp_io _ trivial fun resumed w' _ => ?_
    refine ⟨rfl, [⟨.setDisplayStatus slot .pause, paused⟩, ⟨.setDisplayStatus slot .resume, resumed⟩],
      append_assoc _ _ _, fun i hi => ?_, fun hr => ?_⟩
    · by_cases hslot : slot = i
      · simp [Updates.after, Switch.step, hslot, hi]
      · simp [Updates.after, Switch.step, hslot, hi]
    · simp only [Bool.and_eq_true] at hr
      simp [Updates.after, Switch.step, hr.1, hr.2]
  · refine wp_io _ trivial fun resumed w _ => ?_
    refine ⟨rfl, [⟨.toggleScreenUpdates slot true, resumed⟩], rfl, fun i hi => ?_, fun hr => ?_⟩
    · by_cases hslot : slot = i
      · simp [Updates.after, Switch.step, hslot, hi]
      · simp [Updates.after, Switch.step, hslot, hi]
    · subst hr
      simp [Updates.after, Switch.step]

/-- If the selected display was found connected since `s`, the invariant holds in `t`. -/
def Returns (display : Display) (up : Updates) (s t : Sys ω) : Prop :=
  ∃ calls, t.log = s.log ++ calls ∧ ((acquirePause ≤ s.vars.phase → FoundConnected display calls) →
      t.vars.Resumable (up.after calls))

theorem Session.Enabled.released {s : Session} (h : s.Enabled up) (hbound : s.Bound)
    (ok connected : Bool) : (s.released ok connected).Resumable up := by
  unfold Session.released
  split
  · exact Session.Enabled.resumable (h.congr rfl) (bound_of_none rfl)
  · exact Session.Enabled.resumable (h.congr rfl) hbound

/-- The end of a release keeps the invariant that the assignment of its fields gives. -/
theorem wp_finishRelease_resumable {ok : Bool} (h : (s.vars.released ok connected).Resumable up) :
    wp (sysHandler env) (finishRelease ok connected)
      (fun _ t => t.vars.Resumable up ∧ Unswitched s t) s := by
  rw [finishRelease, wp_bind, wp_update, wp_bind, followRelease]
  cases connected with
  | true =>
    refine wp_returns (wp_quiet_unswitched (only_call rfl)) fun _ t ht => ?_
    refine ⟨?_, ht.2⟩
    rw [ht.1]
    exact h
  | false => exact ⟨h.congr rfl rfl rfl rfl, Unswitched.refl s⟩

theorem Session.selectedDisplay_eq {s : Session} {slot : Slot} {display : Display}
    (h : s.selectedDisplay = some (slot, display)) : s.displayIdx = some slot := by
  unfold Session.selectedDisplay at h
  split at h
  · cases h
  · rename_i i hidx
    split at h
    · obtain ⟨d, -, hd⟩ := Option.map_eq_some_iff.1 h
      cases hd
      exact hidx
    · cases h

/-- The updates of a display that was connected go on, or the release ends in the error stage. -/
theorem Session.Resumable.resumed {up' : Updates} {s : Session} (h : s.Resumable up)
    (hidx : s.displayIdx = some slot) {ok resumed : Bool}
    (hkeep : ∀ i, (up i).enabled = true → (up' i).enabled = true)
    (hresumed : resumed = true → (up' slot).enabled = true) :
    (s.released (ok && resumed) true).Resumable up' := by
  cases resumed with
  | true =>
    refine Session.Enabled.released (fun i hi => ?_) h.bound _ _
    by_contra hne
    have hdark : (up i).enabled = false := by
      by_contra hup
      exact hne (hkeep i (by simpa using hup))
    obtain rfl : i = slot := Option.some.inj ((h.dark i hi hdark).1.symm.trans hidx)
    exact hne (hresumed rfl)
  | false =>
    have herror : s.released (ok && false) true = { s with
        info := {}, state := stateError
        detail := "lease revoked, but synchronized Android resume reported an error" } := by
      simp [Session.released]
    rw [herror]
    refine ⟨h.bound, fun i hi hdark => h.dark i hi ?_⟩
    by_contra hup
    rw [hkeep i (by simpa using hup)] at hdark
    cases hdark

theorem wp_releaseSelected_returns (h : s.vars.Resumable up) (hidx : s.vars.displayIdx = some slot) :
    wp (sysHandler env) (do
      let (ok, connected) ← restoreDisplay s.vars.phase slot display
      finishRelease ok connected) (fun _ t => Returns display up s t) s := by
  simp only [wp_bind, restoreDisplay]
  refine wp_post (wp_releaseLease_connected s.vars.phase display) fun r t ht => ?_
  obtain ⟨ok, connected⟩ := r
  obtain ⟨⟨leases, hvars⟩, calls, hcalls, hup, hconnected⟩ := ht
  have ht : t.vars.Resumable up := by rw [hvars]; exact h.congr rfl rfl rfl rfl
  have hidx' : t.vars.displayIdx = some slot := by rw [hvars]; exact hidx
  simp only [wp_ite, wp_bind, wp_pure]
  split
  · rename_i hpaused
    obtain rfl : connected = true := hpaused.2
    refine wp_post (wp_resumeUpdates up s.vars.phase slot) fun resumed u hu => ?_
    obtain ⟨hvars', calls', hcalls', hkeep, hresumed⟩ := hu
    have hreleased : (u.vars.released (ok && resumed) true).Resumable (up.after calls') := by
      rw [hvars']
      exact ht.resumed hidx' hkeep hresumed
    refine wp_post (wp_finishRelease_resumable hreleased) fun _ v hv => ?_
    obtain ⟨hresumable, last, hlast, hup'⟩ := hv
    refine ⟨calls ++ (calls' ++ last), ?_, fun _ => ?_⟩
    · rw [hlast, hcalls', hcalls]
      simp
    · rw [Updates.after_append, hup, Updates.after_append, hup']
      exact hresumable
  · rename_i hnot
    by_cases hphase : acquirePause ≤ s.vars.phase
    · -- a display that is not connected is left as it is
      refine wp_returns (wp_log_extends _) fun _ u hu => ?_
      obtain ⟨last, hlast⟩ := hu
      refine ⟨calls ++ last, by rw [← hlast, hcalls, append_assoc], fun hfound => ?_⟩
      exact absurd ⟨hphase, hconnected ((hfound hphase).mono (subset_append_left _ _))⟩ hnot
    · have henabled : t.vars.Enabled up := by
        refine ht.enabled ?_
        rw [hvars]
        constructor
        · intro hpause
          exact hphase (by rw [hpause]; decide)
        · intro hcreate
          exact hphase (by rw [hcreate]; decide)
      refine wp_post (wp_finishRelease_resumable (henabled.released ht.bound ok connected))
        fun _ u hu => ?_
      obtain ⟨hresumable, last, hlast, hup'⟩ := hu
      refine ⟨calls ++ last, by rw [hlast, hcalls, append_assoc], fun _ => ?_⟩
      rw [Updates.after_append, hup, hup']
      exact hresumable

/-- `ReleaseHdmiLease` keeps the invariant if the display is connected. -/
theorem wp_releaseHdmiLease_resumable (reason : String) (h : s.vars.Resumable up) :
    wp (sysHandler env) (releaseHdmiLease reason) (fun _ t => ∃ calls, t.log = s.log ++ calls ∧
        ((acquirePause ≤ s.vars.phase → ∀ slot display,
            s.vars.selectedDisplay = some (slot, display) → FoundConnected display calls) →
          t.vars.Resumable (up.after calls))) s := by
  rw [releaseHdmiLease, wp_bind, wp_getSession, wp_ite]
  split
  · exact ⟨[], by simp, fun _ => h⟩
  · rw [wp_bind, wp_update]
    cases hselected : s.vars.selectedDisplay with
    | none =>
      -- a display whose updates are disabled would be selected
      have henabled : s.vars.Enabled up := by
        intro i hi
        by_contra hne
        obtain ⟨hidx, -⟩ := h.dark i hi (by simpa using hne)
        obtain ⟨display, hdisplay⟩ := Option.isSome_iff_exists.1 hi
        simp [Session.selectedDisplay, hidx, h.bound i hidx, hdisplay] at hselected
      refine wp_post (wp_finishRelease_resumable
        (Session.Enabled.released (henabled.congr rfl) h.bound true false)) fun _ t ht => ?_
      obtain ⟨hresumable, calls, hcalls, hup⟩ := ht
      exact ⟨calls, hcalls, fun _ => by rw [hup]; exact hresumable⟩
    | some x =>
      obtain ⟨slot, display⟩ := x
      refine wp_post (wp_releaseSelected_returns
        (s := { s with vars := { s.vars with state := stateRestoring, detail := reason } })
        (h.congr rfl rfl rfl rfl) (Session.selectedDisplay_eq hselected)) fun _ t ht => ?_
      obtain ⟨calls, hcalls, hresumable⟩ := ht
      exact ⟨calls, hcalls, fun hfound =>
        hresumable fun hphase => hfound hphase slot display rfl⟩

/-! ## Events -/

theorem Session.Resumable.destroy {s : Session} (h : s.Resumable up) (slot : Slot) :
    ({ s with displays := Function.update s.displays slot none } : Session).Resumable up := by
  refine ⟨h.bound, fun i hi hdark => h.dark i ?_ hdark⟩
  change (Function.update s.displays slot none i).isSome = true at hi
  by_cases hslot : i = slot
  · subst hslot
    rw [Function.update_self] at hi
    cases hi
  · rwa [Function.update_of_ne hslot] at hi

theorem Session.Resumable.attach {s : Session} (h : s.Resumable up) (slot : Slot)
    (display : Display) :
    ({ s with displays := Function.update s.displays slot (some display) } : Session).Resumable
      (Function.update up slot {}) := by
  refine ⟨h.bound, fun i hi hdark => ?_⟩
  change (Function.update s.displays slot (some display) i).isSome = true at hi
  by_cases hslot : i = slot
  · subst hslot
    rw [Function.update_self] at hdark
    cases hdark
  · rw [Function.update_of_ne hslot] at hi hdark
    exact h.dark i hi hdark

/-- One event that restores what it has to keeps the invariant. -/
theorem wp_event_resumable (e : Event) (h : s.vars.Resumable up) :
    wp (sysHandler env) e.prog (fun _ t => Restores s e t →
      t.vars.Resumable (e.updates up (t.log.drop s.log.length))) s := by
  cases e with
  | acquire phase response =>
    simp only [Event.prog, wp_bind]
    refine wp_post (wp_acquireHdmiLease_lights h) fun _ t ht hrestores => ?_
    obtain ⟨calls, hcalls, hresumable⟩ := ht
    simp only [Restores, hcalls, drop_left] at hrestores
    rw [hcalls, drop_left]
    exact hresumable hrestores
  | release reason =>
    refine wp_post (wp_releaseHdmiLease_resumable reason h) fun _ t ht hrestores => ?_
    obtain ⟨calls, hcalls, hresumable⟩ := ht
    simp only [Restores, hcalls, drop_left] at hrestores
    rw [hcalls, drop_left]
    exact hresumable hrestores
  | status =>
    simp only [Event.prog, wp_bind]
    refine wp_returns (wp_quiet_unswitched (only_getHdmiLeaseStatus {})) fun _ t ht _ => ?_
    obtain ⟨hvars, calls, hcalls, hup⟩ := ht
    show t.vars.Resumable (up.after (t.log.drop s.log.length))
    rw [hcalls, drop_left, hup, hvars]
    exact h
  | mapPluggable slots =>
    intro _
    show Session.Resumable (up.after (s.log.drop s.log.length)) _
    rw [drop_length]
    exact h.congr rfl rfl rfl rfl
  | attach slot display =>
    intro _
    show Session.Resumable (Function.update (up.after (s.log.drop s.log.length)) slot {}) _
    rw [drop_length]
    exact h.attach slot display
  | destroy slot =>
    simp only [Event.prog, destroyDisplay, wp_bind, wp_getSession]
    refine wp_returns (wp_mild (onDevice_deinitDisplay _)) fun _ t ht _ => ?_
    obtain ⟨⟨leases, hvars⟩, calls, hcalls, hup⟩ := ht
    have ht : t.vars.Resumable up := by rw [hvars]; exact h.congr rfl rfl rfl rfl
    show Session.Resumable (up.after (t.log.drop s.log.length)) _
    rw [hcalls, drop_left, hup]
    exact ht.destroy slot

/-! ## Runs -/

theorem resumable_of_watched (h : Watched env Restores up s) :
    Inv True s.vars ∧ s.vars.Distinct ∧ s.vars.Resumable up := by
  induction h with
  | start hs _ =>
    refine ⟨.inl ⟨hs.state, hs.phase, hs.displayIdx, hs.info, hs.noLease⟩, hs.distinct, ?_⟩
    exact Session.Enabled.resumable (fun _ _ => rfl) (bound_of_none hs.displayIdx)
  | step _ possible run kept ih =>
    obtain ⟨hinv, hdistinct, hresumable⟩ := ih
    have hmoved := moved_of_run hinv hdistinct possible (fun _ _ _ => trivial) run
    exact ⟨hmoved.inv, hmoved.distinct, wp_returned (wp_event_resumable _ hresumable) run kept⟩

/-- Whenever the session says that Android has the display, the updates of all displays are enabled,
    if every takeover so far that was given up could let them go on and every display was connected
    when it was released. -/
theorem android_drives_display (h : Watched env Restores up s) (hs : s.vars.state = stateAndroid)
    (slot : Slot) (hslot : (s.vars.displays slot).isSome = true) : (up slot).enabled = true := by
  obtain ⟨hinv, -, hresumable⟩ := resumable_of_watched h
  obtain ⟨-, hphase, -⟩ := hinv.android hs
  exact hresumable.enabled (by rw [hphase]; decide) slot hslot

/-- What an event has to restore, as a check on the bench: every attempt to let updates go on
    succeeds, and the connector is always found connected. -/
def restoresCheck (s : Sys BenchWorld) (e : Event) (t : Sys BenchWorld) : Bool :=
  (t.log.drop s.log.length).all (fun x => match x with
    | ⟨.toggleScreenUpdates _ true, ok⟩ => ok
    | ⟨.getConnector _, a⟩ => a == some true
    | _ => true) &&
  match e with
  | .release _ => s.vars.selectedDisplay.all fun x =>
      match x.2.leaseDevice with
      | .ok d => d.opened && d.connId != 0
      | .error _ => false
  | _ => true

theorem restores_of_check (s : Sys BenchWorld) (e : Event) (t : Sys BenchWorld)
    (h : restoresCheck s e t = true) : Restores s e t := by
  simp only [restoresCheck, Bool.and_eq_true, all_eq_true] at h
  obtain ⟨hcalls, he⟩ := h
  cases e with
  | acquire phase response =>
    intro slot hmem
    cases hcalls _ hmem
  | release reason =>
    intro _ slot display hselected
    rw [hselected] at he
    simp only [Option.all_some] at he
    cases hdevice : display.leaseDevice with
    | error e =>
      rw [hdevice] at he
      cases he
    | ok d =>
      rw [hdevice] at he
      simp only [Bool.and_eq_true, bne_iff_ne] at he
      exact ⟨d, hdevice, he.1, he.2, fun a ha => by simpa using hcalls _ ha⟩
  | _ => trivial

/-- A trace with its updates, and the state it leads to. -/
abbrev watchedTrace := benchTrace
  (fun (up : Updates) s e t => e.updates up (t.log.drop s.log.length)) fun _ => {}

/-- A trace with its updates leads to a state with whatever is evaluated of it. -/
theorem exists_watched (env : Env BenchWorld)
    {check : Sys BenchWorld → Event → Sys BenchWorld → Bool}
    {P : Sys BenchWorld → Event → Sys BenchWorld → Prop}
    (hcheck : ∀ s e t, check s e t = true → P s e t) (events : List Event)
    (hevents : ∀ e ∈ events, e.attaches = false) (f : Updates → Sys BenchWorld → Bool)
    (h : (watchedTrace env check events).any (fun x => f x.1 x.2) = true) :
    ∃ up s, Watched env P up s ∧ f up s = true := by
  obtain ⟨⟨up, s⟩, hx, hf⟩ := (Option.any_eq_true _ _).1 h
  exact ⟨up, s, holds_benchTrace (.start benchStart_initial rfl) (fun hwatched hpossible ht hc =>
    hwatched.step hpossible ht (hcheck _ _ _ hc)) hevents hx, hf⟩

/-- On the bench a lease is created and released, and the display is Android's again. -/
theorem android_drives_display_bench :
    ∃ up s, Watched (benchEnv .revoked false) Restores up s ∧ s.vars.state = stateAndroid ∧
      (s.vars.displays 1).isSome = true ∧ deals s.log = [.created 5 9, .revoked 5 9] ∧
      (up 1).enabled = true := by
  obtain ⟨up, s, hwatched, hf⟩ := exists_watched (benchEnv .revoked false) restores_of_check
    (.release "" :: takeoverEvents) (by decide)
    (fun _ s => s.vars.state == stateAndroid && (s.vars.displays 1).isSome &&
      deals s.log == [.created 5 9, .revoked 5 9])
    (by decide +kernel)
  simp only [Bool.and_eq_true, beq_iff_eq] at hf
  obtain ⟨⟨hs, hslot⟩, hdeals⟩ := hf
  exact ⟨up, s, hwatched, hs, hslot, hdeals, android_drives_display hwatched hs 1 hslot⟩

/-- The kernel creates no lease, and the updates cannot go on. -/
def stuckEnv : Env BenchWorld
  | .createLease _ _, w => some (none, w)
  | .toggleScreenUpdates slot on, w =>
    if on then some (false, w) else benchEnv .revoked false (.toggleScreenUpdates slot on) w
  | c, w => benchEnv .revoked false c w

/-- A takeover that fails does not look whether the updates go on, and a release of a display that
    is disconnected does not let them go on. In both cases the session says that Android has the
    display. -/
theorem android_leaves_display_paused :
    (∃ up s, Watched stuckEnv (fun _ _ _ => True) up s ∧ s.vars.state = stateAndroid ∧
      (s.vars.displays 1).isSome = true ∧ (up 1).enabled = false) ∧
    ∃ up s, Watched (benchEnv .revoked true) (fun _ _ _ => True) up s ∧
      s.vars.state = stateAndroid ∧ (s.vars.displays 1).isSome = true ∧ (up 1).enabled = false := by
  have hpaused : ∀ (env : Env BenchWorld) (events : List Event),
      (∀ e ∈ events, e.attaches = false) →
      (watchedTrace env (fun _ _ _ => true) events).any (fun x =>
        x.2.vars.state == stateAndroid && (x.2.vars.displays 1).isSome && !(x.1 1).enabled) = true →
      ∃ up s, Watched env (fun _ _ _ => True) up s ∧ s.vars.state = stateAndroid ∧
        (s.vars.displays 1).isSome = true ∧ (up 1).enabled = false := by
    intro env events hevents h
    obtain ⟨up, s, hwatched, hf⟩ := exists_watched env (P := fun _ _ _ => True)
      (fun _ _ _ _ => trivial) events hevents (fun up s => s.vars.state == stateAndroid &&
        (s.vars.displays 1).isSome && !(up 1).enabled) h
    simp only [Bool.and_eq_true, beq_iff_eq, Bool.not_eq_true'] at hf
    exact ⟨up, s, hwatched, hf.1.1, hf.1.2, hf.2⟩
  exact ⟨hpaused stuckEnv takeoverEvents (by decide) (by decide +kernel),
    hpaused (benchEnv .revoked true) (.release "" :: takeoverEvents) (by decide)
      (by decide +kernel)⟩

end HdmiLos.Composer
