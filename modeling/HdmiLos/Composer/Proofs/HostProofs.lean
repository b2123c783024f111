import HdmiLos.Composer.Watchdog
import HdmiLos.Composer.Proofs.TakeoverProofs

/-!
# The session as the server sees it

Other threads can end a takeover but not begin one. From the results of its own calls the server
therefore knows which phase a takeover has reached, if it is still under way.
-/

namespace HdmiLos.Composer

open Interaction Prog

variable {ω : Type} {env : Env ω} {s t : Sys ω}

/-! ## Other threads -/

/-- The invariant of the session. The selected display can be gone. -/
def Session.Sound (s : Session) : Prop :=
  Inv True s ∧ s.Distinct

/-- A takeover that is under way is the same as before. -/
def Session.Falls (s t : Session) : Prop :=
  t.Busy → t.state = s.state ∧ t.phase = s.phase

theorem Session.Falls.refl (s : Session) : s.Falls s := fun _ => ⟨rfl, rfl⟩

theorem Session.Falls.busy {s t : Session} (h : s.Falls t) (ht : t.Busy) : s.Busy := by
  unfold Session.Busy at ht ⊢
  rwa [← (h ht).1]

theorem Session.Falls.trans {s t u : Session} (h : s.Falls t) (h' : t.Falls u) : s.Falls u := by
  intro hu
  obtain ⟨hstate, hphase⟩ := h' hu
  obtain ⟨hstate', hphase'⟩ := h (h'.busy hu)
  exact ⟨hstate.trans hstate', hphase.trans hphase'⟩

theorem Session.Falls.of_idle {s t : Session} (h : ¬t.Busy) : s.Falls t :=
  fun ht => absurd ht h

theorem not_busy_of_released {s : Session} (h : s.state = stateAndroid ∨ s.state = stateError) :
    ¬s.Busy := by
  unfold Session.Busy
  rcases h with h | h
  · rw [h]
    decide
  · rw [h]
    decide

variable {r : Int}

theorem Session.Sound.event {e : Event} (h : s.vars.Sound) (hpossible : e.Possible s.vars)
    (hrun : e.prog.run (sysHandler env) s = (some r, t)) :
    t.vars.Sound ∧ Moved True e s.vars r t.vars := by
  have hmoved := moved_of_run h.1 h.2 hpossible (fun _ _ _ => trivial) hrun
  exact ⟨⟨hmoved.inv, hmoved.distinct⟩, hmoved⟩

theorem Session.Sound.otherStep (h : s.vars.Sound) (hstep : OtherStep env s t) :
    t.vars.Sound ∧ s.vars.Falls t.vars := by
  obtain ⟨e, r, hacquire, hpossible, hrun⟩ := hstep
  obtain ⟨hsound, hmoved⟩ := h.event hpossible hrun
  refine ⟨hsound, ?_⟩
  cases hrelease : e.isRelease with
  | true => exact .of_idle (not_busy_of_released (hmoved.release hrelease))
  | false => exact fun _ => hmoved.other hacquire hrelease

/-- Other threads keep the session sound. -/
theorem Session.Sound.others (h : s.vars.Sound) (hothers : Others env s t) :
    t.vars.Sound ∧ s.vars.Falls t.vars := by
  induction hothers with
  | refl => exact ⟨h, .refl _⟩
  | tail _ hstep ih =>
    obtain ⟨hsound, hfalls⟩ := ih
    obtain ⟨hsound', hfalls'⟩ := hsound.otherStep hstep
    exact ⟨hsound', hfalls.trans hfalls'⟩

/-! ## The functions of the session -/

theorem vars_of_inert {α : Type} {p : SessionProg α} {a : α} (hp : p.Uses Inert)
    (hrun : p.run (sysHandler env) s = (some a, t)) : t.vars = s.vars :=
  (wp_returned (wp_inert hp) hrun).1

theorem only_processPendingHdmiHotplug : processPendingHdmiHotplug.Uses (Only Io.quiet) :=
  uses_bind only_getSession fun _ => uses_ite (only_call rfl) trivial

theorem Session.Sound.acquire {phase : UInt32} {response : Message} {a : Acquired}
    (h : s.vars.Sound) (hrun : (acquireHdmiLease phase response).run (sysHandler env) s =
      (some a, t)) :
    t.vars.Sound ∧ Advance phase s.vars a.result t.vars := by
  have hprog : (Event.acquire phase response).prog.run (sysHandler env) s = (some a.result, t) := by
    simp only [Event.prog, run_bind, hrun]
    rfl
  obtain ⟨hsound, hmoved⟩ := h.event (e := .acquire phase response) trivial hprog
  exact ⟨hsound, hmoved.acquire phase response rfl⟩

theorem Session.Sound.release {reason : String} (h : s.vars.Sound)
    (hrun : (releaseHdmiLease reason).run (sysHandler env) s = (some r, t)) :
    t.vars.Sound ∧ ¬t.vars.Busy := by
  obtain ⟨hsound, hmoved⟩ := h.event (e := .release reason) trivial hrun
  exact ⟨hsound, not_busy_of_released (hmoved.release rfl)⟩

/-! ## The calls of the server -/

variable {host : Host env} {w w' : host.World}

/-- The calls that do not touch the stage of a takeover. -/
def ServerCall.tame : ServerCall → Bool
  | acquire _ _ => false
  | release _ => false
  | _ => true

theorem ServerCall.inert_of_tame {c : ServerCall} {p : SessionProg c.Ans} (hc : c.tame = true)
    (hcontroller : c.controller = some p) : p.Uses Inert := by
  cases c with
  | status response =>
    cases hcontroller
    exact inert_of_quiet (only_getHdmiLeaseStatus response)
  | processPendingHotplug =>
    cases hcontroller
    exact inert_of_quiet only_processPendingHdmiHotplug
  | acquire phase response => cases hc
  | release reason => cases hc
  | _ => cases hcontroller

theorem Host.tame_falls {c : ServerCall} {a : c.Ans} (hc : c.tame = true)
    (hw : host.answer c w = some (a, w')) (h : (host.session w).vars.Sound) :
    (host.session w').vars.Sound ∧ (host.session w).vars.Falls (host.session w').vars := by
  cases hcontroller : c.controller with
  | none => exact h.others (host.outside c w a w' hcontroller hw)
  | some p =>
    obtain ⟨u, v, hu, hrun, hv⟩ := host.inside c p w a w' hcontroller hw
    have hvars := vars_of_inert (ServerCall.inert_of_tame hc hcontroller) hrun
    obtain ⟨hsound, hfalls⟩ := h.others hu
    rw [← hvars] at hsound hfalls
    obtain ⟨hsound', hfalls'⟩ := hsound.others hv
    exact ⟨hsound', hfalls.trans hfalls'⟩

theorem Host.release_idle {reason : String} (hw : host.answer (.release reason) w = some (r, w'))
    (h : (host.session w).vars.Sound) :
    (host.session w').vars.Sound ∧ ¬(host.session w').vars.Busy := by
  obtain ⟨u, v, hu, hrun, hv⟩ := host.inside (.release reason) _ w r w' rfl hw
  obtain ⟨hsound, hidle⟩ := (h.others hu).1.release hrun
  obtain ⟨hsound', hfalls⟩ := hsound.others hv
  exact ⟨hsound', fun hbusy => hidle (hfalls.busy hbusy)⟩

/-- The phase that a takeover must have reached before `phase` is acquired. -/
def NextPhase (stage phase : UInt32) : Prop :=
  phase = acquirePrepare ∨ (phase = acquirePause ∧ stage = acquirePrepare) ∨
    (phase = acquireCreate ∧ stage = acquirePause)

/-- What the server knows after an acquire: it has succeeded in order and the takeover has reached
    its phase unless it has ended, or it has failed and began nothing. -/
theorem Host.acquire_advances {phase : UInt32} {response : Message} {a : Acquired} {stage : UInt32}
    (hw : host.answer (.acquire phase response) w = some (a, w'))
    (h : (host.session w).vars.Sound)
    (hstage : (host.session w).vars.Busy → (host.session w).vars.phase = stage) :
    (host.session w').vars.Sound ∧ (a.result = statusOk → NextPhase stage phase ∧
        ((host.session w').vars.Busy → (host.session w').vars.phase = phase)) ∧
      (a.result ≠ statusOk →
        (host.session w').vars.Busy → (host.session w').vars.phase = stage) := by
  obtain ⟨u, v, hu, hrun, hv⟩ := host.inside (.acquire phase response) _ w a w' rfl hw
  obtain ⟨hsound, hfalls⟩ := h.others hu
  obtain ⟨hsound', hadvance⟩ := hsound.acquire hrun
  obtain ⟨hsound'', hfalls'⟩ := hsound'.others hv
  have hstage' : u.vars.Busy → u.vars.phase = stage := fun hbusy =>
    (hfalls hbusy).2.trans (hstage (hfalls.busy hbusy))
  refine ⟨hsound'', fun hok => ?_, fun hfail hbusy => ?_⟩
  · rcases hadvance with ⟨-, hfollows⟩ | ⟨hne, -⟩
    · rcases hfollows with ⟨rfl, -, -, hp⟩ | ⟨rfl, hs, hsp, -, hp⟩ | ⟨rfl, hs, hsp, -, hp⟩
      · exact ⟨.inl rfl, fun hbusy => (hfalls' hbusy).2.trans hp⟩
      · exact ⟨.inr (.inl ⟨rfl, (hstage' (.inl hs)).symm.trans hsp⟩),
          fun hbusy => (hfalls' hbusy).2.trans hp⟩
      · exact ⟨.inr (.inr ⟨rfl, (hstage' (.inl hs)).symm.trans hsp⟩),
          fun hbusy => (hfalls' hbusy).2.trans hp⟩
    · exact absurd hok hne
  · rcases hadvance with ⟨hok, -⟩ | ⟨-, ⟨hstate, hphase⟩ | ⟨-, hstate⟩⟩
    · exact absurd hok hfail
    · have hv_busy := hfalls'.busy hbusy
      have hu_busy : u.vars.Busy := by
        unfold Session.Busy at hv_busy ⊢
        rwa [← hstate]
      exact (hfalls' hbusy).2.trans (hphase.trans (hstage' hu_busy))
    · exact absurd (hfalls'.busy hbusy) (not_busy_of_released (.inl hstate))

end HdmiLos.Composer
