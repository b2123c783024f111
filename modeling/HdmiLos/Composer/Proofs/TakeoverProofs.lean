import HdmiLos.Composer.Proofs.ReleaseProofs
import HdmiLos.Composer.Bench

/-!
# Runs of the takeover

What one event does to the session, and from it what holds after every run: the four stages, the
order of the phases, and the leases that are still held by the kernel.
-/

namespace HdmiLos.Composer

open Interaction Prog List

variable {ω : Type} {env : Env ω} {H : Sys ω → Prop} {s t u : Sys ω} {gone : Prop}

/-! ## Displays that come and go -/

theorem Display.leaseDevice_ok {display : Display} {d : Device}
    (h : display.leaseDevice = .ok d) : display.device = some d := by
  unfold Display.leaseDevice at h
  split at h
  · split at h
    · rename_i d' hd
      rw [hd, Except.ok.inj h]
    · cases h
  · cases h

variable {slot : Slot}

theorem Session.OnlyLease.update {s : Session} {e : LeaseState} (h : s.OnlyLease e)
    (hslot : s.displayIdx ≠ some slot) (display : Option Display) :
    ({ s with displays := Function.update s.displays slot display } : Session).OnlyLease e := by
  obtain ⟨slot', display', d, hidx, hlt, hdisplay, h⟩ := h
  refine ⟨slot', display', d, hidx, hlt, ?_, h⟩
  have hne : slot' ≠ slot := by
    rintro rfl
    exact hslot hidx
  show Function.update s.displays slot display slot' = _
  rw [Function.update_of_ne hne, hdisplay]

theorem Inv.cases_lease {s : Session} (h : Inv gone s) : s.NoLease ∨ ∃ e, s.OnlyLease e := by
  rcases h with ⟨-, -, -, -, hno⟩ | ⟨-, -, -, ⟨e, he, -⟩ | ⟨-, hno⟩⟩ |
    ⟨-, -, -, ⟨e, he, -⟩ | ⟨-, hno⟩⟩ | ⟨-, -, -, hno⟩
  · exact .inl hno
  · exact .inr ⟨e, he⟩
  · exact .inl hno
  · exact .inr ⟨e, he⟩
  · exact .inl hno
  · exact .inl hno

/-- The invariant survives a change of the displays that keeps the entry of the selected one. -/
theorem Inv.displays {s : Session} (h : Inv gone s) (displays : Slot → Option Display)
    (hkeep : ∀ e, s.OnlyLease e → ({ s with displays := displays } : Session).OnlyLease e) :
    Inv gone { s with displays := displays } := by
  rcases h with h | ⟨hs, hphase, hidx, h⟩ | ⟨hs, hphase, hidx, h⟩ | h
  · exact .inl h
  · refine .inr (.inl ⟨hs, hphase, hidx, ?_⟩)
    rcases h with ⟨e, he, h⟩ | h
    · exact .inl ⟨e, hkeep e he, h⟩
    · exact .inr h
  · refine .inr (.inr (.inl ⟨hs, hphase, hidx, ?_⟩))
    rcases h with ⟨e, he, h⟩ | h
    · exact .inl ⟨e, hkeep e he, h⟩
    · exact .inr h
  · exact .inr (.inr (.inr h))

/-- The invariant survives the loss of the entry if the selected display can be gone. -/
theorem Inv.lost {s s' : Session} (h : Inv gone s) (hgone : gone) (hno : s'.NoLease)
    (hstate : s'.state = s.state) (hphase : s'.phase = s.phase)
    (hidx : s'.displayIdx = s.displayIdx) (hinfo : s'.info = s.info) : Inv gone s' := by
  unfold Inv Stage.Holds Session.Prepared Session.Active
  rw [hstate, hphase, hidx, hinfo]
  rcases h with ⟨h₁, h₂, h₃, h₄, -⟩ | ⟨h₁, h₂, h₃, -⟩ | ⟨h₁, h₂, h₃, -⟩ | ⟨h₁, h₂, h₃, -⟩
  · exact .inl ⟨h₁, h₂, h₃, h₄, hno⟩
  · exact .inr (.inl ⟨h₁, h₂, h₃, .inr ⟨hgone, hno⟩⟩)
  · exact .inr (.inr (.inl ⟨h₁, h₂, h₃, .inr ⟨hgone, hno⟩⟩))
  · exact .inr (.inr (.inr ⟨h₁, h₂, h₃, hno⟩))

theorem hasDevice_update {s : Session} {i : Slot} {display : Option Display} {d : Device}
    (h : ({ s with displays := Function.update s.displays slot display } : Session).HasDevice i d) :
    (i = slot ∧ display.bind Display.device = some d) ∨ s.HasDevice i d := by
  change (Function.update s.displays slot display i).bind Display.device = some d at h
  by_cases hslot : i = slot
  · rw [hslot, Function.update_self] at h
    exact .inl ⟨hslot, h⟩
  · rw [Function.update_of_ne hslot] at h
    exact .inr h

theorem Session.Distinct.remove {s : Session} (h : s.Distinct) (slot : Slot) :
    ({ s with displays := Function.update s.displays slot none } : Session).Distinct := by
  intro i j d d' hi hj
  rcases hasDevice_update hi with ⟨-, hd⟩ | hi
  · cases hd
  · rcases hasDevice_update hj with ⟨-, hd⟩ | hj
    · cases hd
    · exact h i j d d' hi hj

theorem Session.Distinct.attach {s : Session} (h : s.Distinct) {display : Display}
    (hnew : ∀ other d d', s.HasDevice other d → display.device = some d' → d.id ≠ d'.id) :
    ({ s with displays := Function.update s.displays slot (some display) } : Session).Distinct := by
  intro i j d d' hi hj hid
  rcases hasDevice_update hi with ⟨hi, hd⟩ | hi
  · rcases hasDevice_update hj with ⟨hj, -⟩ | hj
    · rw [hi, hj]
    · exact absurd hid.symm (hnew j d' d hj hd)
  · rcases hasDevice_update hj with ⟨-, hd'⟩ | hj
    · exact absurd hid (hnew i d d' hi hd')
    · exact h i j d d' hi hj hid

/-- The session after the end of a display. -/
structure Removed (gone : Prop) (s t : Sys ω) : Prop where
  inv : Inv gone t.vars
  distinct : t.vars.Distinct
  account : Account t ∨ Forgot s t
  state : t.vars.state = s.vars.state
  phase : t.vars.phase = s.vars.phase

theorem removed_of_same (hinv : Inv gone s.vars) (hdistinct : s.vars.Distinct)
    (haccount : Account s) (hslot : ∀ e, s.vars.OnlyLease e → s.vars.displayIdx ≠ some slot) :
    Removed gone s
      { s with vars := { s.vars with displays := Function.update s.vars.displays slot none } } :=
  ⟨hinv.displays _ fun e he => he.update (hslot e he) none, hdistinct.remove slot, .inl haccount,
    rfl, rfl⟩

theorem wp_destroyDisplay (hinv : Inv gone s.vars) (hdistinct : s.vars.Distinct)
    (haccount : Account s) (hgone : s.vars.displayIdx = some slot → gone) :
    wp (sysHandler env) (destroyDisplay slot) (fun _ t => Removed gone s t) s (Safe s) := by
  rw [destroyDisplay, wp_bind, wp_getSession, wp_bind, deinitDisplay]
  cases hdevice : (s.vars.displays slot).bind Display.device with
  | none =>
    refine removed_of_same hinv hdistinct haccount fun e he hidx => ?_
    obtain ⟨slot', display, d, hidx', -, hdisplay, hd, -⟩ := he
    obtain rfl : slot' = slot := Option.some.inj (hidx'.symm.trans hidx)
    rw [hdisplay, Option.bind_some, Display.leaseDevice_ok hd] at hdevice
    cases hdevice
  | some d =>
    simp only [wp_bind]
    cases he : s.vars.leases d.id with
    | none =>
      refine wp_deinitDevice_none he fun _ => removed_of_same hinv hdistinct haccount ?_
      intro e honly hidx
      obtain ⟨slot', display, d', hidx', -, hdisplay, hd', -, he', -⟩ := honly
      obtain rfl : slot' = slot := Option.some.inj (hidx'.symm.trans hidx)
      rw [hdisplay, Option.bind_some, Display.leaseDevice_ok hd'] at hdevice
      rw [Option.some.inj hdevice, he] at he'
      cases he'
    | some e =>
      -- the entry is that of the selected display
      rcases hinv.cases_lease with hno | ⟨e', slot', display, d', hidx, -, hdisplay, hd',
        htv, he', hother⟩
      · rw [hno d.id] at he
        cases he
      · have hid : d.id = d'.id := by
          by_contra hne
          rw [hother d.id hne] at he
          cases he
        have hhas : s.vars.HasDevice slot' d' := by
          unfold Session.HasDevice
          rw [hdisplay, Option.bind_some, Display.leaseDevice_ok hd']
        obtain rfl := hdistinct slot slot' d d' hdevice hhas hid
        obtain rfl : d = d' := Option.some.inj (hdevice.symm.trans hhas)
        have hstate : s.vars.state ≠ stateAndroid := fun hs => by
          rw [(hinv.android hs).2.2.2.2 d.id] at he
          cases he
        refine wp_mono (wp_deinitDevice_entry haccount htv he hother) (fun _ t ht => ?_)
          fun t ht => ht.safe hstate rfl
        obtain ⟨hno, ⟨leases, hvars⟩, hend⟩ := ht
        simp only [wp_pure, wp_update]
        refine ⟨?_, ?_, hend.imp_left Clear.account, by rw [hvars], by rw [hvars]⟩
        · exact hinv.lost (hgone hidx) hno (by rw [hvars]) (by rw [hvars]) (by rw [hvars])
            (by rw [hvars])
        · rw [hvars]
          exact hdistinct.remove slot

/-! ## Events -/

theorem only_activeAttributes (slot : Slot) : (activeAttributes slot).Uses (Only Io.quiet) := by
  refine uses_bind (only_call rfl) fun a => ?_
  cases a with
  | none => trivial
  | some config =>
    refine uses_bind (only_call rfl) fun a => ?_
    cases a with
    | none => trivial
    | some a => exact uses_ite trivial trivial

theorem only_getHdmiLeaseStatus (status : Message) :
    (getHdmiLeaseStatus status).Uses (Only Io.quiet) := by
  refine uses_bind only_getSession fun s => ?_
  dsimp only
  cases s.reportedDisplay with
  | none => trivial
  | some x =>
    obtain ⟨slot, display⟩ := x
    refine uses_bind (only_isLeaseConnected display) fun _ => ?_
    refine uses_bind (only_isLeaseReady slot) fun _ => ?_
    refine uses_bind (only_activeAttributes slot) fun a => ?_
    cases a <;> trivial

/-- What an event does to the stage. -/
structure Moved (gone : Prop) (e : Event) (s : Session) (r : Int) (t : Session) : Prop where
  inv : Inv gone t
  distinct : t.Distinct
  acquire : ∀ phase response, e = .acquire phase response → Advance phase s r t
  release : e.isRelease = true → t.state = stateAndroid ∨ t.state = stateError
  other : (∀ phase response, e ≠ .acquire phase response) → e.isRelease = false →
    t.state = s.state ∧ t.phase = s.phase

variable {e : Event} {r : Int}

theorem moved_of_other {s t : Session} (hinv : Inv gone t) (hdistinct : t.Distinct)
    (hacquire : ∀ phase response, e ≠ .acquire phase response) (hrelease : e.isRelease = false)
    (hstate : t.state = s.state) (hphase : t.phase = s.phase) : Moved gone e s r t :=
  ⟨hinv, hdistinct, fun phase response h => absurd h (hacquire phase response),
    fun h => absurd (hrelease.symm.trans h) (by decide), fun _ _ => ⟨hstate, hphase⟩⟩

variable (env) in
/-- One event keeps the invariant, and the account unless it forgets a lease. -/
theorem wp_event (hinv : Inv gone s.vars) (hdistinct : s.vars.Distinct)
    (haccount : Account s) (hpossible : e.Possible s.vars)
    (hgone : ∀ slot, e = .destroy slot → s.vars.displayIdx = some slot → gone) :
    wp (sysHandler env) e.prog
      (fun r t => Moved gone e s.vars r t.vars ∧ (Account t ∨ Forgot s t)) s (Safe s) := by
  cases e with
  | acquire phase response =>
    simp only [Event.prog, wp_bind]
    refine wp_mono (wp_acquireHdmiLease hinv haccount) (fun r t ht => ⟨⟨ht.inv, ?_, ?_, ?_, ?_⟩,
      .inl ht.account⟩) fun t ht => ⟨ht.1, .inl ht.2.account⟩
    · intro i j d d' hi hj
      unfold Session.HasDevice at hi hj
      rw [ht.displays] at hi hj
      exact hdistinct i j d d' hi hj
    · intro phase' response' h
      cases h
      exact ht.advance
    · intro h
      cases h
    · intro h
      exact absurd rfl (h phase response)
  | release reason =>
    refine wp_post (wp_releaseHdmiLease reason hinv haccount) fun r t ht =>
      ⟨⟨?_, ?_, ?_, ?_, ?_⟩, ht.account⟩
    · exact ht.stage.elim .inl fun h => .inr (.inr (.inr h))
    · intro i j d d' hi hj
      unfold Session.HasDevice at hi hj
      rw [ht.displays] at hi hj
      exact hdistinct i j d d' hi hj
    · intro phase response h
      cases h
    · exact fun _ => ht.stage.imp (fun h => h.1) fun h => h.1
    · intro _ h
      cases h
  | status =>
    refine wp_quiet_bind (only_getHdmiLeaseStatus {})
      (fun t ht => ⟨fun hs => ?_, .inl (haccount.same ht)⟩) fun _ t ht => ?_
    · rw [ht.1] at hs ⊢
      exact (hinv.android hs).2.2.2.2
    · refine ⟨?_, .inl (haccount.same ht)⟩
      rw [ht.1]
      exact moved_of_other hinv hdistinct (by simp) rfl rfl rfl
  | mapPluggable slots =>
    exact ⟨moved_of_other hinv hdistinct (by simp) rfl rfl rfl, .inl haccount⟩
  | attach slot display =>
    have hslot : ∀ e, s.vars.OnlyLease e → s.vars.displayIdx ≠ some slot := by
      rintro e ⟨slot', display', d, hidx, -, hdisplay, -⟩ hidx'
      obtain rfl : slot' = slot := Option.some.inj (hidx.symm.trans hidx')
      rw [hpossible.1] at hdisplay
      cases hdisplay
    exact ⟨moved_of_other (hinv.displays _ fun e he => he.update (hslot e he) _)
      (hdistinct.attach hpossible.2) (by simp) rfl rfl rfl, .inl haccount⟩
  | destroy slot =>
    simp only [Event.prog, wp_bind]
    refine wp_post (wp_destroyDisplay hinv hdistinct haccount (hgone slot rfl)) fun _ t ht => ?_
    exact ⟨moved_of_other ht.inv ht.distinct (by simp) rfl ht.state ht.phase, ht.account⟩

/-! ## The stages over a run -/

/-- What one event can do to a session. -/
theorem moved_of_run (hinv : Inv gone s.vars) (hdistinct : s.vars.Distinct)
    (hpossible : e.Possible s.vars)
    (hgone : ∀ slot, e = .destroy slot → s.vars.displayIdx = some slot → gone)
    (hrun : e.prog.run (sysHandler env) s = (some r, t)) : Moved gone e s.vars r t.vars := by
  -- nothing is outstanding in an empty log
  have haccount : Account { s with log := [] } := by
    intro device lessee h
    cases h
  have hevent := wp_log [] (wp_event env (s := { s with log := [] }) hinv hdistinct
    haccount hpossible hgone)
  obtain ⟨log, hmoved, -⟩ := wp_returned hevent hrun
  exact hmoved

/-- The value of `hdmi_lease_state_` in a stage. -/
def Stage.state : Stage → UInt32
  | android => stateAndroid
  | draining => stateDraining
  | leased => stateLeased
  | error => stateError

theorem Stage.Holds.state_eq {s : Session} {stage : Stage} (h : stage.Holds s) :
    s.state = stage.state := by
  cases stage with
  | android => exact h.1
  | draining => exact h.1
  | leased => exact h.1
  | error => exact h.1

theorem Stage.state_injective {a b : Stage} (h : a.state = b.state) : a = b := by
  cases a <;> cases b <;> first | rfl | exact absurd h (by decide)

/-- While the selected display lives the invariant is one of the four stages. -/
theorem Inv.stage {s : Session} (h : Inv False s) : ∃ stage : Stage, stage.Holds s := by
  rcases h with h | ⟨hs, hphase, -, ⟨e, he, hp, ha, -⟩ | ⟨hfalse, -⟩⟩ |
    ⟨hs, hphase, -, h | ⟨hfalse, -⟩⟩ | h
  · exact ⟨.android, h⟩
  · exact ⟨.draining, hs, hphase, e, he, hp, ha⟩
  · exact hfalse.elim
  · exact ⟨.leased, hs, hphase, h⟩
  · exact hfalse.elim
  · exact ⟨.error, h⟩

/-! ## The order of the phases -/

variable {hist : List (Event × Int)} {phase : UInt32} {Q : List (Event × Int) → Prop}

theorem Since.cons (h : Since phase Q hist)
    (he : e.isRelease = false) (r : Int) : Since phase Q ((e, r) :: hist) := by
  obtain ⟨later, x, older, rfl, hx, hlater, hQ⟩ := h
  refine ⟨(e, r) :: later, x, older, rfl, hx, ?_, hQ⟩
  intro y hy
  rcases mem_cons.1 hy with rfl | hy
  · exact he
  · exact hlater y hy

theorem Since.acquired (response : Message) (h : Q hist) :
    Since phase Q ((.acquire phase response, statusOk) :: hist) :=
  ⟨[], _, hist, rfl, ⟨⟨response, rfl⟩, rfl⟩, by simp, h⟩

/-- The first phase has been acquired, then the second, then the third. -/
abbrev PreparedBy : List (Event × Int) → Prop := Since acquirePrepare fun _ => True
abbrev PausedBy : List (Event × Int) → Prop := Since acquirePause PreparedBy
abbrev CreatedBy : List (Event × Int) → Prop := Since acquireCreate PausedBy

/-- The phase of a takeover has been reached through the phases before it. -/
structure Ordered (hist : List (Event × Int)) (s : Session) : Prop where
  prepared : s.state = stateDraining → s.phase = acquirePrepare → PreparedBy hist
  paused : s.state = stateDraining → s.phase = acquirePause → PausedBy hist
  created : s.state = stateLeased → CreatedBy hist

theorem ordered_of_idle {s : Session}
    (hd : s.state ≠ stateDraining) (hl : s.state ≠ stateLeased) : Ordered hist s :=
  ⟨fun h => absurd h hd, fun h => absurd h hd, fun h => absurd h hl⟩

theorem Ordered.keep {s t : Session}
    (h : Ordered hist s) (he : e.isRelease = false) (r : Int) (hstate : t.state = s.state)
    (hphase : t.phase = s.phase) : Ordered ((e, r) :: hist) t := by
  refine ⟨?_, ?_, ?_⟩
  · rw [hstate, hphase]
    exact fun hs hp => (h.prepared hs hp).cons he r
  · rw [hstate, hphase]
    exact fun hs hp => (h.paused hs hp).cons he r
  · rw [hstate]
    exact fun hs => (h.created hs).cons he r

theorem Ordered.follow {s t : Session} (h : Ordered hist s) (response : Message)
    (hfollows : Follows phase s t) : Ordered ((.acquire phase response, statusOk) :: hist) t := by
  rcases hfollows with ⟨rfl, -, ht, hp⟩ | ⟨rfl, hs, hsp, ht, hp⟩ | ⟨rfl, hs, hsp, ht, hp⟩
  · refine ⟨fun _ _ => Since.acquired response trivial, fun _ hp' => ?_, fun ht' => ?_⟩
    · exact absurd (hp.symm.trans hp') (by decide)
    · exact absurd (ht.symm.trans ht') (by decide)
  · refine ⟨fun _ hp' => ?_, fun _ _ => Since.acquired response (h.prepared hs hsp), fun ht' => ?_⟩
    · exact absurd (hp.symm.trans hp') (by decide)
    · exact absurd (ht.symm.trans ht') (by decide)
  · refine ⟨fun ht' => ?_, fun ht' => ?_, fun _ => Since.acquired response (h.paused hs hsp)⟩
    · exact absurd (ht.symm.trans ht') (by decide)
    · exact absurd (ht.symm.trans ht') (by decide)

theorem Ordered.step {s t : Session} (h : Ordered hist s) (hmoved : Moved gone e s r t) :
    Ordered ((e, r) :: hist) t := by
  by_cases hrelease : e.isRelease = true
  · rcases hmoved.release hrelease with ht | ht
    · exact ordered_of_idle (by rw [ht]; decide) (by rw [ht]; decide)
    · exact ordered_of_idle (by rw [ht]; decide) (by rw [ht]; decide)
  · have hrelease : e.isRelease = false := by simpa using hrelease
    by_cases hacquire : ∃ phase response, e = .acquire phase response
    · obtain ⟨phase, response, rfl⟩ := hacquire
      rcases hmoved.acquire phase response rfl with
        ⟨rfl, hfollows⟩ | ⟨-, ⟨hstate, hphase⟩ | ⟨-, ht⟩⟩
      · exact h.follow response hfollows
      · exact h.keep hrelease r hstate hphase
      · exact ordered_of_idle (by rw [ht]; decide) (by rw [ht]; decide)
    · obtain ⟨hstate, hphase⟩ :=
        hmoved.other (fun phase response he => hacquire ⟨phase, response, he⟩) hrelease
      exact h.keep hrelease r hstate hphase

/-- What a run has established when the mutex is free. -/
structure Settled (gone : Prop) (hist : List (Event × Int)) (s : Session) : Prop where
  inv : Inv gone s
  distinct : s.Distinct
  ordered : Ordered hist s

/-- The stage of a session follows from its history. -/
theorem settled_of_run (h : Run env Spares hist s) : Settled False hist s.vars := by
  induction h with
  | start hs _ =>
    refine ⟨.inl ⟨hs.state, hs.phase, hs.displayIdx, hs.info, hs.noLease⟩, hs.distinct, ?_⟩
    exact ordered_of_idle (by rw [hs.state]; decide) (by rw [hs.state]; decide)
  | step _ possible run kept ih =>
    have hmoved := moved_of_run ih.inv ih.distinct possible kept run
    exact ⟨hmoved.inv, hmoved.distinct, ih.ordered.step hmoved⟩

theorem Moved.leaves_error {s t : Session} (h : Moved gone e s r t) (hs : s.state = stateError)
    (ht : t.state ≠ stateError) : e.isRelease = true := by
  by_contra hrelease
  have hrelease : e.isRelease = false := by simpa using hrelease
  by_cases hacquire : ∃ phase response, e = .acquire phase response
  · obtain ⟨phase, response, he⟩ := hacquire
    rcases h.acquire phase response he with ⟨-, hfollows⟩ | ⟨-, ⟨hstate, -⟩ | ⟨hne, -⟩⟩
    · rcases hfollows with ⟨-, hs', -⟩ | ⟨-, hs', -⟩ | ⟨-, hs', -⟩
      · exact absurd (hs.symm.trans hs') (by decide)
      · exact absurd (hs.symm.trans hs') (by decide)
      · exact absurd (hs.symm.trans hs') (by decide)
    · exact ht (hstate.trans hs)
    · exact hne hs
  · have hother := h.other (fun phase response he => hacquire ⟨phase, response, he⟩) hrelease
    exact ht (hother.1.trans hs)

/-- As long as the selected display lives, the session is in exactly one of the four stages whenever
    the mutex is free. A lease is held only after the three phases in order and without a release
    since the first, and only a release leaves the error stage. -/
theorem takeover_stages {hist : List (Event × Int)} (h : Run env Spares hist s) :
    (∃! stage : Stage, stage.Holds s.vars) ∧ (s.vars.state = stateLeased → CreatedBy hist) ∧
      ∀ e r t, e.Possible s.vars → e.prog.run (sysHandler env) s = (some r, t) → Spares s e t →
        s.vars.state = stateError → t.vars.state ≠ stateError → e.isRelease = true := by
  have hsettled := settled_of_run h
  refine ⟨?_, hsettled.ordered.created, ?_⟩
  · obtain ⟨stage, hstage⟩ := hsettled.inv.stage
    refine ⟨stage, hstage, fun other hother => Stage.state_injective ?_⟩
    exact hother.state_eq.symm.trans hstage.state_eq
  · intro e r t hpossible hrun hspares hs ht
    exact (moved_of_run hsettled.inv hsettled.distinct hpossible hspares hrun).leaves_error hs ht

/-- The selected display is not destroyed, as a check on the bench. -/
def sparesCheck (s : Sys BenchWorld) (e : Event) (_t : Sys BenchWorld) : Bool :=
  match e with
  | .destroy slot => s.vars.displayIdx != some slot
  | _ => true

theorem spares_of_check (s : Sys BenchWorld) (e : Event) (t : Sys BenchWorld)
    (h : sparesCheck s e t = true) : Spares s e t := by
  rintro slot rfl
  simpa [sparesCheck] using h

/-- The takeover on the bench reaches the stage in which the lease is held. -/
theorem takeover_stages_bench :
    ∃ hist s, Run (benchEnv .revoked false) Spares hist s ∧ s.vars.state = stateLeased ∧
      (∃! stage : Stage, stage.Holds s.vars) ∧ CreatedBy hist := by
  obtain ⟨hist, s, hrun, hstate⟩ := exists_run_benchTrace (benchEnv .revoked false)
    spares_of_check takeoverEvents (by decide)
    (fun s => s.vars.state == stateLeased) (by decide +kernel)
  have hstate : s.vars.state = stateLeased := by simpa using hstate
  obtain ⟨hstage, hcreated, -⟩ := takeover_stages hrun
  exact ⟨hist, s, hrun, hstate, hstage, hcreated hstate⟩

/-! ## The leases over a run -/

/-- A step that forgot a lease had no revocation that succeeded. -/
theorem Forgot.not_revokes (h : Forgot s t) (hlog : s.log <+: t.log) : ¬Revokes s e t := by
  intro hrevokes
  obtain ⟨device, lessee, n, hdeals⟩ := h
  obtain ⟨new, hnew⟩ := hlog
  have hdrop : t.log.drop s.log.length = new := by rw [← hnew, drop_left]
  rw [← hnew, deals_append, append_cancel_left_eq] at hdeals
  have hmem : Deal.refused device lessee ∈ deals new := by
    rw [hdeals]
    exact mem_replicate.2 ⟨by simp, rfl⟩
  obtain ⟨x, hx, hdeal⟩ := mem_filterMap.1 hmem
  obtain ⟨a, rfl⟩ := dealOf_refused hdeal
  obtain ⟨a', ha', hx'⟩ := hrevokes device lessee a (by rw [hdrop]; exact hx)
  rw [hdrop] at hx'
  have hrevoked : Deal.revoked device lessee ∈ deals new :=
    mem_filterMap.2 ⟨_, hx', dealOf_revokeLease ha'⟩
  rw [hdeals, mem_replicate] at hrevoked
  cases hrevoked.2

/-- Every lease that the kernel still holds is in the map. -/
def Tracked (t : Sys ω) : Prop :=
  (t.vars.state = stateAndroid → ∀ device, Recovered device t.log) ∧
    ∀ device, t.vars.leases device = none → Recovered device t.log

theorem Account.tracked (h : Account t) (hno : t.vars.state = stateAndroid → t.vars.NoLease) :
    Tracked t := by
  have hnone : ∀ device, t.vars.leases device = none → Recovered device t.log := by
    intro device hdevice
    refine recovered_of_outstanding (h.idle fun e he => ?_)
    rw [hdevice] at he
    cases he
  exact ⟨fun hs device => hnone device (hno hs device), hnone⟩

/-- The leases' account over a run. -/
theorem account_of_run (h : Run env Revokes hist s) :
    Inv True s.vars ∧ s.vars.Distinct ∧ Account s := by
  induction h with
  | start hs hlog =>
    refine ⟨.inl ⟨hs.state, hs.phase, hs.displayIdx, hs.info, hs.noLease⟩, hs.distinct, ?_⟩
    intro device lessee hmem
    rw [hlog] at hmem
    cases hmem
  | step _ possible run kept ih =>
    obtain ⟨hinv, hdistinct, haccount⟩ := ih
    have hevent := wp_event env hinv hdistinct haccount possible fun _ _ _ => trivial
    obtain ⟨hmoved, haccount'⟩ := wp_returned hevent run
    refine ⟨hmoved.inv, hmoved.distinct, haccount'.resolve_right fun hforgot => ?_⟩
    exact hforgot.not_revokes (wp_returned (wp_log_extends _) run) kept

/-- If no step of a run fails in all its attempts to revoke a lease, no lease is forgotten: neither
    between two steps nor at any point of a further one. -/
theorem leases_tracked {hist : List (Event × Int)} (h : Run env Revokes hist s) :
    Tracked s ∧ ∀ e r t, e.Possible s.vars → e.prog.run (sysHandler env) s = (r, t) →
      Revokes s e t → Tracked t := by
  obtain ⟨hinv, hdistinct, haccount⟩ := account_of_run h
  refine ⟨haccount.tracked fun hs => (hinv.android hs).2.2.2.2, ?_⟩
  intro e r t hpossible hrun hrevokes
  have hevent := wp_and (wp_event env hinv hdistinct haccount hpossible fun _ _ _ => trivial)
    (wp_log_extends e.prog)
  rw [wp, hrun] at hevent
  cases r with
  | none =>
    obtain ⟨⟨hno, ht⟩, hlog⟩ := hevent
    exact (ht.resolve_right fun hforgot => hforgot.not_revokes hlog hrevokes).tracked hno
  | some r =>
    obtain ⟨⟨hmoved, ht⟩, hlog⟩ := hevent
    refine (ht.resolve_right fun hforgot => hforgot.not_revokes hlog hrevokes).tracked fun hs => ?_
    exact (hmoved.inv.android hs).2.2.2.2

/-- No revocation of a step failed, as a check on the bench. -/
def revokesCheck (s : Sys BenchWorld) (_e : Event) (t : Sys BenchWorld) : Bool :=
  (deals (t.log.drop s.log.length)).all fun
    | .refused _ _ => false
    | _ => true

theorem revokes_of_check (s : Sys BenchWorld) (e : Event) (t : Sys BenchWorld)
    (h : revokesCheck s e t = true) : Revokes s e t := by
  intro device lessee a hmem
  refine ⟨a, ?_, hmem⟩
  rintro rfl
  have hdeal : Deal.refused device lessee ∈ deals (t.log.drop s.log.length) :=
    mem_filterMap.2 ⟨_, hmem, rfl⟩
  cases all_eq_true.1 h _ hdeal

/-- On the bench a lease is created and revoked, and the account is even. -/
theorem leases_tracked_bench :
    ∃ hist s, Run (benchEnv .revoked false) Revokes hist s ∧ s.vars.state = stateAndroid ∧
      deals s.log = [.created 5 9, .revoked 5 9] ∧ Tracked s := by
  obtain ⟨hist, s, hrun, hend⟩ := exists_run_benchTrace (benchEnv .revoked false)
    revokes_of_check (.release "" :: takeoverEvents) (by decide)
    (fun s => s.vars.state == stateAndroid && deals s.log == [.created 5 9, .revoked 5 9])
    (by decide +kernel)
  obtain ⟨hstate, hdeals⟩ :
      s.vars.state = stateAndroid ∧ deals s.log = [.created 5 9, .revoked 5 9] := by
    simpa using hend
  exact ⟨hist, s, hrun, hstate, hdeals, (leases_tracked hrun).1⟩

/-- The kernel refuses both attempts of a release to revoke the lease of a display that is gone. The
    entry is erased, and the session reports that Android has the display. -/
theorem lease_forgotten : ∃ hist s, Run (benchEnv .failed true) (fun _ _ _ => True) hist s ∧
      s.vars.state = stateAndroid ∧ s.vars.leases 5 = none ∧ ¬Recovered 5 s.log := by
  obtain ⟨hist, s, hrun, hend⟩ := exists_run_benchTrace (benchEnv .failed true)
    (P := fun _ _ _ => True) (fun _ _ _ (_ : true = true) => trivial)
    (.release "" :: takeoverEvents) (by decide)
    (fun s => s.vars.state == stateAndroid && s.vars.leases 5 == none &&
      deals s.log == [.created 5 9, .refused 5 9, .refused 5 9])
    (by decide +kernel)
  simp only [Bool.and_eq_true, beq_iff_eq] at hend
  obtain ⟨⟨hstate, hleases⟩, hdeals⟩ := hend
  refine ⟨hist, s, hrun, hstate, hleases, not_recovered 9 ?_ ?_⟩
  · rw [hdeals]
    decide
  · rw [hdeals]
    decide

end HdmiLos.Composer
