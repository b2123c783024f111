import HdmiLos.Composer.Proofs.IterationProofs
import HdmiLos.Composer.ServerBench

/-!
# The watchdog of the composer

While a takeover is under way a deadline is set, and when it has passed the display is released. How
far the deadline can be put off, and what happens when the broker is gone, is said here for every
run of the server.
-/

namespace HdmiLos.Composer

open Interaction Prog List

variable {ω : Type} {env : Env ω} {host : Host env} {s t : host.Sys}

/-! ## The deadline is set -/

theorem Session.Sound.phase_ne {s : Session} (h : s.Sound) (hbusy : s.Busy) :
    s.phase ≠ acquireNone := by
  rcases h.1 with ⟨hs, -⟩ | ⟨-, hp | hp, -⟩ | ⟨-, hp, -⟩ | ⟨-, hp, -⟩
  · exact absurd hbusy (not_busy_of_released (.inl hs))
  · rw [hp]
    decide
  · rw [hp]
    decide
  · rw [hp]
    decide
  · exact hp

theorem Host.Good.stage_ne (h : host.Good s) (hbusy : (host.sessionOf s).Busy) :
    (viewOf s.log).stage ≠ acquireNone := by
  rw [← h.stage hbusy]
  exact h.sound.phase_ne hbusy

theorem Host.Good.deadline_pos (h : host.Good s) (hbusy : (host.sessionOf s).Busy) :
    0 < s.vars.deadlineMs := by
  rw [h.deadline]
  exact h.armed (h.stage_ne hbusy)

/-- While a takeover is under way the deadline is set within its allowance. Every further iteration
    tests it once, after a disconnect of the same iteration has been taken into account. If the
    deadline has passed then, the display is released, and a takeover that is under way at the end
    of the iteration is a new one. -/
theorem watchdog_armed (h : host.Reaches (fun _ _ => True) s) (hbusy : (host.sessionOf s).Busy) :
    0 < s.vars.deadlineMs ∧ WithinAllowance s.log s.vars.deadlineMs ∧
      ∀ t, serverIteration.run (serverHandler host.answer) s = (some true, t) →
        ∃ early x late now deadline, host.since s t = early ++ x :: late ∧ checkedAt x = some now ∧
          ((deadline = s.vars.deadlineMs ∧ ∀ y ∈ early, disconnectedAt y = none) ∨
            ∃ y ∈ early, ∃ at₀, disconnectedAt y = some at₀ ∧
              deadline = at₀ + disconnectBackstopMs) ∧
          (deadline ≤ now → (∃ y rest, late = y :: rest ∧ isFailsafe y = true) ∧
            ((host.sessionOf t).Busy → ∃ y ∈ late, ∃ phase, acquiredBy y = some phase)) := by
  have hgood := h.good
  have hpos := hgood.deadline_pos hbusy
  refine ⟨hpos, ?_, fun t hrun => ?_⟩
  · rw [hgood.deadline] at hpos ⊢
    exact withinAllowance_viewOf hpos
  · have hgood' : host.Good t := wp_returned (wp_serverIteration hgood) hrun
    obtain ⟨early, x, late, now, hlog, hx, hearly⟩ :=
      wp_returned (wp_serverIteration_checked hgood hpos) hrun rfl
    refine ⟨early, x, late, now, (viewOf (s.log ++ early)).deadline, ?_, hx, ?_, fun hdue => ?_⟩
    · rw [Host.since, hlog, append_assoc, drop_left]
    · rw [viewOf_append, hgood.deadline]
      exact deadline_of_quiet fun y hy =>
        ⟨(quiet_of_early (hearly y hy)).1, (quiet_of_early (hearly y hy)).2.1⟩
    · obtain ⟨y, rest, rfl, hy⟩ := hgood'.fires (s.log ++ early) x late now hlog hx hdue
      refine ⟨⟨y, rest, rfl, hy⟩, fun hbusy' => ?_⟩
      have hstage := hgood'.stage_ne hbusy'
      rw [hlog, viewOf_append, foldl_cons, foldl_cons] at hstage
      rcases stage_of_foldl hstage with hnone | ⟨z, hz, hphase⟩
      · obtain ⟨c, a⟩ := y
        cases c with
        | release reason => exact absurd rfl hnone
        | _ => cases hy
      · exact ⟨z, mem_cons_of_mem _ hz, hphase⟩

/-- The server of the bench, whose kernel revokes leases. -/
abbrev benchServer : Host (benchEnv .revoked false) := benchHost (benchEnv .revoked false)

/-- The takeover on the bench has a deadline. -/
theorem watchdog_armed_bench :
    ∃ s, benchServer.Reaches (fun _ _ => True) s ∧ (benchServer.sessionOf s).Busy ∧
      0 < s.vars.deadlineMs ∧ WithinAllowance s.log s.vars.deadlineMs := by
  obtain ⟨s, hreaches, hstate⟩ := exists_reaches (benchEnv .revoked false)
    takeoverScript 4 (fun s => s.world.session.vars.state == stateLeased) (by decide +kernel)
  have hbusy : (benchServer.sessionOf s).Busy := .inr (beq_iff_eq.1 hstate)
  have harmed := watchdog_armed hreaches hbusy
  exact ⟨s, hreaches, hbusy, harmed.1, harmed.2.1⟩

/-- The clock has reached the deadline when an iteration begins, but a disconnect that is processed
    in it puts the deadline off, and the display stays leased. -/
theorem deadline_put_off :
    ∃ s t, benchServer.Reaches (fun _ _ => True) s ∧ (benchServer.sessionOf s).Busy ∧
      serverIteration.run (serverHandler benchServer.answer) s = (some true, t) ∧
      (∃ x ∈ benchServer.since s t, ∃ now, polledAt x = some now ∧ s.vars.deadlineMs ≤ now) ∧
      (benchServer.sessionOf t).state = stateLeased ∧
      ∀ x ∈ benchServer.since s t, isReleaseCall x = false := by
  obtain ⟨s, hreaches, hf⟩ := exists_reaches (benchEnv .revoked false)
    (takeoverScript ++ [{ time := 69000, hotplug := some false }]) 4
    (fun s => s.world.session.vars.state == stateLeased &&
      (nextIteration (benchEnv .revoked false) s).any fun t =>
        (t.log.drop s.log.length).any (fun x => (polledAt x).any (s.vars.deadlineMs ≤ ·)) &&
        t.world.session.vars.state == stateLeased &&
        (t.log.drop s.log.length).all (fun x => !isReleaseCall x))
    (by decide +kernel)
  simp only [Bool.and_eq_true, beq_iff_eq] at hf
  obtain ⟨hstate, hnext⟩ := hf
  obtain ⟨t, ht, hend⟩ := (Option.any_eq_true _ _).1 hnext
  simp only [Bool.and_eq_true, beq_iff_eq, any_eq_true] at hend
  obtain ⟨⟨⟨x, hx, hclock⟩, hstate'⟩, hall⟩ := hend
  refine ⟨s, t, hreaches, .inr hstate, run_of_nextIteration ht, ⟨x, hx, ?_⟩, hstate',
    fun y hy => ?_⟩
  · obtain ⟨now, hnow, hle⟩ := (Option.any_eq_true _ _).1 hclock
    exact ⟨now, hnow, by simpa using hle⟩
  · simpa using all_eq_true.1 hall y hy

/-! ## A bounded lease -/

/-- A lease without the continuous policy ends 65 seconds after it was created, if the policy is not
    asked for again and no disconnect is processed in the last five seconds. -/
theorem bounded_lease_deadline {between after : ServerLog} {t : Nat}
    (h : host.Reaches (fun _ _ => True) s)
    (hleased : (host.sessionOf s).state = stateLeased)
    (htakeover : BoundedTakeover s.log between after t)
    (hpolicy : ∀ x ∈ between ++ after, asksContinuous x = false)
    (hunplug : ∀ x ∈ after, ∀ now, disconnectedAt x = some now → now ≤ t + 60000) :
    0 < s.vars.deadlineMs ∧ s.vars.deadlineMs ≤ t + 65000 ∧
      ∀ x ∈ after, ∀ now, checkedAt x = some now → now < t + 65000 := by
  have hgood := h.good
  have hbusy : (host.sessionOf s).Busy := .inr hleased
  obtain ⟨⟨before, fd, request, prepare, prepared, create, created, hlog, hrequest, -, hcreated⟩,
    hlatest⟩ := htakeover
  -- the log up to the clock reading after the last phase
  generalize hprefix : before ++ [⟨.recv fd, some request⟩,
    ⟨.acquire acquirePrepare prepare, prepared⟩] ++ between = start at hlog
  have hstart : (viewOf start).continuous = false := by
    rw [← hprefix, viewOf_append, viewOf_append]
    refine continuous_foldl ?_ fun x hx => hpolicy x (mem_append_left _ hx)
    have hrecv : ((viewOf before).step ⟨.recv fd, some request⟩).continuous = false := by
      show (policyOf request).getD (viewOf before).continuous = false
      rw [hrequest]
      rfl
    exact View.step_continuous (x := ⟨.acquire acquirePrepare prepare, prepared⟩) hrecv rfl
  generalize hbase : start ++ [⟨.acquire acquireCreate create, created⟩,
    ⟨.bootTimeMs .acquired, t⟩] = base at hlog
  have hview : viewOf base = { viewOf start with
      deadline := t + composerFailsafeMs, stage := acquireCreate } := by
    have hstep : (viewOf start).step ⟨.acquire acquireCreate create, created⟩ =
        { viewOf start with stage := acquireCreate } := if_pos hcreated
    rw [← hbase, viewOf_append, foldl_cons, hstep]
    rfl
  have htold : Told (base ++ after) := hlog ▸ hgood.told
  have hfires : Fires (base ++ after) := hlog ▸ hgood.fires
  have hstage : (viewOf (base ++ after)).stage ≠ acquireNone := hlog ▸ hgood.stage_ne hbusy
  obtain ⟨hacquire, -⟩ := no_acquire_after htold (congrArg View.stage hview)
    fun x hx => hlatest x (mem_append_right _ hx)
  have hgrant := no_grant_after htold ((congrArg View.continuous hview).trans hstart)
    (fun x hx => hpolicy x (mem_append_right _ hx)) hacquire (by
      intro older x hx
      rw [← hbase, append_cons] at hx
      rw [← singleton_inj.1 (append_inj' hx rfl).2]
      rfl)
  obtain ⟨hdeadline, hchecks⟩ := deadline_bounded (t + 65000) hfires hgrant
    (no_release_after hacquire hstage) (Nat.le_of_eq (congrArg View.deadline hview))
    (fun x hx now hnow => by
      have hnow' := hunplug x hx now hnow
      unfold disconnectBackstopMs
      omega)
  refine ⟨hgood.deadline_pos hbusy, ?_, hchecks⟩
  rw [hgood.deadline, hlog]
  exact hdeadline

/-- The takeover on the bench is bounded, and a status request does not change that. -/
theorem bounded_lease_deadline_bench :
    ∃ s between after t, benchServer.Reaches (fun _ _ => True) s ∧
      (benchServer.sessionOf s).state = stateLeased ∧
      BoundedTakeover s.log between after t ∧ s.vars.deadlineMs ≤ t + 65000 := by
  obtain ⟨s, hreaches, hf⟩ := exists_reaches (benchEnv .revoked false)
    (takeoverScript ++ [{ time := 5000, request := some (benchRequest opStatus 0) }]) 5
    (fun s => s.world.session.vars.state == stateLeased &&
      (takeoverAt s.log 8 17).any fun (between, after, t) =>
        (between ++ after).all (fun x => !asksContinuous x) &&
        after.all (fun x => (disconnectedAt x).all (· ≤ t + 60000)))
    (by decide +kernel)
  simp only [Bool.and_eq_true, beq_iff_eq] at hf
  obtain ⟨hstate, htakeover⟩ := hf
  obtain ⟨⟨between, after, t⟩, ht, hend⟩ := (Option.any_eq_true _ _).1 htakeover
  simp only [Bool.and_eq_true, all_eq_true] at hend
  have hbounded := boundedTakeover_of_takeoverAt ht
  refine ⟨s, between, after, t, hreaches, hstate, hbounded,
    (bounded_lease_deadline hreaches hstate hbounded (fun x hx => ?_) fun x hx now hnow => ?_).2.1⟩
  · simpa using hend.1 x hx
  · have hle := hend.2 x hx
    rw [hnow] at hle
    simpa using hle

/-- A request for a continuous lease is refused, but its policy stays; a ping then renews the lease
    that was created without it. -/
theorem bounded_lease_prolonged : ∃ s between after t, benchServer.Reaches (fun _ _ => True) s ∧
      (benchServer.sessionOf s).state = stateLeased ∧
      BoundedTakeover s.log between after t ∧ t + 65000 < s.vars.deadlineMs := by
  obtain ⟨s, hreaches, hf⟩ := exists_reaches (benchEnv .revoked false) (takeoverScript ++
      [{ time := 5000
         request := some (benchRequest opAcquire (acquirePrepare ||| flagContinuous)) },
       { time := 60000, request := some (benchRequest opPing flagContinuous) }]) 6
    (fun s => s.world.session.vars.state == stateLeased &&
      (takeoverAt s.log 8 17).any fun (_, _, t) => t + 65000 < s.vars.deadlineMs)
    (by decide +kernel)
  simp only [Bool.and_eq_true, beq_iff_eq] at hf
  obtain ⟨hstate, htakeover⟩ := hf
  obtain ⟨⟨between, after, t⟩, ht, hend⟩ := (Option.any_eq_true _ _).1 htakeover
  exact ⟨s, between, after, t, hreaches, hstate, boundedTakeover_of_takeoverAt ht, by
    simpa using hend⟩

/-! ## Unplugging -/

/-- After a disconnect the display is released within five seconds, if no phase is acquired, the
    continuous policy is not asked for and no further disconnect is processed until then. -/
theorem unplug_backstop {before after : ServerLog} {t : Nat} (h : host.Reaches (fun _ _ => True) s)
    (hlog : s.log = before ++ ⟨.bootTimeMs .disconnected, t⟩ :: after)
    (hrelease : ∀ x ∈ after, isReleaseCall x = false)
    (hacquire : ∀ x ∈ after, acquiredBy x = none)
    (hpolicy : ∀ x ∈ after, asksContinuous x = false)
    (hunplug : ∀ x ∈ after, disconnectedAt x = none) :
    0 < s.vars.deadlineMs ∧ s.vars.deadlineMs ≤ t + 5000 ∧
      ∀ x ∈ after, ∀ now, checkedAt x = some now → now < t + 5000 := by
  have hgood := h.good
  rw [append_cons] at hlog
  generalize hbase : before ++ [⟨.bootTimeMs .disconnected, t⟩] = base at hlog
  have hview : viewOf base = { viewOf before with
      deadline := t + disconnectBackstopMs, continuous := false } := by
    rw [← hbase, viewOf_snoc]
    rfl
  have htold : Told (base ++ after) := hlog ▸ hgood.told
  have hfires : Fires (base ++ after) := hlog ▸ hgood.fires
  have hgrant := no_grant_after htold (congrArg View.continuous hview) hpolicy hacquire (by
    intro older x hx
    rw [← hbase] at hx
    rw [← singleton_inj.1 (append_inj' hx rfl).2]
    rfl)
  obtain ⟨hdeadline, hchecks⟩ := deadline_bounded (t + 5000) hfires hgrant hrelease
    (Nat.le_of_eq (congrArg View.deadline hview)) (fun x hx now hnow => by
      rw [hunplug x hx] at hnow
      cases hnow)
  have hexact : (viewOf (base ++ after)).deadline = t + disconnectBackstopMs := by
    rw [viewOf_append]
    rcases deadline_of_quiet (v := viewOf base) fun x hx => ⟨hgrant x hx, hrelease x hx⟩ with
      ⟨hd, -⟩ | ⟨x, hx, now, hnow, -⟩
    · rw [hd, hview]
    · rw [hunplug x hx] at hnow
      cases hnow
  refine ⟨?_, ?_, hchecks⟩
  · rw [hgood.deadline, hlog, hexact]
    exact backstop_pos t
  · rw [hgood.deadline, hlog]
    exact hdeadline

/-- On the bench a disconnect leaves five seconds. -/
theorem unplug_backstop_bench : ∃ s before after t, benchServer.Reaches (fun _ _ => True) s ∧
      (benchServer.sessionOf s).state = stateLeased ∧
      s.log = before ++ ⟨.bootTimeMs .disconnected, t⟩ :: after ∧ s.vars.deadlineMs ≤ t + 5000 := by
  obtain ⟨s, hreaches, hf⟩ := exists_reaches (benchEnv .revoked false)
    (takeoverScript ++ [{ time := 10000, hotplug := some false }, { time := 11000 }]) 6
    (fun s => s.world.session.vars.state == stateLeased &&
      (disconnectAt s.log 41).any fun (_, after) =>
        after.all fun x => !isReleaseCall x && acquiredBy x == none && !asksContinuous x &&
          disconnectedAt x == none)
    (by decide +kernel)
  simp only [Bool.and_eq_true, beq_iff_eq] at hf
  obtain ⟨hstate, hdisconnect⟩ := hf
  obtain ⟨⟨t, after⟩, ht, hend⟩ := (Option.any_eq_true _ _).1 hdisconnect
  simp only [all_eq_true, Bool.and_eq_true, beq_iff_eq, Bool.not_eq_true'] at hend
  have hlog := split_of_disconnectAt ht
  exact ⟨s, _, after, t, hreaches, hstate, hlog, (unplug_backstop hreaches hlog
    (fun x hx => (hend x hx).1.1.1) (fun x hx => (hend x hx).1.1.2) (fun x hx => (hend x hx).1.2)
    fun x hx => (hend x hx).2).2.1⟩

/-- A second disconnect, four seconds after the first, puts the deadline off. -/
theorem unplug_backstop_put_off : ∃ s before after t, benchServer.Reaches (fun _ _ => True) s ∧
      (benchServer.sessionOf s).state = stateLeased ∧
      s.log = before ++ ⟨.bootTimeMs .disconnected, t⟩ :: after ∧
      (∀ x ∈ after, isReleaseCall x = false) ∧ t + 5000 < s.vars.deadlineMs := by
  obtain ⟨s, hreaches, hf⟩ := exists_reaches (benchEnv .revoked false) (takeoverScript ++
      [{ time := 10000, hotplug := some false }, { time := 14000, hotplug := some false }]) 6
    (fun s => s.world.session.vars.state == stateLeased &&
      (disconnectAt s.log 41).any fun (t, after) =>
        after.all (fun x => !isReleaseCall x) && t + 5000 < s.vars.deadlineMs)
    (by decide +kernel)
  simp only [Bool.and_eq_true, beq_iff_eq] at hf
  obtain ⟨hstate, hdisconnect⟩ := hf
  obtain ⟨⟨t, after⟩, ht, hend⟩ := (Option.any_eq_true _ _).1 hdisconnect
  simp only [all_eq_true, Bool.and_eq_true, decide_eq_true_eq, Bool.not_eq_true'] at hend
  exact ⟨s, _, after, t, hreaches, hstate, split_of_disconnectAt ht, hend.1, hend.2⟩

/-! ## Losing the broker -/

theorem Host.Reaches.hotplugSent
    (h : host.Reaches (fun s t => HotplugSent (host.since s t)) s) : HotplugSent s.log := by
  induction h with
  | start _ hlog _ =>
    rw [hlog]
    exact fun x hx => by cases hx
  | @step s t _ run kept ih =>
    obtain ⟨new, hnew⟩ := wp_returned (wp_log_extends _) run
    intro x hx
    rw [← hnew] at hx
    rcases mem_append.1 hx with hx | hx
    · exact ih x hx
    · refine kept x ?_
      rw [Host.since, ← hnew, drop_left]
      exact hx

theorem released_of_stage {log before after : ServerLog} {x : Answered ServerCall.Ans}
    {phase : UInt32} (htold : Told log) (hstage : (viewOf log).stage = acquireNone)
    (hlog : log = before ++ x :: after) (hx : acquiredBy x = some phase) :
    ∃ y ∈ after, isReleaseCall y = true := by
  by_contra hnone
  have hkeep : ∀ l, l <+: after → (viewOf (before ++ x :: l)).stage ≠ acquireNone := by
    intro l
    have hphase_ne : ∀ (l' : ServerLog) {y : Answered ServerCall.Ans} {p : UInt32},
        l' ++ [y] <+: log → acquiredBy y = some p → p ≠ acquireNone := by
      intro l' y p hl hy
      obtain ⟨rest, hrest⟩ := hl
      rw [append_assoc] at hrest
      rcases htold.next hrest.symm hy with rfl | ⟨rfl, -⟩ | ⟨rfl, -⟩
      · decide
      · decide
      · decide
    induction l using List.reverseRecOn with
    | nil =>
      intro _
      rw [viewOf_snoc, View.step_stage, hx]
      have hnot : isReleaseCall x = false := by
        obtain ⟨response, a, rfl, -⟩ := acquiredBy_eq_some hx
        rfl
      rw [hnot]
      exact hphase_ne _ ⟨after, by rw [hlog, append_assoc]; rfl⟩ hx
    | append_singleton l y ih =>
      intro hl
      have hy : y ∈ after := hl.subset (mem_append_right _ mem_cons_self)
      have hnot : isReleaseCall y = false := by
        by_contra hne
        exact hnone ⟨y, hy, by simpa using hne⟩
      rw [← cons_append, ← append_assoc, viewOf_snoc, View.step_stage, hnot]
      cases hacquired : acquiredBy y with
      | none => exact ih ((prefix_append _ _).trans hl)
      | some p =>
        refine hphase_ne (before ++ x :: l) ?_ hacquired
        obtain ⟨rest, hrest⟩ := hl
        exact ⟨rest, by rw [hlog, ← hrest]; simp⟩
  exact hkeep after (prefix_refl _) (hlog ▸ hstage)

/-- If the broker gets every hotplug event, then without a broker the display has been released
    since the last phase was acquired, and requests are received only from the connection that
    `poll` has reported in the iteration. -/
theorem lost_broker_released (h : host.Reaches (fun s t => HotplugSent (host.since s t)) s) :
    (s.vars.clientFd = none →
      (∀ before x after phase, s.log = before ++ x :: after → acquiredBy x = some phase →
        ∃ y ∈ after, isReleaseCall y = true) ∧ ¬(host.sessionOf s).Busy) ∧
    ∀ r t, serverIteration.run (serverHandler host.answer) s = (some r, t) →
      HotplugSent (host.since s t) →
      ∀ fd received, (⟨.recv fd, received⟩ : Answered ServerCall.Ans) ∈ host.since s t →
        ∃ timeout ready,
          (⟨.poll (some fd) timeout, ready⟩ : Answered ServerCall.Ans) ∈ host.since s t ∧
            ready.clientIn = true := by
  have hgood := h.good
  have hsent := h.hotplugSent
  refine ⟨fun hclient => ?_, fun r t hrun hsent' fd received hmem => ?_⟩
  · have hstage := hgood.client hsent hclient
    refine ⟨fun before x after phase hlog hx => released_of_stage hgood.told hstage hlog hx, ?_⟩
    exact fun hbusy => hgood.stage_ne hbusy hstage
  · obtain ⟨new, hlog, hserved⟩ := wp_returned (wp_serverIteration_served hgood) hrun
    have hsince : host.since s t = new := by rw [Host.since, hlog, drop_left]
    rw [hsince] at hsent' hmem ⊢
    refine hserved (fun x hx => ?_) fd received hmem
    rw [hlog] at hx
    rcases mem_append.1 hx with hx | hx
    · exact hsent x hx
    · exact hsent' x hx

/-- On the bench the broker hangs up after the takeover, and the display is released. -/
theorem lost_broker_released_bench :
    ∃ s, benchServer.Reaches (fun s t => HotplugSent (benchServer.since s t)) s ∧
      s.vars.clientFd = none ∧ s.log.any (fun x => acquiredBy x == some acquireCreate) = true ∧
      ¬(benchServer.sessionOf s).Busy := by
  obtain ⟨s, hreaches, hf⟩ := exists_reaches_of_check (benchEnv .revoked false)
    (fun s t => (t.log.drop s.log.length).all fun x => !hotplugLost x)
    (P := fun s t => HotplugSent (benchServer.since s t)) (fun s t h x hx => by
      simpa using all_eq_true.1 h x hx)
    (takeoverScript ++ [{ time := 5000, hangup := true }]) 5
    (fun s => s.vars.clientFd == none && s.log.any fun x => acquiredBy x == some acquireCreate)
    (by decide +kernel)
  simp only [Bool.and_eq_true, beq_iff_eq] at hf
  exact ⟨s, hreaches, hf.1, hf.2, ((lost_broker_released hreaches).1 hf.1).2⟩

/-- A hotplug event that cannot be sent closes the broker's connection and leaves the display leased.
    A connection that is accepted in the same iteration is then read from, although `poll` has
    reported the one that was closed. -/
theorem lost_broker_keeps_lease :
    (∃ s, benchServer.Reaches (fun _ _ => True) s ∧ s.vars.clientFd = none ∧
      (benchServer.sessionOf s).state = stateLeased ∧ ∀ x ∈ s.log, isReleaseCall x = false) ∧
    ∃ s t fd received, benchServer.Reaches (fun _ _ => True) s ∧
      serverIteration.run (serverHandler benchServer.answer) s = (some true, t) ∧
      (⟨.recv fd, received⟩ : Answered ServerCall.Ans) ∈ benchServer.since s t ∧
      ∀ timeout ready,
        (⟨.poll (some fd) timeout, ready⟩ : Answered ServerCall.Ans) ∉ benchServer.since s t := by
  constructor
  · obtain ⟨s, hreaches, hf⟩ := exists_reaches (benchEnv .revoked false)
      (takeoverScript ++ [{ time := 5000, hotplug := some false, sends := false }]) 5
      (fun s => s.vars.clientFd == none && s.world.session.vars.state == stateLeased &&
        s.log.all fun x => !isReleaseCall x)
      (by decide +kernel)
    simp only [Bool.and_eq_true, beq_iff_eq, all_eq_true, Bool.not_eq_true'] at hf
    exact ⟨s, hreaches, hf.1.1, hf.1.2, hf.2⟩
  · obtain ⟨s, hreaches, hf⟩ := exists_reaches (benchEnv .revoked false) (takeoverScript ++
        [{ time := 5000, hotplug := some false, sends := false, connects := true
           request := some (benchRequest opStatus 0) }]) 4
      (fun s => (nextIteration (benchEnv .revoked false) s).any fun t =>
        (t.log.drop s.log.length).any (receivesOn 1) && !(t.log.drop s.log.length).any (pollsOn 1))
      (by decide +kernel)
    obtain ⟨t, ht, hend⟩ := (Option.any_eq_true _ _).1 hf
    simp only [Bool.and_eq_true, Bool.not_eq_true'] at hend
    obtain ⟨received, hmem⟩ := recv_of_receivesOn hend.1
    exact ⟨s, t, 1, received, hreaches, run_of_nextIteration ht, hmem, not_poll_of_pollsOn hend.2⟩

end HdmiLos.Composer
