import HdmiLos.Broker.Proofs.PartsProofs
import HdmiLos.Broker.Proofs.RunProofs

/-!
# The connection that holds the lease

Between two iterations an active session holds the composer connection on which its lease was
granted. While no session is active there is nothing to hold, and only `Start` can change that.
-/

namespace HdmiLos

open Interaction Prog

variable {ω α β : Type} {env : Env ω} {n : Nat} {s t u : Sys ω}

/-! ## Functions that take no display -/

/-- No session is active and no request for a lease is open. -/
structure Off (s : Sys ω) : Prop where
  idle : Idle s
  active : s.vars.active = false

theorem Off.ownsLease (h : Off s) : OwnsLease s := OwnsLease.inactive h.idle h.active

theorem Off.talked (h : Off s) (ht : Talked s t) : Off t :=
  ⟨ht.idle h.idle, (owner_active ht.owner).trans h.active⟩

variable {p : BrokerProg α}

theorem wp_off_quiet (hp : p.Uses Quiet) (h : Off s) : wp (sysHandler env) p (fun _ => Off) s :=
  wp_post (wp_talked_quiet hp) fun _ _ ht => h.talked ht

theorem wp_off_files (hp : p.Uses Files) (h : Off s) : wp (sysHandler env) p (fun _ => Off) s :=
  wp_post (wp_steady_files hp) fun _ _ ht => h.talked ht.talked

theorem wp_off_streams (hp : p.Uses Streams) (h : Off s) : wp (sysHandler env) p (fun _ => Off) s :=
  wp_post (wp_talked_streams hp) fun _ _ ht => h.talked ht

theorem wp_off_request (opcode : UInt16) (m : Message) (wantLease : Bool) (flags : UInt32)
    (h : Off s) : wp (sysHandler env) (composerRequest n opcode m wantLease flags)
      (fun _ => Off) s :=
  wp_post (wp_talked_request n opcode m wantLease flags) fun _ _ ht => h.talked ht

theorem wp_off_bind {f : α → BrokerProg β} {Q : β → Sys ω → Prop}
    (hp : wp (sysHandler env) p (fun _ => Off) s)
    (hf : ∀ a t, Off t → wp (sysHandler env) (f a) Q t) :
    wp (sysHandler env) (p >>= f) Q s := by
  rw [wp_bind]
  exact wp_post hp hf

theorem wp_disarm (reason : String) : wp (sysHandler env) (disarm reason) (fun _ t => Keeps s t ∧
      t.vars.active = s.vars.active ∧ t.vars.composerFd = s.vars.composerFd) s := by
  simp only [disarm, wp_bind, wp_update]
  refine wp_post (wp_steady_files uses_recoverPreferredMode) fun _ t ht => ?_
  refine wp_post (wp_steady_quiet (uses_setDetail _)) fun _ u hu => ?_
  have hend := ht.trans hu
  have hactive := owner_active hend.owner
  exact ⟨hend.keeps, hactive, hend.composerFd⟩

/-! ## Arming -/

theorem wp_off_plain (hp : p.Uses Plain) (h : Off s) : wp (sysHandler env) p (fun _ => Off) s := by
  refine wp_returns (wp_process_invariant (I := fun t => Idle t ∧ t.vars.active = s.vars.active)
    ?_ (fun _ _ h => h) ?_ hp ⟨h.idle, rfl⟩) fun _ t ht => ⟨ht.1, ht.2.trans h.active⟩
  · exact fun t f hf ht => ⟨ht.1, (congrArg Prod.fst (hf t.vars)).trans ht.2⟩
  · intro t c a w hc ht _
    refine ⟨?_, ht.2⟩
    have hkind : c.kind ≠ .composer := by
      intro hkind
      have hmem : c.kind ∈ [IoKind.quiet, .config, .stream] := hc
      simp [hkind] at hmem
    rw [Idle, track, List.foldl_append]
    exact (congrArg Track.creating (track_step_of_kind (e := ⟨c, a⟩) _ hkind)).trans ht.1

/-- The functions that arm a request or probe the lease take no display. -/
theorem offParts : ApplyParts n (Restores (sysHandler env) (@Off ω)) where
  toCompositional := restores_compositional _ _
  plain hp _ h := wp_off_plain hp h
  assign hf s h := ⟨h.idle, Bool.eq_false_iff.2 fun ha => absurd ((hf _).1 ha) (by simp [h.active])⟩
  recover _ h := wp_off_files uses_recoverPreferredMode h
  request _ _ _ _ _ h := wp_off_request _ _ _ _ h
  set hf s h := ⟨h.idle, Bool.eq_false_iff.2 fun ha => absurd (hf _ ha) (by simp [h.active])⟩
  apply _ h := wp_off_files uses_applyPreferredMode h

theorem wp_off_arm (request : Message) (h : Off s) :
    wp (sysHandler env) (arm n request) (fun _ => Off) s :=
  offParts.arm offParts.armOpen request s h

theorem wp_off_advanceUnplugged (h : Off s) :
    wp (sysHandler env) advanceUnplugged (fun _ => Off) s :=
  ApplyParts.advanceUnplugged (n := 0) offParts s h

theorem wp_off_disarm (reason : String) (h : Off s) :
    wp (sysHandler env) (disarm reason) (fun _ => Off) s :=
  wp_post (wp_disarm reason) fun _ _ ht => ⟨ht.1.idle h.idle, ht.2.1.trans h.active⟩

/-! ## Parts of an iteration -/

theorem Released.ownsLease (h : Released s t) (hs : Idle s) : OwnsLease t :=
  OwnsLease.inactive (h.keeps.idle hs) h.active

theorem Holds.ownsLease (h : Holds s t) (hs : OwnsLease s) : OwnsLease t := by
  refine ⟨h.keeps.idle hs.idle, fun ha => ?_⟩
  obtain ⟨c, hc, hg⟩ := hs.lease ((owner_active h.owner).symm.trans ha)
  exact ⟨c, h.connection c hc, (h.keeps.track hs.idle).2.trans hg⟩

theorem Ends.ownsLease (h : Ends s t) (hs : OwnsLease s) : OwnsLease t := by
  rcases h with h | h
  · exact h.ownsLease hs.idle
  · exact h.ownsLease hs

theorem wp_owns {p : BrokerProg Unit} (h : OwnsLease s)
    (hactive : s.vars.active = true → wp (sysHandler env) p (fun _ => Ends s) s)
    (hoff : Off s → wp (sysHandler env) p (fun _ => OwnsLease) s) :
    wp (sysHandler env) p (fun _ => OwnsLease) s := by
  cases ha : s.vars.active with
  | true => exact wp_post (hactive ha) fun _ _ ht => ht.ownsLease h
  | false => exact hoff ⟨h.idle, ha⟩

theorem wp_off_releaseIfActive (reason : String) (tell : Bool) (h : Off s) :
    wp (sysHandler env) (releaseIfActive n reason tell) (fun _ => OwnsLease) s := by
  simp only [releaseIfActive, wp_bind, wp_getBroker, h.active]
  exact h.ownsLease

theorem wp_off_runComposer (revents : Revents) (h : Off s) :
    wp (sysHandler env) (runComposer n revents) (fun _ => OwnsLease) s := by
  simp only [runComposer, wp_bind, wp_getBroker]
  cases s.vars.composerFd with
  | none => exact h.ownsLease
  | some fd =>
    simp only [wp_ite, wp_bind, wp_pure]
    split
    · refine wp_post wp_closeComposer fun _ t ht => ?_
      exact wp_off_releaseIfActive _ _ (h.talked ⟨ht.keeps.idle, ht.1⟩)
    · split
      · refine wp_post (wp_handleComposerReadable fd) fun hotplug t hread => ?_
        have ht : Off t := h.talked hread.1.talked
        simp only [runHotplug, wp_bind, wp_getBroker, ht.active]
        cases hotplug with
        | connected => exact ht.ownsLease
        | invalid =>
          simp only [wp_ite, Bool.false_eq_true, if_false]
          split
          · exact wp_post (wp_off_disarm _ ht) fun _ _ h => h.ownsLease
          · exact ht.ownsLease
        | disconnected =>
          simp only [wp_ite, Bool.false_eq_true, if_false]
          split
          · exact Off.ownsLease ⟨ht.idle, ht.active⟩
          · exact ht.ownsLease
      · exact h.ownsLease

theorem wp_off_runAgent (revents : Revents) (h : Off s) :
    wp (sysHandler env) (runAgent n revents) (fun _ => OwnsLease) s := by
  simp only [runAgent, wp_bind, wp_getBroker]
  cases s.vars.agentFd with
  | none => exact h.ownsLease
  | some fd =>
    simp only [wp_ite, wp_bind, wp_pure, wp_update]
    split
    · refine wp_post (wp_off_quiet (uses_quietCall rfl) h) fun _ t h => ?_
      exact wp_off_releaseIfActive _ _ ⟨h.idle, h.active⟩
    · split
      · refine wp_post (wp_off_streams (uses_runAgentEvent fd) h) fun ok t h => ?_
        cases ok with
        | true => exact h.ownsLease
        | false => exact wp_off_releaseIfActive _ _ h
      · exact h.ownsLease

theorem wp_off_guarded (c : Broker → Bool) (p : Broker → BrokerProg Unit)
    (hc : c s.vars = false) (h : Off s) :
    wp (sysHandler env) (do let b ← getBroker; if c b then p b else pure ())
      (fun _ => OwnsLease) s := by
  simp only [wp_bind, wp_getBroker, hc]
  exact h.ownsLease

theorem wp_owns_disarmFor (text fallback : String) (h : OwnsLease s) :
    wp (sysHandler env) (disarmFor text fallback) (fun _ => OwnsLease) s := by
  simp only [disarmFor, wp_bind]
  refine wp_post (wp_disarm _) fun _ t ⟨hkeeps, hactive, hfd⟩ => ?_
  refine wp_post (wp_steady_quiet (uses_setDetail _)) fun _ u hu => ?_
  refine OwnsLease.steady ⟨hkeeps.idle h.idle, fun ha => ?_⟩ hu
  obtain ⟨c, hc, hg⟩ := h.lease (hactive.symm.trans ha)
  exact ⟨c, hfd.trans hc, (hkeeps.track h.idle).2.trans hg⟩

theorem wp_off_advancePlugged (now : Int) (h : Off s) :
    wp (sysHandler env) (advancePlugged n now) (fun _ => OwnsLease) s := by
  simp only [advancePlugged, advanceWaiting, setDetail, wp_bind, wp_getBroker, wp_ite, wp_update,
    wp_pure]
  have hoff : ∀ {b : Broker}, b.active = s.vars.active →
      OwnsLease { s with vars := b } := fun hb => OwnsLease.inactive h.idle (hb.trans h.active)
  split
  · exact hoff rfl
  · split
    · exact hoff rfl
    · split
      · exact hoff rfl
      · split
        · exact hoff rfl
        · split
          · exact hoff rfl
          · refine wp_post (wp_start n probeXorgLegacy (hoff rfl)) fun r t ht => ?_
            split
            · exact wp_owns_disarmFor _ _ ht
            · exact ht

/-- `AdvanceArmed` takes the display only through `Start`. -/
theorem wp_off_advanceArmed (h : Off s) :
    wp (sysHandler env) (advanceArmed n) (fun _ => OwnsLease) s := by
  unfold advanceArmed
  refine wp_off_bind (wp_off_quiet uses_monotonicMs h) fun now t h => ?_
  rw [wp_bind, wp_getBroker, wp_ite]
  split
  · exact h.ownsLease
  · rw [wp_bind, wp_update]
    refine wp_off_bind (wp_off_request _ _ _ _ ⟨h.idle, h.active⟩) fun reply t h => ?_
    rw [wp_ite]
    split
    · exact OwnsLease.inactive h.idle h.active
    · rw [wp_bind, wp_getBroker, wp_ite]
      split
      · exact wp_off_advancePlugged now h
      · exact wp_post (wp_off_advanceUnplugged h) fun _ _ h => h.ownsLease

theorem wp_off_runArmed (h : Off s) : wp (sysHandler env) (runArmed n) (fun _ => OwnsLease) s := by
  simp only [runArmed, wp_bind, wp_getBroker, wp_ite]
  split
  · exact wp_off_advanceArmed h
  · exact h.ownsLease

/-- The parts after the client's keep `OwnsLease`. -/
theorem wp_owns_runPeers (revents : List Revents) (h : OwnsLease s) :
    wp (sysHandler env) (runPeers n revents) (fun _ => OwnsLease) s := by
  simp only [runPeers, wp_bind]
  refine wp_post (wp_owns h (wp_runComposer_active n _) (wp_off_runComposer _)) fun _ t h => ?_
  refine wp_post (wp_owns h (wp_runAgent_active n _) (wp_off_runAgent _)) fun _ t h => ?_
  refine wp_post (wp_owns h (wp_runVolumes_active n _ _)
    fun hoff => wp_off_guarded Broker.active _ hoff.active hoff) fun _ t h => ?_
  refine wp_post (wp_owns h (wp_runHeartbeat_active n) fun hoff =>
    wp_off_guarded (fun b => b.active && b.sessionContinuous) _ (by rw [hoff.active]; rfl) hoff)
    fun _ t h => ?_
  refine wp_post (wp_owns h (wp_runDeadline_active n)
    fun hoff => wp_off_guarded Broker.active _ hoff.active hoff) fun _ t h => ?_
  exact wp_owns h (wp_runArmed_active n) wp_off_runArmed

/-! ## Clients -/

theorem wp_off_respond (request : Message) (result : Int) (text : String) (keep : Bool)
    (h : Off s) : wp (sysHandler env) (respond request result text keep) (fun _ => Off) s :=
  wp_off_quiet (uses_respond _ _ _ _) h

theorem wp_off_serveToggle (request response : Message) (h : Off s) :
    wp (sysHandler env) (serveToggle n request response) (fun _ => Off) s := by
  simp only [serveToggle, wp_bind, wp_getBroker, h.active, Bool.false_eq_true, if_false, wp_ite]
  split
  · exact wp_post (wp_off_disarm _ h) fun _ _ h => wp_off_quiet (uses_status _) h
  · refine wp_post (wp_off_quiet (uses_quietCall rfl) h) fun diagnostic t h => ?_
    split
    · exact h
    · exact wp_post (wp_off_arm request h) fun _ _ h => wp_off_respond _ _ _ _ h

theorem wp_off_serveDisarm (request : Message) (h : Off s) :
    wp (sysHandler env) (serveDisarm n request) (fun _ => Off) s := by
  simp only [serveDisarm, stopOrDisarm, wp_bind, wp_getBroker, h.active, Bool.false_eq_true,
    if_false]
  exact wp_post (wp_off_disarm _ h) fun _ _ h => wp_off_quiet (uses_status _) h

theorem wp_off_probe (request : Message) (h : Off s) :
    wp (sysHandler env) (probe n request) (fun _ => OwnsLease) s := by
  simp only [probe, wp_ite, wp_pure]
  split
  · exact wp_post (offParts.probeLease s h) fun _ _ h => h.ownsLease
  · split
    · exact wp_start n _ h.ownsLease
    · exact h.ownsLease

/-- Among the requests of a client only a probe can take the display. -/
theorem wp_off_serveRequest (root : Bool) (request : Message) (h : Off s) :
    wp (sysHandler env) (serveRequest n root request) (fun _ => OwnsLease) s := by
  unfold serveRequest
  refine wp_off_bind (wp_off_quiet (uses_status _) h) fun response t h => ?_
  have hall : wp (sysHandler env) (serveProbe n root request response) (fun _ => OwnsLease) t := by
    simp only [serveProbe, wp_ite, wp_bind, wp_pure]
    split
    · exact h.ownsLease
    · refine wp_post (wp_off_probe request h) fun _ _ h => ?_
      exact wp_post (wp_steady_quiet (uses_respond _ _ _ _)) fun _ _ ht => h.steady ht
  have howns : ∀ {p : BrokerProg Message}, wp (sysHandler env) p (fun _ => Off) t →
      wp (sysHandler env) p (fun _ => OwnsLease) t :=
    fun hp => wp_post hp fun _ _ h => h.ownsLease
  simp only [wp_ite]
  split
  · exact howns (wp_off_serveToggle request response h)
  · split
    · exact howns (wp_off_bind (wp_off_files (uses_files (uses_setMode request)) h)
        fun _ _ h => wp_off_respond _ _ _ _ h)
    · split
      · exact howns (wp_off_bind (wp_off_arm request h) fun _ _ h => wp_off_respond _ _ _ _ h)
      · split
        · exact howns (wp_off_serveDisarm request h)
        · split
          · exact hall
          · split
            · exact h.ownsLease
            · exact h.ownsLease

theorem wp_off_refused (client : Fd) (id : UInt32) (f : Message → Message) (h : Off s) :
    wp (sysHandler env) (do
      let m ← status id
      let _ ← writeFull client (f m)
      closeFd client) (fun _ => Off) s :=
  wp_post (wp_refused_apart client id f (Beside.refl s)) fun _ _ ht => h.talked ht.steady.talked

theorem wp_off_registerAgent (client : Fd) (request : Message) (h : Off s) :
    wp (sysHandler env) (registerAgent client request) (fun _ => Off) s := by
  simp only [registerAgent]
  rw [wp_bind, wp_getBroker, wp_ite]
  split
  · exact wp_off_refused client request.requestId (fun m =>
      { m with status := errProtocol, detail := "unknown agent registration flag" }) h
  · rw [wp_ite]
    split
    · exact wp_off_refused client request.requestId (fun m => { m with status := errBusy }) h
    · rw [wp_bind, wp_update]
      refine wp_off_bind (wp_off_quiet (uses_status _) ⟨h.idle, h.active⟩) fun _ t h => ?_
      exact wp_off_bind (wp_off_streams (uses_call (by simp [Io.kind])) h) fun _ _ h => h

theorem wp_off_serveClient (client : Fd) (root : Bool) (request : Message) (h : Off s) :
    wp (sysHandler env) (serveClient n client root request) (fun _ => OwnsLease) s := by
  unfold serveClient
  rw [wp_ite]
  split
  · exact wp_post (wp_off_registerAgent client request h) fun _ _ h => h.ownsLease
  · refine wp_off_bind (wp_off_request _ _ _ _ h) fun _ t h => ?_
    simp only [wp_bind]
    refine wp_post (wp_off_serveRequest root request h) fun response t h => ?_
    refine wp_post (wp_steady_streams (uses_call (by simp [Io.kind]))) fun _ u hu => ?_
    exact wp_post (wp_steady_quiet (uses_quietCall rfl)) fun _ _ hv => h.steady (hu.trans hv)

/-- `AcceptClient` takes the display only through `Start`. -/
theorem wp_off_runClient (listen : Revents) (h : Off s) :
    wp (sysHandler env) (runClient n listen) (fun _ => OwnsLease) s := by
  have hclose : ∀ (client : Fd) {t : Sys ω}, Off t →
      wp (sysHandler env) (closeFd client) (fun _ => OwnsLease) t :=
    fun client _ h => wp_post (wp_off_quiet (uses_quietCall rfl) h) fun _ _ h => h.ownsLease
  simp only [runClient, acceptClient, acceptedClient, wp_ite, wp_pure]
  split
  · refine wp_off_bind (wp_off_quiet uses_acceptConnection h) fun accepted t h => ?_
    cases accepted with
    | none => exact h.ownsLease
    | some client =>
      refine wp_off_bind (wp_off_quiet (uses_quietCall rfl) h) fun uid t h => ?_
      cases uid with
      | none => exact hclose client h
      | some uid =>
        refine wp_off_bind (wp_off_streams (uses_call (by simp [Io.kind])) h) fun r t h => ?_
        rw [wp_ite]
        split
        · exact hclose client h
        · simp only [answerClient]
          refine wp_off_bind (wp_off_quiet (uses_quietCall rfl) h) fun packages t h => ?_
          rw [wp_ite]
          split
          · exact wp_post (wp_off_refused client r.message.requestId (fun m =>
              { m with status := errPermission, detail := "peer uid is not authorized" }) h)
              fun _ _ h => h.ownsLease
          · exact wp_off_serveClient client _ r.message h
  · exact h.ownsLease

/-! ## Runs -/

theorem ownsLease_of_startup {w : ω}
    (h : runStartup.run (sysHandler env) (Sys.initial w) = (some true, s)) : OwnsLease s := by
  have hinit : Off (Sys.initial w) := ⟨rfl, rfl⟩
  refine wp_returned (Q := fun _ => OwnsLease) (H := fun _ => True) ?_ h
  unfold runStartup
  refine wp_off_bind (wp_off_files (uses_files uses_loadConfiguredMode) hinit) fun _ t h => ?_
  refine wp_off_bind (wp_off_files uses_recoverPreferredMode h) fun _ t h => ?_
  refine wp_off_bind (wp_off_quiet (uses_quietCall rfl) h) fun ok t h => ?_
  refine wp_off_bind (wp_off_quiet (uses_opened ok) h) fun listen t h => ?_
  exact OwnsLease.inactive h.idle h.active

/-- A client that broke no exchange leaves the lease with its connection. -/
theorem Iteration.client_ownsLease (it : Iteration env n s t) (h : OwnsLease it.polled)
    (hactive : it.polled.vars.active = s.vars.active)
    (hwhole : s.vars.active = true → it.ExchangeWhole) : OwnsLease it.served := by
  cases hs : s.vars.active with
  | false => exact wp_returned (wp_off_runClient _ ⟨h.idle, hactive.trans hs⟩) it.runs_client
  | true =>
    rcases it.serves hs with hr | ha | ⟨hasked, hend⟩
    · exact hr.ownsLease h.idle
    · exact h.steady ha.steady
    · obtain ⟨calls, hl⟩ := hasked.extends
      have hcalls : it.clientCalls = calls := by rw [Iteration.clientCalls, hl, List.drop_left]
      have hunbroken : (track calls).broken = false :=
        Bool.eq_false_iff.2 fun hb => hend (hwhole hs (hcalls ▸ hb))
      refine ⟨hasked.keeps.idle h.idle, fun ha => ?_⟩
      obtain ⟨c, hc, hg⟩ := h.lease ((owner_active hasked.owner).symm.trans ha)
      exact ⟨c, hasked.connection hl hunbroken c hc, (hasked.keeps.track h.idle).2.trans hg⟩

theorem Iteration.ownsLease (it : Iteration env n s t) (h : OwnsLease s)
    (hwhole : s.vars.active = true → it.ExchangeWhole) : OwnsLease t := by
  have hpolled := h.steady it.polled_apart.steady
  have hactive := owner_active it.polled_apart.owner
  have hserved := it.client_ownsLease hpolled hactive hwhole
  exact wp_returned (wp_owns_runPeers it.revents hserved) it.runs_peers

theorem Run.ownsLease {rounds : List (Round env n)} (hrun : Run env n rounds s)
    (hwhole : ∀ r ∈ rounds, r.before.vars.active = true → r.iteration.ExchangeWhole) :
    OwnsLease s := by
  induction hrun with
  | start h => exact ownsLease_of_startup h
  | interrupted _ htest hpoll ih =>
    have hs := ih hwhole
    have hentered := wp_returned (wp_steady_quiet (uses_quietCall rfl)) htest
    have hpolled := wp_returned (wp_steady_quiet uses_runPoll) hpoll
    exact hs.steady (hentered.trans hpolled)
  | iteration it _ ih =>
    have hs := ih fun r hr => hwhole r (by simp [hr])
    exact it.ownsLease hs (hwhole _ List.mem_cons_self)

/-- In every run of the broker in which no client breaks an exchange with the composer during a
    session, a session that is active between two iterations holds the composer connection on which
    its lease was created. -/
theorem active_session_owns_lease {rounds : List (Round env n)} (hrun : Run env n rounds s)
    (hwhole : ∀ r ∈ rounds, r.before.vars.active = true → r.iteration.ExchangeWhole)
    (hactive : s.vars.active = true) :
    ∃ c, s.vars.composerFd = some c ∧ (track s.log).granted = some c :=
  (hrun.ownsLease hwhole).lease hactive

/-- A client asks for the status during a session, and the composer answers. -/
def wholeScript : Bench :=
  { polls := [clientReadable]
    streams := [streamScriptMessage opStatus 0]
    composer := [granted false] }

/-- A client asks for the status during a session, and the composer answers another request. -/
def brokenScript : Bench :=
  { polls := [clientReadable]
    streams := [streamScriptMessage opStatus 0]
    composer := [.event (composerScriptMessage opResponse flagConnected)] }

theorem active_session_owns_lease_takeover :
    ∃ (rounds : List (Round benchEnv 8)) (s : Sys Bench), Run benchEnv 8 rounds s ∧
      (∀ r ∈ rounds, r.before.vars.active = true → r.iteration.ExchangeWhole) ∧
      s.vars.active = true ∧
      ∃ c, s.vars.composerFd = some c ∧ (track s.log).granted = some c := by
  obtain ⟨r, rounds, hrun, hcheck⟩ := exists_takeover wholeScript clientReadable
    (fun r rounds => r.after.vars.active &&
      (r :: rounds).all fun r => !(track r.iteration.clientCalls).broken) (by decide +kernel)
  rw [Bool.and_eq_true] at hcheck
  have hwhole : ∀ r' ∈ r :: rounds, r'.before.vars.active = true → r'.iteration.ExchangeWhole := by
    intro r' hr' _ hbroken
    simpa [hbroken] using List.all_eq_true.1 hcheck.2 r' hr'
  exact ⟨_, _, hrun, hwhole, hcheck.1, active_session_owns_lease hrun hwhole hcheck.1⟩

/-- A session outlives the composer connection that a status request of a client closed. -/
theorem client_closes_lease_connection :
    ∃ (rounds : List (Round benchEnv 8)) (s : Sys Bench), Run benchEnv 8 rounds s ∧
      s.vars.active = true ∧ s.vars.composerFd = none := by
  obtain ⟨r, rounds, hrun, hcheck⟩ := exists_takeover brokenScript clientReadable
    (fun r _ => r.after.vars.active && r.after.vars.composerFd.isNone) (by decide +kernel)
  rw [Bool.and_eq_true, Option.isNone_iff_eq_none] at hcheck
  exact ⟨_, _, hrun, hcheck⟩

end HdmiLos
