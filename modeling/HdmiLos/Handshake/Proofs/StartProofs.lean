import HdmiLos.Handshake.Proofs.AgreementProofs

/-!
# The handshake of `Start`

Each wait of `Start` ends well only after an `AGENT_READY` was read behind the request, and nothing
is sent to the agent in between.
-/

namespace HdmiLos.Handshake

open Interaction Prog List

variable {ω α : Type} {S : Surroundings ω} {w w' : Pair ω} {s t : Sys (Pair ω)} {n : Nat} {x : Sent}

/-! ## The calls of the handshake -/

theorem lastExchange_mem {hist : List Happening} {y : Option Taken}
    (h : lastExchange hist = some (x, y)) : .sent x ∈ hist := by
  induction hist generalizing y with
  | nil => cases h
  | cons e hist ih =>
    cases e with
    | sent x' =>
      obtain ⟨rfl, -⟩ := Prod.mk.inj (Option.some.inj h)
      exact mem_cons_self
    | taken t =>
      obtain ⟨y', hy'⟩ := lastExchange_taken h
      exact mem_cons_of_mem _ (ih hy')
    | replied fd serial m => exact mem_cons_of_mem _ (ih h)
    | passed q => exact mem_cons_of_mem _ (ih h)

theorem pairEnv_read {fd : Fd} {received : Received}
    (h : pairEnv S (.readFull fd) w = some (received, w')) :
    (received.ok = false ∧ lastExchange w'.hist = lastExchange w.hist) ∨
    (received.ok = true ∧ ∃ re, lastExchange w'.hist =
      (lastExchange w.hist).map fun e => (e.1, some ⟨fd, re, received.message⟩)) := by
  rw [← moved_exchange S (.readFull fd) w]
  have htake : ∃ r received', { moved S (.readFull fd) w with rest := r }.take fd received' =
      some (received, w') := by
    simp only [pairEnv, Surroundings.answer] at h
    split at h
    · cases h
    · rename_i received' r _
      exact ⟨r, received', h⟩
  obtain ⟨r, received', htake⟩ := htake
  rcases take_cases htake with ⟨hok, rfl⟩ | ⟨hok, -, rfl⟩ | ⟨hok, l, y, rest, -, -, hm, rfl⟩
  · exact Or.inl ⟨hok, rfl⟩
  · exact Or.inr ⟨hok, none, rfl⟩
  · exact Or.inr ⟨hok, y.re, by rw [hm]; rfl⟩

theorem pairEnv_write {fd : Fd} {m : Message} {ok : Bool}
    (h : pairEnv S (.writeFull fd m) w = some (ok, w')) :
    if ok && m.isAgentRequest then
      ∃ serial idle, lastExchange w'.hist = some (⟨fd, serial, m, false, idle⟩, none)
    else lastExchange w'.hist = lastExchange w.hist := by
  rw [← moved_exchange S (.writeFull fd m) w]
  simp only [pairEnv, Surroundings.answer] at h
  split at h
  · cases h
  · rename_i ok' r _
    obtain ⟨rfl, rfl⟩ := Prod.mk.inj (Option.some.inj h)
    cases ok' with
    | false => rfl
    | true =>
      cases hm : m.isAgentRequest with
      | true => exact ⟨_, _, by simp [Pair.deliver, Pair.note, hm, lastExchange]; exact ⟨rfl, rfl⟩⟩
      | false => simp [Pair.deliver, Pair.note, Pair.setLink, hm, moved]

theorem pairEnv_send {fd lease : Fd} {m : Message} {ok : Bool} (hm : m.isAgentRequest = true)
    (h : pairEnv S (.sendWithFd fd m (some lease)) w = some (ok, w')) :
    w'.hist = (if ok then [.sent ⟨fd, (moved S (.sendWithFd fd m (some lease)) w).hist.length, m, true,
      (moved S (.sendWithFd fd m (some lease)) w).idle fd⟩] else []) ++
        (moved S (.sendWithFd fd m (some lease)) w).hist := by
  simp only [pairEnv, Surroundings.answer] at h
  split at h
  · cases h
  · rename_i ok' r _
    obtain ⟨rfl, rfl⟩ := Prod.mk.inj (Option.some.inj h)
    cases ok' with
    | false => rfl
    | true => simp [Pair.deliver, Pair.note, hm, moved]; rfl

theorem pairEnv_log {t : Transition} {q : UInt16} {a : Unit} (ht : passedWait t = some q)
    (h : pairEnv S (.logTransition t) w = some (a, w')) :
    w'.hist = .passed q :: (moved S (.logTransition t) w).hist := by
  simp only [pairEnv, Surroundings.answer] at h
  split at h
  · cases h
  · rename_i a r _
    obtain ⟨-, rfl⟩ := Prod.mk.inj (Option.some.inj h)
    simp [Pair.note, ht, moved]

/-! ## The exchange with the agent -/

/-- The owner of the display and the exchange with the agent are the same. -/
structure Same (s t : Sys (Pair ω)) : Prop where
  owner : t.vars.owner = s.vars.owner
  exchange : lastExchange t.world.hist = lastExchange s.world.hist

variable {p : BrokerProg α}

theorem wp_same (hp : p.Uses Composing) :
    wp (sysHandler (pairEnv S)) p (fun _ => Same s) s (Same s) := by
  refine wp_process_invariant ?_ (fun _ _ h => ⟨h.owner, h.exchange⟩) ?_ hp ⟨rfl, rfl⟩
  · intro t f hf ht
    exact ⟨(hf t.vars).trans ht.owner, ht.exchange⟩
  · intro t c a w' hc ht hstep
    refine ⟨ht.owner, Eq.trans ?_ ht.exchange⟩
    have haside := (effect_of_env hstep).aside hc
    rw [moved_exchange] at haside
    exact haside

/-- There is no session, and this is the agent. -/
structure Waiting (agent : Fd) (s : Sys (Pair ω)) : Prop where
  active : s.vars.active = false
  agentFd : s.vars.agentFd = some agent

variable {agent : Fd}

theorem Waiting.owner (h : Waiting agent s) (ht : t.vars.owner = s.vars.owner) :
    Waiting agent t := by
  have hactive : t.vars.active = s.vars.active := congrArg Prod.fst ht
  have hagent : t.vars.agentFd = s.vars.agentFd := congrArg (fun o => o.2.2.1) ht
  exact ⟨hactive.trans h.active, hagent.trans h.agentFd⟩

/-- The request `x` was sent to the agent, and none after it. -/
structure Asked (x : Sent) (s : Sys (Pair ω)) : Prop where
  waiting : Waiting x.fd s
  exchange : ∃ y, lastExchange s.world.hist = some (x, y)

theorem Asked.same (h : Asked x s) (ht : Same s t) : Asked x t := by
  obtain ⟨y, hy⟩ := h.exchange
  exact ⟨h.waiting.owner ht.owner, y, ht.exchange.trans hy⟩

/-- After the request `x` the last message that was read is an `AGENT_READY` with `OK`. -/
structure Heard (x : Sent) (s : Sys (Pair ω)) : Prop where
  waiting : Waiting x.fd s
  exchange : ∃ re m, lastExchange s.world.hist = some (x, some ⟨x.fd, re, m⟩) ∧
    m.opcode = opAgentReady ∧ m.status = statusOk

theorem Heard.same (h : Heard x s) (ht : Same s t) : Heard x t := by
  obtain ⟨re, m, hm, hready⟩ := h.exchange
  exact ⟨h.waiting.owner ht.owner, re, m, ht.exchange.trans hm, hready⟩

theorem Heard.asked (h : Heard x s) : Asked x s := by
  obtain ⟨re, m, hm, -⟩ := h.exchange
  exact ⟨h.waiting, _, hm⟩

theorem wp_asked (hp : p.Uses Composing) (h : Asked x s) :
    wp (sysHandler (pairEnv S)) p (fun _ => Asked x) s :=
  wp_returns (wp_same hp) fun _ _ ht => h.same ht

theorem wp_handleAgentEvent (event : Message) (h : Asked x s) :
    wp (sysHandler (pairEnv S)) (handleAgentEvent x.fd event) (fun _ => Asked x) s := by
  unfold handleAgentEvent
  rw [wp_ite]
  split
  · refine wp_seq (wp_asked (composing_quiet (uses_logTransition rfl)) h) fun _ t ht => ?_
    rw [wp_bind, wp_makeMessage]
    refine wp_call _ trivial fun (ok : Bool) w hwrite => ?_
    have hexchange := pairEnv_write hwrite
    have hrequest : Message.isAgentRequest
        { magic := hdmiLosMagic, version := hdmiLosBrokerVersion, opcode := opAgentProgressAck,
          requestId := event.requestId, status := statusOk, flags := event.flags } = false := rfl
    rw [hrequest, Bool.and_false] at hexchange
    obtain ⟨y, hy⟩ := ht.exchange
    exact ⟨⟨ht.waiting.active, ht.waiting.agentFd⟩, y, Eq.trans hexchange hy⟩
  · exact h

theorem wp_waitAgentRead (h : Asked x s) :
    wp (sysHandler (pairEnv S)) (waitAgentRead x.fd opAgentReady)
      (fun r t => Sum.elim (fun _ => Asked x t) (fun r => r.1 = true → Heard x t) r) s := by
  unfold waitAgentRead
  rw [wp_bind]
  refine wp_call _ trivial fun (received : Received) w hread => ?_
  obtain ⟨y, hy⟩ := h.exchange
  rcases pairEnv_read hread with ⟨hok, -⟩ | ⟨-, re, hexchange⟩
  · -- the connection is lost
    simp [hok]
  · rw [hy, Option.map_some] at hexchange
    have hasked : Asked x { s with log := s.log ++ [⟨.readFull x.fd, received⟩], world := w } :=
      ⟨⟨h.waiting.active, h.waiting.agentFd⟩, _, hexchange⟩
    simp only [wp_ite, wp_pure]
    split
    · simp
    · split
      · refine wp_seq (wp_handleAgentEvent received.message hasked) fun ok t ht => ?_
        rw [wp_ite]
        split
        · exact ht
        · simp
      · split
        · intro hready
          simp only [Bool.and_eq_true, beq_iff_eq] at hready
          exact ⟨hasked.waiting, re, received.message, hexchange, hready⟩
        · exact hasked

theorem wp_waitAgentReady (revents : List Revents) (buffer : Message) (h : Asked x s) :
    wp (sysHandler (pairEnv S)) (waitAgentReady n opAgentReady revents buffer)
      (fun r t => Sum.elim (fun _ => Asked x t) (fun r => r.1 = true → Heard x t) r) s := by
  simp only [waitAgentReady, wp_bind, wp_getBroker, wp_ite, wp_pure]
  split
  · simp
  · refine wp_post (wp_asked (composing_quiet (uses_volumesUpdate _ _ _)) h) fun escaped t ht => ?_
    split
    · simp
    · refine wp_post (wp_asked (composing_waitAgentComposer _ _) ht) fun kept t ht => ?_
      split
      · simp
      · refine wp_post (wp_asked (composing_quiet uses_deadlineReached) ht) fun late t ht => ?_
        split
        · simp
        · rw [h.waiting.agentFd]
          cases (revents.getD 0 {}).input with
          | true => exact wp_waitAgentRead ht
          | false => exact ht

/-- `WaitAgent` succeeds only after it has read an `AGENT_READY` with `OK`. -/
theorem wp_waitAgent (timeoutMs : Int) (buffer : Message) (h : Asked x s) :
    wp (sysHandler (pairEnv S)) (waitAgent n opAgentReady timeoutMs buffer)
      (fun r t => r.1 = true → Heard x t) s := by
  unfold waitAgent
  refine wp_seq (wp_asked (composing_quiet uses_monotonicMs) h) fun now t ht => ?_
  refine wp_loop _ (fun _ t => Asked x t) (fun _ _ _ => trivial) ?_ n buffer ht
  intro buffer t ht
  unfold waitAgentRound
  refine wp_seq (wp_asked (composing_quiet uses_monotonicMs) ht) fun now t ht => ?_
  rw [wp_ite]
  split
  · simp
  · rw [wp_bind, wp_getBroker]
    refine wp_seq (wp_asked (composing_quiet (uses_waitAgentRemaining _)) ht) fun remaining t ht => ?_
    rw [wp_ite]
    split
    · simp
    · refine wp_seq (wp_asked (composing_quiet (uses_pollFds _ _)) ht) fun polled t ht => ?_
      cases polled with
      | interrupted => exact ht
      | failed => simp
      | ready revents => exact wp_waitAgentReady revents buffer ht

/-! ## The waits that were passed -/

/-- A wait that was passed on an idle connection was confirmed. -/
theorem Heard.confirmed (h : Heard x s) (hsound : Sound s.world) (hidle : x.idle = true) :
    Confirmed x.message.opcode s.world.hist := by
  obtain ⟨re, m, hm, hready, hok⟩ := h.exchange
  obtain ⟨hre, hreplied, -⟩ := hsound.taken x ⟨x.fd, re, m⟩ hm hidle rfl hready
  obtain rfl : re = some x.serial := hre
  exact ⟨x, m, hm, rfl, hreplied, hready, hok⟩

/-- The request was sent on an idle connection, if every session was prepared on one. -/
def Prompt (x : Sent) : Prop := x.message.opcode = opAgentPrepare ∨ x.lease = true

theorem Inv.idle (h : Inv s) (hx : Asked x s) (hprompt : Prompt x)
    (hidle : IdleAtPrepare s.world.hist) : x.idle = true := by
  obtain ⟨y, hy⟩ := hx.exchange
  have hmem := lastExchange_mem hy
  rcases hprompt with hprepare | hlease
  · exact hidle x hmem hprepare
  · exact h.handed hidle x hmem hlease

theorem wp_inv (hp : p.Uses NoHandover) (h : Inv s) :
    wp (sysHandler (pairEnv S)) p (fun _ => Inv) s Inv :=
  preserves_inv hp s h

theorem wp_inv_calm (hp : p.Uses Calm) (h : Inv s) :
    wp (sysHandler (pairEnv S)) p (fun _ => Inv) s Inv :=
  wp_inv (noHandover_calm hp) h

/-- A program that leaves the exchange alone keeps what was heard. -/
theorem wp_heard (hp : p.Uses Composing) (h : Inv s) (hx : Heard x s) :
    wp (sysHandler (pairEnv S)) p (fun _ t => Inv t ∧ Heard x t) s Inv :=
  wp_mono (wp_and (wp_inv_calm (calm_composing hp) h) (wp_same hp))
    (fun _ _ ht => ⟨ht.1, hx.same ht.2⟩) fun _ ht => ht.1

/-- A program that leaves the exchange alone keeps the agent. -/
theorem wp_waiting (hp : p.Uses Composing) (h : Inv s) (hw : Waiting agent s) :
    wp (sysHandler (pairEnv S)) p (fun _ t => Inv t ∧ Waiting agent t) s Inv :=
  wp_mono (wp_and (wp_inv_calm (calm_composing hp) h) (wp_same hp))
    (fun _ _ ht => ⟨ht.1, hw.owner ht.2.owner⟩) fun _ ht => ht.1

theorem wp_passed {t : Transition} (ht : passedWait t = some x.message.opcode) (h : Inv s)
    (hx : Heard x s) (hprompt : Prompt x) :
    wp (sysHandler (pairEnv S)) (logTransition t) (fun _ u => Inv u ∧ Heard x u ∧
      ∃ past, u.world.hist = .passed x.message.opcode :: past) s Inv := by
  refine wp_call _ h fun a w hlog => ?_
  have hhist := pairEnv_log ht hlog
  obtain ⟨new, hnew, hreply⟩ := moves_hist s.world (S.moves (.logTransition t) s.world.rest)
  have hmoved : (moved S (.logTransition t) s.world).hist = new ++ s.world.hist := hnew
  rw [hmoved] at hhist
  have hcalm : ∀ e ∈ new, e.isCalm = true := fun e he => Happening.isCalm_of_isReply (hreply e he)
  have hnotSent : ∀ y, .sent y ∈ w.hist → .sent y ∈ s.world.hist := by
    intro y hy
    rw [hhist] at hy
    rcases mem_cons.1 hy with hy | hy
    · cases hy
    · rcases mem_append.1 hy with hy | hy
      · cases hreply _ hy
      · exact hy
  have hidle : IdleAtPrepare w.hist → IdleAtPrepare s.world.hist := by
    intro hw
    rw [hhist, ← cons_append] at hw
    exact hw.older
  have hexchange : lastExchange w.hist = lastExchange s.world.hist := by
    rw [hhist]
    exact lastExchange_replies hreply _
  refine ⟨⟨sound_of_env h.sound hlog, ?_, ?_, ?_⟩, hx.same ⟨rfl, hexchange⟩,
    new ++ s.world.hist, hhist⟩
  · intro hw y hy hlease
    exact h.handed (hidle hw) y (hnotSent y hy) hlease
  · intro hw
    have hconfirmed : Confirmed x.message.opcode (new ++ s.world.hist) := by
      have hpast := hx.confirmed h.sound (h.idle hx.asked hprompt (hidle hw))
      obtain ⟨y, m, hm, hrequest, hmem, hready⟩ := hpast
      refine ⟨y, m, ?_, hrequest, mem_append_right _ hmem, hready⟩
      rw [lastExchange_replies hreply]
      exact hm
    show Agreed w.hist
    rw [hhist]
    exact ((h.agreed (hidle hw)).calm hcalm).passed hconfirmed
  · intro hactive
    have hfalse := hx.waiting.active
    exact absurd (hfalse.symm.trans hactive) (by simp)

/-! ## The steps of `Start` -/

theorem wp_wait (timeoutMs : Int) (buffer : Message) (h : Inv s) (hx : Asked x s) :
    wp (sysHandler (pairEnv S)) (waitAgent n opAgentReady timeoutMs buffer)
      (fun r t => Inv t ∧ (r.1 = true → Heard x t)) s Inv :=
  wp_mono (wp_and (wp_inv_calm (calm_waitAgent _ _ _) h) (wp_waitAgent timeoutMs buffer hx))
    (fun _ _ ht => ht) fun _ ht => ht.1

theorem wp_prepareAgent (probeMode : UInt32) (h : Inv s) (hw : Waiting agent s) :
    wp (sysHandler (pairEnv S)) (prepareAgent n agent probeMode) (fun ready t => Inv t ∧
      (ready = true → ∃ x, x.fd = agent ∧ x.message.opcode = opAgentPrepare ∧ Heard x t)) s Inv := by
  unfold prepareAgent
  rw [wp_bind, wp_makeMessage, wp_bind]
  have h' : Inv { s with vars := { s.vars with nextRequestId := s.vars.nextRequestId + 1 } } :=
    ⟨h.sound, h.handed, h.agreed, h.started⟩
  refine wp_call _ h' fun (ok : Bool) w hwrite => ?_
  have hstepped := h'.step (by simp [Io.kind]) hwrite
  have hexchange := pairEnv_write hwrite
  cases ok with
  | false => exact ⟨hstepped, by simp⟩
  | true =>
    obtain ⟨serial, idle, hexchange⟩ := hexchange
    simp only [if_true, wp_bind]
    refine wp_post (wp_wait (x := ⟨agent, serial, _, false, idle⟩) _ _ hstepped
      ⟨⟨hw.active, hw.agentFd⟩, none, hexchange⟩) ?_
    rintro ⟨ready, response⟩ t ⟨ht, hready⟩
    exact ⟨ht, fun hr => ⟨_, rfl, rfl, hready hr⟩⟩

/-- The exchange of `AGENT_PREPARE` and its reply. -/
theorem wp_startPrepare (probeMode : UInt32) (h : Inv s) (hw : Waiting agent s) :
    wp (sysHandler (pairEnv S)) (startPrepare n agent probeMode) (fun r t => Inv t ∧
      ∀ u, r = Sum.inr u → ∃ x, x.fd = agent ∧ x.message.opcode = opAgentPrepare ∧ Heard x t)
      s Inv := by
  unfold startPrepare
  refine wp_seq (wp_waiting (composing_quiet (uses_logTransition rfl)) h hw) fun _ t ht => ?_
  refine wp_seq (wp_prepareAgent probeMode ht.1 ht.2) fun ready t ht => ?_
  cases ready with
  | true =>
    obtain ⟨x, hfd, hprepare, hheard⟩ := ht.2 rfl
    simp only [if_true, wp_bind]
    refine wp_post (wp_passed (by rw [hprepare]; rfl) ht.1 hheard (Or.inl hprepare)) fun _ t ht => ?_
    exact ⟨ht.1, fun _ _ => ⟨x, hfd, hprepare, ht.2.1⟩⟩
  | false =>
    simp only [Bool.false_eq_true, if_false, wp_bind]
    refine wp_post (wp_inv_calm (calm_streams (uses_sendAgentStop agent)) ht.1) fun _ t ht => ?_
    refine wp_post (wp_inv_calm (calm_quiet uses_cleanupGuards) ht) fun _ t ht => ?_
    exact ⟨ht, fun _ h => by cases h⟩

/-- A phase of the acquisition sends nothing to the agent, unless it fails. -/
theorem wp_startAcquire {stage : Stage}
    (hstage : ∀ edge, (Transition.takeover stage edge).kind = .quiet) (flags : UInt32)
    (wantLease : Bool) (text : String) (h : Inv s) (hx : Heard x s) :
    wp (sysHandler (pairEnv S)) (startAcquire n agent stage flags wantLease text)
      (fun r t => Inv t ∧ ∀ reply, r = Sum.inr reply → Heard x t) s Inv := by
  unfold startAcquire
  refine wp_seq (wp_heard (composing_quiet (uses_logTransition (hstage _))) h hx) fun _ t ht => ?_
  refine wp_seq (wp_heard (composing_requesting (requesting_composerRequest _ _ _ _)) ht.1 ht.2)
    fun reply t ht => ?_
  rw [wp_ite]
  split
  · simp only [wp_bind]
    refine wp_post (wp_inv_calm (calm_quiet (uses_logTransition (hstage _))) ht.1) fun _ t ht => ?_
    refine wp_post (wp_inv_calm (calm_streams (uses_sendAgentStop agent)) ht) fun _ t ht => ?_
    refine wp_post (wp_inv_calm (calm_quiet (uses_closeIfOpen _)) ht) fun _ t ht => ?_
    refine wp_post (wp_inv_calm (calm_composerRequest _ _ _ _) ht) fun _ t ht => ?_
    refine wp_post (wp_inv_calm (calm_quiet uses_cleanupGuards) ht) fun _ t ht => ?_
    exact ⟨ht, fun _ h => by cases h⟩
  · refine wp_seq (wp_heard (composing_quiet (uses_logTransition (hstage _))) ht.1 ht.2)
      fun _ t ht => ?_
    exact ⟨ht.1, fun _ _ => ht.2⟩

/-- The reply that ended the first wait leaves the connection idle. -/
theorem Heard.idle {c : Io} (hx : Heard x s) (hsound : Sound s.world) (hidle : x.idle = true) :
    (moved S c s.world).idle x.fd = true := by
  have hmoved : Sound (moved S c s.world) := hsound.moves _
  obtain ⟨re, m, hm, hready, -⟩ := hx.exchange
  rw [← moved_exchange S c s.world] at hm
  have hlinked := hmoved.linked x _ hm hidle
  obtain ⟨l, hl⟩ := Option.isSome_iff_exists.1 hlinked
  have hnone := (hmoved.taken x _ hm hidle rfl hready).2.2 l hl
  simp [Pair.idle, hl, hnone]

theorem wp_sendLease (m : Message) (lease : Fd) (hm : m.isAgentRequest = true) (h : Inv s)
    (hx : Heard x s) (hprepare : x.message.opcode = opAgentPrepare) :
    wp (sysHandler (pairEnv S)) (sendWithFd x.fd m (some lease)) (fun sent t => Inv t ∧
      (sent = true → ∃ y, y.fd = x.fd ∧ y.message = m ∧ y.lease = true ∧ Asked y t)) s Inv := by
  refine wp_call (.sendWithFd x.fd m (some lease)) h fun (ok : Bool) w hsend => ?_
  have hhist := pairEnv_send hm hsend
  obtain ⟨new, hnew, hreply⟩ := moves_hist s.world
    (S.moves (.sendWithFd x.fd m (some lease)) s.world.rest)
  have hmoved : (moved S (.sendWithFd x.fd m (some lease)) s.world).hist = new ++ s.world.hist := hnew
  have hsound := sound_of_env h.sound hsend
  have hinactive : s.vars.active ≠ true := by
    rw [hx.waiting.active]
    simp
  have hcalm : ∀ e ∈ new, e.isCalm = true := fun e he => Happening.isCalm_of_isReply (hreply e he)
  have hold : ∀ y, .sent y ∈ new ++ s.world.hist → .sent y ∈ s.world.hist := by
    intro y hy
    rcases mem_append.1 hy with hy | hy
    · cases hreply _ hy
    · exact hy
  cases ok with
  | false =>
    have hhist' : w.hist = new ++ s.world.hist := hhist.trans hmoved
    refine ⟨⟨hsound, fun hw y hy hlease => ?_, fun hw => ?_, fun h => absurd h hinactive⟩, by simp⟩
    · rw [hhist'] at hw hy
      exact h.handed hw.older y (hold y hy) hlease
    · show Agreed w.hist
      rw [hhist'] at hw ⊢
      exact (h.agreed hw.older).calm hcalm
  | true =>
    obtain ⟨y, hy, hhist'⟩ : ∃ y : Sent, (y.fd = x.fd ∧ y.message = m ∧ y.lease = true ∧
        y.idle = (moved S (.sendWithFd x.fd m (some lease)) s.world).idle x.fd) ∧
        w.hist = .sent y :: (new ++ s.world.hist) :=
      ⟨⟨x.fd, (new ++ s.world.hist).length, m, true, _⟩, ⟨rfl, rfl, rfl, rfl⟩, by
        rw [hhist, hmoved]
        rfl⟩
    have holder : IdleAtPrepare w.hist → IdleAtPrepare s.world.hist := by
      intro hw
      rw [hhist', ← cons_append] at hw
      exact hw.older
    refine ⟨⟨hsound, fun hw z hz hlease => ?_, fun hw => ?_, fun h => absurd h hinactive⟩,
      fun _ => ⟨y, hy.1, hy.2.1, hy.2.2.1, ?_⟩⟩
    · have hz' : .sent z ∈ w.hist := hz
      rw [hhist'] at hz'
      rcases mem_cons.1 hz' with hz' | hz'
      · obtain rfl := Happening.sent.inj hz'
        have hxidle := h.idle hx.asked (Or.inl hprepare) (holder hw)
        exact hy.2.2.2.trans (hx.idle h.sound hxidle)
      · exact h.handed (holder hw) z (hold z hz') hlease
    · show Agreed w.hist
      have hagreed : Agreed (.sent y :: new ++ s.world.hist) := by
        refine (h.agreed (holder hw)).append fun q hq => ?_
        rcases mem_cons.1 hq with hq | hq
        · cases hq
        · cases hreply _ hq
      rw [hhist']
      exact hagreed
    · exact ⟨⟨hx.waiting.active, hx.waiting.agentFd.trans (by rw [hy.1])⟩, none, by
        show lastExchange w.hist = _
        rw [hhist']
        rfl⟩

end HdmiLos.Handshake
