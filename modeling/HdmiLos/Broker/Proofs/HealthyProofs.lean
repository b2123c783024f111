import HdmiLos.Broker.Bench
import HdmiLos.Broker.Healthy
import HdmiLos.Broker.Proofs.HistoryProofs
import HdmiLos.Broker.Proofs.PartsProofs

/-!
# A healthy composer and the readiness bits of an iteration

Between two parts of the main loop no request is under way, so the socket of a healthy composer holds
connected hotplug events only. A message that a poll reported is still there when the composer's part
reads it, unless the client's part of the same iteration received it.
-/

namespace HdmiLos

open Interaction Prog List

variable {ω α : Type} {env : Env ω} {queue : ω → List Message} {starved : ω → Nat} {n k : Nat}
  {s t : Sys ω}

theorem plugs_nil : Plugs [] := fun _ h => absurd h not_mem_nil

theorem Plugs.append {xs ys : List Message} (hx : Plugs xs) (hy : Plugs ys) : Plugs (xs ++ ys) :=
  fun m hm => (mem_append.1 hm).elim (hx m) (hy m)

variable {m : Message}

theorem Plugs.tail {xs : List Message} (h : Plugs (m :: xs)) : Plugs xs :=
  fun x hx => h x (mem_cons_of_mem m hx)

/-! ## Between requests -/

/-- The socket holds connected hotplug events, and the receives on an empty socket are `k`. -/
def Fed (queue : ω → List Message) (starved : ω → Nat) (k : Nat) (s : Sys ω) : Prop :=
  starved s.world = k ∧ Plugs (queue s.world)

/-- The footprint of everything but the composer socket, with any assignment. -/
abbrev Silent : Op → Prop :=
  Within (fun _ => ()) [.quiet, .config, .preference, .stream, .handover]

variable {p : BrokerProg α}

theorem silent_within {τ : Type} {V : Broker → τ} {K : List IoKind}
    (hK : K ⊆ [.quiet, .config, .preference, .stream, .handover]) (hp : p.Uses (Within V K)) :
    p.Uses Silent :=
  uses_mono (fun _ => Within.mono (fun _ _ _ => rfl) hK) hp

instance : Streaming Silent where
  toOrdinary := ordinary_within (fun _ _ _ => rfl) (by simp)
  stream {c} hc := by
    show c.kind ∈ _
    simp [hc]

instance : Preferring Silent := preferring_within (by simp)

theorem kind_of_silent {c : Io} (h : Silent (.io c)) : c.kind ≠ .composer := by
  intro hkind
  have hmem : c.kind ∈ [IoKind.quiet, .config, .preference, .stream, .handover] := h
  simp [hkind] at hmem

section Supplied

variable (henv : Healthy env queue starved)

include henv

/-- What waits in the socket still waits there, in front of what came since. -/
theorem Healthy.wp_silent (hp : p.Uses Silent) :
    wp (sysHandler env) p (fun _ t => starved t.world = starved s.world ∧
      ∃ events, Plugs events ∧ queue t.world = queue s.world ++ events) s := by
  refine wp_returns (wp_process_invariant (I := fun t : Sys ω => starved t.world = starved s.world ∧
    ∃ events, Plugs events ∧ queue t.world = queue s.world ++ events) (fun _ _ _ h => h)
    (fun _ _ h => h) ?_ hp ⟨rfl, [], plugs_nil, by simp⟩) fun _ _ h => h
  rintro t c a w hc ⟨hstarved, events, hevents, hqueue⟩ hstep
  obtain ⟨hsame, new, hnew, hgrown⟩ := henv.other (kind_of_silent hc) hstep
  exact ⟨hsame.trans hstarved, events ++ new, hevents.append hnew,
    by rw [hgrown, hqueue, append_assoc]⟩

theorem Healthy.restores_silent (hp : p.Uses Silent) :
    Restores (sysHandler env) (Fed queue starved k) α p := by
  rintro s ⟨hstarved, hplugs⟩
  refine wp_post (henv.wp_silent hp) fun _ t ⟨hsame, events, hevents, hqueue⟩ => ?_
  exact ⟨hsame.trans hstarved, hqueue ▸ hplugs.append hevents⟩

/-! ## Requests -/

/-- A request with this id is under way, and its response waits in the socket. -/
def Answering (queue : ω → List Message) (starved : ω → Nat) (k : Nat) (id : UInt32)
    (s : Sys ω) : Prop :=
  starved s.world = k ∧ ∃ before response after, Plugs before ∧
    response.validComposer = true ∧ response.isHotplug = false ∧ response.requestId = id ∧
    Plugs after ∧ queue s.world = before ++ response :: after

theorem Healthy.restores_answering {id : UInt32}
    (hp : p.Uses Silent) : Restores (sysHandler env) (Answering queue starved k id) α p := by
  rintro s ⟨hstarved, before, response, after, hbefore, hvalid, hplug, hid, hafter, hqueue⟩
  refine wp_post (henv.wp_silent hp) fun _ t ⟨hsame, events, hevents, hgrown⟩ => ?_
  exact ⟨hsame.trans hstarved, before, response, after ++ events, hbefore, hvalid, hplug, hid,
    hafter.append hevents, by rw [hgrown, hqueue, append_assoc, cons_append]⟩

theorem Healthy.wp_recvWithFd (fd : Fd) {rest : List Message}
    (hqueue : queue s.world = m :: rest) :
    wp (sysHandler env) (recvWithFd fd) (fun r t => r.1.ok = true ∧ r.1.message = m ∧
      starved t.world = starved s.world ∧
      ∃ events, Plugs events ∧ queue t.world = rest ++ events) s := by
  simp only [recvWithFd, wp_bind]
  refine wp_call (.recvWithFd fd) trivial fun (r : Received) w hstep => ?_
  have hreceived := henv.receive hstep hqueue
  rw [wp_opened]
  split
  · exact hreceived
  · exact hreceived

omit henv in
theorem Message.isPlug_iff :
    m.isPlug = true ↔ m.validComposer = true ∧ m.isHotplug = true ∧ m.connected = true := by
  simp [Message.isPlug, and_assoc]

/-- A round of the receive loop takes a hotplug event or the response. -/
theorem Healthy.wp_composerReceive {id : UInt32} (fd : Fd)
    (wantLease : Bool) (h : Answering queue starved k id s) :
    wp (sysHandler env) (composerReceive fd id wantLease ()) (fun r t =>
      Sum.elim (fun _ => Answering queue starved k id t) (fun _ => Fed queue starved k t) r) s := by
  obtain ⟨hstarved, before, response, after, hbefore, hvalid, hplug, hid, hafter, hqueue⟩ := h
  simp only [composerReceive, wp_bind]
  cases before with
  | nil =>
    refine wp_post (henv.wp_recvWithFd fd hqueue) ?_
    rintro ⟨r, passed⟩ t ⟨hok, hmessage, hsame, events, hevents, hrest⟩
    have ht : Fed queue starved k t :=
      ⟨hsame.trans hstarved, hrest ▸ hafter.append hevents⟩
    dsimp only at hok hmessage ⊢
    simp only [hok, hmessage, hvalid, hplug, hid, Bool.not_true, Bool.or_self, Bool.false_eq_true,
      if_false, bne_self_eq_false, wp_bind]
    exact wp_post (henv.restores_silent (uses_closeIfOpen _) t ht) fun _ u hu => hu
  | cons m before =>
    obtain ⟨hmvalid, hmplug, -⟩ := Message.isPlug_iff.1 (hbefore m mem_cons_self)
    refine wp_post (henv.wp_recvWithFd fd hqueue) ?_
    rintro ⟨r, passed⟩ t ⟨hok, hmessage, hsame, events, hevents, hrest⟩
    have ht : Answering queue starved k id t :=
      ⟨hsame.trans hstarved, before, response, after ++ events, hbefore.tail, hvalid, hplug, hid,
        hafter.append hevents, by
          rw [hrest]
          exact append_assoc before (response :: after) events⟩
    dsimp only at hok hmessage ⊢
    simp only [hok, hmessage, hmvalid, hmplug, Bool.not_true, Bool.or_self, Bool.false_eq_true,
      if_false, if_true, wp_bind]
    exact wp_post (henv.restores_answering (uses_closeIfOpen _) t ht) fun _ u hu => hu

/-- A request gets its response, and leaves the socket as it was but for the hotplug events. -/
theorem Healthy.restores_composerRequest (opcode : UInt16)
    (m : Message) (wantLease : Bool) (flags : UInt32) :
    Restores (sysHandler env) (Fed queue starved k) Reply
      (composerRequest n opcode m wantLease flags) := by
  intro s hs
  have hensure : wp (sysHandler env) ensureComposer (fun _ => Fed queue starved k) s := by
    simp only [ensureComposer, wp_bind, wp_getBroker]
    cases s.vars.composerFd with
    | some fd => exact hs
    | none =>
      simp only [wp_bind]
      refine wp_call .connectComposer trivial fun (ok : Bool) w hstep => ?_
      obtain ⟨hsame, hplugs⟩ := henv.connect hstep
      have ht := (⟨hsame.trans hs.1, hplugs⟩ : starved w = k ∧ Plugs (queue w))
      rw [wp_opened]
      split
      · exact ht
      · exact ht
  simp only [composerRequest, wp_bind]
  refine wp_post hensure fun fd t ht => ?_
  cases fd with
  | none => exact ht
  | some fd =>
    simp only [wp_bind, wp_makeMessage]
    refine wp_call (.sendWithFd fd _ none) trivial fun (sent : Bool) w hstep => ?_
    obtain ⟨rfl, hsame, before, response, after, hbefore, hanswers, hafter, hqueue⟩ :=
      henv.send hstep
    simp only [Message.answers, Bool.and_eq_true, Bool.not_eq_true', beq_iff_eq] at hanswers
    rw [if_pos rfl]
    refine wp_loop _ (fun _ => Answering queue starved k t.vars.nextRequestId)
      (fun _ _ _ => trivial) (fun _ u hu => henv.wp_composerReceive fd wantLease hu) n () ?_
    exact ⟨hsame.trans ht.1, queue t.world ++ before, response, after, ht.2.append hbefore,
      hanswers.1.1, hanswers.1.2, hanswers.2, hafter, hqueue⟩

/-! ## Readable sockets -/

theorem Healthy.wp_handleComposerReadable (fd : Fd)
    (hs : Fed queue starved k s) (hqueue : queue s.world ≠ []) :
    wp (sysHandler env) (handleComposerReadable fd)
      (fun r t => r = .connected ∧ Fed queue starved k t) s := by
  obtain ⟨m, rest, hcons⟩ := exists_cons_of_ne_nil hqueue
  have hplugs : Plugs (m :: rest) := hcons ▸ hs.2
  obtain ⟨hvalid, hplug, hconn⟩ := Message.isPlug_iff.1 (hplugs m mem_cons_self)
  simp only [handleComposerReadable, wp_bind]
  refine wp_post (henv.wp_recvWithFd fd hcons) ?_
  rintro ⟨r, passed⟩ t ⟨hok, hmessage, hsame, events, hevents, hrest⟩
  have ht : Fed queue starved k t :=
    ⟨hsame.trans hs.1, hrest ▸ hplugs.tail.append hevents⟩
  refine wp_post (henv.restores_silent (uses_closeIfOpen passed) t ht) fun _ u hu => ?_
  dsimp only at hok hmessage ⊢
  simp only [hok, hmessage, hvalid, hplug, hconn, Bool.not_true, Bool.or_self, Bool.false_eq_true,
    if_false, if_true, wp_bind, wp_update]
  refine wp_post (henv.restores_silent (p := logTransition .displayConnected) ?_ _ hu)
    fun _ v hv => ⟨rfl, hv⟩
  exact uses_logTransition rfl

/-- What an end of a session or of an armed request changes. -/
def Broker.outcome (b : Broker) : Bool × Bool × String := (b.active, b.armed, b.stateDetail)

instance : Hearing (Within Broker.outcome [.quiet, .composer]) where
  get := trivial
  fresh := trivial
  modify h b := by
    have houtcome : (_ : Broker).aside.outcome = b.aside.outcome := congrArg Broker.outcome (h b)
    exact houtcome
  connect := by simp [Within, Io.kind]
  recv _ := by simp [Within, Io.kind]
  close _ := by simp [Within, Io.kind]

omit henv in
theorem wp_handleComposerReadable_outcome (fd : Fd) :
    wp (sysHandler env) (handleComposerReadable fd)
      (fun _ t => t.vars.outcome = s.vars.outcome) s := by
  have huses : (handleComposerReadable fd).Uses (Within Broker.outcome [.quiet, .composer]) := by
    refine uses_bind (uses_recvWithFd fd) fun r => uses_bind (hearing_closeIfOpen _) fun _ => ?_
    refine uses_ite trivial (uses_bind (uses_update fun _ => rfl) fun _ => uses_ite ?_ ?_)
    · exact uses_bind (uses_call (by simp [Io.kind, Transition.kind])) fun _ => trivial
    · exact uses_bind (uses_call (by simp [Io.kind, Transition.kind])) fun _ => trivial
  exact wp_returns (wp_process_invariant (I := fun t : Sys ω => t.vars.outcome = s.vars.outcome)
    (fun t _ hf h => (hf t.vars).trans h) (fun _ _ h => h) (fun _ _ _ _ _ h _ => h) huses rfl)
    fun _ _ h => h

/-- A poll that reports the socket as readable found a message in it. -/
theorem Healthy.wp_pollFds {fds : List (Option Fd)}
    {timeoutMs : Int} {i : Nat}
    (hpoll : ∀ {w w' revents}, env (.poll fds timeoutMs) w = some (.ready revents, w') →
      ((maskRevents fds revents).getD i {}).input = true → queue w' ≠ [])
    (hs : Fed queue starved k s) :
    wp (sysHandler env) (pollFds fds timeoutMs) (fun a t => Fed queue starved k t ∧
      ∀ revents, a = .ready revents → (revents.getD i {}).input = true → queue t.world ≠ []) s := by
  simp only [pollFds, wp_bind]
  refine wp_call (.poll fds timeoutMs) trivial fun (a : PollAnswer) w hstep => ?_
  obtain ⟨hsame, events, hevents, hqueue⟩ := henv.other (c := .poll fds timeoutMs)
    (by simp [Io.kind]) hstep
  have ht : starved w = k ∧ Plugs (queue w) :=
    ⟨hsame.trans hs.1, hqueue ▸ hs.2.append hevents⟩
  cases a with
  | interrupted => exact ⟨ht, fun _ h => nomatch h⟩
  | failed => exact ⟨ht, fun _ h => nomatch h⟩
  | ready revents =>
    refine ⟨ht, fun _ h hinput => ?_⟩
    cases h
    exact hpoll hstep hinput

theorem Healthy.wp_waitAgentComposer (fd : Option Fd)
    {revents : Revents} (hs : Fed queue starved k s)
    (hinput : revents.input = true → queue s.world ≠ []) :
    wp (sysHandler env) (waitAgentComposer fd revents) (fun _ => Fed queue starved k) s := by
  cases fd with
  | none => exact hs
  | some fd =>
    simp only [waitAgentComposer, wp_ite]
    split
    · exact hs
    · split
      case isTrue h =>
        refine wp_seq (henv.wp_handleComposerReadable fd hs (hinput h)) ?_
        rintro _ t ⟨rfl, ht⟩
        exact ht
      case isFalse => exact hs

theorem Healthy.wp_waitAgentReady (wanted : UInt16)
    {revents : List Revents} (m : Message) (hs : Fed queue starved k s)
    (hinput : (revents.getD 3 {}).input = true → queue s.world ≠ []) :
    wp (sysHandler env) (waitAgentReady n wanted revents m) (fun _ => Fed queue starved k) s := by
  have hquiet : ∀ {α : Type} {p : BrokerProg α}, p.Uses Quiet → p.Uses Silent :=
    fun hp => silent_within (by simp) hp
  simp only [waitAgentReady, wp_bind, wp_getBroker]
  rw [wp_ite]
  split
  · exact hs
  · rw [wp_bind]
    -- the volume keys are read between the poll and the receive, and take nothing from the socket
    refine wp_post (henv.wp_silent (hquiet (uses_volumesUpdate n _ _))) fun escaped t ht => ?_
    obtain ⟨hsame, events, hevents, hqueue⟩ := ht
    have ht : Fed queue starved k t := ⟨hsame.trans hs.1, hqueue ▸ hs.2.append hevents⟩
    rw [wp_ite]
    split
    · exact ht
    · refine wp_seq (henv.wp_waitAgentComposer _ ht fun h => ?_) fun go u hu => ?_
      · rw [hqueue]
        exact append_ne_nil_of_left_ne_nil (hinput h) events
      · rw [wp_ite]
        split
        · exact hu
        · refine wp_seq (henv.restores_silent (hquiet uses_deadlineReached) u hu)
            fun reached v hv => ?_
          rw [wp_ite]
          split
          · exact hv
          · split
            · exact henv.restores_silent (uses_waitAgentRead _ wanted) v hv
            · exact hv

/-- Waiting for the agent takes from the socket what the polls reported. -/
theorem Healthy.restores_waitAgent (wanted : UInt16)
    (timeoutMs : Int) (m : Message) :
    Restores (sysHandler env) (Fed queue starved k) (Bool × Message)
      (waitAgent n wanted timeoutMs m) := by
  intro s hs
  have hquiet : ∀ {α : Type} {p : BrokerProg α}, p.Uses Quiet →
      Restores (sysHandler env) (Fed queue starved k) α p :=
    fun hp => henv.restores_silent (silent_within (by simp) hp)
  rw [waitAgent]
  refine wp_seq (hquiet uses_monotonicMs s hs) fun now t ht => ?_
  refine wp_loop _ (fun _ => Fed queue starved k) (fun _ _ _ => trivial) (fun m u hu => ?_) n m ht
  have hend : ∀ (r : Message ⊕ Bool × Message) (x : Sys ω), Fed queue starved k x →
      Sum.elim (fun _ => Fed queue starved k x) (fun _ => Fed queue starved k x) r := by
    rintro (_ | _) x hx <;> exact hx
  refine wp_post ?_ hend
  rw [waitAgentRound]
  refine wp_seq (hquiet uses_monotonicMs u hu) fun now v hv => ?_
  rw [wp_ite]
  split
  · exact hv
  · simp only [wp_bind, wp_getBroker]
    refine wp_post (hquiet (uses_waitAgentRemaining _) v hv) fun remaining x hx => ?_
    rw [wp_ite]
    split
    · exact hx
    · refine wp_seq (henv.wp_pollFds (i := 3)
        (fun hstep hinput => (henv.pollWait hstep).2 (maskRevents_input hinput).2) hx) ?_
      rintro a y ⟨hy, hinput⟩
      cases a with
      | interrupted => exact hy
      | failed => exact hy
      | ready revents => exact henv.wp_waitAgentReady wanted m hy (hinput revents rfl)

/-! ## The parts of an iteration -/

theorem Healthy.startParts : StartParts n (Restores (sysHandler env) (Fed queue starved k)) where
  toCompositional := restores_compositional _ _
  starting hp := henv.restores_silent (silent_within (by simp) hp)
  request := henv.restores_composerRequest
  wait := henv.restores_waitAgent

theorem Healthy.applyParts : ApplyParts n (Restores (sysHandler env) (Fed queue starved k)) where
  toCompositional := restores_compositional _ _
  plain hp := henv.restores_silent (silent_within (by simp) hp)
  assign _ _ h := h
  recover := henv.restores_silent uses_recoverPreferredMode
  request := henv.restores_composerRequest
  set _ _ h := h
  apply := henv.restores_silent uses_applyPreferredMode

theorem Healthy.loopParts : LoopParts n (Restores (sysHandler env) (Fed queue starved k)) where
  toRequestParts := henv.applyParts.toRequestParts
  wait := henv.restores_waitAgent
  start := henv.startParts.start
  armOpen := henv.applyParts.armOpen

/-- A part of an iteration leaves nothing but hotplug events in the socket; the composer's does so
    if the message that the poll reported is still there. -/
theorem Healthy.wp_part (p : Part) {revents : List Revents}
    (hs : Fed queue starved k s)
    (hinput : p = .composer → (revents.getD 1 {}).input = true → queue s.world ≠ []) :
    wp (sysHandler env) (p.prog n revents) (fun _ => Fed queue starved k) s := by
  have hparts : LoopParts n (Restores (sysHandler env) (Fed queue starved k)) := henv.loopParts
  cases p with
  | client => exact hparts.runClient _ s hs
  | composer =>
    simp only [Part.prog, runComposer, wp_bind, wp_getBroker]
    cases s.vars.composerFd with
    | none => exact hs
    | some fd =>
      rw [wp_ite]
      split
      · exact hparts.bind (hparts.plain plain_closeComposer)
          (fun _ => hparts.releaseIfActive _ _) s hs
      · rw [wp_ite]
        split
        case isTrue h =>
          refine wp_seq (henv.wp_handleComposerReadable fd hs (hinput rfl h)) ?_
          rintro _ t ⟨rfl, ht⟩
          exact ht
        case isFalse => exact hs
  | agent => exact hparts.runAgent _ s hs
  | volumes => exact hparts.runVolumes _ _ s hs
  | heartbeat => exact hparts.runHeartbeat s hs
  | deadline => exact hparts.runDeadline s hs
  | armed => exact hparts.runArmed (henv.applyParts.advanceArmed henv.startParts.start) s hs

/-! ## Histories -/

variable {revents : List Revents} {todo : List Part} {hist : List (Did ω)}

omit henv in
theorem History.todo_suffix (h : History env n revents todo hist s) :
    todo <:+ .client :: Part.peers := by
  induction h with
  | start _ => exact nil_suffix
  | interrupted _ _ _ ih => exact ih
  | poll _ _ _ _ => exact suffix_refl _
  | part _ _ ih => exact (suffix_cons _ _).trans ih

omit henv in
theorem History.eq_client {p : Part} (h : History env n revents (p :: todo) hist s)
    (hmem : .composer ∈ todo) : p = .client := by
  have hlater : ∀ {xs : List Part}, xs <:+ [.agent, .volumes, .heartbeat, .deadline, .armed] →
      .composer ∉ xs :=
    fun hxs hx => absurd (hxs.subset hx) (by decide)
  rcases suffix_cons_iff.1 h.todo_suffix with heq | hpeers
  · exact (List.cons.inj heq).1
  · rcases suffix_cons_iff.1 hpeers with heq | hrest
    · exact absurd hmem (hlater ((List.cons.inj heq).2 ▸ suffix_refl _))
    · exact absurd (mem_cons_of_mem p hmem) (hlater hrest)

/-- As long as the broker does not talk to the composer the socket only gains messages. -/
theorem Healthy.wp_untouched (p : BrokerProg α) :
    wp (sysHandler env) p (fun _ t => (∀ e ∈ callsSince s t, e.1.kind ≠ .composer) →
      ∃ events, queue t.world = queue s.world ++ events) s := by
  refine wp_returns (wp_process_invariant (I := fun t : Sys ω => s.log <+: t.log ∧
    ((∀ e ∈ callsSince s t, e.1.kind ≠ .composer) →
      ∃ events, queue t.world = queue s.world ++ events)) (fun _ _ _ h => h)
    (fun _ _ h => h) ?_ (uses_true p) ⟨prefix_refl _, fun _ => ⟨[], by simp⟩⟩)
    fun _ _ h => h.2
  rintro t c a w - ⟨hlog, hgrown⟩ hstep
  refine ⟨hlog.trans (prefix_append _ _), fun hcalls => ?_⟩
  rw [callsSince_snoc hlog] at hcalls
  obtain ⟨events, hqueue⟩ := hgrown fun e he => hcalls e (mem_append_left _ he)
  have hkind : c.kind ≠ .composer := hcalls ⟨c, a⟩ (by simp)
  obtain ⟨-, new, -, hnew⟩ := henv.other hkind hstep
  exact ⟨events ++ new, by rw [hnew, hqueue, append_assoc]⟩

theorem Healthy.plugs_start {listening : Bool}
    (h : runStartup.run (sysHandler env) s = (some listening, t)) : Plugs (queue t.world) := by
  obtain ⟨_, u, _, h⟩ := run_bind_some h
  obtain ⟨_, v, _, h⟩ := run_bind_some h
  have hlisten : wp (sysHandler env) (do
      let listen ← opened (← listenAbstract)
      update fun b => { b with listenFd := listen }
      pure listen.isSome) (fun _ t => Plugs (queue t.world)) v := by
    simp only [wp_bind, listenAbstract]
    refine wp_call .listenAbstract trivial fun (ok : Bool) w hstep => ?_
    rw [wp_opened]
    split
    · exact henv.listen hstep
    · exact henv.listen hstep
  exact wp_returned hlisten h

theorem Healthy.wp_runPoll :
    wp (sysHandler env) runPoll (fun a _ => ∀ revents, a = .ready revents →
      (revents.getD 1 {}).error = false) s := by
  simp only [runPoll, pollFds, wp_bind, wp_getBroker]
  refine wp_call _ trivial fun (a : PollAnswer) w hstep => ?_
  cases a with
  | interrupted => exact fun _ h => nomatch h
  | failed => exact fun _ h => nomatch h
  | ready revents =>
    intro _ h
    cases h
    rw [maskRevents_getD]
    split
    · exact (henv.pollRun hstep).1
    · rfl

/-- The socket when a part begins: it holds connected hotplug events, among them the one that the
    poll reported if the part is the composer's. -/
structure Did.Supplied (queue : ω → List Message) (d : Did ω) : Prop where
  plugs : Plugs (queue d.before.world)
  input : d.part = .composer → (d.revents.getD 1 {}).input = true → queue d.before.world ≠ []
  noError : (d.revents.getD 1 {}).error = false

/-- A message that a poll reported is there until the composer's part. -/
theorem Healthy.supplied
    (h : History env n revents todo hist s) (hall : ∀ d ∈ hist, d.Undrained) :
    Plugs (queue s.world) ∧
      (.composer ∈ todo → (revents.getD 1 {}).input = true → queue s.world ≠ []) ∧
      (revents.getD 1 {}).error = false ∧ ∀ d ∈ hist, d.Supplied queue := by
  have hquiet : ∀ {α : Type} {p : BrokerProg α} {a : α} {s t : Sys ω}, p.Uses Quiet →
      p.run (sysHandler env) s = (some a, t) → Plugs (queue s.world) → Plugs (queue t.world) :=
    fun hp hrun hs => (wp_returned (henv.restores_silent (silent_within (by simp) hp) _ ⟨rfl, hs⟩)
      hrun).2
  induction h with
  | start hrun =>
    exact ⟨henv.plugs_start hrun, fun hmem => absurd hmem not_mem_nil, rfl,
      fun d hd => absurd hd not_mem_nil⟩
  | interrupted _ hstop hpoll ih =>
    obtain ⟨hplugs, -, herror, hsupplied⟩ := ih hall
    exact ⟨hquiet (uses_bind uses_getBroker fun _ => uses_pollFds _ _) hpoll
      (hquiet (uses_quietCall rfl) hstop hplugs), fun hmem => absurd hmem not_mem_nil, herror,
      hsupplied⟩
  | poll _ hstop hpoll ih =>
    obtain ⟨hplugs, -, -, hsupplied⟩ := ih hall
    have hpolled := wp_returned (p := runPoll) (henv.wp_pollFds (i := 1) (fun hstep hinput =>
      (henv.pollRun hstep).2 (maskRevents_input hinput).2)
        ⟨rfl, hquiet (uses_quietCall rfl) hstop hplugs⟩) hpoll
    exact ⟨hpolled.1.2, fun _ => hpolled.2 _ rfl, wp_returned henv.wp_runPoll hpoll _ rfl, hsupplied⟩
  | @part revents p todo hist s t h hrun ih =>
    obtain ⟨hplugs, hinput, herror, hsupplied⟩ := ih fun d hd => hall d (mem_cons_of_mem _ hd)
    have hcomposer : p = .composer → (revents.getD 1 {}).input = true → queue s.world ≠ [] :=
      fun hp => hinput (hp ▸ mem_cons_self)
    refine ⟨(wp_returned (henv.wp_part p ⟨rfl, hplugs⟩ hcomposer) hrun).2, fun hmem hin =>
      ?_, herror, ?_⟩
    · -- the client's part left the composer alone, so the message is still in the socket
      have hundrained := hall _ mem_cons_self (h.eq_client hmem) hin
      obtain ⟨events, hqueue⟩ := wp_returned (henv.wp_untouched _) hrun hundrained
      rw [hqueue]
      exact append_ne_nil_of_left_ne_nil (hinput (mem_cons_of_mem _ hmem) hin) events
    · intro d hd
      rcases mem_cons.1 hd with rfl | hd
      · exact ⟨hplugs, hcomposer, herror⟩
      · exact hsupplied d hd

/-- The composer's part leaves the session and the armed request alone, if the message that the poll
    reported is still there. -/
theorem Healthy.wp_runComposer {revents : Revents}
    (hs : Fed queue starved k s) (herror : revents.error = false)
    (hinput : revents.input = true → queue s.world ≠ []) :
    wp (sysHandler env) (runComposer n revents) (fun _ t => t.vars.outcome = s.vars.outcome) s := by
  simp only [runComposer, wp_bind, wp_getBroker]
  cases s.vars.composerFd with
  | none => exact rfl
  | some fd =>
    simp only [herror, Bool.false_eq_true, if_false, wp_ite]
    split
    case isTrue h =>
      rw [wp_bind]
      refine wp_returns (wp_and (henv.wp_handleComposerReadable fd hs (hinput h))
        (wp_handleComposerReadable_outcome fd)) ?_
      rintro _ t ⟨⟨rfl, -⟩, ht⟩
      exact ht
    case isFalse => exact rfl

end Supplied

/-- The composer's part of an iteration ended nothing: the session, the armed request and the detail
    of the state are as before. -/
structure Did.EndsNothing (d : Did ω) : Prop where
  active : d.after.vars.active = d.before.vars.active
  armed : d.after.vars.armed = d.before.vars.armed
  stateDetail : d.after.vars.stateDetail = d.before.vars.stateDetail

/-- With a healthy composer, and as long as no client is served between a poll that reported the
    composer as readable and the composer's part, no hotplug event is invalid, the composer's part
    ends neither a session nor an armed request, and no receive waits for a message that was consumed
    before. -/
theorem healthy_composer_heard (henv : Healthy env queue starved)
    (h : History env n revents todo hist s) (hall : ∀ d ∈ hist, d.Undrained) :
    ∀ d ∈ hist, ¬ d.Hears env .invalid ∧ (d.part = .composer → d.EndsNothing) ∧
      starved d.after.world = starved d.before.world := by
  intro d hd
  obtain ⟨hplugs, hinput, herror⟩ := (henv.supplied h hall).2.2.2 d hd
  refine ⟨?_, fun hpart => ?_, ?_⟩
  · rintro ⟨hpart, -, hin, fd, t, -, hrun⟩
    have hheard := wp_returned
      (henv.wp_handleComposerReadable fd ⟨rfl, hplugs⟩ (hinput hpart hin)) hrun
    exact absurd hheard.1 (by decide)
  · have hran := h.ran d hd
    rw [Did.Ran, hpart] at hran
    have houtcome := wp_returned (henv.wp_runComposer ⟨rfl, hplugs⟩ herror (hinput hpart)) hran
    exact ⟨congrArg Prod.fst houtcome, congrArg (·.2.1) houtcome, congrArg (·.2.2) houtcome⟩
  · exact (wp_returned (henv.wp_part d.part ⟨rfl, hplugs⟩ hinput) (h.ran d hd)).1

/-! ## A composer that answers at once -/

/-- What is still to come at each poll, a client and a hotplug event, and the composer's socket. -/
structure Desk where
  polls : List (Bool × Bool) := []
  queue : List Message := []
  starved : Nat := 0
  bench : Bench := {}

def Desk.poll (w : Desk) (revents : Bool → Bool → List Revents) : Option (PollAnswer × Desk) :=
  match w.polls with
  | [] => none
  | (client, plug) :: polls =>
    let queue := w.queue ++ if plug then [composerScriptMessage opHotplug flagConnected] else []
    some (.ready (revents client (!queue.isEmpty)), { w with polls := polls, queue := queue })

/-- The readiness that the main loop and a wait for the agent get. -/
def deskRevents : List (Option Fd) → Bool → Bool → List Revents
  | [_, _, _, _, _], client, composer =>
    [{ input := client }, { input := composer }, {}, {}, {}]
  | _, _, composer => [{}, {}, {}, { input := composer }]

/-- What does not concern the socket is scripted. -/
def Desk.scripted (w : Desk) (c : Io) : Option (c.Ans × Desk) :=
  (benchEnv c w.bench).map fun (a, bench) => (a, { w with bench := bench })

/-- The scripted environment with a composer that queues its response to a request at once. -/
def deskEnv : Env Desk
  | .poll fds _, w => w.poll (deskRevents fds)
  | .listenAbstract, w => if w.queue.isEmpty then some (true, w) else none
  | .connectComposer, w => some (true, { w with queue := [] })
  | .sendWithFd _ m none, w =>
    let response := { composerScriptMessage opResponse flagConnected with requestId := m.requestId }
    some (true, { w with queue := w.queue ++ [response] })
  | .recvWithFd _, w =>
    match w.queue with
    | [] => some ({ ok := false, message := {} }, { w with starved := w.starved + 1 })
    | m :: queue => some ({ ok := true, message := m }, { w with queue := queue })
  | call, w => w.scripted call

theorem Desk.poll_ready {w w' : Desk} {f : Bool → Bool → List Revents} {a : PollAnswer}
    (h : w.poll f = some (a, w')) : ∃ client events, Plugs events ∧
      w'.queue = w.queue ++ events ∧ w'.starved = w.starved ∧
      a = .ready (f client (!w'.queue.isEmpty)) := by
  unfold Desk.poll at h
  split at h
  · cases h
  · rename_i client plug polls _
    cases h
    refine ⟨client, _, ?_, rfl, rfl, rfl⟩
    cases plug with
    | false => exact plugs_nil
    | true => exact fun m hm => mem_singleton.1 hm ▸ by decide

theorem Desk.scripted_queue {w w' : Desk} {c : Io} {a : c.Ans} (h : w.scripted c = some (a, w')) :
    w'.starved = w.starved ∧ ∃ events, Plugs events ∧ w'.queue = w.queue ++ events := by
  obtain ⟨⟨_, bench⟩, -, heq⟩ := Option.map_eq_some_iff.1 h
  cases heq
  exact ⟨rfl, [], plugs_nil, (append_nil _).symm⟩

theorem deskEnv_healthy : Healthy deskEnv Desk.queue Desk.starved where
  listen {w w' ok} h := by
    simp only [deskEnv] at h
    split at h
    · rename_i hempty
      cases h
      rw [isEmpty_iff.1 hempty]
      exact plugs_nil
    · cases h
  other {c a w w'} hkind h := by
    cases c with
    | poll fds timeoutMs =>
      obtain ⟨client, events, hevents, hqueue, hstarved, -⟩ := Desk.poll_ready h
      exact ⟨hstarved, events, hevents, hqueue⟩
    | listenAbstract =>
      simp only [deskEnv] at h
      split at h
      · cases h
        exact ⟨rfl, [], plugs_nil, (append_nil _).symm⟩
      · cases h
    | connectComposer => exact absurd rfl hkind
    | sendWithFd fd m passed =>
      cases passed with
      | none => exact absurd rfl hkind
      | some _ => exact Desk.scripted_queue h
    | recvWithFd _ => exact absurd rfl hkind
    | _ => exact Desk.scripted_queue h
  connect h := by
    cases h
    exact ⟨rfl, plugs_nil⟩
  send {fd request w w' ok} h := by
    cases h
    refine ⟨rfl, rfl, [], _, [], plugs_nil, ?_, plugs_nil, by rw [append_nil]⟩
    simp only [Message.answers, beq_self_eq_true, Bool.and_true]
    rfl
  receive {fd w w' r m rest} h hqueue := by
    simp only [deskEnv, hqueue] at h
    cases h
    exact ⟨rfl, rfl, rfl, [], plugs_nil, (append_nil _).symm⟩
  starve {fd w w' r} h hqueue := by
    simp only [deskEnv, hqueue] at h
    cases h
    exact ⟨rfl, plugs_nil⟩
  pollRun h := by
    obtain ⟨client, events, -, -, -, hready⟩ := Desk.poll_ready h
    cases hready
    exact ⟨rfl, fun hinput => by simpa [deskRevents] using hinput⟩
  pollWait h := by
    obtain ⟨client, events, -, -, -, hready⟩ := Desk.poll_ready h
    cases hready
    exact ⟨rfl, fun hinput => by simpa [deskRevents] using hinput⟩

/-- A client arms a request. At the next poll a hotplug event waits, and perhaps a client that asks
    for the status. -/
def deskScript (client : Bool) : Desk :=
  { polls := [(true, false), (client, true)]
    bench := { streams := [streamScriptMessage opArm 0, streamScriptMessage opStatus 0] } }

/-- No client comes together with the event. -/
theorem healthy_composer_heard_plug :
    ∃ (revents : List Revents) (hist : List (Did Desk)) (s : Sys Desk),
      History deskEnv 8 revents [] hist s ∧ (∃ d ∈ hist, d.Hears deskEnv .connected) ∧
      ∀ d ∈ hist, ¬d.Hears deskEnv .invalid ∧ (d.part = .composer → d.EndsNothing) ∧
        d.after.world.starved = d.before.world.starved := by
  obtain ⟨revents, hist, s, h, hcheck⟩ := exists_history deskEnv 8 (deskScript false) 2
    (fun hist => (hist.all fun d => decide d.Undrained) &&
      hist.any fun d => decide (d.Hears deskEnv .connected)) (by decide +kernel)
  rw [Bool.and_eq_true] at hcheck
  obtain ⟨d, hd, hhears⟩ := any_eq_true.1 hcheck.2
  exact ⟨revents, hist, s, h, ⟨d, hd, of_decide_eq_true hhears⟩,
    healthy_composer_heard deskEnv_healthy h fun d hd =>
      of_decide_eq_true (all_eq_true.1 hcheck.1 d hd)⟩

/-- The client's request takes the event: the composer's part waits for one that is not there, and
    the broker drops the request that it had armed. -/
theorem healthy_composer_disarmed : Healthy deskEnv Desk.queue Desk.starved ∧
    ∃ (revents : List Revents) (hist : List (Did Desk)) (s : Sys Desk) (d : Did Desk),
      History deskEnv 8 revents [] hist s ∧ d ∈ hist ∧ d.Hears deskEnv .invalid ∧
      d.before.vars.armed = true ∧ d.after.vars.armed = false ∧
      d.after.vars.stateDetail = "invalid composer hotplug event" ∧
      d.after.world.starved = d.before.world.starved + 1 := by
  refine ⟨deskEnv_healthy, ?_⟩
  obtain ⟨revents, hist, s, h, hcheck⟩ := exists_history deskEnv 8 (deskScript true) 2
    (fun hist => hist.any fun d => decide (d.Hears deskEnv .invalid ∧
      d.before.vars.armed = true ∧ d.after.vars.armed = false ∧
      d.after.vars.stateDetail = "invalid composer hotplug event" ∧
      d.after.world.starved = d.before.world.starved + 1)) (by decide +kernel)
  obtain ⟨d, hd, hends⟩ := any_eq_true.1 hcheck
  exact ⟨revents, hist, s, d, h, hd, of_decide_eq_true hends⟩

end HdmiLos
