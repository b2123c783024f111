import HdmiLos.Broker.Bench
import HdmiLos.Broker.Proofs.CalmProofs
import HdmiLos.Handshake.Registration

/-!
# Registrations of agents

`AcceptClient` is followed call by call. What `Status` reports of the agent that was just recorded
is read off its branches: only with open gates and no armed request does it come to the one that
mentions the agent.
-/

namespace HdmiLos.Handshake

open Interaction Prog

variable {α ω : Type} {env : Env ω} {s t : Sys ω} {b : Broker} {x x' : Visit}

/-- The observer of `AcceptClient`. -/
def visitMonitor : Monitor Io.Ans Visit where
  allows _ _ := True
  next := Visit.step

theorem obeys_call {c : Io} {Q : c.Ans → Broker → Visit → Prop} (h : ∀ a, Q a b (x.step c a)) :
    (call c).Obeys visitMonitor Q b x :=
  ⟨trivial, h⟩

/-! ## Flags of a status message -/

theorem hasFlag_or (f g bit : UInt32) : hasFlag (f ||| g) bit = (hasFlag f bit || hasFlag g bit) := by
  have hbits : (f ||| g) &&& bit = (f &&& bit) ||| (g &&& bit) :=
    UInt32.eq_of_toBitVec_eq BitVec.and_or_distrib_right
  rw [Bool.eq_iff_iff]
  simp only [hasFlag, hbits, bne_iff_ne, ne_eq, UInt32.or_eq_zero_iff, Bool.or_eq_true]
  exact not_and_or

theorem hasFlag_add (f bit : UInt32) (h : hasFlag f bit = false) (hbit : hasFlag bit bit = true)
    (on : Bool) : hasFlag (if on then f ||| bit else f) bit = on := by
  cases on with
  | false => exact h
  | true => exact (hasFlag_or _ _ _).trans (by rw [hbit, Bool.or_true])

theorem statusFlags_continuous (b : Broker) : hasFlag b.statusFlags flagContinuous = false := by
  have hcomposer : hasFlag (b.composerFlags &&& (flagConnected ||| flagLeaseReady ||| flagActiveMode))
      flagContinuous = false := by
    have hbits : (flagConnected ||| flagLeaseReady ||| flagActiveMode) &&& flagContinuous = 0 := rfl
    rw [hasFlag, UInt32.and_assoc, hbits, UInt32.and_zero]
    rfl
  have harmed : hasFlag (if b.armed then flagArmed else 0) flagContinuous = false := by split <;> rfl
  have hreplug : hasFlag (if b.replugRequired then flagReplugRequired else 0)
    flagContinuous = false := by
    split <;> rfl
  rw [Broker.statusFlags, hasFlag_or, hasFlag_or, hcomposer, harmed, hreplug]
  rfl

/-! ## Status -/

theorem obeys_compatible : compatible.Obeys visitMonitor
    (fun ok v x' => v = b ∧ x' = { x with gates := ok }) b x :=
  obeys_call fun _ => ⟨rfl, rfl⟩

theorem obeys_diagnosticDumpReady : diagnosticDumpReady.Obeys visitMonitor
    (fun ok v x' => v = b ∧ x' = { x with gates := x.gates && ok }) b x := by
  refine obeys_bind (obeys_call fun _ => obeys_ite (fun _ => ?_) fun _ => ⟨rfl, ?_⟩)
  · exact obeys_bind (obeys_call fun _ => ⟨rfl, rfl⟩)
  · show x = { x with gates := x.gates && true }
    rw [Bool.and_true]

theorem obeys_gatesOpen : gatesOpen.Obeys visitMonitor
    (fun ok v x' => v = b ∧ x' = { x with gates := ok }) b x := by
  refine obeys_bind (obeys_mono obeys_compatible ?_)
  rintro present v x₁ ⟨rfl, rfl⟩
  cases present with
  | false => exact ⟨rfl, rfl⟩
  | true => exact obeys_diagnosticDumpReady

/-- What `Status` says with open gates: the sessions of the owner are continuous. -/
def reportsContinuous (b : Broker) : Bool :=
  if b.probing then false
  else if b.active then b.sessionContinuous
  else if b.armed then false
  else b.agentFd.isSome && b.agentContinuous

theorem obeys_statusOwner (b' : Broker) (message : Message)
    (hm : hasFlag message.flags flagContinuous = false) :
    (statusOwner b' message).Obeys visitMonitor (fun r v x' => v = b ∧ x' = x ∧
      hasFlag r.flags flagContinuous = reportsContinuous b') b x := by
  have hflags := hasFlag_add _ _ hm rfl
  unfold statusOwner reportsContinuous
  cases b'.probing with
  | true => exact obeys_bind (obeys_call fun _ => ⟨rfl, rfl, hm⟩)
  | false =>
  cases b'.active with
  | true =>
    cases b'.sessionContinuous with
    | true => exact ⟨rfl, rfl, hflags true⟩
    | false => exact obeys_bind (obeys_call fun _ => ⟨rfl, rfl, hm⟩)
  | false =>
  cases b'.armed with
  | true => exact ⟨rfl, rfl, hm⟩
  | false =>
  cases b'.agentFd.isSome with
  | false => exact ⟨rfl, rfl, hm⟩
  | true =>
    refine obeys_bind (obeys_call fun (only : Bool) => obeys_ite (fun _ => ?_) fun _ =>
      obeys_ite (fun _ => ?_) fun _ => ?_) <;> exact ⟨rfl, rfl, hflags _⟩

/-- The flag is set exactly if the last look at the gates found them open and the owner's sessions
    are continuous. -/
theorem obeys_status (id : UInt32) : (status id).Obeys visitMonitor (fun m v x' =>
    v = { b with nextRequestId := b.nextRequestId + 1 } ∧ x'.request = x.request ∧
      hasFlag m.flags flagContinuous = (x'.gates && reportsContinuous b)) b x := by
  have hflags := statusFlags_continuous { b with nextRequestId := b.nextRequestId + 1 }
  refine obeys_bind (obeys_bind (obeys_bind (obeys_bind (obeys_bind (obeys_mono obeys_gatesOpen ?_)))))
  rintro ok v x₁ ⟨rfl, rfl⟩
  refine obeys_bind (obeys_mono obeys_compatible ?_)
  rintro present v x₂ ⟨rfl, rfl⟩
  cases present with
  | false => exact ⟨rfl, rfl, hflags⟩
  | true =>
    refine obeys_bind (obeys_mono obeys_diagnosticDumpReady ?_)
    rintro ready v x₃ ⟨rfl, rfl⟩
    cases ready with
    | false => exact ⟨rfl, rfl, hflags⟩
    | true =>
      refine obeys_mono (obeys_statusOwner _ _ hflags) ?_
      rintro r v x₄ ⟨rfl, rfl, h₄⟩
      exact ⟨rfl, rfl, h₄⟩

/-! ## AcceptClient -/

/-- The client did not become the agent, and was not told that it is. -/
structure Refused (client : Fd) (b v : Broker) (x : Visit) : Prop where
  agent : v.agentFd = b.agentFd
  reply : ∀ reply, x.reply = some (client, reply) → reply.status ≠ statusOk

/-- The client became the agent, and was told so. -/
structure Admitted (client : Fd) (request : Message) (b v : Broker) (x : Visit) : Prop where
  before : b.agentFd = none
  agent : v.agentFd = some client
  continuous : v.agentContinuous = hasFlag request.flags flagContinuous
  reply : ∃ reply, x.reply = some (client, reply) ∧ reply.status = statusOk ∧
    hasFlag reply.flags flagContinuous =
      (x.gates && !b.armed && hasFlag request.flags flagContinuous)

/-- A client that is refused gets a status message with an error, and is closed. -/
theorem obeys_refuse (client : Fd) (id : UInt32) (f : Message → Message)
    (hf : ∀ m, (f m).status ≠ statusOk) :
    (do
      let m ← status id
      let _ ← writeFull client (f m)
      closeFd client : BrokerProg Unit).Obeys visitMonitor (fun _ v x' =>
        x'.request = x.request ∧ Refused client b v x') b x := by
  refine obeys_bind (obeys_mono (obeys_status id) ?_)
  rintro m v x₁ ⟨rfl, hx₁, hflags⟩
  refine obeys_bind (obeys_call fun _ => obeys_call fun _ => ⟨hx₁, rfl, ?_⟩)
  rintro reply hreply
  obtain rfl : f m = reply := congrArg Prod.snd (Option.some.inj hreply)
  exact hf m

theorem obeys_registerAgent (client : Fd) (request : Message) :
    (registerAgent client request).Obeys visitMonitor (fun _ v x' => x'.request = x.request ∧
      (Refused client b v x' ∨ Admitted client request b v x')) b x := by
  refine obeys_bind (obeys_ite (fun _ => ?_) fun _ => obeys_ite (fun _ => ?_) fun hfree => ?_)
  · exact obeys_mono (obeys_refuse client request.requestId (fun m => { m with
      status := errProtocol, detail := "unknown agent registration flag" })
      fun _ => (by decide : errProtocol ≠ statusOk))
      fun _ _ _ h => ⟨h.1, .inl h.2⟩
  · exact obeys_mono (obeys_refuse client request.requestId (fun m => { m with status := errBusy })
      fun _ => (by decide : errBusy ≠ statusOk)) fun _ _ _ h => ⟨h.1, .inl h.2⟩
  · simp only [Bool.or_eq_true, not_or, Bool.not_eq_true, Option.isSome_eq_false_iff,
      Option.isNone_iff_eq_none] at hfree
    obtain ⟨⟨hactive, hprobing⟩, hagent⟩ := hfree
    refine obeys_bind (obeys_bind (obeys_mono (obeys_status request.requestId) ?_))
    rintro m v x₁ ⟨rfl, hx₁, hflags⟩
    refine obeys_bind (obeys_call fun _ => ⟨hx₁, .inr ⟨hagent, rfl, rfl, _, rfl, rfl, ?_⟩⟩)
    refine hflags.trans ?_
    simp only [reportsContinuous, hprobing, hactive, Bool.false_eq_true, if_false]
    cases b.armed with
    | false => exact congrArg (· && _) (Bool.and_true _).symm
    | true =>
      show (x₁.gates && false) = (x₁.gates && false && _)
      rw [Bool.and_false, Bool.false_and]

/-- The first message that was read stays the client's request. -/
theorem step_request {c : Io} {a : c.Ans} {y : Fd × Message} (h : x.request = some y) :
    (x.step c a).request = some y := by
  cases c with
  | access marker => cases marker <;> exact h
  | readFull fd =>
    show (if a.ok then x.request.or (some (fd, a.message)) else x.request) = some y
    rw [h, Option.some_or, ite_self]
  | _ => exact h

/-- An authorised client that is not root cannot register. -/
theorem obeys_serveRequest_register (n : Nat) (request : Message)
    (hregister : request.opcode = opAgentRegister) :
    (serveRequest n false request).Obeys visitMonitor (fun m v x' =>
      x'.request = x.request ∧ v.agentFd = b.agentFd ∧ m.status = errProtocol) b x := by
  refine obeys_bind (obeys_mono (obeys_status request.requestId) ?_)
  rintro m v x₁ ⟨rfl, hx₁, hflags⟩
  rw [hregister]
  exact ⟨hx₁, rfl, rfl⟩

/-- The request of the client is known, and a registration was refused or admitted. -/
def Judged (client : Fd) (request : Message) (b v : Broker) (x : Visit) : Prop :=
  x.request = some (client, request) ∧
    (request.opcode = opAgentRegister → Refused client b v x ∨ Admitted client request b v x)

theorem obeys_composerAsk (n : Nat) (opcode : UInt16) {y : Fd × Message} (hx : x.request = some y) :
    (composerAsk n opcode).Obeys visitMonitor (fun _ v x' =>
      v.agentFd = b.agentFd ∧ x'.request = some y) b x := by
  refine obeys_invariant (I := fun (v : Broker) (x' : Visit) => v.agentFd = b.agentFd ∧
    x'.request = some y)
    (uses_mono (fun op hop => ?_)
      (composing_requesting (uses_composerRequest n opcode {} false 0))) ⟨rfl, hx⟩
  cases op with
  | modify f =>
    rintro v x' ⟨hv, hx'⟩
    have howner : (f v).owner = v.owner := hop v
    exact ⟨(congrArg (fun o => o.2.2.1) howner).trans hv, hx'⟩
  | io c => exact fun v x' h => ⟨trivial, fun a => ⟨h.1, step_request h.2⟩⟩
  | _ => trivial

theorem obeys_serveClient (n : Nat) (client : Fd) (root : Bool) (request : Message)
    (hx : x.request = some (client, request)) :
    (serveClient n client root request).Obeys visitMonitor
      (fun _ v x' => Judged client request b v x') b x := by
  refine obeys_ite (fun _ => ?_) fun hother => ?_
  · exact obeys_mono (obeys_registerAgent client request) fun _ _ _ h => ⟨h.1.trans hx, fun _ => h.2⟩
  by_cases hregister : request.opcode = opAgentRegister
  · obtain rfl : root = false := by simpa [hregister] using hother
    refine obeys_bind (obeys_mono (obeys_composerAsk n opStatus hx) ?_)
    rintro reply v x₁ ⟨hv, hx₁⟩
    refine obeys_bind (obeys_mono (obeys_serveRequest_register n request hregister) ?_)
    rintro response v' x₂ ⟨hx₂, hv', hstatus⟩
    refine obeys_bind (obeys_call fun _ => obeys_call fun _ =>
      ⟨hx₂.trans hx₁, fun _ => .inl ⟨hv'.trans hv, fun reply hreply => ?_⟩⟩)
    obtain rfl : response = reply := congrArg Prod.snd (Option.some.inj hreply)
    rw [hstatus]
    decide
  · -- another request: only that it is known matters
    refine obeys_mono (obeys_invariant (I := fun _ (x' : Visit) => x'.request = some (client, request))
      (uses_mono (fun op _ => ?_) (uses_true _)) hx) fun _ _ _ h => ⟨h, fun h' => absurd h' hregister⟩
    cases op with
    | modify f => exact fun _ _ h => h
    | io c => exact fun _ _ h => ⟨trivial, fun _ => step_request h⟩
    | _ => trivial

theorem obeys_answerClient (n : Nat) (client : Fd) (uid : UInt32) (request : Message)
    (hx : x.request = some (client, request)) :
    (answerClient n client uid request).Obeys visitMonitor
      (fun _ v x' => Judged client request b v x') b x := by
  refine obeys_bind (obeys_call fun packages => obeys_ite (fun _ => ?_) fun _ =>
    obeys_serveClient n client _ request hx)
  exact obeys_mono (obeys_refuse client request.requestId (fun m => { m with
    status := errPermission, detail := "peer uid is not authorized" })
    fun _ => (by decide : errPermission ≠ statusOk))
    fun _ _ _ h => ⟨h.1.trans hx, fun _ => .inl h.2⟩

theorem obeys_acceptedClient (n : Nat) (client : Fd) : (acceptedClient n client).Obeys visitMonitor
    (fun _ v x => ∀ y, x.request = some y → Judged y.1 y.2 b v x) b {} := by
  refine obeys_bind (obeys_call fun peer => ?_)
  cases peer with
  | none => exact obeys_call fun _ y hy => by cases hy
  | some uid =>
    refine obeys_bind (obeys_call fun received => obeys_ite (fun _ => obeys_call fun _ y hy => ?_)
      fun hvalid => ?_)
    · -- the client is closed without a reply
      exact ⟨hy, fun _ => .inl ⟨rfl, fun reply hreply => by cases hreply⟩⟩
    · have hok : received.ok = true := by
        cases hr : received.ok
        · rw [hr] at hvalid
          exact absurd rfl hvalid
        · rfl
      have hrequest : (Visit.step {} (.readFull client) received).request =
          some (client, received.message) := by
        show (if received.ok then _ else _) = _
        rw [hok]
        rfl
      refine obeys_mono (obeys_answerClient n client uid received.message hrequest) ?_
      intro _ v x' h y hy
      obtain rfl : (client, received.message) = y := Option.some.inj (h.1.symm.trans hy)
      exact h

theorem obeys_acceptClient (n : Nat) : (acceptClient n).Obeys visitMonitor
    (fun _ v x => ∀ y, x.request = some y → Judged y.1 y.2 b v x) b {} := by
  refine obeys_bind (obeys_bind fun client => obeys_bind (obeys_call fun accepted => ?_))
  cases accepted with
  | false => exact fun y hy => by cases hy
  | true => exact obeys_acceptedClient n client

/-! ## Agreement -/

/-- A continuous agent. -/
def continuousAgent : Message := Agent.registrationMessage 77 true

/-- The clients that connect, one in each iteration. -/
def clientsScript (requests : List Message) : Bench :=
  { polls := requests.map fun _ => clientReadable, streams := requests,
    composer := [granted false, granted false, granted false, granted false] }

/-- The reply says what the agent asked for exactly if it can. -/
theorem told_iff {request reply : Message} (hflags : hasFlag reply.flags flagContinuous =
      (x.gates && !b.armed && hasFlag request.flags flagContinuous)) :
    hasFlag reply.flags flagContinuous = hasFlag request.flags flagContinuous ↔
      Expressible request b x := by
  rw [hflags, Expressible]
  cases hasFlag request.flags flagContinuous <;> cases b.armed <;> cases x.gates <;> decide

/-- Whatever the broker's state: a registration ends in agreement exactly if it was refused, or the
    reply can say what the agent asked for. -/
theorem registration_agrees (n : Nat) {client : Fd} {request : Message}
    (hrun : (acceptClient n).run (sysHandler env) s = (some (), t))
    (hrequest : (visit (callsSince s t)).request = some (client, request))
    (hregister : request.opcode = opAgentRegister) :
    RegistrationAgrees client request s t ↔
      (Accepted client s t → Expressible request s.vars (visit (callsSince s t))) := by
  obtain ⟨new, hlog, hjudged⟩ := wp_returned (wp_obeys (obeys_acceptClient n)) hrun
  have hvisit : visitMonitor.after {} new = visit (callsSince s t) := by
    rw [callsSince_of_log hlog]
    rfl
  rw [hvisit] at hjudged
  rcases (hjudged _ hrequest).2 hregister with h | h
  · have hnot : ¬Accepted client s t := by
      rintro ⟨hnone, hsome⟩
      rw [h.agent, hnone] at hsome
      cases hsome
    refine iff_of_true ?_ fun ha => absurd ha hnot
    refine ⟨fun ha => absurd ha hnot, fun ha => absurd ha hnot, fun agent id reply _ hreply => ?_⟩
    have hstatus : (reply.status == statusOk) = false := by simpa using h.reply reply hreply
    simp [Agent.registered, hstatus, hnot]
  · obtain ⟨reply, hreply, hstatus, hflags⟩ := h.reply
    have haccepted : Accepted client s t := ⟨h.before, h.agent⟩
    constructor
    · intro hagrees _
      obtain ⟨reply', hreply', -, hsame⟩ := hagrees.told haccepted
      obtain rfl : reply = reply' := congrArg Prod.snd (Option.some.inj (hreply.symm.trans hreply'))
      exact (told_iff hflags).1 hsame
    · intro hexpressible
      have hsame := (told_iff hflags).2 (hexpressible haccepted)
      refine ⟨fun _ => h.continuous, fun _ => ⟨reply, hreply, hstatus, hsame⟩, ?_⟩
      rintro agent id reply' hrequest' hreply'
      obtain rfl : reply = reply' := congrArg Prod.snd (Option.some.inj (hreply.symm.trans hreply'))
      refine iff_of_true ?_ haccepted
      have hcontinuous : hasFlag reply.flags flagContinuous = agent.noTimeout := by
        rw [hsame, hrequest']
        cases hno : agent.noTimeout <;> simp [Agent.registrationMessage, hasFlag, flagContinuous]
      simp only [Agent.registered, hstatus, hcontinuous, beq_self_eq_true, Bool.true_and,
        Bool.not_or_self]

/-- The broker when the agent is its first client. -/
def beforeAgent : Sys Bench :=
  after benchEnv runPoll (after benchEnv stopRequested
    (after benchEnv runStartup (Sys.initial (clientsScript [continuousAgent]))))

/-- An idle broker with open gates keeps a continuous agent. -/
theorem registration_agrees_continuous :
    Accepted 1 beforeAgent (after benchEnv (acceptClient 8) beforeAgent) ∧
      RegistrationAgrees 1 continuousAgent beforeAgent
        (after benchEnv (acceptClient 8) beforeAgent) :=
  ⟨by decide +kernel, (registration_agrees 8 (run_after (by decide +kernel)) (by decide +kernel) rfl).2
    fun _ => .inr ⟨by decide +kernel, by decide +kernel⟩⟩

/-- A part served the continuous agent, and sent it away. -/
def losesAgent (d : Did Bench) : Bool :=
  d.part == .client && d.after.vars.agentContinuous &&
    decide ((visit d.calls).request.map Prod.snd = some continuousAgent) &&
    decide ((visit d.calls).request.map Prod.fst = d.after.vars.agentFd) &&
    (visit d.calls).reply.any fun y => decide (some y.1 = d.after.vars.agentFd) &&
      y.2.status == statusOk && !Agent.registered { noTimeout := true } true y.2

theorem agentLost_of_losesAgent {d : Did Bench} (h : losesAgent d = true) :
    d.part = .client ∧ AgentLost d.before d.after := by
  simp only [losesAgent, Bool.and_eq_true, beq_iff_eq, decide_eq_true_eq, Option.any_eq_true,
    Bool.not_eq_true'] at h
  obtain ⟨⟨⟨⟨hpart, hcontinuous⟩, hrequest⟩, hclient⟩, ⟨client, reply⟩, hreply,
    ⟨hfd, hstatus⟩, hleft⟩ := h
  obtain ⟨⟨client', request⟩, hx, rfl⟩ := Option.map_eq_some_iff.1 hrequest
  have hsame : some client' = some client := by
    rw [hfd, ← hclient, hx]
    rfl
  obtain rfl := Option.some.inj hsame
  exact ⟨hpart, client', 77, reply, hx, hreply, hstatus, hleft, hfd.symm, hcontinuous⟩

/-- A broker that has an armed request, or whose gates are closed, accepts a continuous agent with a
    reply that sends it away. -/
theorem registration_disagrees :
    (∃ (revents : List Revents) (hist : List (Did Bench)) (s : Sys Bench) (d : Did Bench),
      History benchEnv 8 revents [] hist s ∧ d ∈ hist ∧ d.part = .client ∧
        d.before.vars.armed = true ∧ AgentLost d.before d.after) ∧
    (∃ (revents : List Revents) (hist : List (Did Bench)) (s : Sys Bench) (d : Did Bench),
      History closedEnv 8 revents [] hist s ∧ d ∈ hist ∧ d.part = .client ∧
        d.before.vars.armed = false ∧ AgentLost d.before d.after) := by
  constructor
  · obtain ⟨revents, hist, s, h, hcheck⟩ := exists_history benchEnv 8
      (clientsScript [streamScriptMessage opArm 0, continuousAgent]) 2
      (fun hist => hist.any fun d => losesAgent d && d.before.vars.armed) (by decide +kernel)
    obtain ⟨d, hd, hlost⟩ := List.any_eq_true.1 hcheck
    rw [Bool.and_eq_true] at hlost
    obtain ⟨hpart, hagent⟩ := agentLost_of_losesAgent hlost.1
    exact ⟨revents, hist, s, d, h, hd, hpart, hlost.2, hagent⟩
  · obtain ⟨revents, hist, s, h, hcheck⟩ := exists_history closedEnv 8
      (clientsScript [continuousAgent]) 1
      (fun hist => hist.any fun d => losesAgent d && !d.before.vars.armed) (by decide +kernel)
    obtain ⟨d, hd, hlost⟩ := List.any_eq_true.1 hcheck
    rw [Bool.and_eq_true, Bool.not_eq_true'] at hlost
    obtain ⟨hpart, hagent⟩ := agentLost_of_losesAgent hlost.1
    exact ⟨revents, hist, s, d, h, hd, hpart, hlost.2, hagent⟩

end HdmiLos.Handshake
