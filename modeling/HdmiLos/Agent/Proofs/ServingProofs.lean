import HdmiLos.Agent.Proofs.PartsProofs

/-!
# The agent replies to what it was asked

The agent writes `AGENT_READY` only while it serves a request, and at most once for each.
-/

namespace HdmiLos.Agent

open Interaction Prog

variable {α : Type} {n : Nat} {v : Agent} {serving : Bool}

/-- The conversation with the broker, by whether a request waits for its reply. -/
def servingMonitor : Monitor Io.Ans Bool where
  allows serving
    | .writeBroker m => m.opcode = opAgentReady → serving = true
    | _ => True
  next
    | serving, .writeBroker m, _ => if m.opcode == opAgentProgress then serving else false
    | _, .recvBroker .request, received => received.ok && received.message.isAgentRequest
    | serving, _, _ => serving

/-- The footprint of the functions that leave the request unanswered. -/
abbrev Unanswered (serving : Bool) : Act Agent Io → Prop :=
  Monitor.Neutral servingMonitor serving

theorem unanswered_mute {p : AgentProg α} (hp : p.Uses Mute) : p.Uses (Unanswered serving) := by
  refine uses_mono (fun op hop => ?_) hp
  cases op with
  | io c =>
    cases c with
    | writeBroker m => cases hop
    | recvBroker reader => cases hop
    | _ => exact ⟨trivial, fun _ => rfl⟩
  | _ => trivial

theorem unanswered_progress {m : Message} (hm : m.opcode = opAgentProgress) :
    (writeBroker m).Uses (Unanswered serving) := by
  have hready : opAgentProgress ≠ opAgentReady := by decide
  refine uses_perform ⟨fun h => absurd (hm.symm.trans h) hready, fun _ => ?_⟩
  simp [servingMonitor, hm]

theorem unanswered_recvAcknowledgement :
    (recvMessage .acknowledgement).Uses (Unanswered serving) := by
  refine uses_bind (uses_perform ⟨trivial, fun _ => rfl⟩) fun received => uses_ite ?_ trivial
  exact uses_bind (uses_perform trivial) fun _ => trivial

theorem unanswered_relayReadable (fd : Fd) : (relayReadable fd).Uses (Unanswered serving) := by
  refine uses_bind (uses_perform ⟨trivial, fun _ => rfl⟩) fun record => ?_
  cases record with
  | none => trivial
  | some record =>
    refine uses_ite (uses_bind ?_ fun _ => uses_ite ?_ trivial) trivial
    · refine uses_bind (unanswered_mute (mute_assign _)) fun _ => ?_
      refine uses_bind (unanswered_progress rfl) fun _ => uses_ite ?_ trivial
      refine uses_bind unanswered_recvAcknowledgement fun r => ?_
      exact uses_bind (unanswered_mute (mute_closeIfOpen _)) fun _ => trivial
    · exact uses_bind (unanswered_mute mute_getAgent) fun _ =>
        uses_perform ⟨trivial, fun _ => rfl⟩

theorem unanswered_relayTraceRecord (timeoutMs : Int) :
    (relayTraceRecord timeoutMs).Uses (Unanswered serving) := by
  refine uses_bind (unanswered_mute mute_getAgent) fun a => ?_
  cases a.trace with
  | none => trivial
  | some fd =>
    refine uses_bind (uses_perform ⟨trivial, fun _ => rfl⟩) fun polled => ?_
    cases polled with
    | timeout => trivial
    | failed => trivial
    | ready revents => exact uses_ite (unanswered_relayReadable fd) trivial

theorem unansweredParts (serving : Bool) :
    SessionParts fun (α : Type) (p : AgentProg α) => p.Uses (Unanswered serving) where
  pure _ := trivial
  stop := trivial
  bind hp hf := uses_bind hp hf
  mute := unanswered_mute
  relay := unanswered_relayTraceRecord

/-! ## Requests -/

theorem obeys_unanswered {β : Type} {p : AgentProg α} {f : α → AgentProg β}
    {Q : β → Agent → Bool → Prop} (hp : p.Uses (Unanswered serving))
    (hf : ∀ a v, (f a).Obeys servingMonitor Q v serving) :
    (p >>= f).Obeys servingMonitor Q v serving := by
  refine obeys_bind (obeys_mono (obeys_neutral hp) fun a v' m' hm => ?_)
  rw [hm]
  exact hf a v'

theorem obeys_reply {m : Message} (hm : m.opcode = opAgentReady → serving = true) :
    (writeBroker m >>= fun _ => pure () : AgentProg Unit).Obeys servingMonitor
      (fun _ _ _ => True) v serving :=
  ⟨hm, fun _ => trivial⟩

theorem obeys_servePrepare (request : Message) :
    (servePrepare n request).Obeys servingMonitor (fun _ _ _ => True) v true := by
  refine obeys_unanswered ((unansweredParts true).prepareSession request.flags) fun ok _ => ?_
  refine obeys_unanswered ((unansweredParts true).cleanupFailed ok) fun _ _ => ?_
  exact obeys_unanswered (unanswered_mute (mute_assign _)) fun _ _ => obeys_reply fun _ => rfl

theorem obeys_serveStart (request : Message) (lease : Option Fd) :
    (serveStart n request lease).Obeys servingMonitor (fun _ _ _ => True) v true := by
  refine obeys_unanswered ((unansweredParts true).startRequested request lease) fun ok _ => ?_
  refine obeys_unanswered ((unansweredParts true).cleanupFailed ok) fun _ _ => ?_
  exact obeys_unanswered (unanswered_mute mute_getAgent) fun _ _ => obeys_reply fun _ => rfl

theorem obeys_serveStop (request : Message) (lease : Option Fd) :
    (serveStop n request lease).Obeys servingMonitor (fun _ _ _ => True) v true := by
  refine obeys_unanswered (unanswered_mute (mute_closeIfOpen lease)) fun _ _ => ?_
  refine obeys_unanswered (unanswered_mute mute_cleanupSession) fun _ _ => ?_
  exact obeys_unanswered (unanswered_mute (mute_assign _)) fun _ _ => obeys_reply fun _ => rfl

/-- A request that was read is answered in order. -/
theorem obeys_serveRequest (request : Message) (lease : Option Fd) :
    (serveRequest n request lease).Obeys servingMonitor (fun _ _ _ => True) v
      request.isAgentRequest := by
  by_cases hprepare : request.opcode = opAgentPrepare
  · simp only [serveRequest, Message.isAgentRequest, hprepare, beq_self_eq_true, if_true, Bool.true_or]
    exact obeys_servePrepare request
  by_cases hstart : request.opcode = opAgentStart
  · simp only [serveRequest, Message.isAgentRequest, hstart, beq_self_eq_true, if_true, Bool.true_or,
      Bool.or_true]
    exact obeys_serveStart request lease
  by_cases hstop : request.opcode = opAgentStop
  · simp only [serveRequest, Message.isAgentRequest, hstop, beq_self_eq_true, if_true, Bool.or_true]
    exact obeys_serveStop request lease
  · simp only [serveRequest, beq_iff_eq, hprepare, hstart, hstop, if_false]
    refine obeys_unanswered (unanswered_mute (mute_closeIfOpen lease)) fun _ _ => ?_
    refine obeys_reply fun h => ?_
    exact absurd h (by decide : opAgentFailed ≠ opAgentReady)

/-! ## The loop -/

theorem obeys_reportFailure (registration : Message) (text : String) :
    (reportFailure n registration text).Obeys servingMonitor (fun _ _ _ => True) v serving := by
  refine obeys_unanswered (unanswered_mute mute_cleanupSession) fun _ _ => obeys_reply fun h => ?_
  exact absurd h (by decide : opAgentFailed ≠ opAgentReady)

theorem obeys_reapXorg (registration : Message) :
    (reapXorg n registration).Obeys servingMonitor (fun _ _ _ => True) v serving := by
  refine obeys_unanswered (unanswered_mute mute_getAgent) fun a v => ?_
  cases a.xorg with
  | none => trivial
  | some pid =>
    refine obeys_unanswered (unanswered_mute (mute_call rfl)) fun waited v => ?_
    cases waited with
    | exited code =>
      exact obeys_unanswered (unanswered_mute (mute_assign _)) fun _ _ => obeys_reportFailure _ _
    | running => trivial
    | interrupted => trivial
    | failed => trivial

theorem obeys_relayPolled (registration : Message) (revents : Revents) :
    (relayPolled n registration revents).Obeys servingMonitor (fun _ _ _ => True) v serving := by
  refine obeys_unanswered (unanswered_mute mute_getAgent) fun a v =>
    obeys_ite (fun _ => ?_) fun _ => trivial
  refine obeys_unanswered (unanswered_relayTraceRecord 0) fun ok v => ?_
  exact obeys_ite (fun _ => trivial) fun _ => obeys_reportFailure _ _

theorem obeys_reportScanout (registration : Message) :
    (reportScanout n registration).Obeys servingMonitor (fun _ _ _ => True) v serving := by
  refine obeys_unanswered (unanswered_mute mute_getAgent) fun a v => ?_
  exact obeys_ite (fun _ => obeys_reportFailure _ _) fun _ => trivial

theorem obeys_recvMessage (reader : Reader) : (recvMessage reader).Obeys servingMonitor
      (fun r _ m' => r.1 = true → reader = .request → m' = r.2.1.isAgentRequest) v serving := by
  refine ⟨by cases reader <;> trivial, fun received => ?_⟩
  show Prog.Obeys servingMonitor _ (if received.ok && received.passed then _ else _) v _
  refine obeys_ite (fun h => fun fd => ?_) fun _ => ?_
  · rintro - rfl
    simp only [Bool.and_eq_true] at h
    simp [servingMonitor, h.1]
  · rintro hok rfl
    simp only [Bool.and_eq_true] at hok
    simp [servingMonitor, hok.1]

theorem obeys_readRequest : (readRequest n).Obeys servingMonitor (fun _ _ _ => True) v serving := by
  refine obeys_bind (obeys_mono (obeys_recvMessage .request) ?_)
  rintro ⟨ok, request, lease⟩ v' m' hm
  refine obeys_ite (fun hok => ?_) fun _ => trivial
  obtain rfl := hm hok rfl
  exact obeys_bind (obeys_mono (obeys_serveRequest request lease) fun _ _ _ _ => trivial)

/-- A round answers only the request it serves. -/
theorem obeys_agentRound (registration : Message) (x : Unit) :
    (agentRound n registration x).Obeys servingMonitor (fun _ _ _ => True) v serving := by
  refine obeys_unanswered (unanswered_mute (mute_call rfl)) fun stopping v => ?_
  refine obeys_ite (fun _ => trivial) fun _ => ?_
  refine obeys_unanswered (unanswered_mute mute_getAgent) fun a v => ?_
  refine obeys_unanswered (unanswered_mute (mute_call rfl)) fun polled v => ?_
  cases polled with
  | interrupted => trivial
  | failed => trivial
  | ready revents =>
    refine obeys_ite (fun _ => trivial) fun _ => ?_
    refine obeys_bind (obeys_mono (obeys_reapXorg registration) fun _ _ _ _ => ?_)
    refine obeys_bind (obeys_mono (obeys_relayPolled registration _) fun _ _ _ _ => ?_)
    refine obeys_bind (obeys_mono (obeys_reportScanout registration) fun _ _ _ _ => ?_)
    exact obeys_ite (fun _ => obeys_readRequest) fun _ => trivial

/-- The agent writes `AGENT_READY` only as the reply to a request that it has read. -/
theorem obeys_runAgent (n : Nat) (id : UInt32) (v : Agent) :
    (runAgent n id).Obeys servingMonitor (fun _ _ _ => True) v false := by
  refine obeys_unanswered (unanswered_mute (mute_call rfl)) fun connected v => ?_
  refine obeys_ite (fun _ => ?_) fun _ => trivial
  refine obeys_unanswered (unanswered_mute mute_getAgent) fun a v => ?_
  refine ⟨fun h => absurd h (by decide : opAgentRegister ≠ opAgentReady), fun sent => ?_⟩
  refine obeys_ite (fun _ => ?_) fun _ => trivial
  refine obeys_bind (obeys_mono (obeys_recvMessage .registration) ?_)
  rintro ⟨ok, reply, passed⟩ v m -
  refine obeys_ite (fun _ => obeys_bind ?_) fun _ => trivial
  refine obeys_loop (fun _ => True) (fun _ _ _ _ => ?_) n () trivial
  refine obeys_mono (obeys_agentRound _ _) ?_
  rintro (x | x) v' m' -
  · trivial
  · exact obeys_unanswered (unanswered_mute mute_cleanupSession) fun _ _ => trivial

end HdmiLos.Agent
