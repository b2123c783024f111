import HdmiLos.Broker.Arming
import HdmiLos.Broker.Proofs.TrafficProofs

/-!
# What a request to the composer returns

A request ends with the response to it, which is then the latest status that the broker knows, or it
fails. In between it consumes hotplug events.
-/

namespace HdmiLos

open Interaction Prog List

variable {ω α : Type} {env : Env ω} {s t u : Sys ω}

/-! ## Answers -/

/-- Calls of other kinds are invisible to a request that waits for its answer. -/
theorem answerTo_of_kind {calls : List Event} (h : ∀ e ∈ calls, e.1.kind ≠ .composer) (fd : Fd)
    (id : UInt32) (later : List Event) : answerTo fd id (calls ++ later) = answerTo fd id later := by
  induction calls with
  | nil => rfl
  | cons e calls ih =>
    have ih := ih fun e' he' => h e' (mem_cons_of_mem e he')
    obtain ⟨c, a⟩ := e
    cases c with
    | recvWithFd fd' => exact absurd rfl (h _ mem_cons_self)
    | _ => exact ih

theorem statusAnswer_of_kind {calls : List Event} (h : ∀ e ∈ calls, e.1.kind ≠ .composer)
    (later : List Event) : statusAnswer (calls ++ later) = statusAnswer later := by
  induction calls with
  | nil => rfl
  | cons e calls ih =>
    have ih := ih fun e' he' => h e' (mem_cons_of_mem e he')
    obtain ⟨c, a⟩ := e
    cases c with
    | sendWithFd fd' m passed =>
      cases passed with
      | none => exact absurd rfl (h _ mem_cons_self)
      | some _ => exact ih
    | _ => exact ih

/-! ## The fields of a status -/

/-- The part of the state that no request changes. -/
def Broker.asked (b : Broker) : (Bool × Bool × Option Fd × Bool × Bool × Nat) × Mode :=
  (b.owner, b.requestedMode)

/-- The broker's cached status is what the message says. -/
structure Broker.Knows (b : Broker) (m : Message) : Prop where
  flags : b.composerFlags = m.flags
  width : b.activeWidth = m.activeWidth
  height : b.activeHeight = m.activeHeight
  refresh : b.activeRefreshMillihz = m.activeRefreshMillihz

theorem knows_cacheComposerStatus (b : Broker) (m : Message) : (b.cacheComposerStatus m).Knows m :=
  ⟨rfl, rfl, rfl, rfl⟩

/-- The request that was sent on `fd` from `s` waits in the state `t`: only hotplug events came. -/
structure Pends (opcode : UInt16) (fd : Fd) (id : UInt32) (s t : Sys ω) : Prop where
  log : s.log <+: t.log
  asked : t.vars.asked = s.vars.asked
  messages : ∀ m ∈ composerMessages (callsSince s t), m.isHotplug = true
  pending : t.vars.composerDisconnectPending =
    unplugAfter s.vars.composerDisconnectPending (composerMessages (callsSince s t))
  answer : opcode = opStatus →
    ∀ later, statusAnswer (callsSince s t ++ later) = answerTo fd id later
  sent : ∃ e ∈ callsSince s t, e.1.kind = .composer

/-- The response `m` ended the request, and the broker knows it. -/
structure Responds (opcode : UInt16) (s : Sys ω) (reply : Reply) (m : Message) (t : Sys ω) : Prop where
  log : s.log <+: t.log
  asked : t.vars.asked = s.vars.asked
  knows : t.vars.Knows m
  reply : reply.ok = !t.vars.composerDisconnectPending
  messages : ∃ events, composerMessages (callsSince s t) = events ++ [m] ∧
    ∀ x ∈ events, x.isHotplug = true
  response : m.isHotplug = false
  pending : t.vars.composerDisconnectPending =
    unplugAfter s.vars.composerDisconnectPending (composerMessages (callsSince s t))
  answer : opcode = opStatus → ∀ later, statusAnswer (callsSince s t ++ later) = some m
  sent : ∃ e ∈ callsSince s t, e.1.kind = .composer

/-- The request failed. -/
structure Fails (opcode : UInt16) (s : Sys ω) (reply : Reply) (t : Sys ω) : Prop where
  log : s.log <+: t.log
  asked : t.vars.asked = s.vars.asked
  reply : reply.ok = false
  answer : opcode = opStatus → statusAnswer (callsSince s t) = none
  sent : ∃ e ∈ callsSince s t, e.1.kind = .composer

/-! ## One request -/

variable {fd : Fd} {r : Received}

theorem Receives.calls (h : Receives fd r t u) (hs : s.log <+: t.log) : s.log <+: u.log ∧
    composerMessages (callsSince s u) = composerMessages (callsSince s t) ++
      (if r.ok && r.message.validComposer then [r.message] else []) ∧
    (∀ (id : UInt32) (later : List Event),
      answerTo fd id (callsSince t u ++ later) = answerTo fd id (⟨.recvWithFd fd, r⟩ :: later)) ∧
    callsSince s u = callsSince s t ++ callsSince t u := by
  obtain ⟨-, seg, hlog, hseg⟩ := h
  have htu : t.log <+: u.log := ⟨_, hlog.symm⟩
  have hcalls := callsSince_trans hs htu
  have hseg' := callsSince_of_log hlog
  refine ⟨hs.trans htu, ?_, fun id later => ?_, hcalls⟩
  · rw [hcalls, hseg', composerMessages_received _ _ _ _ hseg]
  · rw [hseg', cons_append]
    simp only [answerTo, answerTo_of_kind hseg]

variable {opcode : UInt16} {id : UInt32}

theorem Pends.hotplug (h : Pends opcode fd id s t) (hr : Receives fd r t u)
    (hval : (!r.ok || !r.message.validComposer) = false) (hplug : r.message.isHotplug = true) :
    Pends opcode fd id s { u with vars := u.vars.noteHotplug r.message } := by
  obtain ⟨hlog, hmessages, hanswer, hcalls⟩ := hr.calls h.log
  have hval' : (r.ok && r.message.validComposer) = true := by simpa using hval
  rw [hval', if_pos rfl] at hmessages
  refine ⟨hlog, ?_, ?_, ?_, fun hop later => ?_, ?_⟩
  · exact (congrArg Broker.asked hr.vars).trans h.asked
  · intro m hm
    change m ∈ composerMessages (callsSince s u) at hm
    rw [hmessages] at hm
    rcases mem_append.1 hm with hm | hm
    · exact h.messages m hm
    · rw [mem_singleton.1 hm]
      exact hplug
  · change _ = unplugAfter _ (composerMessages (callsSince s u))
    rw [hmessages, unplugAfter_append]
    simp [unplugAfter, hplug, Broker.noteHotplug]
  · change statusAnswer (callsSince s u ++ later) = _
    rw [hcalls, append_assoc, h.answer hop, hanswer]
    simp [answerTo, hval, hplug]
  · obtain ⟨e, he, hk⟩ := h.sent
    exact ⟨e, mem_callsSince h.log (hr.log.elim fun _ hl => ⟨_, hl.1.symm⟩) he, hk⟩

theorem Pends.responds {reply : Reply} (h : Pends opcode fd id s t) (hr : Receives fd r t u)
    (hval : (!r.ok || !r.message.validComposer) = false) (hplug : r.message.isHotplug = false)
    (hid : r.message.requestId = id)
    (hok : reply.ok = !(u.vars.cacheComposerStatus r.message).composerDisconnectPending) :
    Responds opcode s reply r.message { u with vars := u.vars.cacheComposerStatus r.message } := by
  obtain ⟨hlog, hmessages, hanswer, hcalls⟩ := hr.calls h.log
  have hval' : (r.ok && r.message.validComposer) = true := by simpa using hval
  rw [hval', if_pos rfl] at hmessages
  refine ⟨hlog, ?_, knows_cacheComposerStatus _ _, hok, ⟨_, hmessages, h.messages⟩, hplug, ?_,
    fun hop later => ?_, ?_⟩
  · exact (congrArg Broker.asked hr.vars).trans h.asked
  · change _ = unplugAfter _ (composerMessages (callsSince s u))
    rw [hmessages, unplugAfter_append, ← h.pending]
    simp [unplugAfter, hplug, Broker.cacheComposerStatus, hr.vars]
  · change statusAnswer (callsSince s u ++ later) = _
    rw [hcalls, append_assoc, h.answer hop, hanswer]
    simp [answerTo, hval, hplug, hid]
  · obtain ⟨e, he, hk⟩ := h.sent
    exact ⟨e, mem_callsSince h.log (hr.log.elim fun _ hl => ⟨_, hl.1.symm⟩) he, hk⟩

/-- From `s` to `t` nothing was said to the composer, and no field changed that a request keeps. -/
abbrev Stays (s t : Sys ω) : Prop := Beside Broker.asked s t

theorem stays_composerFailed (passed : Option Fd) (m : Message) :
    (composerFailed passed m).Uses (Within Broker.asked [.quiet]) := by
  have hclose : ∀ fd : Option Fd, (closeIfOpen fd).Uses (Within Broker.asked [.quiet]) := by
    intro fd
    cases fd with
    | none => trivial
    | some fd => exact uses_call (by simp [Io.kind])
  refine uses_bind (hclose passed) fun _ => uses_bind ?_ fun _ => trivial
  exact uses_bind uses_getBroker fun b => uses_bind (hclose _) fun _ => uses_update fun _ => rfl

theorem Pends.fails (passed : Option Fd) (h : Pends opcode fd id s t) (hr : Receives fd r t u)
    (hbad : (!r.ok || !r.message.validComposer) = true ∨
      (r.message.isHotplug = false ∧ r.message.requestId ≠ id)) :
    wp (sysHandler env) (composerFailed passed r.message) (Fails opcode s) u := by
  obtain ⟨hlog, -, hanswer, hcalls⟩ := hr.calls h.log
  refine wp_returns (wp_and (wp_composerFailed passed r.message)
    (wp_beside (by simp) (stays_composerFailed passed _)))
    fun reply v hv => ?_
  obtain ⟨⟨hok, -⟩, hv⟩ := hv
  obtain ⟨seg, hl, hseg⟩ := hv.log
  refine ⟨hlog.trans hv.grows, ?_, hok, fun hop => ?_, ?_⟩
  · exact hv.kept.trans ((congrArg Broker.asked hr.vars).trans h.asked)
  · rw [callsSince_trans hlog hv.grows, hcalls, append_assoc, h.answer hop, hanswer]
    by_cases hval : (!r.ok || !r.message.validComposer) = true
    · simp [answerTo, hval]
    · obtain ⟨hplug, hid⟩ := hbad.resolve_left hval
      simp [answerTo, hval, hplug, hid]
  · obtain ⟨e, he, hk⟩ := h.sent
    exact ⟨e, mem_callsSince hlog hv.grows (hcalls ▸ mem_append_left _ he), hk⟩

theorem wp_composerReceive_pends (wantLease : Bool) (h : Pends opcode fd id s t) :
    wp (sysHandler env) (composerReceive fd id wantLease ()) (fun r u =>
      Sum.elim (fun _ => Pends opcode fd id s u)
        (fun reply => (∃ m, Responds opcode s reply m u) ∨ Fails opcode s reply u) r) t := by
  simp only [composerReceive, wp_bind]
  refine wp_post (wp_recvWithFd fd) fun x u hu => ?_
  obtain ⟨r, passed⟩ := x
  simp only [wp_ite, wp_bind, wp_pure, wp_update, wp_getBroker]
  split
  · rename_i hbad
    exact wp_post (h.fails passed hu (.inl hbad)) fun _ _ hv => .inr hv
  · rename_i hval
    rw [Bool.not_eq_true] at hval
    split
    · rename_i hplug
      exact wp_post (hu.closeIfOpen passed) fun _ v hv => h.hotplug hv hval hplug
    · rename_i hplug
      rw [Bool.not_eq_true] at hplug
      split
      · rename_i hid
        refine wp_post (h.fails passed hu (.inr ⟨hplug, ?_⟩)) fun _ _ hv => .inr hv
        simpa using hid
      · rename_i hid
        refine wp_post (hu.closeIfOpen _) fun _ v hv => .inl ⟨r.message, ?_⟩
        exact h.responds hv hval hplug (by simpa using hid) rfl

/-- `EnsureComposer` may have connected, and nothing was received. -/
structure Connects (s t : Sys ω) : Prop where
  asked : t.vars.asked = s.vars.asked
  pending : t.vars.composerDisconnectPending = s.vars.composerDisconnectPending
  log : s.log <+: t.log
  messages : composerMessages (callsSince s t) = []
  answer : ∀ later, statusAnswer (callsSince s t ++ later) = statusAnswer later

theorem wp_ensureComposer_connects : wp (sysHandler env) ensureComposer
    (fun fd t => Connects s t ∧ (fd = none → ∃ e ∈ callsSince s t, e.1.kind = .composer)) s := by
  simp only [ensureComposer, wp_bind, wp_getBroker]
  cases hfd : s.vars.composerFd with
  | some fd =>
    refine ⟨⟨rfl, rfl, prefix_refl _, ?_, fun _ => ?_⟩, (by rintro ⟨⟩)⟩
    · rw [callsSince_self]
      rfl
    · rw [callsSince_self]
      rfl
  | none =>
    simp only [wp_bind]
    refine wp_call _ trivial fun ok w _ => ?_
    rw [wp_opened]
    split
    · exact ⟨⟨rfl, rfl, prefix_append _ _, by simp [callsSince, composerMessages, composerMessage],
        by simp [callsSince, statusAnswer]⟩, (by rintro ⟨⟩)⟩
    · exact ⟨⟨rfl, rfl, prefix_append _ _, by simp [callsSince, composerMessages, composerMessage],
        by simp [callsSince, statusAnswer]⟩, fun _ =>
          ⟨⟨.connectComposer, ok⟩, by simp [callsSince], rfl⟩⟩

theorem Connects.pends {m : Message} (h : Connects s t)
    (hm : m.opcode = opcode) (hasked : u.vars.asked = t.vars.asked)
    (hpending : u.vars.composerDisconnectPending = t.vars.composerDisconnectPending)
    (hlog : u.log = t.log ++ [⟨.sendWithFd fd m none, true⟩]) :
    Pends opcode fd m.requestId s u := by
  have htu : t.log <+: u.log := ⟨_, hlog.symm⟩
  have hcalls := callsSince_trans h.log htu
  rw [callsSince_of_log hlog] at hcalls
  have hmessages : composerMessages (callsSince s u) = [] := by
    rw [hcalls, composerMessages_append, h.messages]
    rfl
  refine ⟨h.log.trans htu, hasked.trans h.asked, ?_, ?_, fun hop later => ?_, ?_⟩
  · simp [hmessages]
  · rw [hmessages, hpending, h.pending]
    rfl
  · rw [hcalls, append_assoc, h.answer]
    simp [statusAnswer, hm, hop]
  · rw [hcalls]
    exact ⟨_, mem_append_right _ mem_cons_self, rfl⟩

theorem Connects.fails {m : Message} {reply : Reply} {v : Sys ω}
    (h : Connects s t) (hv : Stays u v) (hasked : u.vars.asked = t.vars.asked)
    (hlog : u.log = t.log ++ [⟨.sendWithFd fd m none, false⟩]) (hok : reply.ok = false) :
    Fails opcode s reply v := by
  have htu : t.log <+: u.log := ⟨_, hlog.symm⟩
  have hcalls := callsSince_trans (h.log.trans htu) hv.grows
  rw [callsSince_trans h.log htu, callsSince_of_log hlog] at hcalls
  obtain ⟨seg, hl, hseg⟩ := hv.log
  refine ⟨(h.log.trans htu).trans hv.grows, hv.kept.trans (hasked.trans h.asked), hok, fun _ => ?_, ?_⟩
  · rw [hcalls, callsSince_of_log hl, append_assoc, h.answer]
    simpa [statusAnswer] using statusAnswer_of_kind hseg []
  · rw [hcalls]
    exact ⟨_, mem_append_left _ (mem_append_right _ mem_cons_self), rfl⟩

/-- A request ends with its response, or fails. -/
theorem wp_composerRequest_responds (n : Nat) (opcode : UInt16) (buffer : Message) (wantLease : Bool)
    (flags : UInt32) : wp (sysHandler env) (composerRequest n opcode buffer wantLease flags)
      (fun reply t => (∃ m, Responds opcode s reply m t) ∨ Fails opcode s reply t) s := by
  simp only [composerRequest, wp_bind]
  refine wp_post wp_ensureComposer_connects ?_
  rintro (_ | fd) t ⟨ht, hsent⟩
  · refine .inr ⟨ht.log, ht.asked, rfl, fun _ => ?_, hsent rfl⟩
    simpa [statusAnswer] using ht.answer []
  · simp only [wp_bind, wp_makeMessage, wp_ite]
    refine wp_call _ trivial fun sent w _ => ?_
    let request : Message :=
      { magic := hdmiLosMagic, version := hdmiLosVersion, opcode := opcode,
        requestId := t.vars.nextRequestId, flags := flags }
    cases sent with
    | true =>
      refine wp_loop _ (fun _ => Pends opcode fd t.vars.nextRequestId s) (fun _ _ _ => trivial)
        (fun _ u hu => wp_composerReceive_pends wantLease hu) n () ?_
      exact ht.pends (m := request) rfl rfl rfl rfl
    | false =>
      refine wp_returns (wp_and (wp_composerFailed none buffer)
        (wp_beside (by simp) (stays_composerFailed none buffer))) fun reply u hu => ?_
      exact .inr (ht.fails (m := request) hu.2 rfl rfl hu.1.1)

end HdmiLos
