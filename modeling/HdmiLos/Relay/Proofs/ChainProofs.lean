import HdmiLos.Relay.Proofs.ReportProofs
import Mathlib.Algebra.Ring.Nat

/-!
# A record is in the log before the request is made

What is on its way from Xorg to the log is a part of what was sent, in the same order, and an
acknowledgement on its way back answers a record that is in the log. A thread owns the records with
its sequence number, so once it has as many acknowledgements as it sent records, all of its records
are in the log, whatever was lost or delayed elsewhere.
-/

namespace HdmiLos.Relay

open Interaction Prog List
open Tracer (Xorg Phase Label exchangeMonitor acknowledges)

/-! ## The agent -/

/-- Where the agent is with a record. -/
inductive Relaying where
  | idle
  | holding (record : TraceRecord)
  | forwarded (record : TraceRecord)
  | confirmed (record : TraceRecord)

/-- The record that is still to be forwarded. -/
def Relaying.held : Relaying → List TraceRecord
  | holding record => [record]
  | _ => []

/-- The acknowledgement that is still to be sent. -/
def Relaying.owed : Relaying → List UInt32
  | confirmed record => [record.sequence]
  | _ => []

/-- The broker has acknowledged the record. -/
def confirms (record : TraceRecord) (received : Received) : Bool :=
  received.ok && received.message.valid &&
    Agent.acknowledges (Agent.progressMessage record) received.message

/-- The order of a relay's calls. -/
def relayMonitor : Monitor Agent.Io.Ans Relaying where
  allows
    | .idle, .writeBroker _ => False
    | .idle, .recvBroker _ => False
    | .idle, .sendTrace _ _ => False
    | .idle, _ => True
    | .holding record, c => c = .writeBroker (Agent.progressMessage record)
    | .forwarded _, c => c = .recvBroker .acknowledgement
    | .confirmed _, .close _ => True
    | .confirmed record, .sendTrace _ ack => ack.sequence = record.sequence
    | .confirmed _, _ => False
  next
    | .idle, .recvTrace _, some record =>
      if Agent.validTraceRecord record then .holding record else .idle
    | .holding record, .writeBroker _, ok => if ok then .forwarded record else .idle
    | .forwarded record, .recvBroker _, received =>
      if confirms record received then .confirmed record else .idle
    | .confirmed _, .sendTrace _ _, _ => .idle
    | m, _, _ => m

theorem obeys_recvMessage {Q : Bool × Message × Option Fd → Agent → Relaying → Prop}
    {m : Relaying} {reader : Agent.Reader} {v : Agent}
    (hallows : relayMonitor.allows m (.recvBroker reader))
    (hQ : ∀ received passed, Q (received.ok && received.message.valid, received.message, passed) v
      (relayMonitor.next m (.recvBroker reader) received)) :
    (Agent.recvMessage reader).Obeys relayMonitor Q v m := by
  refine obeys_bind ⟨hallows, fun received => obeys_ite (fun h => ?_) fun _ => hQ received none⟩
  refine obeys_bind fun fd => ?_
  have hok : received.ok = true := (Bool.and_eq_true_iff.1 h).1
  have hfd := hQ received (some fd)
  rw [hok, Bool.true_and] at hfd
  exact hfd

theorem obeys_closeIfOpen {m : Relaying} (fd : Option Fd) (v : Agent)
    (hallows : ∀ fd, relayMonitor.allows m (.close fd))
    (hnext : ∀ fd, relayMonitor.next m (.close fd) () = m) :
    (Agent.closeIfOpen fd).Obeys relayMonitor (fun _ _ m' => m' = m) v m := by
  cases fd with
  | none => rfl
  | some fd => exact ⟨hallows fd, fun _ => hnext fd⟩

theorem obeys_forward (record : TraceRecord) (v : Agent) :
    (Agent.forwardTraceRecord record).Obeys relayMonitor
      (fun ok _ m => m = if ok then .confirmed record else .idle) v (.holding record) := by
  refine obeys_bind (obeys_bind ⟨rfl, fun written => ?_⟩)
  cases written with
  | false => rfl
  | true =>
    refine obeys_bind (obeys_recvMessage rfl fun received passed => ?_)
    show Obeys _ _ (Agent.closeIfOpen passed >>= _) _
      (if confirms record received then Relaying.confirmed record else .idle)
    refine obeys_bind (obeys_mono (obeys_closeIfOpen passed _ ?_ ?_) ?_)
    · intro fd
      cases confirms record received <;> trivial
    · intro fd
      cases confirms record received <;> rfl
    · rintro _ v' m rfl
      rfl

theorem obeys_relay (timeoutMs : Int) (v : Agent) :
    (Agent.relayTraceRecord timeoutMs).Obeys relayMonitor (fun _ _ m => m = .idle) v .idle := by
  refine obeys_bind ?_
  dsimp only [Agent.getAgent, perform, Obeys]
  cases v.trace with
  | none => rfl
  | some fd =>
    refine obeys_bind ⟨trivial, fun polled => ?_⟩
    cases polled with
    | timeout => rfl
    | failed => rfl
    | ready revents =>
      refine obeys_ite (fun _ => obeys_bind ⟨trivial, fun received => ?_⟩) fun _ => rfl
      cases received with
      | none => rfl
      | some record =>
        show Obeys _ _ (if Agent.validTraceRecord record then _ else _) _
          (if Agent.validTraceRecord record then Relaying.holding record else .idle)
        refine obeys_ite (fun hvalid => ?_) fun hvalid => if_neg hvalid
        rw [if_pos hvalid]
        refine obeys_bind (obeys_mono (obeys_forward record v) ?_)
        intro forwarded v' m hm
        cases forwarded with
        | false => exact hm
        | true =>
          obtain rfl := hm
          exact obeys_bind ⟨rfl, fun _ => rfl⟩

/-! ## The broker -/

/-- Where the broker is with a message of the agent. -/
inductive Handling where
  | idle
  | event (m : Message)
  | logged (m : Message)

/-- The record that is still to be logged. -/
def Handling.held : Handling → List Message
  | event m => [m]
  | _ => []

/-- The acknowledgement that is still to be sent. -/
def Handling.owed : Handling → List UInt32
  | logged m => [m.requestId]
  | _ => []

def Handling.start (m : Message) : Handling :=
  if m.opcode == opAgentProgress then .event m else .idle

/-- The order of the broker's calls. -/
def handleMonitor : Monitor Io.Ans Handling where
  allows
    | .event m, c => c = .logTransition (.agentProgress m.detail)
    | .logged m, .writeFull _ ack => ack.opcode = opAgentProgressAck ∧ ack.requestId = m.requestId
    | _, _ => False
  next
    | .event m, .logTransition _, _ => .logged m
    | .logged _, .writeFull _ _, _ => .idle
    | h, _, _ => h

theorem obeys_handle (fd : Fd) (m : Message) (v : Broker) :
    (handleAgentEvent fd m).Obeys handleMonitor (fun _ _ h => h = .idle) v (Handling.start m) := by
  unfold handleAgentEvent Handling.start
  split
  · refine obeys_bind ⟨rfl, fun _ => obeys_bind ?_⟩
    exact ⟨⟨rfl, rfl⟩, fun _ => rfl⟩
  · rfl

/-! ## What is on its way -/

/-- What has happened: the records that were sent, the acknowledgements that were received, the
    records that were logged, and where the agent and the broker are. -/
structure History where
  sent : List TraceRecord := []
  received : List UInt32 := []
  events : List Message := []
  relaying : Relaying := .idle
  handling : Handling := .idle

def isProgress (m : Message) : Bool := m.opcode == opAgentProgress

def isAck (m : Message) : Bool := m.opcode == opAgentProgressAck

/-- The records from the log back to Xorg. -/
def forth (g : History) (s : Chain) : List Message :=
  g.events ++ (g.handling.held ++ (s.toBroker.filter isProgress ++
    (g.relaying.held ++ s.toAgent).map Agent.progressMessage))

/-- The acknowledgements from Xorg back to the broker. -/
def back (g : History) (s : Chain) : List UInt32 :=
  g.received ++ (s.fromAgent.map (·.sequence) ++ (g.relaying.owed ++
    ((s.fromBroker.filter isAck).map (·.requestId) ++ g.handling.owed)))

/-- What is on its way was sent, and what is acknowledged was logged. -/
structure Flow (g : History) (s : Chain) : Prop where
  agent : s.agent.code.Obeys relayMonitor (fun _ _ m => m = .idle) s.agent.vars g.relaying
  broker : s.broker.code.Obeys handleMonitor (fun _ _ h => h = .idle) s.broker.vars g.handling
  forth : (forth g s).Sublist (g.sent.map Agent.progressMessage)
  back : ∀ k, (back g s).count k ≤ (g.events.map (·.requestId)).count k
  logged : ∀ m ∈ g.events, m.detail ∈ s.logged

section Steps

variable {g : History} {s s' : Chain} (h : Flow g s)

include h

variable {g' : History}

theorem Flow.moved
    (hagent : s'.agent.code.Obeys relayMonitor (fun _ _ m => m = .idle) s'.agent.vars g'.relaying)
    (hbroker : s'.broker.code.Obeys handleMonitor (fun _ _ h => h = .idle) s'.broker.vars
      g'.handling)
    (hforth : (Relay.forth g' s').Sublist (Relay.forth g s))
    (hback : (Relay.back g' s').Sublist (Relay.back g s))
    (hsent : g'.sent = g.sent) (hevents : g'.events = g.events) (hlogged : s'.logged = s.logged) :
    Flow g' s' where
  agent := hagent
  broker := hbroker
  forth := by
    rw [hsent]
    exact hforth.trans h.forth
  back k := by
    rw [hevents]
    exact Nat.le_trans (hback.count_le k) (h.back k)
  logged := by
    rw [hevents, hlogged]
    exact h.logged

omit h in
theorem takeFirst_some {α : Type} [DecidableEq α] {x : α} {l rest : List α}
    (h : Chain.takeFirst x l = some rest) : l = x :: rest := by
  unfold Chain.takeFirst at h
  split at h
  case h_1 => cases h
  case h_2 y rest' =>
    split at h
    case isTrue heq => rw [heq, Option.some.inj h]
    case isFalse => cases h

/-! ## Steps of the agent -/

section AgentSteps

theorem Flow.relay_idle (hidle : s.agent.idle = true) : g.relaying = .idle := by
  obtain ⟨⟨ok, v⟩, hreturned⟩ := Option.isSome_iff_exists.1 hidle
  exact obeys_returned h.agent hreturned

theorem flow_relay {timeoutMs : Int} {v : Agent} (hidle : s.agent.idle = true) :
    Flow g { s with agent := ⟨v, s.agent.nextFd, Agent.relayTraceRecord timeoutMs⟩ } := by
  refine h.moved ?_ h.broker (Sublist.refl _) (Sublist.refl _) rfl rfl rfl
  rw [h.relay_idle hidle]
  exact obeys_relay timeoutMs v

theorem flow_agentRead : Flow g { s with fromBroker := s.fromBroker.tail } := by
  refine h.moved h.agent h.broker (Sublist.refl _) ?_ rfl rfl rfl
  refine (Sublist.refl _).append ((Sublist.refl _).append
    ((Sublist.refl _).append (Sublist.append ?_ (Sublist.refl _))))
  exact ((tail_sublist _).filter _).map _

theorem flow_agentWrite {m : Message} (hm : m.opcode ≠ opAgentProgress) :
    Flow g { s with toBroker := s.toBroker ++ [m] } := by
  have hfilter : (s.toBroker ++ [m]).filter isProgress = s.toBroker.filter isProgress := by
    simp [filter_append, isProgress, hm]
  refine h.moved h.agent h.broker ?_ (Sublist.refl _) rfl rfl rfl
  simp only [Relay.forth, hfilter]
  exact Sublist.refl _

variable {p : Pending Agent Agent.Io.Ans Bool}

theorem Flow.agent_moved {a : p.call.Ans} {r r' : Relaying}
    {out fr : List TraceRecord} {up down : List Message}
    (hp : s.agent.pending = some p) (hr : g.relaying = r) (hr' : relayMonitor.next r p.call a = r')
    (hforth : (up.filter isProgress ++ (r'.held ++ out).map Agent.progressMessage).Sublist
      (s.toBroker.filter isProgress ++ (r.held ++ s.toAgent).map Agent.progressMessage))
    (hback : (fr.map (·.sequence) ++ (r'.owed ++ (down.filter isAck).map (·.requestId))).Sublist
      (s.fromAgent.map (·.sequence) ++ (r.owed ++ (s.fromBroker.filter isAck).map (·.requestId)))) :
    Flow { g with relaying := r' }
      { s with toAgent := out, fromAgent := fr, toBroker := up, fromBroker := down
               agent := Worker.resume p a } := by
  obtain ⟨-, hresume⟩ := obeys_pending h.agent hp
  subst hr hr'
  refine h.moved (hresume a) h.broker ?_ ?_ rfl rfl rfl
  · exact (Sublist.refl _).append ((Sublist.refl _).append hforth)
  · have hsub := ((Sublist.refl g.received).append hback).append (Sublist.refl g.handling.owed)
    simpa only [Relay.back, append_assoc] using hsub

variable {v : Agent} {n : Nat} {c : Agent.Io}

theorem flow_agent_idle {k : c.Ans → AgentProg Bool} {a : c.Ans}
    (hp : s.agent.pending = some ⟨v, n, c, k⟩) (hr : g.relaying = .idle)
    (hallows : relayMonitor.allows .idle c) (heffect : s.agentEffect c a = some s') :
    ∃ r, Flow { g with relaying := r } { s' with agent := ⟨v, n, k a⟩ } := by
  cases c with
  | recvTrace fd =>
    cases a with
    | none =>
      cases heffect
      exact ⟨_, h.agent_moved hp hr rfl (Sublist.refl _) (Sublist.refl _)⟩
    | some record =>
      obtain ⟨rest, hrest, rfl⟩ := Option.map_eq_some_iff.1 heffect
      by_cases hvalid : Agent.validTraceRecord record = true
      · have hr' : relayMonitor.next .idle (.recvTrace fd) (some record) = .holding record :=
          if_pos hvalid
        refine ⟨_, h.agent_moved hp hr hr' ?_ (Sublist.refl _)⟩
        rw [takeFirst_some hrest]
        exact Sublist.refl _
      · have hr' : relayMonitor.next .idle (.recvTrace fd) (some record) = .idle :=
          if_neg hvalid
        refine ⟨_, h.agent_moved hp hr hr' ?_ (Sublist.refl _)⟩
        rw [takeFirst_some hrest]
        exact (Sublist.refl _).append ((sublist_cons_self _ _).map _)
  | writeBroker m => exact hallows.elim
  | recvBroker reader => exact hallows.elim
  | sendTrace fd record => exact hallows.elim
  | _ =>
    cases heffect
    exact ⟨_, h.agent_moved hp hr rfl (Sublist.refl _) (Sublist.refl _)⟩

variable {record : TraceRecord}

theorem flow_agent_holding {a : Bool} {k : Bool → AgentProg Bool}
    (hp : s.agent.pending = some ⟨v, n, .writeBroker (Agent.progressMessage record), k⟩)
    (hr : g.relaying = .holding record)
    (heffect : s.agentEffect (.writeBroker (Agent.progressMessage record)) a = some s') :
    ∃ r, Flow { g with relaying := r } { s' with agent := ⟨v, n, k a⟩ } := by
  cases a with
  | false =>
    cases heffect
    refine ⟨_, h.agent_moved hp hr rfl ?_ (Sublist.refl _)⟩
    exact (Sublist.refl _).append ((sublist_append_right _ _).map _)
  | true =>
    cases heffect
    have hr' : relayMonitor.next (.holding record)
        (.writeBroker (Agent.progressMessage record)) true = .forwarded record := rfl
    refine ⟨_, h.agent_moved hp hr hr' ?_ (Sublist.refl _)⟩
    have hprogress : isProgress (Agent.progressMessage record) = true := rfl
    simp [Relaying.held, filter_append, hprogress]

/-- The agent reads the acknowledgement of the record, or something else. -/
theorem flow_agent_forwarded {a : Received} {k : Received → AgentProg Bool}
    (hp : s.agent.pending = some ⟨v, n, .recvBroker .acknowledgement, k⟩)
    (hr : g.relaying = .forwarded record)
    (heffect : s.agentEffect (.recvBroker .acknowledgement) a = some s') :
    ∃ r, Flow { g with relaying := r } { s' with agent := ⟨v, n, k a⟩ } := by
  by_cases hok : a.ok = true
  · have hread : (Chain.takeFirst a.message s.fromBroker).map
        (fun rest => { s with fromBroker := rest }) = some s' := (if_pos hok).symm.trans heffect
    obtain ⟨rest, hrest, rfl⟩ := Option.map_eq_some_iff.1 hread
    have hqueue := takeFirst_some hrest
    by_cases hconfirms : confirms record a = true
    · have hr' : relayMonitor.next (.forwarded record) (.recvBroker .acknowledgement) a =
          .confirmed record := if_pos hconfirms
      refine ⟨_, h.agent_moved hp hr hr' (Sublist.refl _) ?_⟩
      simp only [confirms, Agent.acknowledges, Bool.and_eq_true, beq_iff_eq] at hconfirms
      obtain ⟨-, ⟨hopcode, hid⟩, -⟩ := hconfirms
      have hid' : a.message.requestId = record.sequence := hid
      have hack : isAck a.message = true := beq_iff_eq.2 hopcode
      simp [hqueue, hack, hid', Relaying.owed]
    · have hr' : relayMonitor.next (.forwarded record) (.recvBroker .acknowledgement) a =
          .idle := if_neg hconfirms
      refine ⟨_, h.agent_moved hp hr hr' (Sublist.refl _) ?_⟩
      rw [hqueue]
      exact (Sublist.refl _).append
        ((Sublist.refl _).append (((sublist_cons_self _ _).filter _).map _))
  · have hs : some s = some s' := (if_neg hok).symm.trans heffect
    cases hs
    have hconfirms : ¬confirms record a = true := by simp [confirms, hok]
    have hr' : relayMonitor.next (.forwarded record) (.recvBroker .acknowledgement) a =
        .idle := if_neg hconfirms
    exact ⟨_, h.agent_moved hp hr hr' (Sublist.refl _) (Sublist.refl _)⟩

theorem flow_agent_confirmed {k : c.Ans → AgentProg Bool} {a : c.Ans}
    (hp : s.agent.pending = some ⟨v, n, c, k⟩)
    (hr : g.relaying = .confirmed record) (hallows : relayMonitor.allows (.confirmed record) c)
    (heffect : s.agentEffect c a = some s') :
    ∃ r, Flow { g with relaying := r } { s' with agent := ⟨v, n, k a⟩ } := by
  cases c with
  | close fd =>
    cases heffect
    exact ⟨_, h.agent_moved hp hr rfl (Sublist.refl _) (Sublist.refl _)⟩
  | sendTrace fd ack =>
    have hsequence : ack.sequence = record.sequence := hallows
    have hr' : relayMonitor.next (.confirmed record) (.sendTrace fd ack) a = .idle := rfl
    cases a with
    | false =>
      cases heffect
      refine ⟨_, h.agent_moved hp hr hr' (Sublist.refl _) ?_⟩
      exact (Sublist.refl _).append (sublist_append_right _ _)
    | true =>
      cases heffect
      refine ⟨_, h.agent_moved hp hr hr' (Sublist.refl _) ?_⟩
      simp [Relaying.owed, hsequence]
  | _ => exact hallows.elim

theorem flow_agentAct {a : p.call.Ans}
    (hp : s.agent.pending = some p) (heffect : s.agentEffect p.call a = some s') :
    ∃ r, Flow { g with relaying := r } { s' with agent := Worker.resume p a } := by
  have hallows := (obeys_pending h.agent hp).1
  obtain ⟨v, n, c, k⟩ := p
  cases hr : g.relaying with
  | idle =>
    rw [hr] at hallows
    exact flow_agent_idle h hp hr hallows heffect
  | holding record =>
    rw [hr] at hallows
    obtain rfl := hallows
    exact flow_agent_holding h hp hr heffect
  | forwarded record =>
    rw [hr] at hallows
    obtain rfl := hallows
    exact flow_agent_forwarded h hp hr heffect
  | confirmed record =>
    rw [hr] at hallows
    exact flow_agent_confirmed h hp hr hallows heffect

end AgentSteps

/-! ## Steps of the broker -/

section BrokerSteps

theorem Flow.handle_idle (hidle : s.broker.idle = true) : g.handling = .idle := by
  obtain ⟨⟨ok, v⟩, hreturned⟩ := Option.isSome_iff_exists.1 hidle
  exact obeys_returned h.broker hreturned

variable {m : Message} {v : Broker}

theorem flow_handle {rest : List Message} {fd : Fd} (hidle : s.broker.idle = true)
    (hqueue : s.toBroker = m :: rest) :
    Flow { g with handling := Handling.start m }
      { s with toBroker := rest, broker := ⟨v, s.broker.nextFd, handleAgentEvent fd m⟩ } := by
  have hhandling := h.handle_idle hidle
  refine h.moved h.agent (obeys_handle fd m v) ?_ ?_ rfl rfl rfl
  · by_cases hm : m.opcode = opAgentProgress <;>
      simp [Relay.forth, hhandling, hqueue, Handling.start, Handling.held, isProgress, hm]
  · by_cases hm : m.opcode = opAgentProgress <;>
      simp [Relay.back, hhandling, Handling.start, Handling.owed, hm]

theorem flow_brokerRead : Flow g { s with toBroker := s.toBroker.tail } := by
  refine h.moved h.agent h.broker ?_ (Sublist.refl _) rfl rfl rfl
  refine (Sublist.refl _).append ((Sublist.refl _).append (Sublist.append ?_ (Sublist.refl _)))
  exact (tail_sublist _).filter _

theorem flow_brokerWrite (hm : m.opcode ≠ opAgentProgressAck) :
    Flow g { s with fromBroker := s.fromBroker ++ [m] } := by
  have hfilter : (s.fromBroker ++ [m]).filter isAck = s.fromBroker.filter isAck := by
    simp [filter_append, isAck, hm]
  refine h.moved h.agent h.broker (Sublist.refl _) ?_ rfl rfl rfl
  simp only [Relay.back, hfilter]
  exact Sublist.refl _

theorem flow_brokerLog {line : String} : Flow g { s with logged := s.logged ++ [line] } :=
  { h with logged := fun m hm => mem_append_left _ (h.logged m hm) }

/-- The record is logged, and its acknowledgement is owed. -/
theorem flow_broker_event {n : Nat} {k : Unit → BrokerProg Bool}
    (hp : s.broker.pending = some ⟨v, n, .logTransition (.agentProgress m.detail), k⟩)
    (hh : g.handling = .event m) :
    Flow { g with handling := .logged m, events := g.events ++ [m] }
      { s with logged := s.logged ++ [m.detail], broker := ⟨v, n, k ()⟩ } where
  agent := h.agent
  broker := by
    have hresume := (obeys_pending h.broker hp).2 ()
    rw [hh] at hresume
    exact hresume
  forth := by
    have hforth := h.forth
    simp only [Relay.forth, hh, Handling.held] at hforth ⊢
    simpa using hforth
  back id := by
    have hback := h.back id
    simp only [Relay.back, hh, Handling.owed, count_append, map_append, count_nil] at hback ⊢
    simp only [map_cons, map_nil]
    omega
  logged m' hm' := by
    rcases mem_append.1 hm' with hm' | hm'
    · exact mem_append_left _ (h.logged m' hm')
    · rw [mem_singleton.1 hm']
      exact mem_append_right _ mem_cons_self

theorem flow_broker_logged {ack : Message} {fd : Fd} {n : Nat} {a : Bool}
    {k : Bool → BrokerProg Bool}
    (hp : s.broker.pending = some ⟨v, n, .writeFull fd ack, k⟩) (hh : g.handling = .logged m)
    (hack : ack.opcode = opAgentProgressAck ∧ ack.requestId = m.requestId) :
    Flow { g with handling := .idle }
      { s.brokerEffect (.writeFull fd ack) a with broker := ⟨v, n, k a⟩ } := by
  have hbroker := (obeys_pending h.broker hp).2 a
  rw [hh] at hbroker
  cases a <;> refine h.moved h.agent hbroker ?_ ?_ rfl rfl rfl <;>
    simp [Relay.forth, Relay.back, hh, Handling.held, Handling.owed, Chain.brokerEffect, isAck, hack]

theorem flow_brokerAct {p : Pending Broker Io.Ans Bool} {a : p.call.Ans}
    (hp : s.broker.pending = some p) :
    ∃ g', g'.sent = g.sent ∧ g'.received = g.received ∧
      Flow g' { s.brokerEffect p.call a with broker := Worker.resume p a } := by
  have hallows := (obeys_pending h.broker hp).1
  obtain ⟨v, n, c, k⟩ := p
  cases hh : g.handling with
  | idle =>
    rw [hh] at hallows
    cases c <;> exact hallows.elim
  | event m =>
    rw [hh] at hallows
    obtain rfl := hallows
    exact ⟨{ g with handling := .logged m, events := g.events ++ [m] }, rfl, rfl,
      flow_broker_event h hp hh⟩
  | logged m =>
    rw [hh] at hallows
    cases c with
    | writeFull fd ack =>
      exact ⟨{ g with handling := .idle }, rfl, rfl, flow_broker_logged h hp hh hallows⟩
    | _ => exact hallows.elim

end BrokerSteps

end Steps

/-! ## Steps of Xorg -/

/-- What the thread `i` has reported. -/
def report (x : Xorg) (i : Nat) : Report := reportOf (x.tasks i).log

/-- A thread that has sent `sent` records with its number has received as many acknowledgements, but
    for the one it waits for. -/
def Answered (m : UInt32) (acks : List UInt32) (sent : Nat) : Phase → Prop
  | .idle => sent ≤ acks.count m
  | .sent record => record.sequence = m ∧ sent ≤ acks.count m + 1
  | .readable record => record.sequence = m ∧ sent ≤ acks.count m + 1
  | .failed => True

/-- Every sequence number belongs to one thread, and so do the records with it. -/
structure Owners (x : Xorg) (taken : Nat) (records : List TraceRecord) (acks : List UInt32) :
    Prop where
  number : ∀ i m, (report x i).sequence = some m → 0 < m.toNat ∧ m.toNat ≤ taken
  distinct : ∀ i j m, (report x i).sequence = some m → (report x j).sequence = some m → i = j
  sent : ∀ record ∈ records, record.sequence.toNat ≤ taken
  own : ∀ i m, (report x i).sequence = some m → records.filter (·.sequence == m) = (report x i).sent
  answered : ∀ i m, (report x i).sequence = some m →
    Answered m acks (report x i).sent.length (report x i).phase

/-- The threads keep to what is to be reported, and the numbers are those that were counted. -/
structure Threads (s : Chain) : Prop where
  orderly : ∀ i, (s.xorg.tasks i).code.Obeys reportMonitor (fun _ v r => Left v r)
    (s.xorg.tasks i).vars (report s.xorg i)
  counter : s.xorg.globals.sequence = UInt32.ofNat (s.taken + 1)

/-- What holds in every state that is reached. -/
structure Tracked (g : History) (s : Chain) : Prop where
  flow : Flow g s
  threads : Threads s
  owners : s.taken < 2 ^ 32 → Owners s.xorg s.taken g.sent g.received

section XorgSteps

variable {g : History} {s s' : Chain} {x y : Xorg} {i : Nat} {e : Tracer.Event}

theorem report_acted (h : Tracer.Acted x i e y) : report y i = (report x i).next e := by
  rw [report, h.log, reportOf, foldl_append]
  rfl

theorem report_other (h : Tracer.Acted x i e y) {j : Nat} (hj : j ≠ i) :
    report y j = report x j := by
  rw [report, h.other hj, report]

theorem orderly_acted (h : Tracer.Acted x i e y)
    (hx : ∀ i, (x.tasks i).code.Obeys reportMonitor (fun _ v r => Left v r) (x.tasks i).vars
      (report x i)) :
    reportMonitor.allows (report x i) e.1 ∧
      ∀ j, (y.tasks j).code.Obeys reportMonitor (fun _ v r => Left v r) (y.tasks j).vars
        (report y j) := by
  have hreport := report_acted h
  obtain ⟨p, a, hp, rfl, htasks⟩ := h.pending
  obtain ⟨hallows, hresume⟩ := obeys_pending (hx i) hp
  refine ⟨hallows, fun j => ?_⟩
  by_cases hj : j = i
  · subst hj
    rw [hreport, htasks, Function.update_self]
    exact hresume a
  · rw [report_other h hj, h.other hj]
    exact hx j

/-- A call that neither takes a number nor sends or receives a record. -/
def Inward : Tracer.Event → Prop
  | ⟨.shared .fetchAddSequence, _⟩ => False
  | ⟨.send _, (sent, _)⟩ => sent = false
  | ⟨.recv, (received, _)⟩ => received = none
  | _ => True

theorem globals_inward (h : Tracer.Acted x i e y) (he : Inward e) :
    y.globals.sequence = x.globals.sequence := by
  have hglobals := h.globals
  obtain ⟨c, a⟩ := e
  cases c with
  | shared op =>
    rw [hglobals.2]
    cases op with
    | fetchAddSequence => exact he.elim
    | _ => rfl
  | _ => exact congrArg _ hglobals

theorem note_inward (r : Report) (he : Inward e) :
    (r.note e).sequence = r.sequence ∧ (r.note e).sent = r.sent := by
  obtain ⟨c, a⟩ := e
  cases c with
  | shared op =>
    cases op with
    | fetchAddSequence => exact he.elim
    | _ => exact ⟨rfl, rfl⟩
  | send record =>
    obtain ⟨sent, errno⟩ := a
    obtain rfl : sent = false := he
    exact ⟨rfl, rfl⟩
  | copyCrtc source => rcases a with ⟨_ | _, _⟩ <;> exact ⟨rfl, rfl⟩
  | copyU32 source count => rcases a with ⟨_ | _, _⟩ <;> exact ⟨rfl, rfl⟩
  | _ => exact ⟨rfl, rfl⟩

variable {phase : Phase}

/-- The places in an exchange after a call that neither sends nor receives a record. -/
theorem phase_inward (hallows : exchangeMonitor.allows phase e.1) (he : Inward e) :
    exchangeMonitor.next phase e.1 e.2 = phase ∨ exchangeMonitor.next phase e.1 e.2 = .failed ∨
      ∃ record, phase = .sent record ∧ exchangeMonitor.next phase e.1 e.2 = .readable record := by
  obtain ⟨c, a⟩ := e
  cases phase with
  | idle =>
    cases c with
    | send record =>
      obtain ⟨sent, errno⟩ := a
      obtain rfl : sent = false := he
      exact .inr (.inl rfl)
    | _ => exact .inl rfl
  | sent record =>
    obtain rfl := hallows
    obtain ⟨readable, errno⟩ := a
    cases readable with
    | false => exact .inr (.inl rfl)
    | true => exact .inr (.inr ⟨record, rfl, rfl⟩)
  | readable record =>
    obtain rfl := hallows
    obtain ⟨received, errno⟩ := a
    obtain rfl : received = none := he
    exact .inr (.inl rfl)
  | failed =>
    obtain rfl := hallows
    exact .inl rfl

variable {acks : List UInt32} {m : UInt32}

theorem answered_inward {sent : Nat} (hallows : exchangeMonitor.allows phase e.1) (he : Inward e)
    (h : Answered m acks sent phase) :
    Answered m acks sent (exchangeMonitor.next phase e.1 e.2) := by
  rcases phase_inward hallows he with hphase | hphase | ⟨record, rfl, hphase⟩
  · rw [hphase]
    exact h
  · rw [hphase]
    trivial
  · rw [hphase]
    exact h

theorem Answered.mono {acks' : List UInt32} {sent : Nat} (h : Answered m acks sent phase)
    (hacks : acks.count m ≤ acks'.count m) : Answered m acks' sent phase := by
  cases phase with
  | idle => exact Nat.le_trans h hacks
  | sent record => exact ⟨h.1, Nat.le_trans h.2 (Nat.succ_le_succ hacks)⟩
  | readable record => exact ⟨h.1, Nat.le_trans h.2 (Nat.succ_le_succ hacks)⟩
  | failed => trivial

theorem Owners.acted {taken : Nat} {records records' : List TraceRecord} {acks' : List UInt32}
    (h : Owners x taken records acks) (hacted : Tracer.Acted x i e y)
    (hsequence : ((report x i).note e).sequence = (report x i).sequence)
    (hrecords : ∀ record ∈ records', record.sequence.toNat ≤ taken)
    (hown : ∀ m, (report x i).sequence = some m →
      records'.filter (·.sequence == m) = ((report x i).note e).sent)
    (hothers : ∀ j ≠ i, ∀ m, (report x j).sequence = some m →
      records'.filter (·.sequence == m) = records.filter (·.sequence == m))
    (hanswered : ∀ m, (report x i).sequence = some m →
      Answered m acks' ((report x i).note e).sent.length
      (exchangeMonitor.next (report x i).phase e.1 e.2))
    (hacks : ∀ m, acks.count m ≤ acks'.count m) : Owners y taken records' acks' := by
  have hself : (report y i).sequence = (report x i).sequence := by
    rw [report_acted hacted]
    exact hsequence
  have hall : ∀ j, (report y j).sequence = (report x j).sequence := fun j => by
    by_cases hj : j = i
    · rw [hj, hself]
    · rw [report_other hacted hj]
  refine ⟨fun j m hj => ?_, fun j k m hj hk => ?_, hrecords, fun j m hj => ?_, fun j m hj => ?_⟩
  · exact h.number j m ((hall j).symm.trans hj)
  · exact h.distinct j k m ((hall j).symm.trans hj) ((hall k).symm.trans hk)
  · rw [hall j] at hj
    by_cases hji : j = i
    · subst hji
      rw [report_acted hacted]
      exact hown m hj
    · rw [report_other hacted hji, hothers j hji m hj]
      exact h.own j m hj
  · rw [hall j] at hj
    by_cases hji : j = i
    · subst hji
      rw [report_acted hacted]
      exact hanswered m hj
    · rw [report_other hacted hji]
      exact (h.answered j m hj).mono (hacks m)

variable {taken : Nat} {records : List TraceRecord} {acks : List UInt32}

theorem owners_inward (h : Owners x taken records acks) (hacted : Tracer.Acted x i e y)
    (hallows : exchangeMonitor.allows (report x i).phase e.1) (he : Inward e) :
    Owners y taken records acks := by
  obtain ⟨hsequence, hsent⟩ := note_inward (report x i) he
  refine h.acted hacted hsequence h.sent (fun m hm => ?_) (fun _ _ _ _ => rfl) (fun m hm => ?_)
    fun _ => Nat.le_refl _
  · rw [hsent]
    exact h.own i m hm
  · rw [hsent]
    exact answered_inward hallows he (h.answered i m hm)

variable {record : TraceRecord}

theorem owners_send {errno : Int} (h : Owners x taken records acks)
    (hacted : Tracer.Acted x i ⟨.send record, (true, errno)⟩ y)
    (hallows : reportMonitor.allows (report x i) (.send record)) :
    Owners y taken (records ++ [record]) acks := by
  obtain ⟨hphase, hsequence⟩ := hallows
  replace hsequence : record.sequence = (report x i).sequence.getD 0 := hsequence
  have hidle : (report x i).phase = .idle := by
    cases hp : (report x i).phase with
    | idle => rfl
    | _ => rw [hp] at hphase; cases hphase
  have hnumber : record.sequence.toNat ≤ taken := by
    rw [hsequence]
    cases hm : (report x i).sequence with
    | none => exact Nat.zero_le _
    | some m => exact (h.number i m hm).2
  refine h.acted hacted rfl ?_ (fun m hm => ?_) (fun j hj m hm => ?_) (fun m hm => ?_)
    fun _ => Nat.le_refl _
  · intro record' hmem
    rcases mem_append.1 hmem with hmem | hmem
    · exact h.sent record' hmem
    · rw [mem_singleton.1 hmem]
      exact hnumber
  · rw [hm] at hsequence
    have hkeep : (record.sequence == m) = true := beq_iff_eq.2 hsequence
    rw [filter_append, h.own i m hm]
    simp [hkeep, Report.note]
  · -- the record has the number of its own thread, or none
    have hother : (record.sequence == m) = false := by
      refine beq_false_of_ne fun heq => ?_
      rw [heq] at hsequence
      cases hi : (report x i).sequence with
      | none =>
        rw [hi] at hsequence
        have hpos := (h.number j m hm).1
        rw [hsequence] at hpos
        exact absurd hpos (by decide)
      | some m' =>
        rw [hi] at hsequence
        have heq' : m = m' := hsequence
        exact hj (h.distinct j i m hm (heq' ▸ hi))
    rw [filter_append]
    simp [hother]
  · have hanswered := h.answered i m hm
    rw [hidle] at hanswered ⊢
    rw [hm] at hsequence
    refine ⟨hsequence, ?_⟩
    show (_ ++ [record]).length ≤ _
    rw [length_append]
    exact Nat.succ_le_succ hanswered

theorem owners_receive {ack : TraceRecord} {errno : Int} (h : Owners x taken records acks)
    (hacted : Tracer.Acted x i ⟨.recv, (some ack, errno)⟩ y)
    (hallows : exchangeMonitor.allows (report x i).phase .recv) :
    Owners y taken records (acks ++ [ack.sequence]) := by
  refine h.acted hacted rfl h.sent (fun m hm => h.own i m hm) (fun _ _ _ _ => rfl) (fun m hm => ?_)
    fun m => by rw [count_append]; exact Nat.le_add_right _ _
  have hanswered := h.answered i m hm
  cases hp : (report x i).phase with
  | readable record =>
    rw [hp] at hanswered
    obtain ⟨hrecord, hcount⟩ := hanswered
    have hnext : exchangeMonitor.next (.readable record) .recv (some ack, errno) =
        if acknowledges record ack then .idle else .failed := rfl
    rw [hnext]
    by_cases hack : acknowledges record ack = true
    · have hsequence : ack.sequence = m := by
        simp only [acknowledges, Bool.and_eq_true, beq_iff_eq] at hack
        rw [hack.2, hrecord]
      rw [if_pos hack, hsequence]
      show _ ≤ (acks ++ [m]).count m
      rw [count_append, count_singleton_self]
      exact hcount
    · rw [if_neg hack]
      trivial
  | idle => rw [hp] at hallows; exact hallows.elim
  | sent record => rw [hp] at hallows; cases hallows
  | failed => rw [hp] at hallows; cases hallows

/-- A thread takes a number, which nobody has used. -/
theorem owners_fetch (h : Owners x taken records acks)
    (hacted : Tracer.Acted x i ⟨.shared .fetchAddSequence, m⟩ y)
    (hallows : reportMonitor.allows (report x i) (.shared .fetchAddSequence))
    (hm : m.toNat = taken + 1) : Owners y (taken + 1) records acks := by
  obtain ⟨hphase, hnone, hsent⟩ := hallows
  have hidle : exchangeMonitor.next (report x i).phase (.shared .fetchAddSequence) m = .idle := by
    cases hp : (report x i).phase with
    | idle => rfl
    | _ => rw [hp] at hphase; cases hphase
  have hself : report y i = { report x i with sequence := some m, phase := .idle } := by
    rw [report_acted hacted, Report.next, hidle]
    rfl
  have hnew : ∀ j m', (report y j).sequence = some m' →
      (j = i ∧ m' = m) ∨ (j ≠ i ∧ (report x j).sequence = some m') := fun j m' hj => by
    by_cases hji : j = i
    · subst hji
      rw [hself] at hj
      exact .inl ⟨rfl, (Option.some.inj hj).symm⟩
    · rw [report_other hacted hji] at hj
      exact .inr ⟨hji, hj⟩
  have hold : ∀ {j m'}, (report x j).sequence = some m' → m' ≠ m := fun hj heq => by
    have hle := (h.number _ _ hj).2
    rw [heq] at hle
    omega
  refine ⟨fun j m' hj => ?_, fun j k m' hj hk => ?_, fun record hrecord => ?_, fun j m' hj => ?_,
    fun j m' hj => ?_⟩
  · rcases hnew j m' hj with ⟨-, rfl⟩ | ⟨-, hj⟩
    · omega
    · have hle := h.number j m' hj
      omega
  · rcases hnew j m' hj with ⟨rfl, rfl⟩ | ⟨hji, hj⟩
    · rcases hnew k m' hk with ⟨rfl, -⟩ | ⟨-, hk⟩
      · rfl
      · exact absurd rfl (hold hk)
    · rcases hnew k m' hk with ⟨rfl, rfl⟩ | ⟨-, hk⟩
      · exact absurd rfl (hold hj)
      · exact h.distinct j k m' hj hk
  · exact Nat.le_succ_of_le (h.sent record hrecord)
  · rcases hnew j m' hj with ⟨rfl, rfl⟩ | ⟨hji, hj⟩
    · rw [hself]
      show _ = (report x j).sent
      rw [hsent, filter_eq_nil_iff]
      intro record hrecord heq
      have hle := h.sent record hrecord
      rw [beq_iff_eq.1 heq] at hle
      omega
    · rw [report_other hacted hji]
      exact h.own j m' hj
  · rcases hnew j m' hj with ⟨rfl, rfl⟩ | ⟨hji, hj⟩
    · rw [hself]
      show (report x j).sent.length ≤ _
      rw [hsent]
      exact Nat.zero_le _
    · rw [report_other hacted hji]
      exact h.answered j m' hj

/-- What a call is for the chain. -/
theorem inward_cases (e : Tracer.Event) : Inward e ∨ (∃ m, e = ⟨.shared .fetchAddSequence, m⟩) ∨
      (∃ record errno, e = ⟨.send record, (true, errno)⟩) ∨
      ∃ ack errno, e = ⟨.recv, (some ack, errno)⟩ := by
  obtain ⟨c, a⟩ := e
  cases c with
  | shared op =>
    cases op with
    | fetchAddSequence => exact .inr (.inl ⟨a, rfl⟩)
    | _ => exact .inl trivial
  | send record =>
    obtain ⟨sent, errno⟩ := a
    cases sent with
    | false => exact .inl rfl
    | true => exact .inr (.inr (.inl ⟨record, errno, rfl⟩))
  | recv =>
    obtain ⟨received, errno⟩ := a
    cases received with
    | none => exact .inl rfl
    | some ack => exact .inr (.inr (.inr ⟨ack, errno, rfl⟩))
  | _ => exact .inl trivial

theorem follow_inward (he : Inward e) : s.follow y (Label.of e) = some { s with xorg := y } := by
  obtain ⟨c, a⟩ := e
  cases c with
  | send record =>
    obtain ⟨sent, errno⟩ := a
    obtain rfl : sent = false := he
    rfl
  | recv =>
    obtain ⟨received, errno⟩ := a
    obtain rfl : received = none := he
    rfl
  | _ => rfl

theorem count_same (h : y.globals.sequence = s.xorg.globals.sequence) :
    (s.count y).taken = s.taken := by
  rw [Chain.count, if_pos h]
  rfl

theorem Flow.xorg (h : Flow g s) (y : Xorg) (taken : Nat) :
    Flow g { s with xorg := y, taken := taken } :=
  ⟨h.agent, h.broker, h.forth, h.back, h.logged⟩

theorem flow_send (h : Flow g s) :
    Flow { g with sent := g.sent ++ [record] } { s with toAgent := s.toAgent ++ [record] } where
  agent := h.agent
  broker := h.broker
  forth := by
    have hforth := h.forth.append (Sublist.refl [Agent.progressMessage record])
    simpa [Relay.forth] using hforth
  back := h.back
  logged := h.logged

theorem flow_receive {ack : TraceRecord} {rest : List TraceRecord} (h : Flow g s)
    (hqueue : s.fromAgent = ack :: rest) :
    Flow { g with received := g.received ++ [ack.sequence] } { s with fromAgent := rest } := by
  refine h.moved h.agent h.broker (Sublist.refl _) ?_ rfl rfl rfl
  simp [Relay.back, hqueue]

theorem Tracked.acted (h : Tracked g s) (hacted : Tracer.Acted s.xorg i e y)
    (hsequence : y.globals.sequence = s.xorg.globals.sequence) (hxorg : s'.xorg = y)
    (hcount : s'.taken = (s.count y).taken) (hflow : Flow g' s')
    (howners : Owners s.xorg s.taken g.sent g.received →
      Owners y s.taken g'.sent g'.received) : Tracked g' s' := by
  have htaken : s'.taken = s.taken := hcount.trans (count_same hsequence)
  refine ⟨hflow, ⟨?_, ?_⟩, fun hlt => ?_⟩
  · rw [hxorg]
    exact (orderly_acted hacted h.threads.orderly).2
  · rw [hxorg, htaken, hsequence]
    exact h.threads.counter
  · rw [htaken] at hlt
    rw [hxorg, htaken]
    exact howners (h.owners hlt)

theorem tracked_fetch (h : Tracked g s)
    (hacted : Tracer.Acted s.xorg i ⟨.shared .fetchAddSequence, m⟩ y) :
    Tracked g { s.count y with xorg := y } := by
  obtain ⟨hallows, horderly⟩ := orderly_acted hacted h.threads.orderly
  obtain ⟨hm, hglobals⟩ := hacted.globals
  have hcounter := h.threads.counter
  have hnext : y.globals.sequence = s.xorg.globals.sequence + 1 := by
    rw [hglobals]
    rfl
  have hne : y.globals.sequence ≠ s.xorg.globals.sequence := by
    rw [hnext]
    intro heq
    simp at heq
  have htaken : (s.count y).taken = s.taken + 1 := by
    rw [Chain.count, if_neg hne]
  refine ⟨h.flow.xorg y _, ⟨horderly, ?_⟩, fun hlt => ?_⟩
  · show y.globals.sequence = UInt32.ofNat ((s.count y).taken + 1)
    rw [htaken, hnext, hcounter, UInt32.ofNat_add (s.taken + 1) 1]
    rfl
  · show Owners y (s.count y).taken _ _
    replace hlt : (s.count y).taken < 2 ^ 32 := hlt
    rw [htaken] at hlt ⊢
    refine owners_fetch (h.owners (Nat.lt_of_succ_lt hlt)) hacted hallows ?_
    have hm' : m = s.xorg.globals.sequence := hm
    rw [hm', hcounter, UInt32.toNat_ofNat', Nat.mod_eq_of_lt hlt]

theorem tracked_acted (h : Tracked g s) (hacted : Tracer.Acted s.xorg i e y)
    (hfollow : (s.count y).follow y (Label.of e) = some s') : ∃ g', Tracked g' s' := by
  obtain ⟨hallows, -⟩ := orderly_acted hacted h.threads.orderly
  rcases inward_cases e with he | ⟨m, rfl⟩ | ⟨record, errno, rfl⟩ | ⟨ack, errno, rfl⟩
  · rw [follow_inward he] at hfollow
    cases hfollow
    exact ⟨g, h.acted hacted (globals_inward hacted he) rfl rfl (h.flow.xorg y _) fun howners =>
      owners_inward howners hacted hallows.1 he⟩
  · cases hfollow
    exact ⟨g, tracked_fetch h hacted⟩
  · cases hfollow
    exact ⟨{ g with sent := g.sent ++ [record] }, h.acted hacted (congrArg _ hacted.globals) rfl rfl
      (flow_send (h.flow.xorg y _)) fun howners => owners_send howners hacted hallows⟩
  · obtain ⟨rest, hrest, rfl⟩ := Option.map_eq_some_iff.1 hfollow
    exact ⟨{ g with received := g.received ++ [ack.sequence] },
      h.acted hacted (congrArg _ hacted.globals) rfl rfl
        (flow_receive (h.flow.xorg y _) (takeFirst_some hrest)) fun howners =>
        owners_receive howners hacted hallows.1⟩

theorem tracked_act {oracle : (c : Tracer.Io) → Option c.Ans} {label : Label} (h : Tracked g s)
    (hact : s.xorg.act i oracle = some (label, y))
    (hfollow : (s.count y).follow y label = some s') : ∃ g', Tracked g' s' := by
  rcases Tracer.act_cases hact with ⟨-, rfl, rfl⟩ | ⟨e, rfl, hacted⟩
  · -- the process ends
    cases hfollow
    have htaken := count_same (s := s) (y := { s.xorg with exited := true }) rfl
    refine ⟨g, h.flow.xorg _ _, ⟨h.threads.orderly, ?_⟩, fun hlt => ?_⟩
    · show s.xorg.globals.sequence = UInt32.ofNat ((s.count _).taken + 1)
      rw [htaken]
      exact h.threads.counter
    · replace hlt : (s.count { s.xorg with exited := true }).taken < 2 ^ 32 := hlt
      show Owners _ (s.count { s.xorg with exited := true }).taken _ _
      rw [htaken] at hlt ⊢
      obtain ⟨hnumber, hdistinct, hsent, hown, hanswered⟩ := h.owners hlt
      exact ⟨hnumber, hdistinct, hsent, hown, hanswered⟩
  · exact tracked_acted h hacted hfollow

theorem tracked_enter {cfg : Tracer.Config} {entry : Tracer.Entry} (htraced : cfg.traced = true)
    (h : Tracked g s) (henter : s.xorg.enter cfg i entry = some y) :
    Tracked g { s with xorg := y } := by
  obtain ⟨-, v, hreturned, hy⟩ := Tracer.enter_cases henter
  obtain ⟨-, hv⟩ := obeys_returned (h.threads.orderly i) hreturned
  have hself : y.tasks i = ⟨some entry, v, entry.code cfg, []⟩ := by
    rw [hy]
    exact Function.update_self ..
  have hother : ∀ j, j ≠ i → y.tasks j = s.xorg.tasks j := fun j hj => by
    rw [hy]
    exact Function.update_of_ne hj ..
  have hnew : report y i = {} := by
    rw [report, hself]
    rfl
  have hreport : ∀ j, j ≠ i → report y j = report s.xorg j := fun j hj => by
    rw [report, hother j hj, report]
  have hold : ∀ {j m}, (report y j).sequence = some m →
      report y j = report s.xorg j := fun {j m} hj => by
    refine hreport j fun heq => ?_
    rw [heq, hnew] at hj
    cases hj
  refine ⟨h.flow.xorg _ _, ⟨fun j => ?_, ?_⟩, fun hlt => ?_⟩
  · show (y.tasks j).code.Obeys _ _ (y.tasks j).vars (report y j)
    by_cases hj : j = i
    · rw [hj, hnew, hself]
      exact obeys_entry_report htraced entry hv
    · rw [hreport j hj, hother j hj]
      exact h.threads.orderly j
  · rw [hy]
    exact h.threads.counter
  · have howners := h.owners hlt
    refine ⟨fun j m hj => ?_, fun j k m hj hk => ?_, howners.sent, fun j m hj => ?_,
      fun j m hj => ?_⟩
    · exact howners.number j m (hold hj ▸ hj)
    · exact howners.distinct j k m (hold hj ▸ hj) (hold hk ▸ hk)
    · show _ = (report y j).sent
      rw [hold hj]
      exact howners.own j m (hold hj ▸ hj)
    · show Answered m _ (report y j).sent.length (report y j).phase
      rw [hold hj]
      exact howners.answered j m (hold hj ▸ hj)

end XorgSteps

/-! ## Runs -/

section Runs

variable {cfg : Tracer.Config} {g : History} {s s' : Chain}

theorem Tracked.outside (h : Tracked g s) (hflow : Flow g' s')
    (hxorg : s'.xorg = s.xorg) (htaken : s'.taken = s.taken) (hsent : g'.sent = g.sent)
    (hreceived : g'.received = g.received) : Tracked g' s' := by
  refine ⟨hflow, ⟨?_, ?_⟩, ?_⟩
  · rw [hxorg]
    exact h.threads.orderly
  · rw [hxorg, htaken]
    exact h.threads.counter
  · rw [hxorg, htaken, hsent, hreceived]
    exact h.owners

theorem agentEffect_xorg {a : c.Ans} (h : s.agentEffect c a = some s') :
    s'.xorg = s.xorg ∧ s'.taken = s.taken := by
  unfold Chain.agentEffect at h
  split at h
  · obtain ⟨_, -, rfl⟩ := Option.map_eq_some_iff.1 h
    exact ⟨rfl, rfl⟩
  · cases h
    exact ⟨rfl, rfl⟩
  · cases h
    exact ⟨rfl, rfl⟩
  · split at h
    · obtain ⟨_, -, rfl⟩ := Option.map_eq_some_iff.1 h
      exact ⟨rfl, rfl⟩
    · cases h
      exact ⟨rfl, rfl⟩
  · cases h
    exact ⟨rfl, rfl⟩

theorem brokerEffect_xorg (s : Chain) (c : Io) (a : c.Ans) :
    (s.brokerEffect c a).xorg = s.xorg ∧ (s.brokerEffect c a).taken = s.taken := by
  unfold Chain.brokerEffect
  split <;> exact ⟨rfl, rfl⟩

/-- A move of the chain keeps the invariant. -/
theorem tracked_move (htraced : cfg.traced = true) {m : Move} (h : Tracked g s)
    (hmove : s.move cfg m = some s') : ∃ g', Tracked g' s' := by
  cases m with
  | enter i entry =>
    obtain ⟨y, henter, rfl⟩ := Option.map_eq_some_iff.1 hmove
    exact ⟨g, tracked_enter htraced h henter⟩
  | act i oracle =>
    obtain ⟨⟨label, y⟩, hact, hfollow⟩ := Option.bind_eq_some_iff.1 hmove
    exact tracked_act h hact hfollow
  | relay v timeoutMs =>
    obtain ⟨hidle, ⟨⟩⟩ := Option.ite_none_right_eq_some.1 hmove
    exact ⟨g, h.outside (flow_relay h.flow hidle) rfl rfl rfl rfl⟩
  | agentAct oracle =>
    obtain ⟨p, hp, hmove⟩ := Option.bind_eq_some_iff.1 hmove
    obtain ⟨a, -, hmove⟩ := Option.bind_eq_some_iff.1 hmove
    obtain ⟨s₁, heffect, hs⟩ := Option.bind_eq_some_iff.1 hmove
    cases hs
    obtain ⟨r, hflow⟩ := flow_agentAct h.flow hp heffect
    obtain ⟨hxorg, htaken⟩ := agentEffect_xorg heffect
    exact ⟨_, h.outside hflow hxorg htaken rfl rfl⟩
  | agentRead =>
    obtain ⟨-, ⟨⟩⟩ := Option.ite_none_right_eq_some.1 hmove
    exact ⟨g, h.outside (flow_agentRead h.flow) rfl rfl rfl rfl⟩
  | agentWrite m =>
    obtain ⟨hguard, ⟨⟩⟩ := Option.ite_none_right_eq_some.1 hmove
    have hm : m.opcode ≠ opAgentProgress := bne_iff_ne.1 (Bool.and_eq_true_iff.1 hguard).2
    exact ⟨g, h.outside (flow_agentWrite h.flow hm) rfl rfl rfl rfl⟩
  | handle v fd =>
    simp only [Chain.move] at hmove
    split at hmove
    case h_1 => cases hmove
    case h_2 m rest hqueue =>
      obtain ⟨hidle, ⟨⟩⟩ := Option.ite_none_right_eq_some.1 hmove
      exact ⟨_, h.outside (flow_handle h.flow hidle hqueue) rfl rfl rfl rfl⟩
  | brokerAct oracle =>
    obtain ⟨p, hp, hmove⟩ := Option.bind_eq_some_iff.1 hmove
    obtain ⟨a, -, hs⟩ := Option.bind_eq_some_iff.1 hmove
    cases hs
    obtain ⟨g', hsent, hreceived, hflow⟩ := flow_brokerAct (a := a) h.flow hp
    obtain ⟨hxorg, htaken⟩ := brokerEffect_xorg s p.call a
    exact ⟨g', h.outside hflow hxorg htaken hsent hreceived⟩
  | brokerRead =>
    obtain ⟨-, ⟨⟩⟩ := Option.ite_none_right_eq_some.1 hmove
    exact ⟨g, h.outside (flow_brokerRead h.flow) rfl rfl rfl rfl⟩
  | brokerWrite m =>
    obtain ⟨hguard, ⟨⟩⟩ := Option.ite_none_right_eq_some.1 hmove
    have hm : m.opcode ≠ opAgentProgressAck := bne_iff_ne.1 (Bool.and_eq_true_iff.1 hguard).2
    exact ⟨g, h.outside (flow_brokerWrite h.flow hm) rfl rfl rfl rfl⟩
  | brokerLog t =>
    obtain ⟨-, ⟨⟩⟩ := Option.ite_none_right_eq_some.1 hmove
    exact ⟨g, h.outside (flow_brokerLog h.flow) rfl rfl rfl rfl⟩

theorem tracked_start (h : s.Starts) : Tracked {} s := by
  obtain ⟨agentOk, hagent⟩ := h.agent
  obtain ⟨brokerOk, hbroker⟩ := h.broker
  have hprogress : s.toBroker.filter isProgress = [] := by
    simpa [filter_eq_nil_iff, isProgress] using h.toBroker
  have hack : s.fromBroker.filter isAck = [] := by
    simpa [filter_eq_nil_iff, isAck] using h.fromBroker
  have hreport : ∀ i, report s.xorg i = {} := fun i => by rw [h.xorg]; rfl
  have hnumber : ∀ i, (report s.xorg i).sequence = none := fun i => by rw [hreport]
  refine ⟨⟨?_, ?_, ?_, ?_, nofun⟩, ⟨fun i => ?_, ?_⟩, fun _ => ?_⟩
  · rw [hagent]
    rfl
  · rw [hbroker]
    rfl
  · simp [forth, Handling.held, Relaying.held, hprogress, h.toAgent]
  · simp [back, Handling.owed, Relaying.owed, hack, h.fromAgent]
  · rw [hreport, h.xorg]
    exact ⟨rfl, rfl⟩
  · rw [h.xorg, h.taken]
    rfl
  · refine ⟨fun i m hi => ?_, fun i _ m hi => ?_, nofun, fun i m hi => ?_, fun i m hi => ?_⟩ <;>
    · rw [hnumber] at hi
      cases hi

/-- The invariant in every reachable state. -/
theorem tracked_reachable (htraced : cfg.traced = true) (h : Chain.Reachable cfg s) :
    ∃ g, Tracked g s := by
  obtain ⟨s₀, hstart, hsteps⟩ := h
  induction hsteps with
  | refl => exact ⟨{}, tracked_start hstart⟩
  | tail _ hstep ih =>
    obtain ⟨g, hg⟩ := ih
    obtain ⟨m, hmove⟩ := hstep
    exact tracked_move htraced hg hmove

/-- What is in the log of one sequence number is a part of what was sent with it. -/
theorem Flow.events_of (h : Flow g s) (m : UInt32) : (g.events.filter (·.requestId == m)).Sublist
      ((g.sent.filter (·.sequence == m)).map Agent.progressMessage) := by
  have hevents : g.events.Sublist (Relay.forth g s) := sublist_append_left _ _
  have hsub := (hevents.trans h.forth).filter (·.requestId == m)
  rw [filter_map] at hsub
  exact hsub

/-- What the agent writes to the broker is the line of the record. -/
theorem logged_progress
    (h : (Agent.progressMessage record).detail ∈ s.logged) : s.Logged record := by
  refine ⟨_, h, ?_⟩
  simp only [Agent.progressMessage, detailText, Agent.progressText, Agent.phaseLetter, Chain.letter,
    Agent.clipped, beq_iff_eq]
  have hphases : traceAfter ≠ traceLoaded ∧ traceAfter ≠ traceDetail := by decide
  by_cases hafter : record.phase = traceAfter
  · simp [hafter, hphases.1, hphases.2]
  · simp [hafter]

theorem count_requestId (events : List Message) (m : UInt32) :
    (events.map (·.requestId)).count m = (events.filter (·.requestId == m)).length := by
  rw [List.count, countP_map, countP_eq_length_filter]
  rfl

/-- If as many records with its number are in the log as a thread has sent, all of them are. -/
theorem Tracked.logged_of_count (h : Tracked g s) (htaken : s.taken < 2 ^ 32) {i : Nat} {m : UInt32}
    (hm : (report s.xorg i).sequence = some m)
    (hcount : (report s.xorg i).sent.length ≤ (g.events.map (·.requestId)).count m) :
    ∀ record ∈ (report s.xorg i).sent, s.Logged record := by
  have howners := h.owners htaken
  have hsub := h.flow.events_of m
  rw [howners.own i m hm] at hsub
  have heq : g.events.filter (·.requestId == m) =
      (report s.xorg i).sent.map Agent.progressMessage := by
    refine hsub.eq_of_length_le ?_
    rw [length_map, ← count_requestId]
    exact hcount
  intro record hrecord
  have hmem : Agent.progressMessage record ∈ g.events.filter (·.requestId == m) := by
    rw [heq]
    exact mem_map_of_mem hrecord
  exact logged_progress (h.flow.logged _ (mem_filter.1 hmem).1)

/-- A thread between two exchanges has all its records in the log. -/
theorem Tracked.all_logged (h : Tracked g s) (htaken : s.taken < 2 ^ 32) {i : Nat} {m : UInt32}
    (hm : (report s.xorg i).sequence = some m) (hidle : (report s.xorg i).phase = .idle) :
    ∀ record ∈ (report s.xorg i).sent, s.Logged record := by
  have hanswered := (h.owners htaken).answered i m hm
  rw [hidle] at hanswered
  refine h.logged_of_count htaken hm (Nat.le_trans hanswered (Nat.le_trans ?_ (h.flow.back m)))
  rw [back, count_append]
  exact Nat.le_add_right _ _

theorem Modeset.Described.mono {m : Modeset} {argument : UInt64}
    {D D' : DrmCrtc → Nat → UInt32 → Prop} (h : m.Described argument D)
    (hD : ∀ value i connector, D value i connector → D' value i connector) :
    m.Described argument D' := by
  refine h.imp_right fun h => ?_
  rcases m with _ | (_ | value) | ⟨value, _ | array⟩
  · exact h
  · exact h
  · exact h
  · exact h
  · exact ⟨h.1, fun i connector hi => hD _ _ _ (h.2 i connector hi)⟩

/-- A thread of Xorg that is about to pass a traced request to the kernel has the record of it in the
    log, and for a modeset also the details of its connectors. Whatever times out or fails, a thread
    whose exchange failed makes no call but `_exit(125)`. -/
theorem logged_before_executed (htraced : cfg.traced = true) (h : Chain.Reachable cfg s)
    (htaken : s.taken < 2 ^ 32) {i : Nat} {p : Pending Tracer.Thread Tracer.Io.Ans Unit}
    (hp : (s.xorg.tasks i).pending = some p) :
    (∀ fd request argument, p.call = .ioctl fd request argument →
      (reportOf (s.xorg.tasks i).log).Announces request argument s.Logged) ∧
    ((reportOf (s.xorg.tasks i).log).phase = .failed → p.call = .exit 125) := by
  obtain ⟨g, hg⟩ := tracked_reachable htraced h
  obtain ⟨⟨hphase, hcall⟩, -⟩ := obeys_pending (hg.threads.orderly i) hp
  refine ⟨fun fd request argument hioctl hannounced => ?_, fun hfailed => ?_⟩
  · rw [hioctl] at hphase hcall
    obtain ⟨m, hm, ⟨before, hbefore, hnumber, hrequest, hsent⟩, hdetails⟩ := hcall hannounced
    have hidle : (report s.xorg i).phase = .idle := by
      cases hp : (report s.xorg i).phase with
      | idle => rfl
      | _ => rw [hp] at hphase; cases hphase
    have hlogged := hg.all_logged htaken hm hidle
    refine ⟨m, hm, ⟨before, hbefore, hnumber, hrequest, hlogged before hsent⟩, fun hset => ?_⟩
    refine (hdetails hset).mono fun value j connector => ?_
    rintro ⟨detail, hdetail, htext, hsent⟩
    exact ⟨detail, hdetail, htext, hlogged detail hsent⟩
  · have hexit : exchangeMonitor.allows .failed p.call := hfailed ▸ hphase
    exact hexit

/-- Sequence numbers are not shared, and of the acknowledgements with the number of a thread at most
    one is on its way. There is none while the thread is between two exchanges, and if there is one
    then all records of the thread are in the log. -/
theorem acknowledgements_sound (htraced : cfg.traced = true) (h : Chain.Reachable cfg s)
    (htaken : s.taken < 2 ^ 32) {i : Nat} {m : UInt32}
    (hm : (reportOf (s.xorg.tasks i).log).sequence = some m)
    (hlive : (reportOf (s.xorg.tasks i).log).phase ≠ .failed) :
    let onWay := (s.fromAgent.map (·.sequence)).count m +
      ((s.fromBroker.filter isAck).map (·.requestId)).count m
    (∀ j, (reportOf (s.xorg.tasks j).log).sequence = some m → j = i) ∧ onWay ≤ 1 ∧
      ((reportOf (s.xorg.tasks i).log).phase = .idle → onWay = 0) ∧
      (0 < onWay → ∀ record ∈ (reportOf (s.xorg.tasks i).log).sent, s.Logged record) := by
  obtain ⟨g, hg⟩ := tracked_reachable htraced h
  have howners := hg.owners htaken
  have hsub := hg.flow.events_of m
  rw [howners.own i m hm] at hsub
  -- as many as were received or are on their way were logged, and as many as were logged were sent
  have hback := hg.flow.back m
  simp only [back, count_append] at hback
  have hlength := hsub.length_le
  rw [length_map, ← count_requestId] at hlength
  have hanswered := howners.answered i m hm
  have hwaiting : (report s.xorg i).sent.length ≤ g.received.count m + 1 ∧
      ((report s.xorg i).phase = .idle → (report s.xorg i).sent.length ≤ g.received.count m) := by
    cases hp : (report s.xorg i).phase with
    | failed => exact absurd hp hlive
    | idle =>
      rw [hp] at hanswered
      exact ⟨Nat.le_succ_of_le hanswered, fun _ => hanswered⟩
    | _ =>
      rw [hp] at hanswered
      exact ⟨hanswered.2, fun h => by cases h⟩
  refine ⟨fun j hj => howners.distinct j i m hj hm, by omega, fun hidle => ?_, fun hpos => ?_⟩
  · have := hwaiting.2 hidle
    omega
  · exact hg.logged_of_count htaken hm (by omega)

end Runs

/-! ## On the bench -/

/-- Moves that depend on the state, one after the other. -/
def chainMoves (cfg : Tracer.Config) (s : Chain) : List (Chain → Move) → Option Chain
  | [] => some s
  | m :: moves => (s.move cfg (m s)).bind fun s' => chainMoves cfg s' moves

theorem reachable_chainMoves {cfg : Tracer.Config} {moves : List (Chain → Move)} {s s' : Chain}
    (h : Chain.Reachable cfg s) (hrun : chainMoves cfg s moves = some s') :
    Chain.Reachable cfg s' := by
  induction moves generalizing s with
  | nil =>
    cases hrun
    exact h
  | cons m moves ih =>
    obtain ⟨s₁, hmove, hrun⟩ := Option.bind_eq_some_iff.1 hrun
    obtain ⟨s₀, hstart, hsteps⟩ := h
    exact ih ⟨s₀, hstart, hsteps.tail ⟨_, hmove⟩⟩ hrun

/-- A modeset of one connector. -/
def benchCrtc : DrmCrtc :=
  { setConnectors := 8192, countConnectors := 1, crtcId := 31, fbId := 5, modeValid := true }

/-- The calls of a thread succeed. The connector of its modeset is given. -/
def threadOracle (connector : UInt32) (s : Chain) : (c : Tracer.Io) → Option c.Ans
  | .send _ => some (true, 0)
  | .waitReadable => some (true, 0)
  | .recv => some (s.fromAgent.head?, 0)
  | .copyCrtc _ => some (some benchCrtc, 0)
  | .copyU32 _ _ => some (some fun _ => connector, 0)
  | _ => none

/-- The calls of the agent succeed. -/
def agentOracle (s : Chain) : (c : Agent.Io) → Option c.Ans
  | .pollTrace _ _ => some (.ready { input := true })
  | .recvTrace _ => some s.toAgent.head?
  | .writeBroker _ => some true
  | .recvBroker _ => s.fromBroker.head?.map fun m => { ok := true, message := m }
  | .sendTrace _ _ => some true
  | _ => none

/-- The calls of the broker succeed. -/
def brokerOracle : (c : Io) → Option c.Ans
  | .logTransition _ => some ()
  | .writeFull _ _ => some true
  | _ => none

def benchAgent : Agent := { trace := some 5 }

/-- The next calls of one of two threads. -/
def threadActs (i : Fin 2) (n : Nat) : List (Chain → Move) :=
  List.replicate n fun s => .act i (threadOracle (if i = 0 then 42 else 43) s)

def enterModeset (i : Fin 2) : Chain → Move := fun _ => .enter i (.ioctl 9 drmModeSetCrtc 4096)

/-- A record is forwarded, logged and acknowledged. -/
def relayed : List (Chain → Move) :=
  [fun _ => .relay benchAgent 0, fun s => .agentAct (agentOracle s),
    fun s => .agentAct (agentOracle s), fun s => .agentAct (agentOracle s), fun _ => .handle {} 7,
    fun _ => .brokerAct brokerOracle, fun _ => .brokerAct brokerOracle,
    fun s => .agentAct (agentOracle s), fun s => .agentAct (agentOracle s)]

/-- Two modesets of two threads up to the kernel call. The second thread has its sequence number
    before the first one has sent its detail. -/
def benchModesets : List (Chain → Move) :=
  enterModeset 0 :: threadActs 0 4 ++ relayed ++ enterModeset 1 :: threadActs 1 2 ++
    threadActs 0 5 ++ relayed ++ threadActs 0 2 ++ threadActs 1 2 ++ relayed ++ threadActs 1 5 ++
    relayed ++ threadActs 1 2

def benchStart : Chain := { agent := ⟨benchAgent, 0, pure true⟩, broker := ⟨{}, 0, pure true⟩ }

/-- The request that the thread is about to pass on, with its argument. -/
def passes (t : Tracer.Task) : Option (UInt64 × UInt64) :=
  match t.pending with
  | some p => match p.call with
    | .ioctl _ request argument => some (request, argument)
    | _ => none
  | none => none

theorem passes_some {t : Tracer.Task} {request argument : UInt64}
    (h : passes t = some (request, argument)) :
    ∃ p fd, t.pending = some p ∧ p.call = .ioctl fd request argument := by
  unfold passes at h
  split at h
  case h_1 p hp =>
    split at h
    case h_1 fd request' argument' hcall =>
      cases h
      exact ⟨p, fd, hp, hcall⟩
    case h_2 => cases h
  case h_2 => cases h

theorem starts_bench : benchStart.Starts :=
  ⟨rfl, rfl, rfl, rfl, ⟨_, rfl⟩, ⟨_, rfl⟩, forall_mem_nil _, forall_mem_nil _⟩

/-- The modesets of both threads are about to go to the kernel, with their records in the log. -/
theorem logged_before_executed_modesets : ∃ s : Chain,
    chainMoves {} benchStart benchModesets = some s ∧
      s.logged = ["drm B #1 MODE_SETCRTC crtc=31 fb=5 xy=0,0 conns=1 mode=1",
        "drm D #1 SETCRTC_CONNECTOR index=0 connector=42",
        "drm B #2 MODE_SETCRTC crtc=31 fb=5 xy=0,0 conns=1 mode=1",
        "drm D #2 SETCRTC_CONNECTOR index=0 connector=43"] ∧
      (reportOf (s.xorg.tasks 0).log).Announces drmModeSetCrtc 4096 s.Logged ∧
      (reportOf (s.xorg.tasks 1).log).Announces drmModeSetCrtc 4096 s.Logged := by
  have hrun : (chainMoves {} benchStart benchModesets).any (fun s => decide (
      s.logged = ["drm B #1 MODE_SETCRTC crtc=31 fb=5 xy=0,0 conns=1 mode=1",
        "drm D #1 SETCRTC_CONNECTOR index=0 connector=42",
        "drm B #2 MODE_SETCRTC crtc=31 fb=5 xy=0,0 conns=1 mode=1",
        "drm D #2 SETCRTC_CONNECTOR index=0 connector=43"] ∧ s.taken = 2 ∧
      passes (s.xorg.tasks 0) = some (drmModeSetCrtc, 4096) ∧
      passes (s.xorg.tasks 1) = some (drmModeSetCrtc, 4096))) = true := by
    decide +kernel
  obtain ⟨s, hs, hfacts⟩ := (Option.any_eq_true _ _).1 hrun
  obtain ⟨hlogged, htaken, hfirst, hsecond⟩ := of_decide_eq_true hfacts
  have hreachable := reachable_chainMoves ⟨_, starts_bench, .refl⟩ hs
  have hlt : s.taken < 2 ^ 32 := by
    rw [htaken]
    decide
  obtain ⟨p, fd, hp, hcall⟩ := passes_some hfirst
  obtain ⟨p', fd', hp', hcall'⟩ := passes_some hsecond
  exact ⟨s, hs, hlogged, (logged_before_executed rfl hreachable hlt hp).1 fd _ _ hcall,
    (logged_before_executed rfl hreachable hlt hp').1 fd' _ _ hcall'⟩

/-- The records of the first thread are in the log and its acknowledgement waits in the socket, while
    the second thread has its number. -/
theorem acknowledgements_sound_waiting : ∃ s : Chain,
    chainMoves {} benchStart (benchModesets.take 31) = some s ∧
      (reportOf (s.xorg.tasks 1).log).sequence = some 2 ∧
      (s.fromAgent.map (·.sequence)).count 1 = 1 ∧ (reportOf (s.xorg.tasks 0).log).sent ≠ [] ∧
      ∀ record ∈ (reportOf (s.xorg.tasks 0).log).sent, s.Logged record := by
  have hrun : (chainMoves {} benchStart (benchModesets.take 31)).any (fun s => decide (
      (reportOf (s.xorg.tasks 1).log).sequence = some 2 ∧
      (s.fromAgent.map (·.sequence)).count 1 = 1 ∧ s.taken = 2 ∧
      (reportOf (s.xorg.tasks 0).log).sequence = some 1 ∧
      (reportOf (s.xorg.tasks 0).log).sent.length = 2 ∧
      (reportOf (s.xorg.tasks 0).log).phase ≠ .failed)) = true := rfl
  obtain ⟨s, hs, hfacts⟩ := (Option.any_eq_true _ _).1 hrun
  obtain ⟨hother, hcount, htaken, hnumber, hsent, hlive⟩ := of_decide_eq_true hfacts
  have hsound := acknowledgements_sound rfl (reachable_chainMoves ⟨_, starts_bench, .refl⟩ hs)
    (by rw [htaken]; decide) hnumber hlive
  exact ⟨s, hs, hother, hcount, ne_nil_of_length_eq_add_one hsent,
    hsound.2.2.2 (Nat.add_pos_left (by rw [hcount]; decide) _)⟩

end HdmiLos.Relay
