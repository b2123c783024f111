import HdmiLos.Tracer.Threads
import HdmiLos.Tracer.Line
import HdmiLos.Agent.Session
import HdmiLos.Broker.Channels

/-!
# From Xorg to the log

The three processes that a trace record passes through. A thread of Xorg sends it and waits, the
agent forwards it to the broker and waits, the broker appends it to the log, and the two
acknowledgements go the way back. Polls may time out and calls may fail at any time, and between two
records the agent and the broker exchange other messages.
-/

namespace HdmiLos.Relay

open Interaction
open Tracer (Xorg Entry Label Phase)

/-! ## The report of a request -/

/-- How far a modeset has been read: it was copied, and then its connectors were. Either copy may
    have failed. -/
inductive Modeset where
  | unread
  | copied (value : Option DrmCrtc)
  | connectors (value : DrmCrtc) (copied : Option (List UInt32))

namespace Modeset

/-- An array is copied. -/
def readArray (m : Modeset) (source : UInt64) (count : Nat) (array : Option (List UInt32)) :
    Modeset :=
  match m with
  | .copied (some value) =>
    if source = value.setConnectors ∧ count = value.countConnectors.toNat then
      .connectors value array
    else m
  | _ => m

/-- The modeset at `argument` has been read as far as it can be, and if it has one to sixteen
    connectors that can be read, each of them is as in `D`. -/
def Described (m : Modeset) (argument : UInt64) (D : DrmCrtc → Nat → UInt32 → Prop) : Prop :=
  argument = 0 ∨ match m with
    | .unread => False
    | .copied none => True
    | .copied (some value) =>
      value.countConnectors = 0 ∨ 16 < value.countConnectors ∨ value.setConnectors = 0
    | .connectors _ none => True
    | .connectors value (some array) => array.length = value.countConnectors.toNat ∧
        ∀ (i : Nat) (connector : UInt32), array[i]? = some connector → D value i connector

end Modeset

/-- What a thread has reported of the request it is in, from the calls it made. -/
structure Report where
  phase : Phase := .idle
  steady : Option Bool := none
  sequence : Option UInt32 := none
  sent : List TraceRecord := []
  modeset : Modeset := .unread

namespace Report

/-- What a call adds to a report, its place in the exchange apart. -/
def note (r : Report) : Tracer.Event → Report
  | ⟨.shared .loadSteady, steady⟩ => { r with steady := some steady }
  | ⟨.shared .fetchAddSequence, sequence⟩ => { r with sequence := some sequence }
  | ⟨.send record, (true, _)⟩ => { r with sent := r.sent ++ [record] }
  | ⟨.copyCrtc _, (value, _)⟩ => { r with modeset := .copied value }
  | ⟨.copyU32 source count, (copied, _)⟩ =>
    { r with modeset := r.modeset.readArray source count (copied.map List.ofFn) }
  | _ => r

/-- What a call adds. -/
def next (r : Report) (e : Tracer.Event) : Report :=
  { r.note e with phase := Tracer.exchangeMonitor.next r.phase e.1 e.2 }

/-- The record that precedes a request is among `P`, and so is the detail of each connector of a
    modeset. Once tracing is steady, this concerns only modesets. -/
def Announces (r : Report) (request argument : UInt64) (P : TraceRecord → Prop) : Prop :=
  r.steady = some false ∨ request = drmModeSetCrtc →
    ∃ sequence, r.sequence = some sequence ∧
      (∃ before, before.phase = traceBefore ∧ before.sequence = sequence ∧
        before.request = request ∧ P before) ∧
      (request = drmModeSetCrtc → r.modeset.Described argument fun value i connector =>
        ∃ detail, detail.IsDetail sequence request "SETCRTC_CONNECTOR"
            (value.crtcId.toUInt64, i.toUInt64, connector.toUInt64, 0) ∧
          detail.detail.toList =
            ("index=" ++ toString i ++ " connector=" ++ toString connector).toList.take 63 ∧
          P detail)

end Report

/-- The report of the calls. -/
def reportOf (log : List Tracer.Event) : Report := log.foldl Report.next {}

/-! ## The chain -/

/-- A process and what it has still to do of a function that it entered. -/
structure Worker (V : Type) {C : Type} (A : C → Type) where
  vars : V
  nextFd : Nat
  code : Machine V A Bool

namespace Worker

variable {V C : Type} {A : C → Type}

/-- The next call. -/
def pending (w : Worker V A) : Option (Pending V A Bool) := w.code.pending w.vars w.nextFd

/-- The function has returned. -/
def idle (w : Worker V A) : Bool := (w.code.returned w.vars w.nextFd).isSome

/-- The process after the answer to its call. -/
def resume (p : Pending V A Bool) (a : A p.call) : Worker V A := ⟨p.vars, p.nextFd, p.resume a⟩

end Worker

/-- One Xorg, the agent and the broker, the messages between them, the lines of the log and how many
    sequence numbers Xorg has taken. -/
structure Chain where
  xorg : Xorg := {}
  taken : Nat := 0
  toAgent : List TraceRecord := []
  fromAgent : List TraceRecord := []
  agent : Worker Agent Agent.Io.Ans
  toBroker : List Message := []
  fromBroker : List Message := []
  broker : Worker Broker Io.Ans
  logged : List String := []

/-- A move of one of the processes. The agent relays a record, the broker handles a message, or they
    do something else with their connection and their variables. -/
inductive Move where
  | enter (i : Nat) (entry : Entry)
  | act (i : Nat) (oracle : (c : Tracer.Io) → Option c.Ans)
  | relay (vars : Agent) (timeoutMs : Int)
  | agentAct (oracle : (c : Agent.Io) → Option c.Ans)
  | agentRead
  | agentWrite (m : Message)
  | handle (vars : Broker) (fd : Fd)
  | brokerAct (oracle : (c : Io) → Option c.Ans)
  | brokerRead
  | brokerWrite (m : Message)
  | brokerLog (t : Transition)

namespace Chain

/-- Take the first of a queue, if it is the given one. -/
def takeFirst {α : Type} [DecidableEq α] (x : α) : List α → Option (List α)
  | [] => none
  | y :: rest => if y = x then some rest else none

/-- The trace socket after a step of Xorg. -/
def follow (s : Chain) (x : Xorg) : Label → Option Chain
  | .send record => some { s with xorg := x, toAgent := s.toAgent ++ [record] }
  | .receive record =>
    (takeFirst record s.fromAgent).map fun rest => { s with xorg := x, fromAgent := rest }
  | _ => some { s with xorg := x }

/-- Counts the numbers taken. -/
def count (s : Chain) (x : Xorg) : Chain :=
  { s with taken := s.taken + if x.globals.sequence = s.xorg.globals.sequence then 0 else 1 }

/-- What a call of the agent does. -/
def agentEffect (s : Chain) : (c : Agent.Io) → c.Ans → Option Chain
  | .recvTrace _, some record =>
    (takeFirst record s.toAgent).map fun rest => { s with toAgent := rest }
  | .sendTrace _ record, true => some { s with fromAgent := s.fromAgent ++ [record] }
  | .writeBroker m, true => some { s with toBroker := s.toBroker ++ [m] }
  | .recvBroker _, received =>
    if received.ok then
      (takeFirst received.message s.fromBroker).map fun rest => { s with fromBroker := rest }
    else some s
  | _, _ => some s

/-- What a call of the broker does. -/
def brokerEffect (s : Chain) : (c : Io) → c.Ans → Chain
  | .logTransition t, _ => { s with logged := s.logged ++ [t.text] }
  | .writeFull _ m, true => { s with fromBroker := s.fromBroker ++ [m] }
  | _, _ => s

/-- A move, if it is possible. -/
def move (cfg : Tracer.Config) (s : Chain) : Move → Option Chain
  | .enter i entry => (s.xorg.enter cfg i entry).map fun x => { s with xorg := x }
  | .act i oracle => (s.xorg.act i oracle).bind fun (label, x) => (s.count x).follow x label
  | .relay vars timeoutMs =>
    if s.agent.idle then
      some { s with agent := ⟨vars, s.agent.nextFd, Agent.relayTraceRecord timeoutMs⟩ }
    else none
  | .agentAct oracle => do
    let p ← s.agent.pending
    let a ← oracle p.call
    let s ← s.agentEffect p.call a
    pure { s with agent := Worker.resume p a }
  | .agentRead =>
    if s.agent.idle then some { s with fromBroker := s.fromBroker.tail } else none
  | .agentWrite m =>
    if s.agent.idle && m.opcode != opAgentProgress then
      some { s with toBroker := s.toBroker ++ [m] }
    else none
  | .handle vars fd =>
    match s.toBroker with
    | [] => none
    | m :: rest =>
      if s.broker.idle then
        some { s with toBroker := rest
                      broker := ⟨vars, s.broker.nextFd, handleAgentEvent fd m⟩ }
      else none
  | .brokerAct oracle => do
    let p ← s.broker.pending
    let a ← oracle p.call
    pure { s.brokerEffect p.call a with broker := Worker.resume p a }
  | .brokerRead =>
    if s.broker.idle then some { s with toBroker := s.toBroker.tail } else none
  | .brokerWrite m =>
    if s.broker.idle && m.opcode != opAgentProgressAck then
      some { s with fromBroker := s.fromBroker ++ [m] }
    else none
  | .brokerLog t =>
    if s.broker.idle then some { s with logged := s.logged ++ [t.text] } else none

/-- The start of an Xorg: its socket is new, the agent and the broker have returned to their loops,
    and of what they have sent to each other nothing concerns a trace. -/
structure Starts (s : Chain) : Prop where
  xorg : s.xorg = {}
  taken : s.taken = 0
  toAgent : s.toAgent = []
  fromAgent : s.fromAgent = []
  agent : ∃ ok, s.agent.code = pure ok
  broker : ∃ ok, s.broker.code = pure ok
  toBroker : ∀ m ∈ s.toBroker, m.opcode ≠ opAgentProgress
  fromBroker : ∀ m ∈ s.fromBroker, m.opcode ≠ opAgentProgressAck

/-- One move. -/
def Step (cfg : Tracer.Config) (s s' : Chain) : Prop := ∃ m, s.move cfg m = some s'

/-- Some moves from a start. -/
def Reachable (cfg : Tracer.Config) (s : Chain) : Prop :=
  ∃ s₀, Starts s₀ ∧ Relation.ReflTransGen (Step cfg) s₀ s

/-- The letter of a phase in the log. -/
def letter (phase : UInt16) : String :=
  if phase = traceLoaded then "L" else if phase = traceDetail then "D"
  else if phase = traceAfter then "A" else "B"

/-- The log has the line of a record: the letter of its phase and its sequence number, and then its
    name and its text as far as there is room. The line of a record that follows its request has
    the outcome in place of the name. -/
def Logged (s : Chain) (record : TraceRecord) : Prop :=
  let head := "drm " ++ letter record.phase ++ " #" ++ toString record.sequence.toNat ++ " "
  let outcome := "r=" ++ toString record.result ++ " e=" ++ toString record.error ++ " "
  let rest :=
    if record.phase = traceAfter then outcome.toList ++ record.detail.toList.take 44
    else record.name.toList.take 20 ++ ' ' :: record.detail.toList.take 48
  ∃ line ∈ s.logged, line.toList = (head.toList ++ rest).take 91

end Chain

end HdmiLos.Relay
