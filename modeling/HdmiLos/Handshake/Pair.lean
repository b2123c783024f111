import HdmiLos.Agent.Run
import HdmiLos.Broker.Run
import Mathlib.Logic.Function.Basic

/-!
# Broker and agent

The environment of a broker whose agents are processes that run `run_agent`. Every connection of an
agent is a pair of streams, one in each direction, and the agent is the program that it has still to
run. Before each call of the broker the agents may do any number of steps of their own, so every
interleaving and every delay is a run of the broker in this environment. What else the broker sees,
and what the agents' other calls answer, is left open.

The environment writes a history, latest first. It notes for each reply of an agent which request
the agent was serving when it wrote it, which no message says.
-/

namespace HdmiLos.Handshake

open Interaction

/-! ## Streams -/

/-- A message of the broker that the agent has not read yet. -/
structure Unread where
  serial : Nat
  message : Message
  lease : Bool

/-- A message of an agent that the broker has not read yet, and the request that it replies to. -/
structure Unheard where
  re : Option Nat
  message : Message

/-- The connection of an agent, and the agent. -/
structure Link where
  toAgent : List Unread := []
  toBroker : List Unheard := []
  serving : Option Nat := none
  vars : Agent := {}
  nextFd : Nat := 0
  prog : AgentProg Int

/-- The requests whose `AGENT_READY` the broker may still read, oldest first: it is on its way, or
    the agent is at work on the request, or the request is unread. -/
def Link.outstanding (l : Link) : List (Option Nat) :=
  (l.toBroker.filter fun x => x.message.opcode == opAgentReady).map Unheard.re ++
    (l.serving.toList.map some ++
      (l.toAgent.filter fun x => x.message.isAgentRequest).map fun x => some x.serial)

/-! ## Steps of an agent -/

/-- The agent writes a message. A message other than a progress record is its reply. -/
def Link.write (l : Link) (m : Message) (ok : Bool) : Link :=
  if m.opcode == opAgentProgress then
    { l with toBroker := if ok then l.toBroker ++ [⟨none, m⟩] else l.toBroker }
  else
    { l with toBroker := if ok then l.toBroker ++ [⟨l.serving, m⟩] else l.toBroker, serving := none }

/-- The request that the agent serves after one of its readers got a message, or nothing. -/
def Link.served (l : Link) (reader : Agent.Reader) (x : Option Unread) : Option Nat :=
  match reader, x with
  | .request, some x => if x.message.isAgentRequest then some x.serial else none
  | .request, none => none
  | _, _ => l.serving

/-- What is noted of a message that the agent wrote: the request that it replies to. -/
def Link.reply (l : Link) (m : Message) (ok : Bool) : Option (Nat × Message) :=
  if ok && m.opcode != opAgentProgress then l.serving.map fun serial => (serial, m) else none

/-- The pending call of the agent is answered, by the streams or by `oracle`. The agent waits when
    it reads and nothing has arrived. -/
def Link.answer (l : Link) (oracle : (c : Agent.Io) → c.Ans) (vars : Agent) (nextFd : Nat) :
    (c : Agent.Io) → (c.Ans → AgentProg Int) → Link × Option (Nat × Message)
  | .writeBroker m, resume =>
    let ok := oracle (.writeBroker m)
    ({ l.write m ok with vars := vars, nextFd := nextFd, prog := resume ok }, l.reply m ok)
  | .recvBroker reader, resume =>
    let received := oracle (.recvBroker reader)
    match received.ok, l.toAgent with
    | true, [] => (l, none)
    | true, x :: rest =>
      ({ l with toAgent := rest, serving := l.served reader (some x), vars := vars, nextFd := nextFd,
                prog := resume { ok := true, message := x.message, passed := x.lease } }, none)
    | false, _ =>
      ({ l with serving := l.served reader none, vars := vars, nextFd := nextFd,
                prog := resume received }, none)
  | c, resume => ({ l with vars := vars, nextFd := nextFd, prog := resume (oracle c) }, none)

/-- One step of the agent: up to its next call, and the answer to it. -/
def Link.step (l : Link) (oracle : (c : Agent.Io) → c.Ans) : Link × Option (Nat × Message) :=
  match l.prog.pending l.vars l.nextFd with
  | none => (l, none)
  | some x => l.answer oracle x.vars x.nextFd x.call x.resume

/-! ## The history -/

/-- A request that the broker sent, with a lease or without. `idle` says that no earlier request on
    the connection was outstanding. -/
structure Sent where
  fd : Fd
  serial : Nat
  message : Message
  lease : Bool
  idle : Bool
  deriving DecidableEq

/-- A message of an agent that the broker read. -/
structure Taken where
  fd : Fd
  re : Option Nat
  message : Message
  deriving DecidableEq

/-- What happens between the two. -/
inductive Happening where
  /-- The broker sent a request. -/
  | sent (x : Sent)
  /-- The agent wrote a message while it served a request. -/
  | replied (fd : Fd) (serial : Nat) (message : Message)
  /-- The broker read a message. -/
  | taken (x : Taken)
  /-- `Start` went past its wait for the reply to a request with this opcode. -/
  | passed (request : UInt16)
  deriving DecidableEq

/-- The last request, and the last message that was read after it. -/
def lastExchange : List Happening → Option (Sent × Option Taken)
  | [] => none
  | .sent x :: _ => some (x, none)
  | .taken y :: past => (lastExchange past).map fun e => (e.1, some y)
  | _ :: past => lastExchange past

/-- The last request has the given opcode, the agent has replied to it with `AGENT_READY` and `OK`,
    and that reply is what the broker read last. -/
def Confirmed (request : UInt16) (past : List Happening) : Prop :=
  ∃ (x : Sent) (reply : Message),
    lastExchange past = some (x, some ⟨x.fd, some x.serial, reply⟩) ∧ x.message.opcode = request ∧
      .replied x.fd x.serial reply ∈ past ∧ reply.opcode = opAgentReady ∧ reply.status = statusOk

/-- Whenever `Start` went past a wait, the request it waited for was confirmed. -/
def Agreed (hist : List Happening) : Prop :=
  ∀ request past, .passed request :: past <:+ hist → Confirmed request past

/-- `Start` went past its last wait, and no lease was handed over since. -/
def Started (hist : List Happening) : Prop :=
  ∃ past recent, hist = recent ++ .passed opAgentStart :: past ∧ ∀ x, .sent x ∈ recent →
    x.lease = false

/-- Every session was prepared on an idle connection: no request of an earlier session was unread or
    being served, and no `AGENT_READY` unread, when `AGENT_PREPARE` was sent. -/
def IdleAtPrepare (hist : List Happening) : Prop :=
  ∀ x, .sent x ∈ hist → x.message.opcode = opAgentPrepare → x.idle = true

/-- The wait that a log line of `Start` is behind. -/
def passedWait : Transition → Option UInt16
  | .takeover .agentPrepare .complete => some opAgentPrepare
  | .takeover .agentStart .complete => some opAgentStart
  | _ => none

/-! ## The environment -/

/-- The agents on their connections, the history, and the rest of the world. -/
structure Pair (ω : Type) where
  links : Fd → Option Link := fun _ => none
  hist : List Happening := []
  rest : ω

/-- A step of the agent on a connection, with the answers that its calls get. -/
structure Move where
  fd : Fd
  oracle : (c : Agent.Io) → c.Ans

/-- A process that connects to the broker and runs `run_agent`. -/
structure Joining where
  fuel : Nat
  pid : UInt32
  vars : Agent

/-- What is left open: the answers to the broker's other calls and the success of all, the steps of
    the agents before a call, and which of the peers that connect are agents. -/
structure Surroundings (ω : Type) where
  env : Env ω
  moves : Io → ω → List Move
  joins : ω → Option Joining

variable {ω : Type}

/-- The agent on the connection, if there is one, becomes `l`. -/
def Pair.setLink (w : Pair ω) (fd : Fd) (l : Option Link) : Pair ω :=
  { w with links := Function.update w.links fd l }

def Pair.note (w : Pair ω) (events : List Happening) : Pair ω :=
  { w with hist := events ++ w.hist }

/-- A step of the agent. -/
def Pair.move (w : Pair ω) (x : Move) : Pair ω :=
  match w.links x.fd with
  | none => w
  | some l =>
    let (l', reply) := l.step x.oracle
    (w.setLink x.fd (some l')).note (reply.toList.map fun r => .replied x.fd r.1 r.2)

/-- No request on the connection is outstanding. -/
def Pair.idle (w : Pair ω) (fd : Fd) : Bool :=
  match w.links fd with
  | none => false
  | some l => l.outstanding.isEmpty

/-- A message on its way to the agent. -/
def Pair.deliver (w : Pair ω) (fd : Fd) (m : Message) (lease : Bool) : Pair ω :=
  let sent := (w.links fd).map fun l =>
    { l with toAgent := l.toAgent ++ [⟨w.hist.length, m, lease⟩] }
  (w.setLink fd sent).note
    (if m.isAgentRequest then [.sent ⟨fd, w.hist.length, m, lease, w.idle fd⟩] else [])

/-- The broker reads the next message of a connection. It waits when there is none. Only agents
    register as such, so another peer's registration does not come. -/
def Pair.take (w : Pair ω) (fd : Fd) (received : Received) : Option (Received × Pair ω) :=
  if !received.ok then some (received, w)
  else
    match w.links fd with
    | none =>
      if received.message.opcode == opAgentRegister then none
      else some (received, w.note [.taken ⟨fd, none, received.message⟩])
    | some l =>
      match l.toBroker with
      | [] => none
      | x :: rest =>
        some ({ ok := true, message := x.message },
          (w.setLink fd (some { l with toBroker := rest })).note [.taken ⟨fd, x.re, x.message⟩])

/-- A peer connects, which may be an agent. -/
def Pair.join (w : Pair ω) (fd : Fd) (j : Option Joining) : Pair ω :=
  match j with
  | none => w
  | some j => w.setLink fd (some { vars := j.vars, prog := Agent.runAgent j.fuel j.pid })

/-- The broker's calls, with the agent. -/
def Surroundings.answer (S : Surroundings ω) : Env (Pair ω)
  | .acceptClient fd, w =>
    match S.env (.acceptClient fd) w.rest with
    | none => none
    | some (ok, r) => some (ok, { (if ok then w.join fd (S.joins w.rest) else w) with rest := r })
  | .writeFull fd m, w =>
    match S.env (.writeFull fd m) w.rest with
    | none => none
    | some (ok, r) => some (ok, { (if ok then w.deliver fd m false else w) with rest := r })
  | .sendWithFd fd m (some lease), w =>
    match S.env (.sendWithFd fd m (some lease)) w.rest with
    | none => none
    | some (ok, r) => some (ok, { (if ok then w.deliver fd m true else w) with rest := r })
  | .readFull fd, w =>
    match S.env (.readFull fd) w.rest with
    | none => none
    | some (received, r) => { w with rest := r }.take fd received
  | .logTransition t, w =>
    match S.env (.logTransition t) w.rest with
    | none => none
    | some (a, r) => some (a, { w.note ((passedWait t).toList.map .passed) with rest := r })
  | c, w =>
    match S.env c w.rest with
    | none => none
    | some (a, r) => some (a, { w with rest := r })

/-- The environment: the agents move, and then the call is answered. -/
def pairEnv (S : Surroundings ω) : Env (Pair ω) := fun c w =>
  S.answer c ((S.moves c w.rest).foldl Pair.move w)

end HdmiLos.Handshake
