import HdmiLos.Agent.Run
import HdmiLos.Broker.Run

/-!
# The registration of an agent

An agent registers with a request that says whether its sessions are continuous, and leaves when the
reply does not say so too. `AcceptClient` fills the reply in with `Status`, which describes the
broker. A `Visit` is what `AcceptClient` did with the client that it accepted, read off its calls.
-/

namespace HdmiLos.Handshake

open Interaction

variable {ω : Type}

/-- The request that was read from the client, the reply that was written to it, and whether the
    gates were open when they were last looked at. -/
structure Visit where
  gates : Bool := true
  request : Option (Fd × Message) := none
  reply : Option (Fd × Message) := none

/-- What a call tells of the visit. -/
def Visit.step (x : Visit) : (c : Io) → c.Ans → Visit
  | .access .compatibleOk, present =>
    -- each look at the gates begins with this marker
    { x with gates := present }
  | .recoveryDumpProperty, value => { x with gates := x.gates && value == some "0" }
  | .readFull fd, received =>
    -- the client's request is the first message that is read
    { x with request := if received.ok then x.request.or (some (fd, received.message)) else x.request }
  | .writeFull fd m, _ => { x with reply := some (fd, m) }
  | _, _ => x

/-- What `AcceptClient` did, from its calls. -/
def visit (calls : List Event) : Visit :=
  calls.foldl (fun x e => x.step e.1 e.2) {}

/-- The broker made the client its agent. -/
def Accepted (client : Fd) (s t : Sys ω) : Prop :=
  s.vars.agentFd = none ∧ t.vars.agentFd = some client

instance (client : Fd) (s t : Sys ω) : Decidable (Accepted client s t) :=
  inferInstanceAs (Decidable (_ ∧ _))

/-- The broker and a client that asks to be its agent agree on the outcome: an accepted agent is
    recorded, and told, to be continuous exactly if it asked to be, and an agent that gets the reply
    stays exactly if it was accepted. -/
structure RegistrationAgrees (client : Fd) (request : Message) (s t : Sys ω) : Prop where
  recorded : Accepted client s t →
    t.vars.agentContinuous = hasFlag request.flags flagContinuous
  told : Accepted client s t → ∃ reply, (visit (callsSince s t)).reply = some (client, reply) ∧
    reply.status = statusOk ∧ hasFlag reply.flags flagContinuous = hasFlag request.flags flagContinuous
  stays : ∀ (agent : Agent) (id : UInt32) (reply : Message),
    request = Agent.registrationMessage id agent.noTimeout →
    (visit (callsSince s t)).reply = some (client, reply) →
    (Agent.registered agent true reply = true ↔ Accepted client s t)

/-- The reply can say what the agent asked for: it did not ask for continuous sessions, or no request
    is armed and the gates were open at the last look, which is the one that `Status` acts on. -/
def Expressible (request : Message) (b : Broker) (x : Visit) : Prop :=
  hasFlag request.flags flagContinuous = false ∨ b.armed = false ∧ x.gates = true

/-- An agent without a time limit has registered, and leaves with the reply that it gets, although
    the broker keeps it as its continuous agent. -/
def AgentLost (s t : Sys ω) : Prop :=
  ∃ (client : Fd) (id : UInt32) (reply : Message),
    (visit (callsSince s t)).request = some (client, Agent.registrationMessage id true) ∧
    (visit (callsSince s t)).reply = some (client, reply) ∧ reply.status = statusOk ∧
    Agent.registered { noTimeout := true } true reply = false ∧
    t.vars.agentFd = some client ∧ t.vars.agentContinuous = true

end HdmiLos.Handshake
