import HdmiLos.Agent.Run

/-!
# The runs of the agent, message by message

The loop of `run_agent` receives one message after the other. What it does in between (it looks
whether Xorg has exited, relays a record, reports a commit that failed) is left out of the history,
in which only the messages stand, each with the globals it met and with the reply.
-/

namespace HdmiLos.Agent

open Interaction

/-- The agent and its surroundings. -/
abbrev AgentSys (ω : Type) := Process Agent Io.Ans ω

/-- A message that the loop has received, with the descriptor that came with it. -/
structure Asked where
  valid : Bool
  request : Message
  lease : Option Fd
  before : Agent

/-- The test before the call of `start_xorg`. -/
def Asked.entersXorg (x : Asked) : Bool :=
  x.valid && x.request.opcode == opAgentStart && x.lease.isSome &&
    x.request.flags == x.before.probeMode &&
    (x.request.flags == probeXorgLegacy || x.request.flags == probeXorgAtomic)

/-- One that was dealt with. There is no reply to a message that ends the loop. -/
structure Handled extends Asked where
  reply : Option Message

/-- What the loop does between two messages, and `cleanup_session` at its end. -/
inductive Idle (n : Nat) (registration : Message) : AgentProg Unit → Prop where
  | stopRequested : Idle n registration (do let _ ← call .stopRequested)
  | pollPeers (trace : Option Fd) : Idle n registration (do let _ ← call (.pollPeers trace))
  | reapXorg : Idle n registration (reapXorg n registration)
  | relayPolled (revents : Revents) : Idle n registration (relayPolled n registration revents)
  | reportScanout : Idle n registration (reportScanout n registration)
  | ending : Idle n registration (cleanupSession n)

section Runs

variable {ω : Type} (env : Handler Io Io.Ans ω) (n : Nat) (registration : Message)
  (s₀ : AgentSys ω)

/-- The loop has got from `s₀` to a state between two messages, and dealt with these so far. -/
inductive Reach : List Handled → AgentSys ω → Prop where
  | start : Reach [] s₀
  | idle {hs : List Handled} {s t : AgentSys ω} {p : AgentProg Unit} (h : Reach hs s)
      (hp : Idle n registration p) (ht : p.run (processHandler env) s = (some (), t)) : Reach hs t
  | handled {hs : List Handled} {s t u : AgentSys ω} {request reply : Message}
      {lease : Option Fd} {sent : Bool} (h : Reach hs s)
      (hu : (recvMessage .request).run (processHandler env) s = (some (true, request, lease), u))
      (ht : (serveRequest n request lease).run (processHandler env) u = (some (), t))
      (hreply : t.log.getLast? = some ⟨.writeBroker reply, sent⟩) :
      Reach (hs ++ [⟨⟨true, request, lease, u.vars⟩, some reply⟩]) t
  | refused {hs : List Handled} {s u : AgentSys ω} {request : Message} {lease : Option Fd}
      (h : Reach hs s)
      (hu : (recvMessage .request).run (processHandler env) s = (some (false, request, lease), u)) :
      Reach (hs ++ [⟨⟨false, request, lease, u.vars⟩, none⟩]) u

/-- A state in which the agent is cut off, or between two messages. The list has the messages so
    far, with the one that it is dealing with. -/
inductive During : List Asked → AgentSys ω → Prop where
  | between {hs : List Handled} {s : AgentSys ω} (h : Reach env n registration s₀ hs s) :
      During (hs.map (·.toAsked)) s
  | idle {hs : List Handled} {s t : AgentSys ω} {p : AgentProg Unit}
      (h : Reach env n registration s₀ hs s) (hp : Idle n registration p)
      (ht : p.run (processHandler env) s = (none, t)) : During (hs.map (·.toAsked)) t
  | receiving {hs : List Handled} {s t : AgentSys ω} (h : Reach env n registration s₀ hs s)
      (ht : (recvMessage .request).run (processHandler env) s = (none, t)) :
      During (hs.map (·.toAsked)) t
  | serving {hs : List Handled} {s t u : AgentSys ω} {request : Message} {lease : Option Fd}
      (h : Reach env n registration s₀ hs s)
      (hu : (recvMessage .request).run (processHandler env) s = (some (true, request, lease), u))
      (ht : (serveRequest n request lease).run (processHandler env) u = (none, t)) :
      During (hs.map (·.toAsked) ++ [⟨true, request, lease, u.vars⟩]) t

end Runs

/-- The calls made since. -/
def newCalls {ω : Type} (s₀ s : AgentSys ω) : List (Answered Io.Ans) := s.log.drop s₀.log.length

/-- No session has been prepared yet. -/
structure Untouched (a : Agent) : Prop where
  bridge : a.bridge = none
  xorg : a.xorg = none
  session : a.session = none
  trace : a.trace = none
  verifyLease : a.verifyLease = none
  probeMode : a.probeMode = probeNone

end HdmiLos.Agent
