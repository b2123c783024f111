import HdmiLos.Broker.Traffic

/-!
# Histories of the main loop

An iteration of `Run` serves a client, the composer, the agent, the volume keys, the heartbeat, the
deadline and the armed request, in this order, with readiness bits that were polled once. A history
records every part that was carried out, with the states around it.
-/

namespace HdmiLos

open Interaction

variable {ω : Type}

/-- A part of an iteration. -/
inductive Part where
  | client
  | composer
  | agent
  | volumes
  | heartbeat
  | deadline
  | armed
  deriving DecidableEq, Repr

/-- What a part does, given the readiness that the iteration polled. -/
def Part.prog (n : Nat) (revents : List Revents) : Part → BrokerProg Unit
  | client => runClient n (revents.getD 0 {})
  | composer => runComposer n (revents.getD 1 {})
  | agent => runAgent n (revents.getD 2 {})
  | volumes => runVolumes n (revents.getD 3 {}) (revents.getD 4 {})
  | heartbeat => runHeartbeat n
  | deadline => runDeadline n
  | armed => runArmed n

/-- The parts of an iteration after `AcceptClient`, in their order. -/
def Part.peers : List Part := [composer, agent, volumes, heartbeat, deadline, armed]

/-- A part that was carried out. -/
structure Did (ω : Type) where
  part : Part
  revents : List Revents
  before : Sys ω
  after : Sys ω

/-- The calls of the part. -/
def Did.calls (d : Did ω) : List Event := callsSince d.before d.after

/-- `History env n revents todo hist s`: the broker started, carried out the parts `hist`, latest
    first, and is now in the state `s`. The current iteration polled `revents`, and its parts `todo`
    are still to come. -/
inductive History (env : Env ω) (n : Nat) :
    List Revents → List Part → List (Did ω) → Sys ω → Prop where
  | start {w : ω} {s : Sys ω} :
    runStartup.run (sysHandler env) (Sys.initial w) = (some true, s) → History env n [] [] [] s
  | interrupted {revents : List Revents} {hist : List (Did ω)} {s entered t : Sys ω} :
    History env n revents [] hist s →
    stopRequested.run (sysHandler env) s = (some false, entered) →
    runPoll.run (sysHandler env) entered = (some .interrupted, t) →
    History env n revents [] hist t
  | poll {revents revents' : List Revents} {hist : List (Did ω)} {s entered t : Sys ω} :
    History env n revents [] hist s →
    stopRequested.run (sysHandler env) s = (some false, entered) →
    runPoll.run (sysHandler env) entered = (some (.ready revents'), t) →
    History env n revents' (.client :: Part.peers) hist t
  | part {revents : List Revents} {p : Part} {todo : List Part} {hist : List (Did ω)}
    {s t : Sys ω} :
    History env n revents (p :: todo) hist s →
    (p.prog n revents).run (sysHandler env) s = (some (), t) →
    History env n revents todo (⟨p, revents, s, t⟩ :: hist) t

end HdmiLos
