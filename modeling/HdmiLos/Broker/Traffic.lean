import HdmiLos.Broker.Run

/-!
# What the broker's calls say about the composer connection

Observers of the call log. They see only what the broker sent and received, not its fields, so
statements about them are statements about the conversation with the composer.
-/

namespace HdmiLos

open Interaction

/-! ## Messages of the composer -/

/-- The valid message that an event received from the composer. -/
def composerMessage : Event → Option Message
  | ⟨.recvWithFd _, r⟩ => if r.ok && r.message.validComposer then some r.message else none
  | _ => none

/-- A hotplug event that reports the display as connected. -/
def Message.isPlug (m : Message) : Bool := m.validComposer && m.isHotplug && m.connected

/-- The composer's messages. -/
def composerMessages (log : List Event) : List Message :=
  log.filterMap composerMessage

/-- An unplug was consumed: a hotplug event without the connected flag, and after it no message
    that reports the link as connected again. -/
def UnplugConsumed (messages : List Message) : Prop :=
  ∃ before event after, messages = before ++ event :: after ∧ event.isHotplug = true ∧
    event.connected = false ∧ ∀ m ∈ after, m.connected = false

/-- The pending flag after some messages: a message with the connected flag clears it, and a hotplug
    event without that flag sets it. -/
def unplugAfter (pending : Bool) (messages : List Message) : Bool :=
  messages.foldl (fun u m => !m.connected && (m.isHotplug || u)) pending

/-! ## Requests and leases -/

/-- A request to create the lease. -/
def Message.isCreate (m : Message) : Bool :=
  m.opcode == opAcquire && (m.flags &&& acquirePhaseMask) == acquireCreate

/-- An observer of the requests to the composer: the request that waits for its response, the
    connection on which it asked for a lease, whether any exchange was broken, and the connection
    on which the latest lease was granted. -/
structure Track where
  requestId : UInt32 := 0
  creating : Option Fd := none
  broken : Bool := false
  granted : Option Fd := none
  deriving DecidableEq, Repr

/-- What the observer makes of a received message. An exchange is broken by a failed receive, by
    an invalid message, and by a response to another request. -/
def Track.receive (k : Track) (r : Received) : Track :=
  if !r.ok || !r.message.validComposer then { k with creating := none, broken := true }
  else if r.message.isHotplug then k
  else if r.message.requestId != k.requestId then { k with creating := none, broken := true }
  else if r.message.status == statusOk && k.creating.isSome then
    { k with creating := none, granted := k.creating }
  else { k with creating := none }

/-- What a call tells of the exchange. -/
def Track.step (k : Track) : Event → Track
  | ⟨.sendWithFd fd m none, ok⟩ =>
    { k with requestId := m.requestId, creating := if ok && m.isCreate then some fd else none,
             broken := k.broken || !ok }
  | ⟨.recvWithFd _, r⟩ => k.receive r
  | _ => k

/-- The exchange after the calls. -/
def track (log : List Event) : Track := log.foldl Track.step {}

/-! ## Runs of the main loop -/

variable {ω : Type}

/-- One iteration of the main loop from `s` to `t`, with the states between its parts. -/
structure Iteration (env : Env ω) (n : Nat) (s t : Sys ω) where
  entered : Sys ω
  polled : Sys ω
  served : Sys ω
  revents : List Revents
  runs_test : stopRequested.run (sysHandler env) s = (some false, entered)
  runs_poll : runPoll.run (sysHandler env) entered = (some (.ready revents), polled)
  runs_client : (runClient n (revents.getD 0 {})).run (sysHandler env) polled = (some (), served)
  runs_peers : (runPeers n revents).run (sysHandler env) served = (some (), t)

namespace Iteration

variable {env : Env ω} {n : Nat} {s t : Sys ω}

def calls (_ : Iteration env n s t) : List Event := t.log.drop s.log.length

def clientCalls (it : Iteration env n s t) : List Event :=
  it.served.log.drop it.polled.log.length

end Iteration

/-- The request that a client sent: the first message read while it was served. -/
def clientRequest (calls : List Event) : Option Message :=
  calls.findSome? fun
    | ⟨.readFull _, r⟩ => some r.message
    | _ => none

/-- A client request that ends an active session by itself: toggle and disarm. -/
def EndsSession (calls : List Event) : Prop :=
  ∃ request, clientRequest calls = some request ∧
    (request.opcode = opToggle ∨ request.opcode = opDisarm)

/-- A client that does not end the session swallowed no unplug: the composer messages received
    while it was served do not end with the display unplugged. -/
def Iteration.UnplugHeard {env : Env ω} {n : Nat} {s t : Sys ω} (it : Iteration env n s t) : Prop :=
  UnplugConsumed (composerMessages it.clientCalls) → EndsSession it.clientCalls

/-- A client that does not end the session broke no exchange with the composer: while it was served
    no send and no receive failed, no message was invalid, and no response was for another
    request. -/
def Iteration.ExchangeWhole {env : Env ω} {n : Nat} {s t : Sys ω} (it : Iteration env n s t) :
    Prop :=
  (track it.clientCalls).broken = true → EndsSession it.clientCalls

/-- An iteration with its two ends. -/
structure Round (env : Env ω) (n : Nat) where
  before : Sys ω
  after : Sys ω
  iteration : Iteration env n before after

/-- `Run env n rounds s`: the broker started, went through the iterations `rounds`, latest first,
    and is now in the state `s` between two iterations. -/
inductive Run (env : Env ω) (n : Nat) : List (Round env n) → Sys ω → Prop where
  | start {w : ω} {s : Sys ω} :
    runStartup.run (sysHandler env) (Sys.initial w) = (some true, s) → Run env n [] s
  | interrupted {rounds : List (Round env n)} {s entered t : Sys ω} : Run env n rounds s →
    stopRequested.run (sysHandler env) s = (some false, entered) →
    runPoll.run (sysHandler env) entered = (some .interrupted, t) → Run env n rounds t
  | iteration {rounds : List (Round env n)} {s t : Sys ω} (it : Iteration env n s t) :
    Run env n rounds s → Run env n (⟨s, t, it⟩ :: rounds) t

end HdmiLos
