import HdmiLos.Composer.Takeover
import Mathlib.Logic.Relation

/-!
# The lease server of the composer

`HdmiLeaseServer` runs in a thread of its own: it serves one broker, forwards hotplug notifications
to it, and releases the lease when its deadline has passed or the broker is gone. The server is a
process of its own; its calls to the session run the functions of `HWCSession`, and between any two
of its calls other threads may use the session as well.
-/

namespace HdmiLos.Composer

open Interaction

/-! ## Calls -/

/-- The places where the server reads the clock: for the timeout of `poll`, for the test of the
    deadline, and after each of the three events that set the deadline. -/
inductive ClockSite where
  | timeout
  | check
  | acquired
  | renewed
  | disconnected
  deriving DecidableEq, Repr

/-- What `poll` reports. Nothing is reported if it timed out or failed. -/
structure Readiness where
  listen : Bool := false
  wake : Bool := false
  clientIn : Bool := false
  clientHup : Bool := false
  deriving DecidableEq, Repr

/-- The calls of the server. The last four are those of `HdmiLeaseController` and the callback for
    pending hotplugs. -/
inductive ServerCall where
  | running
  | bootTimeMs (site : ClockSite)
  | poll (client : Option Fd) (timeout : Nat)
  | readWake
  | takeHotplug
  | hotplugConnected
  | accept
  | peerIsRoot (fd : Fd)
  | recv (fd : Fd)
  | send (fd : Fd) (message : Message) (lease : Option Fd)
  | shutdown (fd : Fd)
  | close (fd : Fd)
  | closeLease (lease : Fd)
  | acquire (phase : UInt32) (response : Message)
  | release (reason : String)
  | status (response : Message)
  | processPendingHotplug

/-- The answers. `recv` answers with a message of the full size or not at all, and a call that is
    interrupted is repeated. -/
abbrev ServerCall.Ans : ServerCall → Type
  | running => Bool
  | bootTimeMs _ => Nat
  | poll _ _ => Readiness
  | readWake => Unit
  | takeHotplug => Bool
  | hotplugConnected => Bool
  | accept => Bool
  | peerIsRoot _ => Bool
  | recv _ => Option Message
  | send _ _ _ => Bool
  | shutdown _ => Unit
  | close _ => Unit
  | closeLease _ => Unit
  | acquire _ _ => Acquired
  | release _ => Int
  | status _ => Message
  | processPendingHotplug => Unit

/-- The variables of the server. `deadlineMs` is 0 if no deadline is set. -/
structure Server where
  clientFd : Option Fd := none
  deadlineMs : Nat := 0
  continuousLease : Bool := false
  deriving DecidableEq, Repr

abbrev ServerProg := Machine Server ServerCall.Ans

/-- The server and its surroundings. -/
abbrev ServerSys (W : Type) := Process Server ServerCall.Ans W

abbrev serverHandler {W : Type} (answer : Handler ServerCall ServerCall.Ans W) :=
  processHandler (V := Server) answer

def getServer : ServerProg Server :=
  Prog.perform Act.get

def setServer (f : Server → Server) : ServerProg Unit :=
  Prog.perform (Act.modify f)

def ask (c : ServerCall) : ServerProg c.Ans :=
  Prog.perform (Act.io c)

/-! ## Requests -/

/-- `kComposerFailsafeSeconds`, in milliseconds. -/
def composerFailsafeMs : Nat := 65 * 1000

/-- The time that the broker has to clean up after a disconnect. -/
def disconnectBackstopMs : Nat := 5000

/-- `FillError`. -/
def fillError (response : Message) (status : Int) (detail : String) : Message :=
  { response with status := status, state := stateError, detail := detailText detail }

/-- The deadline is set when a phase has been acquired or the lease is renewed, and after a
    disconnect. -/
def armDeadline (site : ClockSite) (ms : Nat) : ServerProg Unit := do
  let now ← ask (.bootTimeMs site)
  setServer fun s => { s with deadlineMs := now + ms }

/-- `ReleaseHdmiLease`, `ProcessPendingHotplug`, and no deadline any more. -/
def releaseAndDisarm (reason : String) : ServerProg Int := do
  let result ← ask (.release reason)
  ask .processPendingHotplug
  setServer fun s => { s with deadlineMs := 0, continuousLease := false }
  pure result

/-- Serves `PING`. -/
def servePing (request response : Message) : ServerProg Message := do
  let response ← ask (.status response)
  if request.flags = flagContinuous then
    let s ← getServer
    if !s.continuousLease ∨ response.state ≠ stateLeased then
      pure (fillError response errState "continuous lease is not active")
    else do
      armDeadline .renewed composerFailsafeMs
      pure { response with flags := response.flags ||| flagContinuous }
  else if request.flags ≠ 0 then pure (fillError response errProtocol "unknown ping flag")
  else pure response

/-- `AcquireHdmiLease` for the server, and the deadline if it succeeded. -/
def acquirePhase (phase : UInt32) (response : Message) : ServerProg (Message × Option Fd) := do
  let acquired ← ask (.acquire phase response)
  let response := { acquired.status with status := acquired.result }
  if response.status = statusOk then
    armDeadline .acquired composerFailsafeMs
    pure (response, acquired.leaseFd)
  else pure (response, acquired.leaseFd)

/-- The phase that an acquire asks for. -/
def requestedPhase (request : Message) : UInt32 :=
  request.flags &&& acquirePhaseMask

/-- The bits of an acquire that are neither its phase nor its timeout policy. -/
def unknownAcquireFlags (request : Message) : UInt32 :=
  request.flags &&& ~~~(acquirePhaseMask ||| flagContinuous)

/-- `HDMI_LOS_OP_ACQUIRE`. The timeout policy is stored before the first phase is asked for. -/
def serveAcquire (request response : Message) : ServerProg (Message × Option Fd) := do
  if unknownAcquireFlags request ≠ 0 then
    pure (fillError response errProtocol "unknown acquire flag", none)
  else do
    let phase := requestedPhase request
    let continuous := hasFlag request.flags flagContinuous
    if phase = acquirePrepare then
      setServer fun s => { s with continuousLease := continuous }
      acquirePhase phase response
    else if continuous ≠ (← getServer).continuousLease then
      pure (fillError response errProtocol "acquire timeout policy changed", none)
    else acquirePhase phase response

/-- `HDMI_LOS_OP_RELEASE`. The result of the release is overwritten by the status. -/
def serveRelease (response : Message) : ServerProg Message := do
  let result ← releaseAndDisarm "broker request"
  ask (.status { response with status := result })

/-- Serves a request by its opcode. -/
def serveOpcode (request response : Message) : ServerProg (Message × Option Fd) := do
  if request.opcode = opStatus then pure (← ask (.status response), none)
  else if request.opcode = opPing then pure (← servePing request response, none)
  else if request.opcode = opAcquire then serveAcquire request response
  else if request.opcode = opRelease then pure (← serveRelease response, none)
  else pure (fillError response errProtocol "unknown opcode", none)

/-- The response to fill. -/
def responseTo (request : Message) : Message :=
  { magic := hdmiLosMagic
    version := hdmiLosVersion
    opcode := request.opcode ||| opResponse
    requestId := request.requestId }

/-- Closes a lease that was created. -/
def closeLease (lease : Option Fd) : ServerProg Unit :=
  match lease with
  | some fd => ask (.closeLease fd)
  | none => pure ()

/-- Send the response. An acquire that succeeded is undone if its response is not delivered. -/
def deliver (client : Fd) (request response : Message) (lease : Option Fd) : ServerProg Bool := do
  let delivered ← ask (.send client response lease)
  closeLease lease
  if delivered = false ∧ request.opcode = opAcquire ∧ response.status = statusOk then
    let _ ← releaseAndDisarm "lease fd delivery failed"
    pure delivered
  else pure delivered

/-- `HandleRequest`. -/
def handleRequest (client : Fd) (request : Message) : ServerProg Bool := do
  let response := responseTo request
  if request.magic ≠ hdmiLosMagic ∨ request.version ≠ hdmiLosVersion then
    ask (.send client (fillError response errProtocol "protocol mismatch") none)
  else do
    let (response, lease) ← serveOpcode request response
    deliver client request response lease

/-! ## The loop -/

/-- At most a second, or until the deadline. -/
def pollTimeout : ServerProg Nat := do
  let s ← getServer
  if s.deadlineMs > 0 then
    let now ← ask (.bootTimeMs .timeout)
    pure (min 1000 (s.deadlineMs - now))
  else pure 1000

/-- `poll` of all descriptors. -/
def pollServer : ServerProg Readiness := do
  let timeout ← pollTimeout
  let client := (← getServer).clientFd
  let ready ← ask (.poll client timeout)
  if client.isSome then pure ready
  else pure { ready with clientIn := false, clientHup := false }

/-- The event before its flag is set. -/
def hotplugEvent : Message :=
  { magic := hdmiLosMagic, version := hdmiLosVersion, opcode := opHotplug }

/-- The client is closed without anything else. -/
def closeClient (client : Fd) : ServerProg Unit := do
  ask (.shutdown client)
  ask (.close client)
  setServer fun s => { s with clientFd := none }

/-- Send the event to the broker, which is closed if that fails. -/
def sendHotplug (event : Message) : ServerProg Unit := do
  match (← getServer).clientFd with
  | none => pure ()
  | some client =>
    if ← ask (.send client event none) then pure () else closeClient client

/-- A notification is forwarded, and a disconnect shortens the deadline. -/
def notifyBroker (connected : Bool) : ServerProg Unit := do
  let event ← ask (.status hotplugEvent)
  let event := { event with
    flags := if connected then event.flags ||| flagConnected else event.flags &&& ~~~flagConnected }
  sendHotplug event
  if connected = false ∧ event.state ≠ stateAndroid then
    armDeadline .disconnected disconnectBackstopMs
    setServer fun s => { s with continuousLease := false }
  else pure ()

/-- The thread was woken. The result is whether it goes on. -/
def handleWake : ServerProg Bool := do
  ask .readWake
  if ← ask .running then
    if ← ask .takeHotplug then
      notifyBroker (← ask .hotplugConnected)
      pure true
    else pure true
  else pure false

/-- The test of the deadline. -/
def checkDeadline : ServerProg Unit := do
  let s ← getServer
  if s.deadlineMs > 0 then
    let now ← ask (.bootTimeMs .check)
    if now ≥ s.deadlineMs then
      let _ ← releaseAndDisarm "composer 65 second failsafe"
      pure ()
    else pure ()
  else pure ()

/-- A new connection becomes the client if it is root's and there is none. -/
def acceptClient : ServerProg Unit := do
  if ← ask .accept then
    let fd ← Prog.perform Act.fresh
    let root ← ask (.peerIsRoot fd)
    if root = false ∨ (← getServer).clientFd.isSome then ask (.close fd)
    else setServer fun s => { s with clientFd := some fd }
  else pure ()

/-- The broker is gone. -/
def dropClient (client : Fd) : ServerProg Unit := do
  closeClient client
  let _ ← releaseAndDisarm "broker disconnected"
  pure ()

/-- One request is received and served. -/
def readClient : ServerProg Unit := do
  match (← getServer).clientFd with
  | none => pure ()
  | some client =>
    match ← ask (.recv client) with
    | none => dropClient client
    | some request => if ← handleRequest client request then pure () else dropClient client

/-- An error or a hangup of the client. -/
def hangupClient : ServerProg Unit := do
  match (← getServer).clientFd with
  | none => pure ()
  | some client => dropClient client

/-- Do something if the bit is set. -/
def whenSet (bit : Bool) (p : ServerProg Unit) : ServerProg Unit :=
  if bit then p else pure ()

/-- What follows the wake-up in an iteration. -/
def afterWake (ready : Readiness) : ServerProg Unit := do
  checkDeadline
  whenSet ready.listen acceptClient
  whenSet ready.clientIn readClient
  whenSet ready.clientHup hangupClient

/-- The body of the loop. The result is whether the loop goes on. -/
def serverIteration : ServerProg Bool := do
  if ← ask .running then
    let ready ← pollServer
    if ← ask .running then
      if ← (if ready.wake then handleWake else pure true) then
        afterWake ready
        pure true
      else pure false
    else pure false
  else pure false

/-- What follows the loop. The last hunk of patch 0010 for this file ends, by its line counts, before
    the line that would process the pending hotplugs here: the patched source does not have it. -/
def stopServer : ServerProg Unit := do
  match (← getServer).clientFd with
  | some client => ask (.close client)
  | none => pure ()
  let _ ← ask (.release "composer lease server stopped")
  pure ()

/-- `ThreadMain`. -/
def threadMain (fuel : Nat) : ServerProg Unit := do
  Prog.loop (fun _ : Unit => do
    if ← serverIteration then pure (Sum.inl ()) else pure (Sum.inr ())) fuel ()
  stopServer

/-! ## The server in the composer -/

variable {ω : Type}

/-- Another thread uses the session. Only the server acquires. -/
def OtherStep (env : Env ω) (s t : Sys ω) : Prop :=
  ∃ (e : Event) (r : Int), (∀ phase response, e ≠ .acquire phase response) ∧ e.Possible s.vars ∧
    e.prog.run (sysHandler env) s = (some r, t)

/-- Other threads use the session any number of times. -/
def Others (env : Env ω) : Sys ω → Sys ω → Prop :=
  Relation.ReflTransGen (OtherStep env)

/-- The function of the session that a call of the server runs. -/
def ServerCall.controller : (c : ServerCall) → Option (SessionProg c.Ans)
  | acquire phase response => some (acquireHdmiLease phase response)
  | release reason => some (releaseHdmiLease reason)
  | status response => some (getHdmiLeaseStatus response)
  | processPendingHotplug => some processPendingHdmiHotplug
  | _ => none

/-- The composer around the server: it answers the server's calls and holds the session. A call of
    the controller runs the session's function, and other threads use the session before and after
    any call. -/
structure Host (env : Env ω) where
  World : Type
  answer : Handler ServerCall ServerCall.Ans World
  session : World → Sys ω
  outside : ∀ c w a w', c.controller = none → answer c w = some (a, w') →
    Others env (session w) (session w')
  inside : ∀ c p w a w', c.controller = some p → answer c w = some (a, w') →
    ∃ u v, Others env (session w) u ∧ p.run (sysHandler env) u = (some a, v) ∧
      Others env v (session w')

variable {env : Env ω}

abbrev Host.Sys (host : Host env) := ServerSys host.World

/-- The session behind the server. -/
def Host.sessionOf (host : Host env) (s : host.Sys) : Session :=
  (host.session s.world).vars

/-- The calls made since. -/
def Host.since (host : Host env) (s t : host.Sys) : List (Answered ServerCall.Ans) :=
  t.log.drop s.log.length

/-- The states at the boundaries of the loop. Every iteration satisfies `P`. -/
inductive Host.Reaches (host : Host env) (P : host.Sys → host.Sys → Prop) : host.Sys → Prop where
  | start {s : host.Sys} (hs : s.vars = {}) (hlog : s.log = [])
    (hsession : (host.sessionOf s).Initial) : Host.Reaches host P s
  | step {s t : host.Sys} (h : Host.Reaches host P s)
    (run : serverIteration.run (serverHandler host.answer) s = (some true, t)) (kept : P s t) :
    Host.Reaches host P t

end HdmiLos.Composer
