import HdmiLos.Broker.Session

/-!
# Clients and the main loop

`AcceptClient` serves one connection, and `Run` is the poll loop around everything. One iteration
of the loop is split where the source tests a new condition, so that a run can be observed between
the parts.
-/

namespace HdmiLos

open Interaction

/-! ## Status -/

/-- The flags that a status message reports. -/
def Broker.statusFlags (b : Broker) : UInt32 :=
  (b.composerFlags &&& (flagConnected ||| flagLeaseReady ||| flagActiveMode))
    ||| (if b.armed then flagArmed else 0)
    ||| (if b.replugRequired then flagReplugRequired else 0)

/-- The seconds left until the deadline, rounded up, and zero when it has passed. -/
def remainingSeconds (deadline now : Int) : UInt32 :=
  UInt32.ofNat (max 0 ((deadline - now + 999).tdiv 1000)).toNat

/-- The part of `Status` that describes the owner of the display. -/
def statusOwner (b : Broker) (status : Message) : BrokerProg Message :=
  if b.probing then do
    let now ← monotonicMs
    pure { status with state := stateProbing, remainingSeconds := remainingSeconds b.deadlineMs now,
                       detail := detailText b.stateDetail }
  else if b.active then
    if b.sessionContinuous then
      pure { status with state := stateLeased, flags := status.flags ||| flagContinuous,
                         detail := detailText b.stateDetail }
    else do
      let now ← monotonicMs
      pure { status with state := stateLeased,
                         remainingSeconds := remainingSeconds b.deadlineMs now,
                         detail := detailText b.stateDetail }
  else if b.armed then
    pure { status with state := if b.requestedModeMatches then stateArmed else stateWaiting,
                       detail := detailText b.stateDetail }
  else if b.agentFd.isSome then do
    let status := { status with
      state := stateAgentReady
      flags := if b.agentContinuous then status.flags ||| flagContinuous else status.flags }
    if ← diagnosticOnly then
      pure { status with detail := "diagnostic build ready; use a root probe command" }
    else if b.agentContinuous then
      pure { status with detail := "continuous chroot agent ready; Android owns display" }
    else pure { status with detail := "bounded chroot agent ready; Android owns display" }
  else pure { status with state := stateAndroid,
                          detail := "Android owns display; chroot agent absent" }

/-- `Broker::Status`. -/
def status (requestId : UInt32) : BrokerProg Message := do
  let message ← makeMessage (opStatus ||| opResponse)
  let b ← getBroker
  let ok ← gatesOpen
  let message := { message with
    requestId := requestId
    status := if ok then statusOk else errIncompatible
    requestedWidth := b.requestedWidth
    requestedHeight := b.requestedHeight
    requestedRefreshMillihz := b.requestedRefreshMillihz
    activeWidth := b.activeWidth
    activeHeight := b.activeHeight
    activeRefreshMillihz := b.activeRefreshMillihz
    flags := b.statusFlags }
  if ← compatible then
    if ← diagnosticDumpReady then statusOwner b message
    else pure { message with state := stateUnavailable,
                             detail := "diagnostic display recovery dump gate is closed" }
  else pure { message with state := stateUnavailable,
                           detail := "incompatible or unverified Lineage build" }

/-! ## Clients -/

/-- `AcceptClient` for the registration of an agent by root. -/
def registerAgent (client : Fd) (request : Message) : BrokerProg Unit := do
  let b ← getBroker
  if request.flags &&& ~~~flagContinuous != 0 then do
    let rejected ← status request.requestId
    let _ ← writeFull client { rejected with status := errProtocol,
                                             detail := "unknown agent registration flag" }
    closeFd client
  else if b.active || b.probing || b.agentFd.isSome then do
    let busy ← status request.requestId
    let _ ← writeFull client { busy with status := errBusy }
    closeFd client
  else do
    update fun b => { b with agentFd := some client,
                             agentContinuous := hasFlag request.flags flagContinuous }
    let ready ← status request.requestId
    let _ ← writeFull client { ready with status := statusOk, state := stateAgentReady }

/-- The response to a request that was carried out with the given status. -/
def respond (request : Message) (result : Int) (text : String) (keepEmpty : Bool) :
    BrokerProg Message := do
  let response ← status request.requestId
  let response := { response with status := result }
  if text.isEmpty && !keepEmpty then pure response
  else pure { response with detail := detailText text }

/-- Serves `TOGGLE`. -/
def serveToggle (n : Nat) (request : Message) (response : Message) : BrokerProg Message := do
  let b ← getBroker
  if b.active then do
    release n "Quick Settings tile requested restore" true
    status request.requestId
  else if b.armed then do
    disarm "HDMI Xorg disarmed; Android preferred mode restored"
    status request.requestId
  else if ← diagnosticOnly then
    pure { response with status := errState,
                         detail := "diagnostic build: use a root probe command" }
  else do
    let (result, text) ← arm n request
    respond request result text false

/-- The probe that a request asks for. -/
def probe (n : Nat) (request : Message) : BrokerProg (Int × String) :=
  if request.flags == probeLeaseHold then probeLease n
  else if request.flags == probeXorgLegacy || request.flags == probeXorgAtomic then
    start n request.flags
  else pure (errProtocol, "unknown diagnostic probe mode")

/-- Serves `PROBE`, for root only. -/
def serveProbe (n : Nat) (root : Bool) (request : Message) (response : Message) :
    BrokerProg Message :=
  if !root then
    pure { response with status := errPermission, detail := "diagnostic probes require root" }
  else do
    let (result, text) ← probe n request
    respond request result text false

/-- End the session, or the armed request. -/
def stopOrDisarm (n : Nat) : BrokerProg Unit := do
  let b ← getBroker
  if b.active then release n "HDMI Xorg stopped and disarmed" true
  else disarm "HDMI Xorg disarmed; Android preferred mode restored"

/-- Serves `DISARM`. -/
def serveDisarm (n : Nat) (request : Message) : BrokerProg Message := do
  stopOrDisarm n
  status request.requestId

/-- The response of `AcceptClient` to an authorised request, after the composer was asked. -/
def serveRequest (n : Nat) (root : Bool) (request : Message) : BrokerProg Message := do
  let response ← status request.requestId
  if request.opcode == opToggle then serveToggle n request response
  else if request.opcode == opSetMode then do
    let (result, text) ← setMode request
    respond request result text true
  else if request.opcode == opArm then do
    let (result, text) ← arm n request
    respond request result text true
  else if request.opcode == opDisarm then serveDisarm n request
  else if request.opcode == opProbe then serveProbe n root request response
  else if request.opcode != opStatus && request.opcode != opPing then
    pure { response with status := errProtocol, detail := "unsupported broker command" }
  else pure response

/-- `AcceptClient` for an authorised client. -/
def serveClient (n : Nat) (client : Fd) (root : Bool) (request : Message) : BrokerProg Unit :=
  if request.opcode == opAgentRegister && root then registerAgent client request
  else do
    -- the result of this request is ignored
    let _ ← composerAsk n opStatus
    let response ← serveRequest n root request
    let _ ← writeFull client response
    closeFd client

/-- `AcceptClient` for a valid request of the peer with the given uid. -/
def answerClient (n : Nat) (client : Fd) (uid : UInt32) (request : Message) : BrokerProg Unit := do
  let tile := tileUid (← packagesList)
  let isTile := tile != noUid && uid == tile
  if uid != 0 && !isTile then do
    let denied ← status request.requestId
    let _ ← writeFull client { denied with status := errPermission,
                                           detail := "peer uid is not authorized" }
    closeFd client
  else serveClient n client (uid == 0) request

/-- `AcceptClient` behind `accept4`. -/
def acceptedClient (n : Nat) (client : Fd) : BrokerProg Unit := do
  match ← peerUid client with
  | none => closeFd client
  | some uid => do
    let received ← readFull client
    if !received.ok || !received.message.valid then closeFd client
    else answerClient n client uid received.message

/-- Accepts and serves a client. -/
def acceptClient (n : Nat) : BrokerProg Unit := do
  match ← acceptConnection with
  | none => pure ()
  | some client => acceptedClient n client

/-! ## The main loop -/

/-- Ends an active session. -/
def releaseIfActive (n : Nat) (reason : String) (tellComposer : Bool) : BrokerProg Unit := do
  let b ← getBroker
  if b.active then release n reason tellComposer else pure ()

/-- The composer's part of an iteration, for a hotplug notification. -/
def runHotplug (n : Nat) (hotplug : ComposerHotplug) : BrokerProg Unit := do
  let b ← getBroker
  match hotplug with
  | .invalid =>
    if b.active then release n "invalid composer hotplug event" true
    else if b.armed then disarm "invalid composer hotplug event"
    else pure ()
  | .disconnected =>
    if b.active then release n "composer hotplug/disconnect event" true
    else if b.armed then preserveArmAcrossDisconnect
    else pure ()
  | .connected => pure ()

/-- The composer's events. -/
def runComposer (n : Nat) (revents : Revents) : BrokerProg Unit := do
  let b ← getBroker
  match b.composerFd with
  | none => pure ()
  | some fd =>
    if revents.error then do
      closeComposer
      releaseIfActive n "composer disconnected" false
    else if revents.input then do
      let hotplug ← handleComposerReadable fd
      runHotplug n hotplug
    else pure ()

/-- Read one event of the agent: false if it failed or reported a failure. -/
def runAgentEvent (fd : Fd) : BrokerProg Bool := do
  let received ← readFull fd
  if !received.ok || !received.message.valid then pure false
  else handleAgentEvent fd received.message

/-- The agent's messages. -/
def runAgent (n : Nat) (revents : Revents) : BrokerProg Unit := do
  let b ← getBroker
  match b.agentFd with
  | none => pure ()
  | some fd =>
    if revents.error then do
      closeFd fd
      update fun b => { b with agentFd := none, agentContinuous := false }
      releaseIfActive n "chroot agent disconnected" true
    else if revents.input then do
      if ← runAgentEvent fd then pure ()
      else releaseIfActive n "Xorg agent reported failure" true
    else pure ()

/-- The volume keys end a session. -/
def runVolumes (n : Nat) (down up : Revents) : BrokerProg Unit := do
  let b ← getBroker
  if b.active then do
    if ← volumesUpdate n down up then release n "both-volume escape or volume input loss" true
    else pure ()
  else pure ()

/-- The renewal of the composer's watchdog was granted. -/
def Reply.renewed (reply : Reply) : Bool :=
  reply.ok && reply.message.status == statusOk && reply.message.state == stateLeased &&
    hasFlag reply.message.flags flagContinuous

/-- Renews a continuous lease. -/
def runHeartbeat (n : Nat) : BrokerProg Unit := do
  let b ← getBroker
  if b.active && b.sessionContinuous then do
    let now ← monotonicMs
    if now ≥ b.composerHeartbeatMs then do
      let reply ← composerRequest n opPing {} false flagContinuous
      if reply.renewed then armHeartbeat
      else release n "continuous composer watchdog renewal failed" true
    else pure ()
  else pure ()

/-- Ends a session at its deadline. -/
def runDeadline (n : Nat) : BrokerProg Unit := do
  let b ← getBroker
  if b.active then do
    if ← deadlineReached then release n "mandatory 60 second timeout" true else pure ()
  else pure ()

/-- Advances an armed request. -/
def runArmed (n : Nat) : BrokerProg Unit := do
  let b ← getBroker
  if b.armed && !b.active then advanceArmed n else pure ()

/-- What an iteration does after `AcceptClient`. -/
def runPeers (n : Nat) (revents : List Revents) : BrokerProg Unit := do
  runComposer n (revents.getD 1 {})
  runAgent n (revents.getD 2 {})
  runVolumes n (revents.getD 3 {}) (revents.getD 4 {})
  runHeartbeat n
  runDeadline n
  runArmed n

def runPoll : BrokerProg PollAnswer := do
  let b ← getBroker
  pollFds [b.listenFd, b.composerFd, b.agentFd, b.volumes.down, b.volumes.up]
    (if b.active || b.armed then 100 else 1000)

/-- A client that has connected. -/
def runClient (n : Nat) (listen : Revents) : BrokerProg Unit :=
  if listen.input then acceptClient n else pure ()

/-- One iteration of the main loop: true if the loop goes on. -/
def runIteration (n : Nat) : BrokerProg Bool := do
  match ← runPoll with
  | .interrupted => pure true
  | .failed => pure false
  | .ready revents => do
    runClient n (revents.getD 0 {})
    runPeers n revents
    pure true

/-- An iteration, unless a stop is requested. -/
def runRound (n : Nat) (_ : Unit) : BrokerProg (Unit ⊕ Unit) := do
  if ← stopRequested then pure (Sum.inr ())
  else do
    if ← runIteration n then pure (Sum.inl ()) else pure (Sum.inr ())

def disarmIfArmed (reason : String) : BrokerProg Unit := do
  let b ← getBroker
  if b.armed then disarm reason else pure ()

/-- What the broker does as it stops. -/
def runStop (n : Nat) : BrokerProg Unit := do
  release n "broker stopping" true
  disarmIfArmed "broker stopping"
  let b ← getBroker
  closeIfOpen b.agentFd
  closeIfOpen b.composerFd
  closeIfOpen b.listenFd

/-- What precedes the loop. -/
def runStartup : BrokerProg Bool := do
  loadConfiguredMode
  let _ ← recoverPreferredMode
  let listen ← opened (← listenAbstract)
  update fun b => { b with listenFd := listen }
  pure listen.isSome

/-- `Run`: the exit status. -/
def run (n : Nat) : BrokerProg Int := do
  if ← runStartup then do
    Prog.loop (runRound n) n ()
    runStop n
    pure 0
  else pure 1

end HdmiLos
