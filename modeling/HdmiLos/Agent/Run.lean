import HdmiLos.Agent.Session

/-!
# The agent's request loop

`run_agent` registers with the broker and then serves its requests one after the other. Between two
requests it notices when Xorg exits, relays trace records, and reports failures unasked.
-/

namespace HdmiLos.Agent

open Interaction

/-- A reply with the request's id. -/
def responseFor (request : Message) (opcode : UInt16) (status : Int) (text : String) : Message :=
  { magic := hdmiLosMagic, version := hdmiLosBrokerVersion, opcode := opcode,
    requestId := request.requestId, status := status,
    state := if status == statusOk then stateAgentReady else stateError, detail := detailText text }

/-! ## Requests -/

/-- The reply to `AGENT_PREPARE`. -/
def prepareReply (request : Message) (ok : Bool) : Message :=
  if ok then responseFor request opAgentReady statusOk "input bridge and Xorg runtime prepared"
  else responseFor request opAgentReady errAgent "input bridge preparation failed"

/-- The reply to `AGENT_START`. -/
def startReply (request : Message) (a : Agent) (ok : Bool) : Message :=
  if ok then
    responseFor request opAgentReady statusOk
      (if a.startLxde then "Xorg and LXDE ready on DP-1" else "Xorg ready on DP-1; session disabled")
  else
    responseFor request opAgentFailed errAgent
      (if a.scanoutFailure.isEmpty then "Xorg startup verification failed" else a.scanoutFailure)

/-- A request that failed is cleaned up after. -/
def cleanupFailed (n : Nat) (ok : Bool) : AgentProg Unit :=
  if ok then pure () else cleanupSession n

/-- Serves `AGENT_PREPARE`. -/
def servePrepare (n : Nat) (request : Message) : AgentProg Unit := do
  let ok ← prepareSession n request.flags
  cleanupFailed n ok
  assign fun a => { a with probeMode := if ok then request.flags else probeNone }
  let _ ← writeBroker (prepareReply request ok)

/-- Start Xorg if the request carries a lease and names the prepared mode. -/
def startRequested (n : Nat) (request : Message) (lease : Option Fd) : AgentProg Bool := do
  let a ← getAgent
  match lease with
  | none => pure false
  | some lease =>
    if request.flags == a.probeMode &&
        (request.flags == probeXorgLegacy || request.flags == probeXorgAtomic) then
      startXorg n lease request.connectorId request.crtcId
    else pure false

/-- Serves `AGENT_START`. -/
def serveStart (n : Nat) (request : Message) (lease : Option Fd) : AgentProg Unit := do
  let ok ← startRequested n request lease
  cleanupFailed n ok
  let a ← getAgent
  let _ ← writeBroker (startReply request a ok)

/-- Serves `AGENT_STOP`. -/
def serveStop (n : Nat) (request : Message) (lease : Option Fd) : AgentProg Unit := do
  closeIfOpen lease
  cleanupSession n
  assign fun a => { a with probeMode := probeNone }
  let _ ← writeBroker (responseFor request opAgentReady statusOk
    "Xorg stopped and input returned to Android")

/-- Serves any other request. -/
def serveUnknown (request : Message) (lease : Option Fd) : AgentProg Unit := do
  closeIfOpen lease
  let _ ← writeBroker (responseFor request opAgentFailed errProtocol "unknown broker request")

/-- Serves a request by its opcode. -/
def serveRequest (n : Nat) (request : Message) (lease : Option Fd) : AgentProg Unit :=
  if request.opcode == opAgentPrepare then servePrepare n request
  else if request.opcode == opAgentStart then serveStart n request lease
  else if request.opcode == opAgentStop then serveStop n request lease
  else serveUnknown request lease

/-! ## Failures that are reported unasked -/

/-- The session is cleaned up and the broker is told. -/
def reportFailure (n : Nat) (registration : Message) (text : String) : AgentProg Unit := do
  cleanupSession n
  let _ ← writeBroker (responseFor registration opAgentFailed errAgent text)

/-- Reports an Xorg that has exited. -/
def reapXorg (n : Nat) (registration : Message) : AgentProg Unit := do
  let a ← getAgent
  match a.xorg with
  | none => pure ()
  | some pid => do
    match ← waitNoHang pid with
    | .exited _ => do
      assign (setPid .xorg none)
      reportFailure n registration "Xorg exited unexpectedly"
    | _ => pure ()

/-- A trace record arrived between two requests. -/
def relayPolled (n : Nat) (registration : Message) (revents : Revents) : AgentProg Unit := do
  let a ← getAgent
  if a.trace.isSome && (revents.input || revents.error) then do
    if ← relayTraceRecord 0 then pure ()
    else reportFailure n registration "DRM tracer relay failed closed"
  else pure ()

/-- A commit of a running session failed. -/
def reportScanout (n : Nat) (registration : Message) : AgentProg Unit := do
  let a ← getAgent
  if a.xorg.isSome && a.scanoutFailed then
    reportFailure n registration
      (if a.scanoutFailure.isEmpty then "a later external scanout commit failed"
        else a.scanoutFailure)
  else pure ()

/-! ## The loop -/

/-- Read and serve a request; false if the connection is lost. -/
def readRequest (n : Nat) : AgentProg (Unit ⊕ Unit) := do
  let (ok, request, lease) ← recvMessage .request
  if ok then do
    serveRequest n request lease
    pure (Sum.inl ())
  else pure (Sum.inr ())

/-- A round of the loop with the readiness of the broker and of the trace socket. -/
def agentReady (n : Nat) (registration : Message) (broker trace : Revents) :
    AgentProg (Unit ⊕ Unit) :=
  if broker.error then pure (Sum.inr ())
  else do
    reapXorg n registration
    relayPolled n registration trace
    reportScanout n registration
    if broker.input then readRequest n else pure (Sum.inl ())

/-- One round of `while (!g_stop)`. -/
def agentRound (n : Nat) (registration : Message) (_ : Unit) : AgentProg (Unit ⊕ Unit) := do
  if ← call .stopRequested then pure (Sum.inr ())
  else do
    let a ← getAgent
    match ← call (.pollPeers a.trace) with
    | .interrupted => pure (Sum.inl ())
    | .failed => pure (Sum.inr ())
    | .ready revents => agentReady n registration (revents.getD 0 {}) (revents.getD 1 {})

/-- The message that registers the agent. -/
def registrationMessage (id : UInt32) (noTimeout : Bool) : Message :=
  { magic := hdmiLosMagic, version := hdmiLosBrokerVersion, opcode := opAgentRegister,
    requestId := id, flags := if noTimeout then flagContinuous else 0 }

/-- The broker accepts the registration. -/
def registered (a : Agent) (ok : Bool) (reply : Message) : Bool :=
  ok && reply.status == statusOk && (!a.noTimeout || hasFlag reply.flags flagContinuous)

/-- `run_agent` of the process `id`: the exit status. -/
def runAgent (n : Nat) (id : UInt32) : AgentProg Int := do
  if ← call .connectBroker then do
    let a ← getAgent
    let registration := registrationMessage id a.noTimeout
    if ← writeBroker registration then do
      let (ok, reply, _) ← recvMessage .registration
      if registered a ok reply then do
        Prog.loop (agentRound n registration) n ()
        cleanupSession n
        pure 0
      else pure 1
    else pure 1
  else pure 1

end HdmiLos.Agent
