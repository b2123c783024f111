import HdmiLos.Agent.Basic
import HdmiLos.Broker.Text

/-!
# The agent's relay and sessions

The relay forwards one trace record at a time and waits for the broker to acknowledge it before it
acknowledges it to Xorg. `prepare_session`, `start_xorg` and `cleanup_session` are the three things
a request can ask for. Every loop takes the fuel `n`.
-/

namespace HdmiLos.Agent

open Interaction

/-! ## The trace relay -/

/-- The checks on a record from the tracer. -/
def validTraceRecord (record : TraceRecord) : Bool :=
  record.magic == traceMagic && record.version == traceVersion &&
    traceLoaded ≤ record.phase && record.phase ≤ traceAfter

/-- A record that starts the commit which is to be confirmed. -/
def beginsScanout (a : Agent) (record : TraceRecord) : Bool :=
  record.phase == traceBefore && record.argument0 == a.expectedCrtc.toUInt64 &&
    record.argument1 != 0 && record.argument3 != 0 &&
    (a.scanoutSequence == 0 || a.scanoutConfirmed)

/-- Why the first commit failed. -/
def scanoutFailureText (record : TraceRecord) : String :=
  if record.result == 0 then "Xorg enabled the expected CRTC without the leased connector"
  else "Xorg's first external scanout commit failed errno=" ++ toString record.error

/-- What a record says of the first commit. -/
def observeScanoutRecord (record : TraceRecord) (a : Agent) : Agent :=
  if a.expectedCrtc == 0 || record.request != drmModeSetCrtc then a
  else if beginsScanout a record then
    { a with scanoutSequence := record.sequence, scanoutFb := record.argument1.toUInt32,
             scanoutConnectorSeen := false }
  else if record.sequence != a.scanoutSequence then a
  else if record.phase == traceDetail && record.name == "SETCRTC_CONNECTOR" &&
      record.argument2 == a.expectedConnector.toUInt64 then
    { a with scanoutConnectorSeen := true }
  else if record.phase == traceAfter then
    if record.result == 0 && a.scanoutConnectorSeen then { a with scanoutConfirmed := true }
    else { a with scanoutFailed := true, scanoutFailure := scanoutFailureText record }
  else a

/-- At most `width` characters of a text, as in `%.48s`. -/
def clipped (width : Nat) (text : String) : String :=
  String.ofList (text.toList.take width)

/-- The letter of a phase that is not the last. -/
def phaseLetter (phase : UInt16) : String :=
  if phase == traceLoaded then "L" else if phase == traceDetail then "D" else "B"

/-- The text for a record. -/
def progressText (record : TraceRecord) : String :=
  if record.phase == traceAfter then
    "drm A #" ++ toString record.sequence.toNat ++ " r=" ++ toString record.result ++ " e=" ++
      toString record.error ++ " " ++ clipped 44 record.detail
  else
    "drm " ++ phaseLetter record.phase ++ " #" ++ toString record.sequence.toNat ++ " " ++
      clipped 20 record.name ++ " " ++ clipped 48 record.detail

/-- The message for a record. -/
def progressMessage (record : TraceRecord) : Message :=
  { magic := hdmiLosMagic, version := hdmiLosBrokerVersion, opcode := opAgentProgress,
    requestId := record.sequence, flags := record.sequence,
    detail := detailText (progressText record) }

/-- The message acknowledges the forwarded one. -/
def acknowledges (progress m : Message) : Bool :=
  m.opcode == opAgentProgressAck && m.requestId == progress.requestId && m.status == statusOk

/-- `forward_trace_record`: whatever the broker sends next is read as the acknowledgement. -/
def forwardTraceRecord (record : TraceRecord) : AgentProg Bool := do
  assign (observeScanoutRecord record)
  if ← writeBroker (progressMessage record) then do
    let (ok, m, passed) ← recvMessage .acknowledgement
    closeIfOpen passed
    pure (ok && acknowledges (progressMessage record) m)
  else pure false

/-- Acknowledges a record to the tracer. -/
def acknowledgeTraceRecord (fd : Fd) (sequence : UInt32) : AgentProg Bool := do
  let a ← getAgent
  call (.sendTrace fd { magic := traceMagic, version := traceVersion, phase := traceAck,
                        sequence := sequence, flags := if a.traceSteady then traceAckSteady else 0 })

/-- The part of `relay_trace_record` behind its `poll`. -/
def relayReadable (fd : Fd) : AgentProg Bool := do
  match ← call (.recvTrace fd) with
  | none => pure false
  | some record =>
    if validTraceRecord record then do
      if ← forwardTraceRecord record then acknowledgeTraceRecord fd record.sequence
      else pure false
    else pure false

/-- Relays a record if one arrives in time. -/
def relayTraceRecord (timeoutMs : Int) : AgentProg Bool := do
  let a ← getAgent
  match a.trace with
  | none => pure true
  | some fd => do
    match ← call (.pollTrace fd timeoutMs) with
    | .timeout => pure true
    | .failed => pure false
    | .ready revents => if revents.input then relayReadable fd else pure (!revents.error)

/-! ## Processes -/

/-- The three processes of a session. -/
inductive Role where
  | bridge
  | xorg
  | session
  deriving DecidableEq, Repr

def pid (a : Agent) : Role → Option Pid
  | .bridge => a.bridge
  | .xorg => a.xorg
  | .session => a.session

def setPid (role : Role) (p : Option Pid) (a : Agent) : Agent :=
  match role with
  | .bridge => { a with bridge := p }
  | .xorg => { a with xorg := p }
  | .session => { a with session := p }

/-- Wait for a terminated process until the time `stop`, one round. -/
def awaitExit (pid : Pid) (stop : Int) (_ : Unit) : AgentProg (Unit ⊕ Unit) := do
  if ← processAlive pid then do
    let now ← monotonicMs
    if now < stop then do
      usleep 50000
      pure (Sum.inl ())
    else pure (Sum.inr ())
  else pure (Sum.inr ())

/-- Kills a process that is still alive. -/
def killAlive (pid : Pid) (group : Bool) : AgentProg Unit := do
  if ← processAlive pid then kill pid group .kill else pure ()

/-- The part of `terminate_group` that signals the process. -/
def signalGroup (n : Nat) (pid : Pid) : AgentProg Unit := do
  if ← processAlive pid then do
    let group ← call (.leadsGroup pid)
    kill pid group .term
    let now ← monotonicMs
    Prog.loop (awaitExit pid (now + 2000)) n ()
    killAlive pid group
  else pure ()

/-- Ends a process group and reaps it. -/
def terminateGroup (n : Nat) (role : Role) : AgentProg Unit := do
  let a ← getAgent
  match pid a role with
  | none => pure ()
  | some p => do
    signalGroup n p
    waitpid p
    assign (setPid role none)

/-- A tool that has to be given up is killed. -/
def abandonTool (pid : Pid) : AgentProg (Unit ⊕ Bool) := do
  kill pid false .kill
  waitpid pid
  pure (Sum.inr false)

/-- One round of `run_wait`. -/
def runWaitRound (pid : Pid) (stop : Int) (_ : Unit) : AgentProg (Unit ⊕ Bool) := do
  match ← waitNoHang pid with
  | .exited code => pure (Sum.inr (code == some 0))
  | .interrupted => pure (Sum.inl ())
  | .failed => pure (Sum.inr false)
  | .running => do
    let now ← monotonicMs
    if now ≥ stop then abandonTool pid
    else do
      let a ← getAgent
      if a.trace.isSome then do
        if ← relayTraceRecord 50 then pure (Sum.inl ()) else abandonTool pid
      else do
        usleep 50000
        pure (Sum.inl ())

/-- `run_wait`: whether the tool exited with zero within five seconds. -/
def runWait (n : Nat) (tool : String) : AgentProg Bool := do
  match ← fork (.tool tool) with
  | none => pure false
  | some pid => do
    let now ← monotonicMs
    Prog.loop (runWaitRound pid (now + 5000)) n ()

/-! ## Preparing a session -/

/-- The relay of the first record of the preflight. -/
def preflightLoaded (poll : PollOne) : AgentProg Bool :=
  match poll with
  | .ready revents => if revents.input then relayTraceRecord 0 else pure false
  | _ => pure false

/-- What a round of the preflight does while the process is still running. -/
def preflightRelay (open' : Bool) : AgentProg (Bool ⊕ Option (Option Nat)) := do
  if open' then do
    let open' ← relayTraceRecord 50
    pure (Sum.inl open')
  else do
    usleep 10000
    pure (Sum.inl open')

/-- One round of the preflight's loop. The flag says whether the relay is still open; the result is
    the exit code, if the process was reaped. -/
def preflightRound (pid : Pid) (stop : Int) (open' : Bool) :
    AgentProg (Bool ⊕ Option (Option Nat)) := do
  let now ← monotonicMs
  if now < stop then do
    match ← waitNoHang pid with
    | .exited code => pure (Sum.inr (some code))
    | .failed => pure (Sum.inr none)
    | .interrupted => preflightRelay open'
    | .running => preflightRelay open'
  else pure (Sum.inr none)

/-- Reap the process of the preflight once more, or kill it. -/
def preflightReap (n : Nat) (pid : Pid) (exited : Option (Option Nat)) :
    AgentProg (Option (Option Nat)) :=
  match exited with
  | some code => pure (some code)
  | none => do
    let waited ← Prog.loop (fun (_ : Unit) => do
      match ← waitNoHang pid with
      | .interrupted => pure (Sum.inl ())
      | .exited code => pure (Sum.inr (some code))
      | _ => pure (Sum.inr none)) n ()
    match waited with
    | some code => pure (some code)
    | none => do
      kill pid false .kill
      waitpid pid
      pure none

/-- The part of `trace_preflight` with its child and its end of the trace socket. -/
def preflightChild (n : Nat) (pid : Pid) (fd : Fd) : AgentProg Bool := do
  assign fun a => { a with trace := some fd }
  let polled ← call (.pollTrace fd 2000)
  let loaded ← preflightLoaded polled
  let now ← monotonicMs
  let exited ← Prog.loop (preflightRound pid (now + 3000)) n true
  let code ← preflightReap n pid exited
  closeFd fd
  assign fun a => { a with trace := none }
  match code with
  | some (some code) => pure (loaded && code != 125)
  | _ => pure false

/-- Tries the tracer before a session. -/
def tracePreflight (n : Nat) : AgentProg Bool := do
  if ← call .traceGate then
    if ← call .socketpair then do
      let fd ← fresh
      match ← fork .tracer with
      | none => do
        closeFd fd
        pure false
      | some pid => preflightChild n pid fd
    else pure false
  else pure false

/-- A line of the bridge's path file. -/
def readInputLine (a : Agent) (line : Text) : Agent :=
  let line := line.takeWhile (· != '\n')
  if "MOUSE_EVENT=".toList.isPrefixOf line then { a with mouse := line.drop 12 }
  else if "KEYBOARD_EVENT=".toList.isPrefixOf line then { a with keyboard := line.drop 15 }
  else a

/-- Reads the bridge's device paths. -/
def readInputPaths : AgentProg Bool := do
  match ← call .inputPaths with
  | none => pure false
  | some lines => do
    assign fun a => lines.foldl readInputLine a
    let a ← getAgent
    pure ("/dev/input/event".toList.isPrefixOf a.mouse &&
      "/dev/input/event".toList.isPrefixOf a.keyboard)

/-- Wait for the input bridge, one round. -/
def awaitInputRound (pid : Pid) (stop : Int) (_ : Unit) : AgentProg (Unit ⊕ Unit) := do
  let now ← monotonicMs
  if now < stop then do
    if ← processAlive pid then do
      if ← readInputPaths then pure (Sum.inr ())
      else do
        usleep 100000
        pure (Sum.inl ())
    else pure (Sum.inr ())
  else pure (Sum.inr ())

/-- The display lock, the authority file and the user's runtime directory. -/
def prepareAuthority (n : Nat) : AgentProg Bool := do
  if ← call .displayLock then
    if ← call .createAuthority then
      if ← call .randomCookie then
        if ← runWait n "xauth" then call .userRuntime else pure false
      else pure false
    else pure false
  else pure false

/-- The part of `prepare_session` that starts the input bridge. -/
def prepareBridge (n : Nat) : AgentProg Bool := do
  let bridge ← fork .bridge
  assign (setPid .bridge bridge)
  match bridge with
  | none => pure false
  | some pid => do
    let now ← monotonicMs
    Prog.loop (awaitInputRound pid (now + 4500)) n ()
    let a ← getAgent
    if a.mouse.isEmpty || a.keyboard.isEmpty then pure false else prepareAuthority n

/-- The globals at the start of a session. -/
def resetSession (a : Agent) : Agent :=
  { a with mouse := [], keyboard := [], androidMode := {}, androidModeValid := false,
           expectedConnector := 0, expectedCrtc := 0, scanoutSequence := 0, scanoutFb := 0,
           scanoutConnectorSeen := false, scanoutConfirmed := false, scanoutFailed := false,
           traceSteady := false, scanoutFailure := "" }

/-- The part of `prepare_session` before the input bridge. -/
def prepareRuntime (n : Nat) : AgentProg Bool := do
  if ← call .getUser then
    if ← call .runtimeDirectory then do
      call .unlinkInputPaths
      tracePreflight n
    else pure false
  else pure false

/-- Prepares the runtime and the bridge. -/
def prepareSession (n : Nat) (probeMode : UInt32) : AgentProg Bool :=
  if probeMode != probeXorgLegacy && probeMode != probeXorgAtomic then pure false
  else do
    terminateGroup n .session
    terminateGroup n .xorg
    terminateGroup n .bridge
    assign resetSession
    if ← prepareRuntime n then prepareBridge n else pure false

/-! ## Android's mode -/

/-- The attempts of `read_connector_modes`: the arrays get the sizes that the last query reported. -/
def connectorAttempts (lease : Fd) (connector : UInt32) :
    Nat → ConnectorCounts → AgentProg (Option Connector)
  | 0, _ => pure none
  | attempts + 1, room => do
    match ← call (.getConnector lease connector room) with
    | none => pure none
    | some filled =>
      if filled.counts.fits room then
        pure (some { filled with modes := filled.modes.take filled.counts.modes })
      else connectorAttempts lease connector attempts filled.counts

/-- Reads a connector and its modes. -/
def readConnectorModes (lease : Fd) (connector : UInt32) : AgentProg (Option Connector) := do
  match ← call (.getConnector lease connector {}) with
  | none => pure none
  | some query => connectorAttempts lease connector 3 query.counts

/-- The mode that `read_android_mode` leaves in its buffer, which may be the one it found there. -/
def adoptedMode (connector : Connector) (crtc : DrmCrtc) (old : ModeInfo) : ModeInfo :=
  if connector.connected && crtc.modeValid && crtc.mode.hdisplay != 0 && crtc.mode.vdisplay != 0 &&
      connector.modes.any (sameModeTiming crtc.mode) then crtc.mode
  else old

/-- `read_android_mode` into `g_android_mode`. -/
def readAndroidMode (lease : Fd) (connectorId crtcId : UInt32) : AgentProg Bool :=
  if connectorId == 0 || crtcId == 0 then pure false
  else do
    match ← readConnectorModes lease connectorId with
    | none => pure false
    | some connector => do
      match ← call (.getCrtc lease crtcId) with
      | none => pure false
      | some crtc => do
        assign fun a => { a with androidMode := adoptedMode connector crtc a.androidMode }
        let a ← getAgent
        pure (connector.connected && a.androidMode.hdisplay != 0 && a.androidMode.vdisplay != 0)

/-! ## Starting Xorg -/

/-- `spawn_xorg`: the process, with the agent's end of its trace socket. -/
def spawnXorg (lease : Fd) : AgentProg (Option Pid) := do
  if ← call .socketpair then do
    let fd ← fresh
    match ← fork (.xorg lease) with
    | none => do
      closeFd fd
      pure none
    | some pid => do
      assign fun a => { a with trace := some fd }
      pure (some pid)
  else pure none

/-- Xorg answers `xdpyinfo`. -/
def xorgReady (n : Nat) : AgentProg Bool := do
  if ← call .getUser then runWait n "xdpyinfo" else pure false

/-- The output of a tool has a line with `wanted` and none with `forbidden`. -/
def outputContains (lines : Option (List Text)) (wanted : String) (forbidden : Option String) :
    Bool :=
  match lines with
  | none => false
  | some lines =>
    lines.any (containsText wanted.toList) &&
      !lines.any fun line => match forbidden with
        | some text => containsText text.toList line
        | none => false

/-- The mode as `xrandr` prints it. -/
def currentModeText (mode : ModeInfo) : String :=
  "current " ++ toString mode.hdisplay.toNat ++ " x " ++ toString mode.vdisplay.toNat

/-- The tests of `verify_xorg` on the output of the tools. -/
def verifyOutput (a : Agent) (xrandr xinput : Option (List Text)) : Bool :=
  a.androidModeValid && outputContains xrandr "DP-1 connected" (some "DSI-") &&
    outputContains xrandr (currentModeText a.androidMode) none &&
    outputContains xinput "HDMI Mouse" none && outputContains xinput "HDMI Keyboard" none

/-- Checks Xorg's output and input. -/
def verifyXorg (n : Nat) : AgentProg Bool := do
  if ← call .getUser then
    if ← runWait n "xrandr" then
      if ← runWait n "xinput" then do
        let xrandr ← call (.readLines .xrandr)
        let xinput ← call (.readLines .xinput)
        let a ← getAgent
        pure (verifyOutput a xrandr xinput)
      else pure false
    else pure false
  else pure false

/-- Checks the CRTC against the first commit. -/
def verifyScanout : AgentProg Bool := do
  let a ← getAgent
  match a.verifyLease with
  | none => pure false
  | some lease =>
    if !a.scanoutConfirmed || a.scanoutFailed || a.scanoutFb == 0 || !a.androidModeValid then
      pure false
    else do
      match ← call (.getCrtc lease a.expectedCrtc) with
      | none => pure false
      | some current =>
        pure (current.modeValid && current.fbId == a.scanoutFb &&
          sameModeTiming current.mode a.androidMode)

/-- The verification at the end of `start_xorg`. -/
def verifyStart (n : Nat) : AgentProg Bool := do
  if ← verifyScanout then verifyXorg n else pure false

/-- Starts LXDE, if it is wanted. -/
def startSession : AgentProg (Unit ⊕ Bool) := do
  assign fun a => { a with traceSteady := a.traceStartupOnly || a.traceSteady }
  let a ← getAgent
  if !a.startLxde then pure (Sum.inr true)
  else do
    let session ← fork .session
    assign (setPid .session session)
    pure (Sum.inr session.isSome)

/-- A round of `start_xorg` after the display answered. -/
def startReady (n : Nat) : AgentProg (Unit ⊕ Bool) := do
  let a ← getAgent
  if a.scanoutFailed then pure (Sum.inr false)
  else if !a.scanoutConfirmed then do
    usleep 100000
    pure (Sum.inl ())
  else do
    if ← verifyStart n then startSession else pure (Sum.inr false)

/-- A round of the wait for Xorg. -/
def startRound (n : Nat) (pid : Pid) (stop : Int) (_ : Unit) : AgentProg (Unit ⊕ Bool) := do
  let now ← monotonicMs
  if now < stop then do
    if ← processAlive pid then do
      if ← relayTraceRecord 100 then do
        if ← xorgReady n then startReady n
        else do
          usleep 200000
          pure (Sum.inl ())
      else pure (Sum.inr false)
    else pure (Sum.inr false)
  else pure (Sum.inr false)

/-- The part of `start_xorg` that starts the process and waits for its picture. -/
def startProcess (n : Nat) (lease : Fd) : AgentProg Bool := do
  let copy ← fresh
  if ← call (.dup lease copy) then do
    assign fun a => { a with verifyLease := some copy }
    let xorg ← spawnXorg lease
    assign (setPid .xorg xorg)
    closeFd lease
    match xorg with
    | none => pure false
    | some pid => do
      let now ← monotonicMs
      Prog.loop (startRound n pid (now + 14000)) n ()
  else do
    assign fun a => { a with verifyLease := none }
    closeFd lease
    pure false

/-- The part of `start_xorg` before the process: the mode and the configuration file. -/
def configureXorg (lease : Fd) (connector crtc : UInt32) : AgentProg Bool := do
  if ← readAndroidMode lease connector crtc then do
    let a ← getAgent
    call (.writeXorgConfig a.mouse a.keyboard a.probeMode a.androidMode)
  else pure false

/-- The globals with which `start_xorg` waits for the first commit. -/
def expectScanout (connector crtc : UInt32) (a : Agent) : Agent :=
  { a with androidModeValid := true, expectedConnector := connector, expectedCrtc := crtc,
           scanoutSequence := 0, scanoutFb := 0, scanoutConnectorSeen := false,
           scanoutConfirmed := false, scanoutFailed := false, scanoutFailure := "" }

/-- Starts Xorg on the lease. -/
def startXorg (n : Nat) (lease : Fd) (connector crtc : UInt32) : AgentProg Bool := do
  if ← configureXorg lease connector crtc then do
    assign (expectScanout connector crtc)
    startProcess n lease
  else do
    closeFd lease
    pure false

/-! ## The end of a session -/

def closeTrace : AgentProg Unit := do
  let a ← getAgent
  closeIfOpen a.trace
  assign fun a => { a with trace := none }

def closeVerifyLease : AgentProg Unit := do
  let a ← getAgent
  closeIfOpen a.verifyLease
  assign fun a => { a with verifyLease := none, traceSteady := false }

/-- Ends the session and all it holds. -/
def cleanupSession (n : Nat) : AgentProg Unit := do
  terminateGroup n .session
  terminateGroup n .xorg
  closeTrace
  closeVerifyLease
  terminateGroup n .bridge
  call .unlinkInputPaths

end HdmiLos.Agent
