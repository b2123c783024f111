import HdmiLos.Broker.Mode

/-!
# Takeover, restore and arming

The session functions of `class Broker`: `Start` hands the external display to Xorg, `Release` gives
it back, `ProbeLease` does both for three seconds without an agent, and the armed state waits for
the display to settle in the configured mode before it starts a session by itself.
-/

namespace HdmiLos

open Interaction

def kSessionSeconds : Int := 60
def kComposerHeartbeatSeconds : Int := 20
def kAgentPrepareMs : Int := 5000
def kAgentStartMs : Int := 15000
def kAgentStopMs : Int := 2000
def kLeaseHoldMs : Int := 3000
def kModePollMs : Int := 250
def kModeStableSamples : Nat := 3
def kModeMismatchMs : Int := 5000

def setDetail (text : String) : BrokerProg Unit :=
  update fun b => { b with stateDetail := text }

/-! ## Guards -/

/-- `CleanupGuards`. -/
def cleanupGuards : BrokerProg Unit := do
  volumesRelease
  let _ ← setWakeLock false
  update fun b => { b with deadlineMs := 0, composerHeartbeatMs := 0, sessionContinuous := false }

/-- `volumes_.Acquire()` and `set_wake_lock(true)`, with the rollback of the first. -/
def acquireGuards : BrokerProg (Option String) := do
  if ← volumesAcquire then
    if ← setWakeLock true then pure none
    else do
      cleanupGuards
      pure (some "could not acquire the mandatory suspend blocker")
  else pure (some "both physical volume inputs are required")

/-- The gates of `Start` and `ProbeLease`, with the text for the one that is closed. -/
def closedGate : BrokerProg (Option String) := do
  if ← compatible then
    if ← diagnosticDumpReady then pure none
    else pure (some "display recovery dump gate is not enabled")
  else pure (some "module compatibility gate is closed")

/-! ## Start -/

/-- The status that a failed composer request is reported with. -/
def Message.failureStatus (m : Message) : Int :=
  if m.status ≠ statusOk then m.status else errIo

/-- The composer's own text for a failure, if it gave one. -/
def Message.failureDetail (m : Message) (fallback : String) : String :=
  if m.detail.isEmpty then fallback else m.detail

/-- The outcome of a step of `Start`: it goes on with a value, or returns a status and a text. -/
abbrev StepResult (α : Type) := (Int × String) ⊕ α

/-- Asks the agent to stop. -/
def sendAgentStop (agent : Fd) : BrokerProg Unit := do
  let stop ← makeMessage opAgentStop
  let _ ← writeFull agent stop

/-- Ask the agent to prepare a session and wait for it. -/
def prepareAgent (n : Nat) (agent : Fd) (probeMode : UInt32) : BrokerProg Bool := do
  let request ← makeMessage opAgentPrepare
  if ← writeFull agent { request with flags := probeMode } then do
    let (ready, _) ← waitAgent n opAgentReady kAgentPrepareMs {}
    pure ready
  else pure false

/-- `Start` up to the prepared agent. -/
def startPrepare (n : Nat) (agent : Fd) (probeMode : UInt32) : BrokerProg (StepResult Unit) := do
  logTransition (.takeover .agentPrepare .started)
  if ← prepareAgent n agent probeMode then do
    logTransition (.takeover .agentPrepare .complete)
    pure (Sum.inr ())
  else do
    sendAgentStop agent
    cleanupGuards
    pure (Sum.inl (errAgent, "chroot agent preparation failed"))

/-- One phase of the acquisition from the composer. The three phases differ in the flags, in
    whether a lease descriptor has to come back, and in the text of the failure. -/
def startAcquire (n : Nat) (agent : Fd) (stage : Stage) (flags : UInt32) (wantLease : Bool)
    (fallback : String) : BrokerProg (StepResult Reply) := do
  logTransition (.takeover stage .started)
  let reply ← composerRequest n opAcquire {} wantLease flags
  if !reply.ok || reply.message.status != statusOk || (wantLease && reply.leaseFd.isNone) then do
    logTransition (.takeover stage .failed)
    sendAgentStop agent
    closeIfOpen reply.leaseFd
    let _ ← composerRequest n opRelease reply.message false 0
    cleanupGuards
    pure (Sum.inl (reply.message.failureStatus, reply.message.failureDetail fallback))
  else do
    logTransition (.takeover stage .complete)
    pure (Sum.inr reply)

/-- The last step: the lease goes to the agent, and Xorg has to show a verified picture. -/
def startAgent (n : Nat) (agent : Fd) (probeMode : UInt32) (created : Message) (lease : Fd) :
    BrokerProg (StepResult Unit) := do
  logTransition (.takeover .agentStart .started)
  let request ← makeMessage opAgentStart
  let request := { request with
    connectorId := created.connectorId, crtcId := created.crtcId, planeId := created.planeId,
    flags := probeMode }
  let sent ← sendWithFd agent request (some lease)
  closeFd lease
  if !sent then do
    let _ ← composerRequest n opRelease created false 0
    cleanupGuards
    pure (Sum.inl (errAgent, "could not deliver lease fd to chroot agent"))
  else do
    let (ready, response) ← waitAgent n opAgentReady kAgentStartMs created
    if ready then do
      logTransition (.takeover .agentStart .complete)
      pure (Sum.inr ())
    else do
      sendAgentStop agent
      -- the reply to the release overwrites the agent's message in `response`
      let reply ← composerRequest n opRelease response false 0
      cleanupGuards
      let text := "Xorg did not complete verified scanout within 15 seconds"
      if reply.message.opcode == opAgentFailed then
        pure (Sum.inl (errAgent, reply.message.failureDetail text))
      else pure (Sum.inl (errTimeout, text))

/-- The flags of an acquire phase. -/
def acquireFlags (continuous : Bool) (phase : UInt32) : UInt32 :=
  phase ||| (if continuous then flagContinuous else 0)

/-- The next renewal of the composer's watchdog is due in twenty seconds. -/
def armHeartbeat : BrokerProg Unit := do
  let now ← monotonicMs
  update fun b => { b with composerHeartbeatMs := now + kComposerHeartbeatSeconds * 1000 }

/-- A continuous session begins to renew the composer's watchdog. -/
def startHeartbeat (continuous : Bool) : BrokerProg Unit :=
  if continuous then armHeartbeat else pure ()

/-- The end of `Start`: the session is active. -/
def startActive (probeMode : UInt32) : BrokerProg (Int × String) := do
  update fun b => { b with active := true }
  let b ← getBroker
  startHeartbeat b.sessionContinuous
  let owner := if probeMode == probeXorgAtomic then "traced atomic Xorg owns external display"
    else "traced legacy Xorg owns external display"
  let text := if b.sessionContinuous then owner ++ "; continuous watchdog mode" else owner
  setDetail text
  pure (statusOk, text)

/-- The mandatory end of a bounded session. -/
def startDeadline (continuous : Bool) : BrokerProg Unit :=
  if continuous then update fun b => { b with deadlineMs := 0 }
  else do
    let now ← monotonicMs
    update fun b => { b with deadlineMs := now + kSessionSeconds * 1000 }

/-- The part of `Start` behind its guards. -/
def startGuarded (n : Nat) (agent : Fd) (probeMode : UInt32) : BrokerProg (Int × String) := do
  update fun b => { b with sessionContinuous := b.agentContinuous }
  let b ← getBroker
  startDeadline b.sessionContinuous
  let flags := acquireFlags b.sessionContinuous
  match ← startPrepare n agent probeMode with
  | Sum.inl failure => pure failure
  | Sum.inr () =>
    match ← startAcquire n agent .composerPrepare (flags acquirePrepare) false
        "composer lease request failed" with
    | Sum.inl failure => pure failure
    | Sum.inr _ =>
      match ← startAcquire n agent .composerPause (flags acquirePause) false
          "composer display pause failed" with
      | Sum.inl failure => pure failure
      | Sum.inr _ =>
        match ← startAcquire n agent .composerCreate (flags acquireCreate) true
            "composer lease creation failed" with
        | Sum.inl failure => pure failure
        | Sum.inr created =>
          match created.leaseFd with
          -- never taken: the create step fails when no descriptor came back
          | none => pure (created.message.failureStatus, "composer lease creation failed")
          | some lease =>
            match ← startAgent n agent probeMode created.message lease with
            | Sum.inl failure => pure failure
            | Sum.inr () => startActive probeMode

/-- `Start`: the status and the detail text. -/
def start (n : Nat) (probeMode : UInt32) : BrokerProg (Int × String) := do
  let b ← getBroker
  if b.active then pure (errBusy, "")
  else if probeMode != probeXorgLegacy && probeMode != probeXorgAtomic then
    pure (errProtocol, "invalid Xorg probe mode")
  else do
    match ← closedGate with
    | some text => pure (errIncompatible, text)
    | none =>
      match b.agentFd with
      | none => pure (errAgent, "start the chroot agent first")
      | some agent => do
        match ← acquireGuards with
        | some text => pure (errUnavailable, text)
        | none => startGuarded n agent probeMode

/-! ## Release -/

/-- The agent's part of `Release`: it is stopped, and its reply is waited for. -/
def releaseAgent (n : Nat) : BrokerProg Unit := do
  let b ← getBroker
  match b.agentFd with
  | none => pure ()
  | some agent => do
    let stop ← makeMessage opAgentStop
    if ← writeFull agent stop then do
      let _ ← waitAgent n opAgentReady kAgentStopMs {}
    else pure ()

/-- The composer's part of `Release`. -/
def releaseComposer (n : Nat) (tellComposer : Bool) : BrokerProg Unit := do
  let b ← getBroker
  if tellComposer && b.composerFd.isSome then do
    let _ ← composerAsk n opRelease
  else pure ()

/-- The arming's part of `Release`: the armed request is dropped and Android's mode restored. -/
def releaseArmed : BrokerProg Unit := do
  let b ← getBroker
  if b.armed then do
    update fun b => { b with armed := false, preferenceApplied := false, replugRequired := false,
                             stableModeSamples := 0 }
    let _ ← recoverPreferredMode
  else pure ()

/-- `Release`. -/
def release (n : Nat) (reason : String) (tellComposer : Bool) : BrokerProg Unit := do
  let b ← getBroker
  if !b.active && b.volumes.down.isNone && b.volumes.up.isNone then pure ()
  else do
    logTransition .restoreBegin
    releaseAgent n
    releaseComposer n tellComposer
    update fun b => { b with active := false }
    cleanupGuards
    releaseArmed
    setDetail reason
    logTransition .restoreComplete

/-! ## The lease probe -/

/-- Closes the probe's lease. -/
def closeProbeLease (lease : Option Fd) : BrokerProg Unit :=
  match lease with
  | some fd => do
    logTransition (.probe .leaseClose .started)
    closeFd fd
    logTransition (.probe .leaseClose .complete)
  | none => pure ()

/-- `FinishLeaseProbe`. -/
def finishLeaseProbe (n : Nat) (lease : Option Fd) (status : Int) (message : String) :
    BrokerProg (Int × String) := do
  closeProbeLease lease
  logTransition (.probe .composerRelease .started)
  let reply ← composerAsk n opRelease
  let released := reply.ok && reply.message.status == statusOk
  logTransition (.probe .composerRelease (if released then .complete else .failed))
  update fun b => { b with probing := false }
  cleanupGuards
  setDetail message
  if status == statusOk && !released then
    pure (errIo, "lease probe completed but composer restore failed")
  else pure (status, message)

/-- One phase of the acquisition for a probe; the failure is the probe's result. -/
def probeAcquire (n : Nat) (stage : Stage) (phase : UInt32) (wantLease : Bool)
    (fallback : String) : BrokerProg (StepResult (Option Fd)) := do
  logTransition (.probe stage .started)
  let reply ← composerRequest n opAcquire {} wantLease phase
  if !reply.ok || reply.message.status != statusOk || (wantLease && reply.leaseFd.isNone) then do
    logTransition (.probe stage .failed)
    let result ← finishLeaseProbe n reply.leaseFd reply.message.failureStatus
      (reply.message.failureDetail fallback)
    pure (Sum.inl result)
  else do
    logTransition (.probe stage .complete)
    pure (Sum.inr reply.leaseFd)

/-- One round of the three-second hold: it ends with whether the volume keys ended it. -/
def probeHoldRound (n : Nat) (stop : Int) (_ : Unit) : BrokerProg (Unit ⊕ Bool) := do
  if ← stopRequested then pure (Sum.inr false)
  else do
    let now ← monotonicMs
    if now ≥ stop then pure (Sum.inr false)
    else do
      let b ← getBroker
      match ← pollFds [b.volumes.down, b.volumes.up] 50 with
      | .interrupted => pure (Sum.inl ())
      | .failed => pure (Sum.inr true)
      | .ready revents => do
        if ← volumesUpdate n (revents.getD 0 {}) (revents.getD 1 {}) then pure (Sum.inr true)
        else pure (Sum.inl ())

/-- The hold of a created lease, and the end of the probe. -/
def probeHold (n : Nat) (lease : Option Fd) : BrokerProg (Int × String) := do
  logTransition .holdBegin
  let now ← monotonicMs
  let escaped ← Prog.loop (probeHoldRound n (now + kLeaseHoldMs)) n ()
  logTransition (if escaped then .holdEscaped else .holdComplete)
  finishLeaseProbe n lease statusOk
    (if escaped then "lease-only probe restored early by volume escape"
      else "lease-only probe completed and Android restored")

/-- The part of `ProbeLease` behind its guards. -/
def probeGuarded (n : Nat) : BrokerProg (Int × String) := do
  update fun b => { b with probing := true }
  let now ← monotonicMs
  update fun b => { b with deadlineMs := now + 15000 }
  setDetail "lease-only diagnostic probe running"
  match ← probeAcquire n .composerPrepare acquirePrepare false
      "composer lease preparation failed" with
  | Sum.inl result => pure result
  | Sum.inr _ =>
    match ← probeAcquire n .composerPause acquirePause false "composer display pause failed" with
    | Sum.inl result => pure result
    | Sum.inr _ =>
      match ← probeAcquire n .composerCreate acquireCreate true
          "composer lease creation failed" with
      | Sum.inl result => pure result
      | Sum.inr lease => probeHold n lease

/-- `ProbeLease`. -/
def probeLease (n : Nat) : BrokerProg (Int × String) := do
  let b ← getBroker
  if b.active || b.probing then pure (errBusy, "")
  else do
    match ← closedGate with
    | some text => pure (errIncompatible, text)
    | none =>
      match ← acquireGuards with
      | some text => pure (errUnavailable, text)
      | none => probeGuarded n

/-! ## Arming -/

/-- `Disarm`. -/
def disarm (reason : String) : BrokerProg Unit := do
  update fun b => { b with armed := false, preferenceApplied := false, replugRequired := false,
                           stableModeSamples := 0, nextModePollMs := 0,
                           composerDisconnectPending := false }
  let _ ← recoverPreferredMode
  setDetail reason

/-- `PreserveArmAcrossDisconnect`. -/
def preserveArmAcrossDisconnect : BrokerProg Unit :=
  update fun b => { b with composerDisconnectPending := false, replugRequired := false,
                           stableModeSamples := 0, nextModePollMs := 0,
                           stateDetail := "armed; HDMI disconnected, applying preferred mode" }

/-- The end of `Arm`: the request waits, and its detail is the state's. -/
def armWaiting (replug : Bool) (text : String) : BrokerProg (Int × String) := do
  update fun b => { b with replugRequired := replug, stateDetail := text }
  pure (statusOk, text)

/-- The part of `Arm` behind its gates. -/
def armOpen (n : Nat) : BrokerProg (Int × String) := do
  update fun b => { b with armed := true, preferenceApplied := false, stableModeSamples := 0 }
  let now ← monotonicMs
  update fun b => { b with armedSinceMs := now, nextModePollMs := 0,
                           composerDisconnectPending := false }
  let reply ← composerAsk n opStatus
  let b ← getBroker
  if !reply.ok then
    armWaiting true "armed; waiting for composer to confirm HDMI is disconnected"
  else if hasFlag b.composerFlags flagConnected then
    armWaiting true "armed; unplug HDMI so the preferred mode can be set safely"
  else do
    update fun b => { b with replugRequired := false }
    let (applied, failure) ← applyPreferredMode
    if applied then do
      update fun b => { b with preferenceApplied := true }
      armWaiting false "armed; connect HDMI, accept Mirror, and start the chroot agent"
    else do
      update fun b => { b with armed := false }
      pure (errIo, failure)

/-- The gates of `Arm`. -/
def armGates (n : Nat) : BrokerProg (Int × String) := do
  if ← gatesOpen then armOpen n
  else pure (errIncompatible, "module compatibility gate is closed")

/-- `Arm`. -/
def arm (n : Nat) (request : Message) : BrokerProg (Int × String) := do
  let b ← getBroker
  if b.active || b.probing then pure (errBusy, "")
  else if b.armed then pure (statusOk, b.stateDetail)
  else if request.requestedMode == .native then armGates n
  else do
    let (status, text) ← setMode request
    if status != statusOk then pure (status, text) else armGates n

/-- Disarms and says why. -/
def disarmFor (text fallback : String) : BrokerProg Unit := do
  let failure := if text.isEmpty then fallback else text
  disarm failure
  setDetail failure

/-- Android's preference is overridden once in an armed request. -/
def ensurePreference : BrokerProg (Bool × String) := do
  let b ← getBroker
  if b.preferenceApplied then pure (true, "") else applyPreferredMode

/-- `AdvanceArmed` without HDMI. -/
def advanceUnplugged : BrokerProg Unit := do
  update fun b => { b with stableModeSamples := 0 }
  let (applied, failure) ← ensurePreference
  if applied then
    update fun b => { b with preferenceApplied := true, replugRequired := false,
                             stateDetail := "armed; connect HDMI and accept Mirror" }
  else disarmFor failure "could not set the preferred mode while HDMI was disconnected"

/-- `AdvanceArmed` waits: the samples start again, and the state says what is missing. -/
def advanceWaiting (text : String) : BrokerProg Unit :=
  update fun b => { b with stableModeSamples := 0, stateDetail := text }

/-- `AdvanceArmed` with HDMI. -/
def advancePlugged (n : Nat) (now : Int) : BrokerProg Unit := do
  let b ← getBroker
  if b.replugRequired || !b.preferenceApplied then
    setDetail "armed; unplug HDMI so the preferred mode can be set safely"
  else if !b.requestedModeMatches then
    advanceWaiting (if now - b.armedSinceMs ≥ kModeMismatchMs
      then "armed; connected HDMI mode does not match the configured preset"
      else "armed; waiting for Android to settle on the configured mode")
  else if !hasFlag b.composerFlags flagLeaseReady then
    advanceWaiting "armed; Mirror is connected but the display is not lease-ready yet"
  else if b.agentFd.isNone then
    advanceWaiting "armed; matching HDMI is ready, start the chroot run-agent"
  else do
    update fun b => { b with stableModeSamples := b.stableModeSamples + 1,
                             stateDetail := "armed; matching mode is stable, starting Xorg" }
    if b.stableModeSamples + 1 < kModeStableSamples then pure ()
    else do
      let (status, text) ← start n probeXorgLegacy
      if status != statusOk then disarmFor text "automatic Xorg startup failed" else pure ()

/-- `AdvanceArmed`. -/
def advanceArmed (n : Nat) : BrokerProg Unit := do
  let now ← monotonicMs
  let b ← getBroker
  if now < b.nextModePollMs then pure ()
  else do
    update fun b => { b with nextModePollMs := now + kModePollMs }
    let reply ← composerAsk n opStatus
    if !reply.ok then advanceWaiting "armed; waiting for the patched composer service"
    else do
      let b ← getBroker
      if hasFlag b.composerFlags flagConnected then advancePlugged n now else advanceUnplugged

end HdmiLos
