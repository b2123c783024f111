import HdmiLos.Broker.Basic

/-!
# Volume keys, composer socket and agent stream

The functions of `class Broker` that talk to one peer: the grabbed volume keys, the composer's
packet socket, and the stream to the chroot agent. Every loop takes the fuel `n`.
-/

namespace HdmiLos

open Interaction

def kChordHoldMs : Int := 3000
def evKey : Nat := 1
def keyVolumeDown : Nat := 114
def keyVolumeUp : Nat := 115

/-! ## The volume guard -/

def updateVolumes (f : VolumeGuard → VolumeGuard) : BrokerProg Unit :=
  update fun b => { b with volumes := f b.volumes }

/-- Give a grabbed device back and close it. -/
def releaseVolumeDevice (fd : Option Fd) : BrokerProg Unit :=
  match fd with
  | some fd => do
    let _ ← grab fd false
    closeFd fd
  | none => pure ()

/-- `VolumeGuard::Release`. -/
def volumesRelease : BrokerProg Unit := do
  let b ← getBroker
  releaseVolumeDevice b.volumes.down
  releaseVolumeDevice b.volumes.up
  updateVolumes fun _ => {}

/-- `ioctl(fd, EVIOCGRAB, 1)` on both devices, the second only after the first. -/
def grabBoth (down up : Option Fd) : BrokerProg Bool :=
  match down, up with
  | some down, some up => do
    if ← grab down true then grab up true else pure false
  | _, _ => pure false

/-- `VolumeGuard::Acquire`. -/
def volumesAcquire : BrokerProg Bool := do
  let down ← opened (← findVolumeDevice "gpio-keys" keyVolumeDown)
  updateVolumes fun v => { v with down := down }
  let up ← opened (← findVolumeDevice "pmic_resin" keyVolumeUp)
  updateVolumes fun v => { v with up := up }
  if ← grabBoth down up then pure true
  else do
    volumesRelease
    pure false

/-- The pressed flag after a batch of events. -/
def pressedAfter (key : Nat) (pressed : Bool) (batch : List InputEvent) : Bool :=
  batch.foldl (fun pressed e =>
    if e.type == evKey && e.code == key then e.value != 0 else pressed) pressed

/-- `VolumeGuard::ReadOne`: whether the device is still readable, and the pressed flag. -/
def volumesReadOne (n : Nat) (fd : Option Fd) (key : Nat) (pressed : Bool) :
    BrokerProg (Bool × Bool) :=
  match fd with
  | none => pure (false, pressed)
  | some fd => Prog.loop (fun pressed => do
      match ← readEvents fd with
      | .events batch => pure (Sum.inl (pressedAfter key pressed batch))
      | .endOfFile => pure (Sum.inr (false, pressed))
      | .again => pure (Sum.inr (true, pressed))
      | .failed => pure (Sum.inr (false, pressed))) n pressed

/-- The part of `VolumeGuard::Update` after both devices were read: the chord timer. -/
def volumesChord : BrokerProg Bool := do
  let now ← monotonicMs
  let b ← getBroker
  if b.volumes.downPressed && b.volumes.upPressed then do
    let since := if b.volumes.bothSince = 0 then now else b.volumes.bothSince
    updateVolumes fun v => { v with bothSince := since }
    pure (decide (now - since ≥ kChordHoldMs))
  else do
    updateVolumes fun v => { v with bothSince := 0 }
    pure false

/-- Read one device if it is ready. The answer is false when the device was lost. -/
def volumesRead (n : Nat) (ready : Bool) (fd : VolumeGuard → Option Fd) (key : Nat)
    (pressed : VolumeGuard → Bool) (set : Bool → VolumeGuard → VolumeGuard) : BrokerProg Bool :=
  if ready then do
    let b ← getBroker
    let (ok, p) ← volumesReadOne n (fd b.volumes) key (pressed b.volumes)
    updateVolumes (set p)
    pure ok
  else pure true

/-- `VolumeGuard::Update`: true when the session has to end. -/
def volumesUpdate (n : Nat) (down up : Revents) : BrokerProg Bool :=
  if down.error || up.error then pure true
  else do
    if ← volumesRead n down.input VolumeGuard.down keyVolumeDown VolumeGuard.downPressed
        (fun p v => { v with downPressed := p }) then
      if ← volumesRead n up.input VolumeGuard.up keyVolumeUp VolumeGuard.upPressed
          (fun p v => { v with upPressed := p }) then volumesChord
      else pure true
    else pure true

/-! ## The composer socket -/

/-- What a message of the composer was. -/
inductive ComposerHotplug where
  | invalid
  | connected
  | disconnected
  deriving DecidableEq, Repr

/-- Drops the composer's connection. -/
def closeComposer : BrokerProg Unit := do
  let b ← getBroker
  closeIfOpen b.composerFd
  update fun b => { b with composerFd := none }

/-- `EnsureComposer`: the open composer connection, if there is or can be one. -/
def ensureComposer : BrokerProg (Option Fd) := do
  let b ← getBroker
  match b.composerFd with
  | some fd => pure (some fd)
  | none => do
    let fd ← opened (← connectComposer)
    update fun b => { b with composerFd := fd }
    pure fd

/-- `CacheComposerStatus` as an assignment. -/
def Broker.cacheComposerStatus (b : Broker) (status : Message) : Broker :=
  { b with
    composerFlags := status.flags
    activeWidth := status.activeWidth
    activeHeight := status.activeHeight
    activeRefreshMillihz := status.activeRefreshMillihz
    composerDisconnectPending := !status.connected && b.composerDisconnectPending }

/-- `CacheComposerStatus`, and then the pending flag from a hotplug event. -/
def Broker.noteHotplug (b : Broker) (event : Message) : Broker :=
  { b.cacheComposerStatus event with composerDisconnectPending := !event.connected }

/-- What `ComposerRequest` leaves: its result, the buffer and the descriptor of the lease. -/
structure Reply where
  ok : Bool
  message : Message
  leaseFd : Option Fd := none

/-- The request is given up and the connection is closed. -/
def composerFailed (passed : Option Fd) (buffer : Message) : BrokerProg Reply := do
  closeIfOpen passed
  closeComposer
  pure { ok := false, message := buffer }

/-- The receive loop of `ComposerRequest`, one round. -/
def composerReceive (fd : Fd) (id : UInt32) (wantLease : Bool) (_ : Unit) :
    BrokerProg (Unit ⊕ Reply) := do
  let (received, passed) ← recvWithFd fd
  let m := received.message
  if !received.ok || !m.validComposer then do
    pure (Sum.inr (← composerFailed passed m))
  else if m.isHotplug then do
    closeIfOpen passed
    update fun b => b.noteHotplug m
    pure (Sum.inl ())
  else if m.requestId != id then do
    pure (Sum.inr (← composerFailed passed m))
  else do
    closeIfOpen (if wantLease then none else passed)
    update fun b => b.cacheComposerStatus m
    let b ← getBroker
    pure (Sum.inr { ok := !b.composerDisconnectPending, message := m,
                    leaseFd := if wantLease then passed else none })

/-- `ComposerRequest`. `buffer` is the message that `response` points to. -/
def composerRequest (n : Nat) (opcode : UInt16) (buffer : Message) (wantLease : Bool)
    (flags : UInt32) : BrokerProg Reply := do
  match ← ensureComposer with
  | none => pure { ok := false, message := buffer }
  | some fd => do
    let request ← makeMessage opcode
    let request := { request with version := hdmiLosVersion, flags := flags }
    if ← sendWithFd fd request none then
      Prog.loop (composerReceive fd request.requestId wantLease) n ()
    else composerFailed none buffer

/-- `ComposerRequest(opcode, &response)` with an empty buffer and no further argument. -/
def composerAsk (n : Nat) (opcode : UInt16) : BrokerProg Reply :=
  composerRequest n opcode {} false 0

/-- Reads an event of the composer. -/
def handleComposerReadable (fd : Fd) : BrokerProg ComposerHotplug := do
  let (received, passed) ← recvWithFd fd
  let event := received.message
  closeIfOpen passed
  if !received.ok || !event.validComposer || !event.isHotplug then pure .invalid
  else do
    update fun b => b.noteHotplug event
    if event.connected then do
      logTransition .displayConnected
      pure .connected
    else do
      logTransition .displayDisconnected
      pure .disconnected

/-! ## The agent stream -/

/-- `HandleAgentEvent`: a progress record is logged and acknowledged. -/
def handleAgentEvent (fd : Fd) (event : Message) : BrokerProg Bool :=
  if event.opcode == opAgentProgress then do
    logTransition (.agentProgress event.detail)
    let ack ← makeMessage opAgentProgressAck
    writeFull fd { ack with requestId := event.requestId, status := statusOk, flags := event.flags }
  else pure (event.opcode != opAgentFailed)

/-- The composer's part of one round of `WaitAgent`: false ends the wait. -/
def waitAgentComposer (fd : Option Fd) (revents : Revents) : BrokerProg Bool :=
  match fd with
  | none => pure true
  | some fd =>
    if revents.error then pure false
    else if revents.input then do
      match ← handleComposerReadable fd with
      | .connected => pure true
      | _ => do
        update fun b => { b with composerDisconnectPending := true }
        pure false
    else pure true

/-- Whether the session's deadline has passed. The clock is read only if there is one. -/
def deadlineReached : BrokerProg Bool := do
  let b ← getBroker
  if b.deadlineMs > 0 then do
    let now ← monotonicMs
    pure (decide (now ≥ b.deadlineMs))
  else pure false

/-- The agent's part of one round of `WaitAgent`: it ends with a result and the buffer. -/
def waitAgentRead (fd : Fd) (wanted : UInt16) : BrokerProg (Message ⊕ Bool × Message) := do
  let received ← readFull fd
  let m := received.message
  if !received.ok || !m.valid then pure (Sum.inr (false, m))
  else if m.opcode == opAgentProgress then do
    if ← handleAgentEvent fd m then pure (Sum.inl m) else pure (Sum.inr (false, m))
  else if m.opcode == wanted || m.opcode == opAgentFailed then
    pure (Sum.inr (m.opcode == wanted && m.status == statusOk, m))
  else pure (Sum.inl m)

/-- The time that one round of `WaitAgent` may poll for. -/
def waitAgentRemaining (stop : Int) : BrokerProg Int := do
  let now ← monotonicMs
  let remaining := min 100 (stop - now)
  let b ← getBroker
  if b.deadlineMs > 0 then do
    let now ← monotonicMs
    pure (min remaining (b.deadlineMs - now))
  else pure remaining

/-- What one round of `WaitAgent` does with the readiness of its four descriptors. -/
def waitAgentReady (n : Nat) (wanted : UInt16) (revents : List Revents) (buffer : Message) :
    BrokerProg (Message ⊕ Bool × Message) := do
  let b ← getBroker
  let agent := revents.getD 0 {}
  if agent.error then pure (Sum.inr (false, buffer))
  else if ← volumesUpdate n (revents.getD 1 {}) (revents.getD 2 {}) then
    pure (Sum.inr (false, buffer))
  else if !(← waitAgentComposer b.composerFd (revents.getD 3 {})) then
    pure (Sum.inr (false, buffer))
  else if ← deadlineReached then pure (Sum.inr (false, buffer))
  else
    match agent.input, b.agentFd with
    | true, some fd => waitAgentRead fd wanted
    | _, _ => pure (Sum.inl buffer)

/-- One round of `WaitAgent` until the time `stop`. -/
def waitAgentRound (n : Nat) (wanted : UInt16) (stop : Int) (buffer : Message) :
    BrokerProg (Message ⊕ Bool × Message) := do
  let now ← monotonicMs
  if now ≥ stop then pure (Sum.inr (false, buffer))
  else do
    let b ← getBroker
    let remaining ← waitAgentRemaining stop
    if remaining ≤ 0 then pure (Sum.inr (false, buffer))
    else do
      match ← pollFds [b.agentFd, b.volumes.down, b.volumes.up, b.composerFd] remaining with
      | .interrupted => pure (Sum.inl buffer)
      | .failed => pure (Sum.inr (false, buffer))
      | .ready revents => waitAgentReady n wanted revents buffer

/-- `WaitAgent`: whether the wanted reply came, and what `response` holds then. -/
def waitAgent (n : Nat) (wanted : UInt16) (timeoutMs : Int) (buffer : Message) :
    BrokerProg (Bool × Message) := do
  let now ← monotonicMs
  Prog.loop (waitAgentRound n wanted (now + timeoutMs)) n buffer

end HdmiLos
