import HdmiLos.Composer.Device

/-!
# The takeover in `HWCSession`

A takeover goes through three phases, each of them a request of the broker: the display is selected
and its plane reserved, Android's updates are paused, and the lease is created. A release undoes
what has been done so far.
-/

namespace HdmiLos.Composer

open Interaction

/-! ## `HWCDisplay` -/

/-- `GetExternalLeaseDisplay` and the bridge to the hardware. -/
def Display.leaseDevice (display : Display) : Except DisplayError Device :=
  if display.pluggable then
    match display.device with
    | some d => .ok d
    | none => .error .parameters
  else .error .notSupported

/-- `HWCDisplay::IsExternalDisplayLeaseReady`. -/
def isLeaseReady (slot : Slot) : SessionProg Bool := do
  if ← call (.displayPaused slot) then pure false else call (.displayUsable slot)

/-- `HWCDisplay::IsExternalDisplayLeaseConnected`. -/
def isLeaseConnected (display : Display) : SessionProg Bool := do
  match display.leaseDevice with
  | .error _ => pure false
  | .ok d =>
    let (error, connected) ← isExternalDisplayLeaseConnected d
    pure (error == .noError && connected)

/-- Reserves the display's objects. -/
def prepareExternalDisplayLease (slot : Slot) (display : Display) (lease : LeaseInfo) :
    SessionProg (Option LeaseInfo) := do
  if ← isLeaseReady slot then
    match display.leaseDevice with
    | .error _ => pure none
    | .ok d => do
      match ← prepareDeviceLease d lease with
      | .ok lease => pure (some lease)
      | .error _ => pure none
  else pure none

/-- Creates the lease of a paused display. -/
def createExternalDisplayLease (slot : Slot) (display : Display) (lease : LeaseInfo) :
    SessionProg (Option LeaseInfo) := do
  if ← call (.displayPaused slot) then
    match display.leaseDevice with
    | .error _ => pure none
    | .ok d => do
      match ← createDeviceLease d lease with
      | .ok lease => pure (some lease)
      | .error _ => pure none
  else pure none

/-- `HWCDisplay::RevokeExternalDisplayLease`, which succeeds where leases are not supported. -/
def revokeExternalDisplayLease (display : Display) : SessionProg Bool := do
  match display.leaseDevice with
  | .error e => pure (e == .notSupported)
  | .ok d =>
    let error ← revokeDeviceLease d
    pure (error == .noError || error == .notSupported)

/-- Drops the reservation. -/
def abortExternalDisplayLeasePreparation (display : Display) : SessionProg Bool := do
  match display.leaseDevice with
  | .error _ => pure false
  | .ok d =>
    let error ← abortDevicePreparation d
    pure (error == .noError)

/-- Revokes the lease. -/
def resetExternalDisplayLease (display : Display) : SessionProg Bool := do
  match display.leaseDevice with
  | .error _ => pure false
  | .ok d =>
    let error ← resetDeviceLease d
    pure (error == .noError)

/-! ## Acquiring -/

/-- What `AcquireHdmiLease` returns: its result, the filled status and the lease descriptor. -/
structure Acquired where
  result : Int
  status : Message
  leaseFd : Option Fd := none

/-- The fields that `fill_status` writes. -/
def Session.fillStatus (s : Session) (status : Message) : Message :=
  { status with
    state := s.state
    connectorId := s.info.connectorId
    crtcId := s.info.crtcId
    planeId := s.info.planeId
    lesseeId := s.info.lesseeId
    flags := s.phase
    detail := detailText s.detail }

/-- A result with the session's status. -/
def fillStatus (status : Message) (result : Int) : SessionProg Acquired := do
  pure { result := result, status := (← getSession).fillStatus status }

/-- Set the detail text and return with `result`. -/
def acquireRefused (status : Message) (result : Int) (detail : String) :
    SessionProg Acquired := do
  update fun s => { s with detail := detail }
  fillStatus status result

/-- The session is Android's again. -/
def Session.resetTransition (s : Session) : Session :=
  { s with state := stateAndroid, phase := acquireNone, displayIdx := none, info := {} }

/-- Set the detail text, give the display back to Android and return with `result`. -/
def acquireFailed (status : Message) (result : Int) (detail : String) : SessionProg Acquired := do
  update fun s => { s.resetTransition with detail := detail }
  fillStatus status result

/-- The pluggable displays that exist. -/
def Session.candidates (s : Session) : List Slot :=
  s.pluggable.filter fun slot => slot < s.numDisplays && (s.displays slot).isSome

/-- `SurfaceFlinger`, a secure session or a virtual display forbids leasing. -/
def leasingForbidden : SessionProg Bool := do
  if ← call .clientConnected then
    if ← call .secureSession then pure true else call .virtualDisplay
  else pure true

/-- The selected display is prepared. -/
def prepareSelected (status : Message) (slot : Slot) (display : Display) :
    SessionProg Acquired := do
  if ← isLeaseReady slot then
    match ← prepareExternalDisplayLease slot display {} with
    | none =>
      acquireFailed status errUnavailable "cannot pin the external display primary plane"
    | some lease =>
      update fun s => { s with
        displayIdx := some slot
        info := lease
        phase := acquirePrepare
        detail := "external display resources prepared; Android remains active" }
      fillStatus status statusOk
  else acquireFailed status errUnavailable "external display is not on and lease-ready"

/-- The first phase. -/
def acquirePreparePhase (status : Message) : SessionProg Acquired := do
  let s ← getSession
  if s.state ≠ stateAndroid ∨ s.phase ≠ acquireNone then
    acquireRefused status errBusy "lease transition already active"
  else if ← leasingForbidden then
    acquireRefused status errUnavailable
      "SurfaceFlinger, secure session, or virtual-display state forbids leasing"
  else do
    update fun s => { s with
      state := stateDraining
      detail := "selecting Android external display" }
    let s ← getSession
    match s.candidates with
    | [slot] =>
      match s.displays slot with
      | none =>
        acquireFailed status errUnavailable "external display is not on and lease-ready"
      | some display => prepareSelected status slot display
    | _ =>
      acquireFailed status errUnavailable "exactly one active Android pluggable display is required"

/-- A secure session or a virtual display appeared during the takeover. -/
def takeoverForbidden : SessionProg Bool := do
  if ← call .secureSession then pure true else call .virtualDisplay

/-- Let the updates of a paused display go on, without a check of the outcome. -/
def resumePaused (slot : Slot) (paused : Bool) : SessionProg Unit :=
  if paused then do
    let _ ← call (.toggleScreenUpdates slot true)
    pure ()
  else pure ()

def refreshIf (refresh : Bool) : SessionProg Unit :=
  if refresh then call .refreshPrimary else pure ()

/-- The takeover is given up: the preparation is aborted, and paused updates go on. -/
def abandonTakeover (status : Message) (slot : Slot) (display : Display) (result : Int)
    (detail : String) (paused refresh : Bool) : SessionProg Acquired := do
  let _ ← abortExternalDisplayLeasePreparation display
  resumePaused slot paused
  update fun s => { s.resetTransition with detail := detail }
  refreshIf refresh
  fillStatus status result

/-- The second phase. -/
def pauseSelected (status : Message) (slot : Slot) (display : Display) : SessionProg Acquired := do
  if ← call (.toggleScreenUpdates slot false) then
    update fun s => { s with
      phase := acquirePause
      detail := "Android external updates quiesced; last frame remains active" }
    call .refreshPrimary
    fillStatus status statusOk
  else
    abandonTakeover status slot display errIo
      "Android could not quiesce external display updates" true true

/-- The third phase. -/
def createSelected (status : Message) (slot : Slot) (display : Display) :
    SessionProg Acquired := do
  match ← createExternalDisplayLease slot display (← getSession).info with
  | none =>
    abandonTakeover status slot display errIo
      "DRM lease creation failed; Android was resumed" true true
  | some lease =>
    match lease.leaseFd with
    | none =>
      abandonTakeover status slot display errIo
        "DRM lease creation failed; Android was resumed" true true
    | some fd =>
      update fun s => { s with
        info := lease
        phase := acquireCreate
        state := stateLeased
        detail := "external display leased to root broker" }
      pure { ← fillStatus status statusOk with leaseFd := some fd }

/-- A phase on the selected display. -/
def acquireSelected (phase : UInt32) (status : Message) (slot : Slot) : SessionProg Acquired := do
  let s ← getSession
  match s.displays slot with
  | none =>
    acquireFailed status errUnavailable "display or secure-session state changed during takeover"
  | some display =>
    if ← takeoverForbidden then
      abandonTakeover status slot display errUnavailable
        "display or secure-session state changed during takeover"
        (s.phase == acquirePause) (s.phase == acquirePause)
    else if phase = acquirePause then pauseSelected status slot display
    else createSelected status slot display

/-- `AcquireHdmiLease`. -/
def acquireHdmiLease (phase : UInt32) (status : Message) : SessionProg Acquired := do
  if phase = acquirePrepare then acquirePreparePhase status
  else if phase ≠ acquirePause ∧ phase ≠ acquireCreate then
    acquireRefused status errProtocol "staged acquire phase is required"
  else do
    let s ← getSession
    let required := if phase = acquirePause then acquirePrepare else acquirePause
    match s.displayIdx with
    | none => acquireRefused status errState "staged acquire request is out of sequence"
    | some slot =>
      if s.state ≠ stateDraining ∨ s.phase ≠ required then
        acquireRefused status errState "staged acquire request is out of sequence"
      else acquireSelected phase status slot

/-! ## Releasing -/

/-- The lease of a completed takeover is revoked and reset; an unfinished one is aborted. The result
    is whether this succeeded, and whether the display is connected. -/
def releaseLease (phase : UInt32) (display : Display) : SessionProg (Bool × Bool) := do
  if phase = acquireCreate then
    let revoked ← revokeExternalDisplayLease display
    let connected ← isLeaseConnected display
    let reset ← resetExternalDisplayLease display
    pure (revoked && reset, connected)
  else do
    let connected ← isLeaseConnected display
    let aborted ← abortExternalDisplayLeasePreparation display
    pure (aborted, connected)

/-- Android's updates of a connected display go on. After a lease the power state is driven through
    both transitions. -/
def resumeUpdates (phase : UInt32) (slot : Slot) : SessionProg Bool := do
  if phase = acquireCreate then
    let paused ← call (.setDisplayStatus slot .pause)
    let resumed ← call (.setDisplayStatus slot .resume)
    pure (paused && resumed)
  else call (.toggleScreenUpdates slot true)

/-- What a release does to the display. -/
def restoreDisplay (phase : UInt32) (slot : Slot) (display : Display) :
    SessionProg (Bool × Bool) := do
  let (ok, connected) ← releaseLease phase display
  if phase ≥ acquirePause ∧ connected = true then
    let resumed ← resumeUpdates phase slot
    pure (ok && resumed, connected)
  else pure (ok, connected)

/-- The display that a release works on, if it exists. -/
def Session.selectedDisplay (s : Session) : Option (Slot × Display) :=
  match s.displayIdx with
  | none => none
  | some slot => if slot < s.numDisplays then (s.displays slot).map fun d => (slot, d) else none

/-- The fields after a release. -/
def Session.released (s : Session) (ok connected : Bool) : Session :=
  if ok || !connected then
    { s with
      info := {}
      displayIdx := none
      phase := acquireNone
      state := stateAndroid
      detail :=
        if connected then "Android external display restored"
        else "lease ended after external disconnect" }
  else
    { s with
      info := {}
      state := stateError
      detail := "lease revoked, but synchronized Android resume reported an error" }

/-- The display is drawn again, or a hotplug is noted that was put off during the takeover. -/
def followRelease (connected : Bool) : SessionProg Unit :=
  if connected then call .refreshPrimary
  else update fun s => { s with pendingHotplug := true }

/-- The end of a release. -/
def finishRelease (ok connected : Bool) : SessionProg Int := do
  update fun s => s.released ok connected
  followRelease connected
  pure (if ok then statusOk else errIo)

/-- `ReleaseHdmiLease`. -/
def releaseHdmiLease (reason : String) : SessionProg Int := do
  let s ← getSession
  if s.state = stateAndroid ∧ s.phase = acquireNone ∧ s.displayIdx = none then pure statusOk
  else do
    update fun s => { s with state := stateRestoring, detail := reason }
    match s.selectedDisplay with
    | none => finishRelease true false
    | some (slot, display) =>
      let (ok, connected) ← restoreDisplay s.phase slot display
      finishRelease ok connected

/-! ## Status -/

/-- The display whose state is reported: the selected one, or the first that exists. -/
def Session.reportedDisplay (s : Session) : Option (Slot × Display) :=
  match s.displayIdx with
  | some _ => s.selectedDisplay
  | none =>
    match s.candidates with
    | [] => none
    | slot :: _ => (s.displays slot).map fun d => (slot, d)

/-- The active mode of a display, if it has one. -/
def activeAttributes (slot : Slot) : SessionProg (Option Attributes) := do
  match ← call (.activeConfig slot) with
  | none => pure none
  | some config =>
    match ← call (.displayAttributes slot config) with
    | none => pure none
    | some a => if a.xPixels > 0 ∧ a.yPixels > 0 then pure (some a) else pure none

/-- The refresh rate in millihertz. -/
def Attributes.refreshMillihz (a : Attributes) : UInt32 :=
  if a.vsyncPeriodNs > 0 then UInt32.ofNat (1000000000000 / a.vsyncPeriodNs.toNat)
  else a.fps * 1000

/-- `GetHdmiLeaseStatus`. -/
def getHdmiLeaseStatus (status : Message) : SessionProg Message := do
  let s ← getSession
  let status := { s.fillStatus status with status := statusOk }
  match s.reportedDisplay with
  | none => pure status
  | some (slot, display) =>
    let connected ← isLeaseConnected display
    let ready ← isLeaseReady slot
    let status := { status with
      flags := status.flags ||| (if connected then flagConnected else 0)
        ||| (if ready then flagLeaseReady else 0) }
    match ← activeAttributes slot with
    | none => pure status
    | some a =>
      pure { status with
        activeWidth := a.xPixels
        activeHeight := a.yPixels
        activeRefreshMillihz := a.refreshMillihz
        flags := status.flags ||| flagActiveMode }

/-- `ProcessPendingHdmiHotplug`. -/
def processPendingHdmiHotplug : SessionProg Unit := do
  let s ← getSession
  if s.pendingHotplug = true ∧ s.state = stateAndroid then call .handlePluggableDisplays
  else pure ()

/-- A display is taken down. -/
def deinitDisplay (display : Option Display) : SessionProg Unit :=
  match display.bind Display.device with
  | none => pure ()
  | some d => do
    let _ ← deinitDevice d
    pure ()

/-- A display is destroyed, as by a hotplug or at the end of the composer. -/
def destroyDisplay (slot : Slot) : SessionProg Unit := do
  deinitDisplay ((← getSession).displays slot)
  update fun s => { s with displays := Function.update s.displays slot none }

end HdmiLos.Composer
