import HdmiLos.Broker.Channels
import HdmiLos.Broker.Text

/-!
# The preferred display mode

The broker's own configuration of a mode, and Android's global preference, which is saved in a
journal while the broker overrides it.
-/

namespace HdmiLos

open Interaction

def Broker.requestedMode (b : Broker) : Mode :=
  { width := b.requestedWidth, height := b.requestedHeight,
    refreshMillihz := b.requestedRefreshMillihz }

def Broker.setRequestedMode (b : Broker) (m : Mode) : Broker :=
  { b with requestedWidth := m.width, requestedHeight := m.height,
           requestedRefreshMillihz := m.refreshMillihz }

def Message.requestedMode (m : Message) : Mode :=
  { width := m.requestedWidth, height := m.requestedHeight,
    refreshMillihz := m.requestedRefreshMillihz }

/-- The bounds on a mode that the configuration accepts. -/
def Mode.inRange (m : Mode) : Bool :=
  640 ≤ m.width && 480 ≤ m.height && 10000 ≤ m.refreshMillihz && m.refreshMillihz ≤ 240000

/-! ## Gates -/

def compatible : BrokerProg Bool := access .compatibleOk

def diagnosticOnly : BrokerProg Bool := access .diagnosticOnly

/-- In diagnostic mode the dump must be off. -/
def diagnosticDumpReady : BrokerProg Bool := do
  if ← diagnosticOnly then do
    let value ← recoveryDumpProperty
    pure (value == some "0")
  else pure true

/-- Sessions are permitted. -/
def gatesOpen : BrokerProg Bool := do
  if ← compatible then diagnosticDumpReady else pure false

/-! ## The configuration file -/

/-- Reads the configured mode. -/
def loadConfiguredMode : BrokerProg Unit := do
  match ← readText .modeConfig with
  | none => pure ()
  | some text =>
    match scanMode text with
    | none => pure ()
    | some m =>
      if m == .native || m.inRange then update fun b => b.setRequestedMode m else pure ()

/-- Stores the requested mode. -/
def saveConfiguredMode : BrokerProg Bool := do
  let b ← getBroker
  writeAtomicText .modeConfig (printMode b.requestedMode)

/-- `SetMode`: the status and the detail text. -/
def setMode (request : Message) : BrokerProg (Int × String) := do
  let b ← getBroker
  if b.active || b.armed || b.probing then
    pure (errBusy, "stop or disarm HDMI Xorg before changing its preferred mode")
  else if !(request.requestedMode == .native || request.requestedMode.inRange) then
    pure (errProtocol, "invalid preferred mode")
  else do
    update fun b => b.setRequestedMode request.requestedMode
    if ← saveConfiguredMode then
      pure (statusOk, "preferred mode saved; arm before connecting HDMI")
    else pure (errIo, "could not persist preferred mode")

/-! ## Android's preference -/

/-- The command that prefers the mode. -/
def preferenceCommand (m : Mode) : DisplayCommand :=
  if m = .native then .clearPreferred
  else .setPreferred (decimal m.width.toNat) (decimal m.height.toNat)
    (printRefresh m.refreshMillihz)

/-- `RecoverPreferredMode`: replay the journal, and delete it once Android took the mode back. -/
def recoverPreferredMode : BrokerProg Bool := do
  match ← readText .modeJournal with
  | none => pure true
  | some journal =>
    match scanMode journal with
    | none => pure false
    | some m => do
      let (ok, _) ← runDisplayCommand (preferenceCommand m)
      if ok then do
        let _ ← unlinkFile .modeJournal
        pure true
      else pure false

/-- The command of `ApplyPreferredMode` that overrides Android's preference, with its rollback. -/
def overridePreferredMode : BrokerProg (Bool × String) := do
  let b ← getBroker
  let (applied, output) ← runDisplayCommand (preferenceCommand b.requestedMode)
  if applied then pure (true, "")
  else do
    let _ ← recoverPreferredMode
    pure (false, "Android rejected the preferred external display mode: " ++ String.ofList output)

/-- `ApplyPreferredMode`: whether the mode was applied, and the failure text. -/
def applyPreferredMode : BrokerProg (Bool × String) := do
  let (ok, previous) ← runDisplayCommand .getPreferred
  let saved := if ok then parseSavedMode previous else none
  match saved with
  | none => pure (false, "cannot snapshot Android's global preferred display mode")
  | some old =>
    if ← writeAtomicText .modeJournal (printMode old) then overridePreferredMode
    else pure (false, "cannot create the preferred-mode recovery journal")

/-- The command did what `ApplyPreferredMode` expects of it. -/
def DisplayCommand.succeeded (command : DisplayCommand) (answer : Bool × Text) : Bool :=
  answer.1 && (command != .getPreferred || (parseSavedMode answer.2).isSome)

/-- Android shows the requested mode. -/
def Broker.requestedModeMatches (b : Broker) : Bool :=
  hasFlag b.composerFlags flagConnected && hasFlag b.composerFlags flagActiveMode &&
    (b.requestedMode == .native ||
      (b.activeWidth == b.requestedWidth && b.activeHeight == b.requestedHeight &&
        decide ((Int.ofNat b.activeRefreshMillihz.toNat
          - Int.ofNat b.requestedRefreshMillihz.toNat).natAbs ≤ 100)))

end HdmiLos
