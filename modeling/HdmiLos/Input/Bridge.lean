import HdmiLos.Broker.Basic
import Mathlib.Logic.Function.Basic
import Mathlib.Algebra.Ring.Nat

/-!
# The input bridge

Any number of grabbed mice and keyboards feed one virtual mouse and one virtual keyboard. A virtual
key is pressed when the first source presses it and released when the last one that holds it lets it
go or goes away. What is written to a virtual device is kept in its state, and writes succeed.
-/

namespace HdmiLos.Input

/-! ## Numbers -/

def roleMouse : UInt32 := 1
def roleKeyboard : UInt32 := 2

def evSyn : UInt16 := 0
def evKey : UInt16 := 1
def evRel : UInt16 := 2
def evMsc : UInt16 := 4
def synReport : UInt16 := 0
def synDropped : UInt16 := 3
def mscScan : UInt16 := 4
def relX : UInt16 := 0
def relY : UInt16 := 1
def relHwheel : UInt16 := 6
def relWheel : UInt16 := 8
def relWheelHiRes : UInt16 := 11
def relHwheelHiRes : UInt16 := 12
def keyCnt : Nat := 768
def btnMouse : Nat := 272
def btnTask : Nat := 279
def busUsb : UInt16 := 3
def busBluetooth : UInt16 := 5

/-! ## Devices -/

/-- `struct input_event`. -/
structure InputEvent where
  type : UInt16
  code : UInt16
  value : Int := 0
  deriving DecidableEq, Repr

/-- `struct physical_device`. -/
structure Physical where
  fd : Fin (2 ^ 31)
  path : String := ""
  name : String := ""
  roles : UInt32 := 0
  pressed : Nat → Bool := fun _ => false
  dropping : Bool := false
  pendingMouse : Bool := false
  pendingKeyboard : Bool := false

/-- `virtual_mouse` and `virtual_keyboard`. -/
inductive Device where
  | mouse
  | keyboard
  deriving DecidableEq, Repr

/-- `struct virtual_device`, with the events written to it. -/
structure Virtual where
  opened : Bool := true
  holders : Nat → UInt32 := fun _ => 0
  hiresWheel : Bool := false
  hiresHwheel : Bool := false
  emitted : List InputEvent := []

/-- The virtual devices. -/
abbrev Outputs := Device → Virtual

namespace Outputs

/-- Writes an event. -/
def emit (o : Outputs) (d : Device) (event : InputEvent) : Outputs :=
  Function.update o d { o d with emitted := (o d).emitted ++ [event] }

def emitKey (o : Outputs) (d : Device) (code : Nat) (value : Int) : Outputs :=
  o.emit d { type := evKey, code := UInt16.ofNat code, value := value }

/-- Ends a frame. -/
def emitSync (o : Outputs) (d : Device) : Outputs :=
  o.emit d { type := evSyn, code := synReport }

/-- Sets the count of a key. -/
def setHolders (o : Outputs) (d : Device) (code : Nat) (n : UInt32) : Outputs :=
  Function.update o d { o d with holders := Function.update (o d).holders code n }

/-- One key of `release_keys`, with `changed`. -/
def releaseKey (d : Device) (state : Bool × Outputs) (code : Nat) : Bool × Outputs :=
  if (state.2 d).holders code == 0 then state
  else (true, (state.2.setHolders d code 0).emitKey d code 0)

/-- Releases all keys. -/
def releaseKeys (o : Outputs) (d : Device) : Outputs :=
  let (changed, o) := (List.range keyCnt).foldl (releaseKey d) (false, o)
  if changed then o.emitSync d else o

/-- Removes a virtual device. -/
def destroyVirtual (o : Outputs) (d : Device) : Outputs :=
  if (o d).opened then
    let o := o.releaseKeys d
    Function.update o d { o d with opened := false }
  else o

end Outputs

/-! ## Keys -/

/-- Where a key goes. -/
def keyTarget (roles : UInt32) (code : Nat) : Option Device :=
  if code ≥ keyCnt then none
  else if btnMouse ≤ code ∧ code ≤ btnTask then
    if hasFlag roles roleMouse then some .mouse else none
  else if hasFlag roles roleKeyboard then some .keyboard else none

namespace Physical

def setPressed (s : Physical) (code : Nat) (down : Bool) : Physical :=
  { s with pressed := Function.update s.pressed code down }

/-- The flag that `change_key` sets. -/
def setPending (s : Physical) : Device → Physical
  | .mouse => { s with pendingMouse := true }
  | .keyboard => { s with pendingKeyboard := true }

end Physical

/-- A source together with the virtual devices. -/
structure Port where
  source : Physical
  outputs : Outputs

namespace Port

/-- Writes a key within a frame. -/
def sendKey (p : Port) (d : Device) (code : Nat) (value : Int) : Port :=
  ⟨p.source.setPending d, p.outputs.emitKey d code value⟩

/-- `change_key`, for a key with the target `d`. -/
def changeTarget (p : Port) (d : Device) (code : Nat) (value : Int) : Port :=
  let held := (p.outputs d).holders code
  if value = 2 then
    if p.source.pressed code && held != 0 then p.sendKey d code 2 else p
  else if value = 1 ∧ p.source.pressed code = false then
    let p : Port := ⟨p.source.setPressed code true, p.outputs.setHolders d code (held + 1)⟩
    if held = 0 then p.sendKey d code 1 else p
  else if value = 0 ∧ p.source.pressed code = true then
    let p : Port := ⟨p.source.setPressed code false, p.outputs.setHolders d code (held - 1)⟩
    if held - 1 = 0 then p.sendKey d code 0 else p
  else p

/-- A source's key changes. -/
def changeKey (p : Port) (code : Nat) (value : Int) : Port :=
  match keyTarget p.source.roles code with
  | none => p
  | some d => p.changeTarget d code value

/-- Ends the frames that were begun. -/
def flushFrame (p : Port) : Port :=
  let o := if p.source.pendingMouse then p.outputs.emitSync .mouse else p.outputs
  let o := if p.source.pendingKeyboard then o.emitSync .keyboard else o
  ⟨{ p.source with pendingMouse := false, pendingKeyboard := false }, o⟩

/-- The bit of a key in the answer to `EVIOCGKEY`. -/
def keyBit (bits : List UInt8) (code : Nat) : Bool :=
  (bits.getD (code / 8) 0).toNat.testBit (code % 8)

/-- One key of `reconcile_key_bits`. -/
def reconcileKey (bits : List UInt8) (p : Port) (code : Nat) : Port :=
  if (keyTarget p.source.roles code).isNone then p
  else if keyBit bits code != p.source.pressed code then
    p.changeKey code (if keyBit bits code then 1 else 0)
  else p

/-- Takes over the kernel's key state. -/
def reconcileKeyBits (p : Port) (bits : List UInt8) : Port :=
  (List.range keyCnt).foldl (reconcileKey bits) p

/-- The virtual mouse has the axis. -/
def relativeSupported (o : Outputs) (code : UInt16) : Bool :=
  if code == relX || code == relY || code == relWheel || code == relHwheel then true
  else if code == relWheelHiRes then (o .mouse).hiresWheel
  else if code == relHwheelHiRes then (o .mouse).hiresHwheel
  else false

/-- An event that is passed on as it is. -/
def passEvent (p : Port) (d : Device) (event : InputEvent) : Port :=
  ⟨p.source.setPending d, p.outputs.emit d event⟩

/-- The end of a dropped frame. -/
def endDropping (p : Port) : Port :=
  flushFrame ⟨{ p.source with dropping := false }, p.outputs⟩

/-- The branch of `forward_events` for `SYN_REPORT`; the answer to `EVIOCGKEY` is in `keys`. -/
def forwardReport (p : Port) (keys : Option (List UInt8)) : Bool × Port :=
  if p.source.dropping then
    match keys with
    | none => (false, p)
    | some bits => (true, (p.reconcileKeyBits bits).endDropping)
  else (true, p.flushFrame)

/-- The branches of `forward_events` for an event of a frame that is not dropped. -/
def forwardData (p : Port) (event : InputEvent) : Port :=
  if event.type = evKey then p.changeKey event.code.toNat event.value
  else if event.type = evRel ∧ hasFlag p.source.roles roleMouse = true ∧
      relativeSupported p.outputs event.code = true then p.passEvent .mouse event
  else if event.type = evMsc ∧ event.code = mscScan then
    let p := if hasFlag p.source.roles roleMouse then p.passEvent .mouse event else p
    if hasFlag p.source.roles roleKeyboard then p.passEvent .keyboard event else p
  else p

/-- One event of `forward_events`: false if the function returns false at it. -/
def forwardEvent (p : Port) (event : InputEvent) (keys : Option (List UInt8)) : Bool × Port :=
  if event.type = evSyn ∧ event.code = synDropped then
    (true, ⟨{ p.source with dropping := true }, p.outputs⟩)
  else if event.type = evSyn ∧ event.code = synReport then p.forwardReport keys
  else if p.source.dropping then (true, p)
  else (true, p.forwardData event)

/-- The loop of `forward_events` over the events that are read, each with the answer to `EVIOCGKEY`
    at that moment. `drained` is whether the last `read` only found nothing more. -/
def forwardAll (drained : Bool) : List (InputEvent × Option (List UInt8)) → Port → Bool × Port
  | [], p => (drained, p)
  | (event, keys) :: events, p =>
    match p.forwardEvent event keys with
    | (true, p) => forwardAll drained events p
    | (false, p) => (false, p)

/-- Forwards what a source delivers. -/
def forwardEvents (p : Port) (revents : Revents)
    (events : List (InputEvent × Option (List UInt8))) (drained : Bool) : Bool × Port :=
  if revents.error then (false, p)
  else if !revents.input then (true, p)
  else forwardAll drained events p

/-- One key of `disconnect_physical`. -/
def releaseKey (p : Port) (code : Nat) : Port :=
  if p.source.pressed code then p.changeKey code 0 else p

/-- The part of `disconnect_physical` that releases the keys. -/
def letGo (p : Port) : Port := ((List.range keyCnt).foldl releaseKey p).flushFrame

end Port

/-! ## The bridge -/

/-- A path that `scan_physical` finds, and how its calls are answered. -/
structure Candidate where
  path : String
  opened : Option (Fin (2 ^ 31))
  identity : Option (UInt16 × String)
  mouseCapable : Bool
  keyboardCapable : Bool
  grabbed : Bool
  allocated : Bool

/-- The roles of a device. -/
def classifyDevice (bus : UInt16) (name : String) (mouseCapable keyboardCapable : Bool) : UInt32 :=
  if bus = busBluetooth then
    if mouseCapable && name == "ASUS MD100 Mouse" then roleMouse
    else if keyboardCapable && name == "BT Keyboard" then roleKeyboard
    else 0
  else if bus ≠ busUsb then 0
  else (if mouseCapable then roleMouse else 0) ||| (if keyboardCapable then roleKeyboard else 0)

/-- `sources` and the virtual devices; `ended` when `run` has returned. -/
structure Bridge where
  sources : List Physical := []
  outputs : Outputs := fun _ => {}
  ended : Bool := false

namespace Bridge

/-- One path of `scan_physical`. A descriptor that is opened is not one that is open. -/
def scanPath (b : Bridge) (c : Candidate) : Bridge :=
  if b.sources.any (·.path == c.path) then b
  else match c.opened, c.identity with
    | some fd, some (bus, name) =>
      let roles := classifyDevice bus name c.mouseCapable c.keyboardCapable
      if roles != 0 && c.grabbed && c.allocated && !b.sources.any (·.fd == fd) then
        { b with sources := b.sources ++ [{ fd := fd, path := c.path, name := name, roles := roles }] }
      else b
    | _, _ => b

/-- Looks for new sources. -/
def scanPhysical (b : Bridge) (found : List Candidate) : Bridge := found.foldl scanPath b

/-- Forwards what the source `i` delivers. -/
def forward (b : Bridge) (i : Nat) (revents : Revents)
    (events : List (InputEvent × Option (List UInt8))) (drained : Bool) : Bool × Bridge :=
  match b.sources[i]? with
  | none => (true, b)
  | some source =>
    let (ok, p) := Port.forwardEvents ⟨source, b.outputs⟩ revents events drained
    (ok, { b with sources := b.sources.set i p.source, outputs := p.outputs })

/-- Drops a source. -/
def disconnectPhysical (b : Bridge) (i : Nat) : Bridge :=
  match b.sources[i]? with
  | none => b
  | some source =>
    { b with sources := b.sources.eraseIdx i, outputs := (Port.letGo ⟨source, b.outputs⟩).outputs }

/-- The loop that disconnects what is left, from the last source on. -/
def disconnectAll : Nat → Bridge → Bridge
  | 0, b => b
  | n + 1, b => disconnectAll n (b.disconnectPhysical n)

/-- Ends the bridge. -/
def finish (b : Bridge) : Bridge :=
  let b := disconnectAll b.sources.length b
  { b with outputs := (b.outputs.destroyVirtual .keyboard).destroyVirtual .mouse, ended := true }

/-- One of the things that the loop of `run` does, or its end. -/
inductive Move where
  | scan (found : List Candidate)
  | forward (i : Nat) (revents : Revents) (events : List (InputEvent × Option (List UInt8)))
      (drained : Bool)
  | disconnect (i : Nat)
  | finish

/-- A move of the bridge. -/
def step (b : Bridge) (m : Move) : Bridge :=
  if b.ended then b
  else match m with
    | .scan found => b.scanPhysical found
    | .forward i revents events drained => (b.forward i revents events drained).2
    | .disconnect i => b.disconnectPhysical i
    | .finish => b.finish

/-- The bridge after its virtual devices have been created. -/
def start (hiresWheel hiresHwheel : Bool) : Bridge :=
  { outputs := fun
      | .mouse => { hiresWheel := hiresWheel, hiresHwheel := hiresHwheel }
      | .keyboard => {} }

/-- The bridge after the moves. -/
def run (hiresWheel hiresHwheel : Bool) (moves : List Move) : Bridge :=
  moves.foldl step (start hiresWheel hiresHwheel)

end Bridge

/-! ## What is to hold -/

/-- The source holds the key `code` of the device `d`. -/
def Physical.holds (d : Device) (code : Nat) (s : Physical) : Bool :=
  s.pressed code && keyTarget s.roles code == some d

/-- The values of the events of one key. -/
def keyValues (code : Nat) (events : List InputEvent) : List Int :=
  (events.filter fun e => e.type == evKey && e.code.toNat == code).map (·.value)

/-- Presses and releases in turn, with a press first and repeats only while the key is down. -/
inductive Taps : Bool → List Int → Prop where
  | untouched : Taps false []
  | press {values : List Int} : Taps false values → Taps true (values ++ [1])
  | again {values : List Int} : Taps true values → Taps true (values ++ [2])
  | release {values : List Int} : Taps true values → Taps false (values ++ [0])

/-- The last value that is not a repeat. -/
def lastValue (values : List Int) : Option Int := (values.filter (· ≠ 2)).getLast?

end HdmiLos.Input
