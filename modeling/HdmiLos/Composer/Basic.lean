import HdmiLos.Interaction.Machine
import HdmiLos.Protocol
import Mathlib.Logic.Function.Basic

/-!
# The composer's lease state and its environment

The patched composer can hand its external display to a DRM lease. `HWCSession` keeps the stage of
the one takeover that can be under way, and `HWDeviceDRM` keeps the leases of its devices in a map
outside the class, `external_display_leases`. The functions of both are interaction programs over
these fields; every DRM call, every query of a display and every power or update command is a call
that the environment answers.

`AcquireHdmiLease`, `ReleaseHdmiLease` and `GetHdmiLeaseStatus` hold `hdmi_lease_mutex_` from their
first access to the last, so each is one step for the other threads, and the locks themselves are
left out.
-/

namespace HdmiLos

open Interaction

namespace Composer

/-! ## Displays -/

abbrev Fd := Nat

abbrev Slot := Nat

/-- An `HWDeviceDRM`: its address, which is the key of `external_display_leases`, and the fields
    that stay fixed while it lives. -/
structure Device where
  id : Nat
  tv : Bool := true
  opened : Bool := true
  atomic : Bool := true
  connId : UInt32
  crtcId : UInt32
  deriving DecidableEq, Repr

/-- An `HWCDisplay`, with the type of its `DisplayInterface` and the hardware behind it. -/
structure Display where
  pluggable : Bool := true
  device : Option Device
  deriving DecidableEq, Repr

/-- `enum DisplayError`, as far as the lease functions use it. -/
inductive DisplayError where
  | noError
  | notSupported
  | parameters
  | hardware
  | resources
  | permission
  | deviceRemoved
  deriving DecidableEq, Repr

/-- `struct DisplayLeaseInfo`. -/
structure LeaseInfo where
  leaseFd : Option Fd := none
  connectorId : UInt32 := 0
  crtcId : UInt32 := 0
  planeId : UInt32 := 0
  lesseeId : UInt32 := 0
  deriving DecidableEq, Repr

/-- `struct ExternalDisplayLeaseState`. -/
structure LeaseState where
  planeId : UInt32 := 0
  lesseeId : UInt32 := 0
  prepared : Bool := false
  active : Bool := false
  deriving DecidableEq, Repr

/-! ## Calls -/

/-- `drmModePlane`, with the fields that are read. -/
structure Plane where
  planeId : UInt32
  crtcId : UInt32 := 0
  possibleCrtcs : UInt32 := 0
  deriving DecidableEq, Repr

/-- `drmModeProperty`, with the fields that are read. -/
structure Property where
  id : UInt32
  name : String
  deriving DecidableEq, Repr

/-- `DisplayConfigVariableInfo`, with the fields that are read. -/
structure Attributes where
  xPixels : UInt32
  yPixels : UInt32
  vsyncPeriodNs : UInt32
  fps : UInt32
  deriving DecidableEq, Repr

/-- What a display is told. -/
inductive DisplayStatus where
  | pause
  | resume
  deriving DecidableEq, Repr

/-- The outcome of `drmModeRevokeLease`: success, `ENOENT`, or another error. -/
inductive RevokeAnswer where
  | revoked
  | noEntry
  | failed
  deriving DecidableEq, Repr

/-- The operations of `drm_atomic_intf_->Perform` in the reset of a leased display. -/
inductive AtomicOp where
  | planesResetCache (crtc : UInt32)
  | crtcResetCache (crtc : UInt32)
  | connectorSetCrtc (conn crtc : UInt32)
  | crtcSetMode (crtc : UInt32)
  | crtcSetInactive (crtc : UInt32)
  | connectorPowerOff (conn : UInt32)
  deriving DecidableEq, Repr

/-- The calls of the session and of the DRM layer. -/
inductive Io where
  | clientConnected
  | secureSession
  | virtualDisplay
  | refreshPrimary
  | handlePluggableDisplays
  | displayUsable (slot : Slot)
  | displayPaused (slot : Slot)
  | toggleScreenUpdates (slot : Slot) (on : Bool)
  | setDisplayStatus (slot : Slot) (status : DisplayStatus)
  | activeConfig (slot : Slot)
  | displayAttributes (slot : Slot) (config : UInt32)
  | isMaster
  | getConnector (id : UInt32)
  | getResources
  | getPlaneResources
  | getPlane (id : UInt32)
  | objectProperties (id : UInt32)
  | getProperty (id : UInt32)
  | atomicAlloc
  | atomicAdd (plane property : UInt32) (value : UInt64)
  | atomicCommit (testOnly : Bool)
  | perform (op : AtomicOp)
  | nullCommit
  | createLease (device : Nat) (objects : List UInt32)
  | revokeLease (device : Nat) (lessee : UInt32)

/-- The answers. A query that can fail answers `none`, a command answers whether it succeeded, and
    `createLease` answers with the descriptor and the id of the lessee. -/
abbrev Io.Ans : Io → Type
  | clientConnected => Bool
  | secureSession => Bool
  | virtualDisplay => Bool
  | refreshPrimary => Unit
  | handlePluggableDisplays => Unit
  | displayUsable _ => Bool
  | displayPaused _ => Bool
  | toggleScreenUpdates _ _ => Bool
  | setDisplayStatus _ _ => Bool
  | activeConfig _ => Option UInt32
  | displayAttributes _ _ => Option Attributes
  | isMaster => Bool
  | getConnector _ => Option Bool
  | getResources => Option (List UInt32)
  | getPlaneResources => Option (List UInt32)
  | getPlane _ => Option Plane
  | objectProperties _ => Option (List (UInt32 × UInt64))
  | getProperty _ => Option Property
  | atomicAlloc => Bool
  | atomicAdd _ _ _ => Bool
  | atomicCommit _ => Bool
  | perform _ => Unit
  | nullCommit => Bool
  | createLease _ _ => Option (Fd × UInt32)
  | revokeLease _ _ => RevokeAnswer

/-! ## State -/

/-- The fields of `HWCSession` that the takeover uses, the map of the leases, and the plane that is
    kept out of Android's allocator. `displayIdx` is `none` where the source has `-1`, `numDisplays`
    is `HWCCallbacks::kNumDisplays`, and `pluggable` holds the client ids of
    `map_info_pluggable_`. -/
structure Session where
  state : UInt32 := stateAndroid
  phase : UInt32 := acquireNone
  displayIdx : Option Slot := none
  info : LeaseInfo := {}
  detail : String := "Android owns external display"
  pendingHotplug : Bool := false
  numDisplays : Nat
  displays : Slot → Option Display := fun _ => none
  pluggable : List Slot := []
  leases : Nat → Option LeaseState := fun _ => none
  reservedPlane : UInt32 := 0

abbrev SessionProg := Machine Session Io.Ans

abbrev Env (ω : Type) := Handler Io Io.Ans ω

abbrev Sys (ω : Type) := Process Session Io.Ans ω

abbrev sysHandler {ω : Type} (env : Env ω) := processHandler (V := Session) env

def getSession : SessionProg Session :=
  Prog.perform Act.get

def update (f : Session → Session) : SessionProg Unit :=
  Prog.perform (Act.modify f)

def call (c : Io) : SessionProg c.Ans :=
  Prog.perform (Act.io c)

/-- Store the state of a device's lease, or erase it. -/
def Session.setLease (s : Session) (device : Nat) (e : Option LeaseState) : Session :=
  { s with leases := Function.update s.leases device e }

end Composer

end HdmiLos
