import Mathlib.Logic.Basic

/-!
# The hdmi-los message format

The fixed-size message that the composer, the broker, the agent and the clients exchange, with the
values of its enumerations. Opcodes, states and flags keep their wire types: a peer may send any
value, and the code compares raw integers.
-/

namespace HdmiLos

/-! ## Constants -/

def hdmiLosMagic : UInt32 := 0x48444d49
/-- The protocol version between composer and broker. -/
def hdmiLosVersion : UInt16 := 2
/-- The protocol version between broker, agent and clients. -/
def hdmiLosBrokerVersion : UInt16 := 3
/-- The bits of `flags` that hold the phase of an `opAcquire` request. -/
def acquirePhaseMask : UInt32 := 0xff

def flagConnected : UInt32 := 0x00000100
def flagLeaseReady : UInt32 := 0x00000200
def flagArmed : UInt32 := 0x00000400
def flagReplugRequired : UInt32 := 0x00000800
def flagActiveMode : UInt32 := 0x00001000
def flagContinuous : UInt32 := 0x80000000

def opStatus : UInt16 := 1
def opAcquire : UInt16 := 2
def opRelease : UInt16 := 3
def opPing : UInt16 := 4
def opToggle : UInt16 := 5
def opProbe : UInt16 := 6
def opSetMode : UInt16 := 7
def opArm : UInt16 := 8
def opDisarm : UInt16 := 9
def opHotplug : UInt16 := 10
def opAgentRegister : UInt16 := 16
def opAgentPrepare : UInt16 := 17
def opAgentStart : UInt16 := 18
def opAgentStop : UInt16 := 19
def opAgentReady : UInt16 := 20
def opAgentFailed : UInt16 := 21
def opAgentProgress : UInt16 := 22
def opAgentProgressAck : UInt16 := 23
/-- The bit that a response sets in the opcode of its request. -/
def opResponse : UInt16 := 0x8000

def probeNone : UInt32 := 0
def probeLeaseHold : UInt32 := 1
def probeXorgLegacy : UInt32 := 2
def probeXorgAtomic : UInt32 := 3

def acquireNone : UInt32 := 0
def acquirePrepare : UInt32 := 1
def acquirePause : UInt32 := 2
def acquireCreate : UInt32 := 3

def stateAndroid : UInt32 := 0
def stateDraining : UInt32 := 1
def stateLeased : UInt32 := 2
def stateRestoring : UInt32 := 3
def stateUnavailable : UInt32 := 4
def stateError : UInt32 := 5
def stateAgentReady : UInt32 := 6
def stateProbing : UInt32 := 8
def stateArmed : UInt32 := 9
def stateWaiting : UInt32 := 10

def statusOk : Int := 0
def errProtocol : Int := -1
def errBusy : Int := -2
def errUnavailable : Int := -3
def errPermission : Int := -4
def errState : Int := -5
def errIo : Int := -6
def errTimeout : Int := -7
def errIncompatible : Int := -8
def errAgent : Int := -9

/-! ## Messages -/

/-- The message of 160 bytes, `struct hdmi_los_message`. A field that is not given is zero, as
    in the source's `= {}`. -/
structure Message where
  magic : UInt32 := 0
  version : UInt16 := 0
  opcode : UInt16 := 0
  requestId : UInt32 := 0
  status : Int := 0
  state : UInt32 := 0
  remainingSeconds : UInt32 := 0
  connectorId : UInt32 := 0
  crtcId : UInt32 := 0
  planeId : UInt32 := 0
  lesseeId : UInt32 := 0
  flags : UInt32 := 0
  requestedWidth : UInt32 := 0
  requestedHeight : UInt32 := 0
  requestedRefreshMillihz : UInt32 := 0
  activeWidth : UInt32 := 0
  activeHeight : UInt32 := 0
  activeRefreshMillihz : UInt32 := 0
  detail : String := ""
  deriving DecidableEq, Repr, Inhabited

/-- The test `flags & bit` of the source. -/
def hasFlag (flags bit : UInt32) : Bool :=
  flags &&& bit != 0

/-- The text that fits the 92 bytes of `detail`, with its terminator. -/
def detailText (text : String) : String :=
  String.ofList (text.toList.take 91)

namespace Message

/-- The physical link was reported as connected. -/
def connected (m : Message) : Bool :=
  hasFlag m.flags flagConnected

/-- `valid_message` of the broker and the agent. -/
def valid (m : Message) : Bool :=
  m.magic == hdmiLosMagic && m.version == hdmiLosBrokerVersion

/-- `valid_composer_message` of the broker. -/
def validComposer (m : Message) : Bool :=
  m.magic == hdmiLosMagic && m.version == hdmiLosVersion

/-- A request of the broker that the agent serves. -/
def isAgentRequest (m : Message) : Bool :=
  m.opcode == opAgentPrepare || m.opcode == opAgentStart || m.opcode == opAgentStop

/-- An unsolicited link notification of the composer. -/
def isHotplug (m : Message) : Bool :=
  m.opcode == opHotplug && m.requestId == 0

end Message

end HdmiLos
