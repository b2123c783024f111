import HdmiLos.Broker.Basic
import HdmiLos.Trace

/-!
# The agent's state and its environment

The chroot agent serves the broker's requests one at a time: it prepares a session, starts Xorg on a
lease, and stops it. In between it relays the trace records of the interposed Xorg to the broker.
Its functions are interaction programs over the globals of `main.cpp`. Steps that prepare the file
system and whose only effect on the agent is their success are single calls.
-/

namespace HdmiLos

open Interaction

/-- A process id. Like descriptors, ids are never reused. -/
abbrev Pid := Nat

/-- The globals of the agent, without the connection to the broker, which is open all the time. -/
structure Agent where
  bridge : Option Pid := none
  xorg : Option Pid := none
  session : Option Pid := none
  trace : Option Fd := none
  verifyLease : Option Fd := none
  probeMode : UInt32 := probeNone
  startLxde : Bool := true
  noTimeout : Bool := false
  traceStartupOnly : Bool := true
  mouse : Text := []
  keyboard : Text := []
  androidMode : ModeInfo := {}
  androidModeValid : Bool := false
  expectedConnector : UInt32 := 0
  expectedCrtc : UInt32 := 0
  scanoutSequence : UInt32 := 0
  scanoutFb : UInt32 := 0
  scanoutConnectorSeen : Bool := false
  scanoutConfirmed : Bool := false
  scanoutFailed : Bool := false
  traceSteady : Bool := false
  scanoutFailure : String := ""

namespace Agent

/-! ## Operations -/

/-- Which call of `recv_message` reads from the broker: the registration, the request loop, or the
    wait for the acknowledgement of a trace record. -/
inductive Reader where
  | registration
  | request
  | acknowledgement
  deriving DecidableEq, Repr

/-- A process that the agent forks. -/
inductive Child where
  | tracer
  | bridge
  | xorg (lease : Fd)
  | session
  | tool (name : String)
  deriving DecidableEq, Repr

/-- The signals the agent sends. -/
inductive Signal where
  | term
  | kill
  deriving DecidableEq, Repr

/-- The outcome of a `poll` of one descriptor that is repeated when it is interrupted. -/
inductive PollOne where
  | timeout
  | failed
  | ready (revents : Revents)
  deriving DecidableEq, Repr

/-- The outcome of `waitpid` with `WNOHANG`. The exit code is missing after a signal. -/
inductive WaitAnswer where
  | running
  | interrupted
  | failed
  | exited (code : Option Nat)
  deriving DecidableEq, Repr

/-- The sizes of the arrays that a connector query fills. -/
structure ConnectorCounts where
  encoders : Nat := 0
  props : Nat := 0
  modes : Nat := 0
  deriving DecidableEq, Repr

/-- The sizes of one query are enough for another. -/
def ConnectorCounts.fits (a b : ConnectorCounts) : Bool :=
  a.encoders ≤ b.encoders && a.props ≤ b.props && a.modes ≤ b.modes

/-- `struct drm_mode_get_connector`, with the array of the modes. -/
structure Connector where
  connected : Bool := false
  counts : ConnectorCounts := {}
  modes : List ModeInfo := []
  deriving Repr

/-- The files in which the output of the verification tools is kept. -/
inductive OutputFile where
  | xrandr
  | xinput
  deriving DecidableEq, Repr

/-- The agent's system calls. -/
inductive Io where
  | stopRequested
  | monotonicMs
  | usleep (microseconds : Nat)
  | connectBroker
  | pollPeers (trace : Option Fd)
  | writeBroker (message : Message)
  | recvBroker (reader : Reader)
  | close (fd : Fd)
  | socketpair
  | fork (child : Child) (pid : Pid)
  | processAlive (pid : Pid)
  | leadsGroup (pid : Pid)
  | kill (pid : Pid) (group : Bool) (signal : Signal)
  | waitpid (pid : Pid)
  | waitNoHang (pid : Pid)
  | pollTrace (fd : Fd) (timeoutMs : Int)
  | recvTrace (fd : Fd)
  | sendTrace (fd : Fd) (record : TraceRecord)
  | traceGate
  | getUser
  | runtimeDirectory
  | unlinkInputPaths
  | inputPaths
  | displayLock
  | createAuthority
  | randomCookie
  | userRuntime
  | getConnector (lease : Fd) (connector : UInt32) (room : ConnectorCounts)
  | writeXorgConfig (mouse keyboard : Text) (probeMode : UInt32) (mode : ModeInfo)
  | dup (fd copy : Fd)
  | getCrtc (fd : Fd) (crtc : UInt32)
  | readLines (file : OutputFile)

/-- The answers. A call that opens a descriptor or starts a process answers whether it succeeded. -/
abbrev Io.Ans : Io → Type
  | stopRequested => Bool
  | monotonicMs => Int
  | usleep _ => Unit
  | connectBroker => Bool
  | pollPeers _ => PollAnswer
  | writeBroker _ => Bool
  | recvBroker _ => Received
  | close _ => Unit
  | socketpair => Bool
  | fork _ _ => Bool
  | processAlive _ => Bool
  | leadsGroup _ => Bool
  | kill _ _ _ => Unit
  | waitpid _ => Unit
  | waitNoHang _ => WaitAnswer
  | pollTrace _ _ => PollOne
  | recvTrace _ => Option TraceRecord
  | sendTrace _ _ => Bool
  | traceGate => Bool
  | getUser => Bool
  | runtimeDirectory => Bool
  | unlinkInputPaths => Unit
  | inputPaths => Option (List Text)
  | displayLock => Bool
  | createAuthority => Bool
  | randomCookie => Bool
  | userRuntime => Bool
  | getConnector _ _ _ => Option Connector
  | writeXorgConfig _ _ _ _ => Bool
  | dup _ _ => Bool
  | getCrtc _ _ => Option DrmCrtc
  | readLines _ => Option (List Text)

end Agent

abbrev AgentProg := Machine Agent Agent.Io.Ans

namespace Agent

/-! ## Primitives -/

def getAgent : AgentProg Agent := Prog.perform Act.get

def assign (f : Agent → Agent) : AgentProg Unit := Prog.perform (Act.modify f)

def call (c : Io) : AgentProg c.Ans := Prog.perform (Act.io c)

/-- A new name for a descriptor or a process. -/
def fresh : AgentProg Nat := Prog.perform Act.fresh

def monotonicMs : AgentProg Int := call .monotonicMs

def usleep (microseconds : Nat) : AgentProg Unit := call (.usleep microseconds)

def closeFd (fd : Fd) : AgentProg Unit := call (.close fd)

/-- Closes a descriptor that may be -1. -/
def closeIfOpen (fd : Option Fd) : AgentProg Unit :=
  match fd with
  | some fd => closeFd fd
  | none => pure ()

/-- `fork`, and what the child then executes. -/
def fork (child : Child) : AgentProg (Option Pid) := do
  let pid ← fresh
  if ← call (.fork child pid) then pure (some pid) else pure none

def processAlive (pid : Pid) : AgentProg Bool := call (.processAlive pid)

/-- Waits for a child, which then has ended. -/
def waitpid (pid : Pid) : AgentProg Unit := call (.waitpid pid)

/-- `waitpid` with `WNOHANG`. -/
def waitNoHang (pid : Pid) : AgentProg WaitAnswer := call (.waitNoHang pid)

/-- Signals a process, or its group. -/
def kill (pid : Pid) (group : Bool) (signal : Signal) : AgentProg Unit :=
  call (.kill pid group signal)

def writeBroker (m : Message) : AgentProg Bool := call (.writeBroker m)

/-- `recv_message`: its result, the message, and the descriptor that came with it. -/
def recvMessage (reader : Reader) : AgentProg (Bool × Message × Option Fd) := do
  let received ← call (.recvBroker reader)
  if received.ok && received.passed then do
    let fd ← fresh
    pure (received.message.valid, received.message, some fd)
  else pure (received.ok && received.message.valid, received.message, none)

end Agent

end HdmiLos
