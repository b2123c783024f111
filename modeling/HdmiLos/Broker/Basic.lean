import HdmiLos.Interaction.Machine
import HdmiLos.Protocol

/-!
# The broker's state and its environment

The broker is one thread. Its functions are interaction programs: the fields of `class Broker` are
read and assigned by `Act.get` and `Act.modify`, and every system call, clock reading and file access is
an `Io` operation. What the operations answer is left to the environment, so a statement about all
environments covers all timings, failures and peers.

A descriptor is a number that is never reused: it names an open connection or file, not a slot of
the process's table.
-/

namespace HdmiLos

open Interaction

/-- An open descriptor. The source's `-1` is `none`. -/
abbrev Fd := Nat

/-- The contents of a small text file, or the output of a command. A `Char` stands for one byte, the
    one with its code. -/
abbrev Text := List Char

/-! ## Operations -/

/-- The readiness of one polled descriptor: `POLLIN`, and `POLLERR | POLLHUP | POLLNVAL`. -/
structure Revents where
  input : Bool := false
  error : Bool := false
  deriving DecidableEq, Repr, Inhabited

/-- What `poll` returns. -/
inductive PollAnswer where
  | interrupted
  | failed
  | ready (revents : List Revents)
  deriving DecidableEq, Repr

/-- One input event, with the fields that the volume guard reads. -/
structure InputEvent where
  type : Nat
  code : Nat
  value : Int
  deriving DecidableEq, Repr

/-- The outcome of a `read` on a non-blocking input device. -/
inductive InputRead where
  | events (batch : List InputEvent)
  | endOfFile
  | again
  | failed
  deriving Repr

/-- The outcome of a receive call. A failed one leaves arbitrary contents in the buffer. -/
structure Received where
  ok : Bool
  message : Message
  passed : Bool := false
  deriving Repr

/-- The marker files of the installed module. -/
inductive Marker where
  | compatibleOk
  | diagnosticOnly
  deriving DecidableEq, Repr

/-- The two text files that the broker owns: `kModeConfig` and `kModeJournal`. -/
inductive TextFile where
  | modeConfig
  | modeJournal
  deriving DecidableEq, Repr

/-- The commands `get-`, `clear-` and `set-user-preferred-display-mode` of `cmd display`. -/
inductive DisplayCommand where
  | getPreferred
  | clearPreferred
  | setPreferred (width height refresh : Text)
  deriving DecidableEq, Repr

/-- The steps of a takeover and of a probe that are logged durably. -/
inductive Stage where
  | agentPrepare
  | composerPrepare
  | composerPause
  | composerCreate
  | agentStart
  | leaseClose
  | composerRelease
  deriving DecidableEq, Repr

/-- How far a stage is. -/
inductive Edge where
  | started
  | complete
  | failed
  deriving DecidableEq, Repr

/-- What is logged of a session. -/
inductive Transition where
  | takeover (stage : Stage) (edge : Edge)
  | probe (stage : Stage) (edge : Edge)
  | holdBegin
  | holdEscaped
  | holdComplete
  | restoreBegin
  | restoreComplete
  | displayConnected
  | displayDisconnected
  | agentProgress (text : String)
  deriving DecidableEq, Repr

def Stage.text : Stage → String
  | agentPrepare => "agent-prepare"
  | composerPrepare => "composer-prepare"
  | composerPause => "composer-pause"
  | composerCreate => "composer-create"
  | agentStart => "agent-start"
  | leaseClose => "lease-close"
  | composerRelease => "composer-release"

def Edge.text : Edge → String
  | started => "begin"
  | complete => "complete"
  | failed => "failed"

/-- The line that a transition appends to the log. -/
def Transition.text : Transition → String
  | takeover stage edge => "takeover " ++ stage.text ++ " " ++ edge.text
  | probe stage edge => "probe lease-hold " ++ stage.text ++ " " ++ edge.text
  | holdBegin => "probe lease-hold three-second hold begin"
  | holdEscaped => "probe lease-hold ended by volume escape"
  | holdComplete => "probe lease-hold three-second hold complete"
  | restoreBegin => "restore begin"
  | restoreComplete => "restore complete"
  | displayConnected => "composer reports external display connected"
  | displayDisconnected => "composer reports external display disconnected"
  | agentProgress text => text

/-- The calls the broker makes. `fds` of a poll are in the order of the source's array. -/
inductive Io where
  | stopRequested
  | monotonicMs
  | poll (fds : List (Option Fd)) (timeoutMs : Int)
  | listenAbstract
  | acceptClient (fd : Fd)
  | connectComposer
  | peerUid (fd : Fd)
  | readFull (fd : Fd)
  | writeFull (fd : Fd) (message : Message)
  | sendWithFd (fd : Fd) (message : Message) (passed : Option Fd)
  | recvWithFd (fd : Fd)
  | close (fd : Fd)
  | access (marker : Marker)
  | recoveryDumpProperty
  | wakeLock (acquire : Bool)
  | findVolumeDevice (name : String) (key : Nat)
  | grab (fd : Fd) (on : Bool)
  | readEvents (fd : Fd)
  | displayCommand (command : DisplayCommand)
  | writeAtomicText (file : TextFile) (text : Text)
  | readText (file : TextFile)
  | unlink (file : TextFile)
  | packagesList
  | logTransition (transition : Transition)

/-- The answers. A call that opens a descriptor answers whether it succeeded. -/
abbrev Io.Ans : Io → Type
  | stopRequested => Bool
  | monotonicMs => Int
  | poll _ _ => PollAnswer
  | listenAbstract => Bool
  | acceptClient _ => Bool
  | connectComposer => Bool
  | peerUid _ => Option UInt32
  | readFull _ => Received
  | writeFull _ _ => Bool
  | sendWithFd _ _ _ => Bool
  | recvWithFd _ => Received
  | close _ => Unit
  | access _ => Bool
  | recoveryDumpProperty => Option String
  | wakeLock _ => Bool
  | findVolumeDevice _ _ => Bool
  | grab _ _ => Bool
  | readEvents _ => InputRead
  | displayCommand _ => Bool × Text
  | writeAtomicText _ _ => Bool
  | readText _ => Option Text
  | unlink _ => Bool
  | packagesList => Option Text
  | logTransition _ => Unit

/-- The kinds of calls: the configuration file, Android's preference and its journal, the streams of
    the agent and the clients, the steps of a takeover that hand the display to the agent, the
    composer socket, and everything else. -/
inductive IoKind where
  | quiet
  | config
  | preference
  | stream
  | handover
  | composer
  deriving DecidableEq

/-- The kind of a file's accesses. -/
@[grind =] def TextFile.kind : TextFile → IoKind
  | modeConfig => .config
  | modeJournal => .preference

/-- The kind of a log line. -/
def Transition.kind : Transition → IoKind
  | takeover .agentPrepare .complete => .handover
  | takeover .agentStart .complete => .handover
  | _ => .quiet

/-- The kind of a call. -/
@[grind =] def Io.kind : Io → IoKind
  | .displayCommand _ => .preference
  | .writeAtomicText file _ => file.kind
  | .readText file => file.kind
  | .unlink file => file.kind
  | .readFull _ => .stream
  | .writeFull _ _ => .stream
  | .sendWithFd _ _ (some _) => .handover
  | .sendWithFd _ _ none => .composer
  | .recvWithFd _ => .composer
  | .connectComposer => .composer
  | .logTransition transition => transition.kind
  | _ => .quiet

/-! ## State -/

/-- `VolumeGuard`, with the pressed keys. -/
structure VolumeGuard where
  down : Option Fd := none
  up : Option Fd := none
  downPressed : Bool := false
  upPressed : Bool := false
  bothSince : Int := 0

/-- The fields of `class Broker`, and the global request counter. -/
structure Broker where
  listenFd : Option Fd := none
  composerFd : Option Fd := none
  agentFd : Option Fd := none
  active : Bool := false
  probing : Bool := false
  agentContinuous : Bool := false
  sessionContinuous : Bool := false
  armed : Bool := false
  preferenceApplied : Bool := false
  replugRequired : Bool := false
  composerDisconnectPending : Bool := false
  requestedWidth : UInt32 := 1920
  requestedHeight : UInt32 := 1080
  requestedRefreshMillihz : UInt32 := 60000
  activeWidth : UInt32 := 0
  activeHeight : UInt32 := 0
  activeRefreshMillihz : UInt32 := 0
  composerFlags : UInt32 := 0
  stableModeSamples : Nat := 0
  armedSinceMs : Int := 0
  nextModePollMs : Int := 0
  deadlineMs : Int := 0
  composerHeartbeatMs : Int := 0
  volumes : VolumeGuard := {}
  stateDetail : String := "Android owns display"
  nextRequestId : UInt32 := 1

/-- What a broker function can do: use the fields, name a new descriptor, make a call. -/
abbrev Op := Act Broker Io

abbrev BrokerProg := Machine Broker Io.Ans

/-- A call and its answer. -/
abbrev Event := Answered Io.Ans

/-- The environment answers the calls from a state of its own, or kills the broker. -/
abbrev Env (ω : Type) := Handler Io Io.Ans ω

/-- A broker process in its environment, with the calls it has made so far. -/
abbrev Sys (ω : Type) := Process Broker Io.Ans ω

/-- The broker process at its start. -/
def Sys.initial {ω : Type} (w : ω) : Sys ω := { vars := {}, world := w }

/-- The calls made since. -/
def callsSince {ω : Type} (s t : Sys ω) : List Event := t.log.drop s.log.length

/-- The meaning of the operations for a broker in the environment `env`. -/
abbrev sysHandler {ω : Type} (env : Env ω) : Handler Op (Act.Ans Io.Ans) (Sys ω) :=
  processHandler env

/-! ## Primitives -/

def getBroker : BrokerProg Broker := Prog.perform Act.get

def update (f : Broker → Broker) : BrokerProg Unit := Prog.perform (Act.modify f)

def call (c : Io) : BrokerProg c.Ans := Prog.perform (Act.io c)

/-- A descriptor for a call that succeeded in opening one. -/
def opened (ok : Bool) : BrokerProg (Option Fd) :=
  if ok then do
    let fd ← Prog.perform Act.fresh
    pure (some fd)
  else pure none

def closeFd (fd : Fd) : BrokerProg Unit := call (.close fd)

/-- Closes a descriptor that may be -1. -/
def closeIfOpen (fd : Option Fd) : BrokerProg Unit :=
  match fd with
  | some fd => closeFd fd
  | none => pure ()

/-- The readiness that `poll` reports: nothing for a negative descriptor. -/
def maskRevents : List (Option Fd) → List Revents → List Revents
  | [], _ => []
  | none :: fds, revents => {} :: maskRevents fds revents.tail
  | some _ :: fds, revents => revents.headD {} :: maskRevents fds revents.tail

/-- `poll`; an absent descriptor has no events. -/
def pollFds (fds : List (Option Fd)) (timeoutMs : Int) : BrokerProg PollAnswer := do
  match ← call (.poll fds timeoutMs) with
  | .ready revents => pure (.ready (maskRevents fds revents))
  | .interrupted => pure .interrupted
  | .failed => pure .failed

/-- `ioctl(fd, EVIOCGRAB, on)`: whether it succeeded. -/
def grab (fd : Fd) (on : Bool) : BrokerProg Bool := call (.grab fd on)

def readFull (fd : Fd) : BrokerProg Received := call (.readFull fd)

def writeFull (fd : Fd) (m : Message) : BrokerProg Bool := call (.writeFull fd m)

def sendWithFd (fd : Fd) (m : Message) (passed : Option Fd) : BrokerProg Bool :=
  call (.sendWithFd fd m passed)

/-- `run_display_command`: whether it exited with zero, and its output. -/
def runDisplayCommand (command : DisplayCommand) : BrokerProg (Bool × Text) :=
  call (.displayCommand command)

def writeAtomicText (file : TextFile) (text : Text) : BrokerProg Bool :=
  call (.writeAtomicText file text)

def readText (file : TextFile) : BrokerProg (Option Text) := call (.readText file)

def unlinkFile (file : TextFile) : BrokerProg Bool := call (.unlink file)

def access (marker : Marker) : BrokerProg Bool := call (.access marker)

def setWakeLock (acquire : Bool) : BrokerProg Bool := call (.wakeLock acquire)

/-- The termination flag that the signal handler sets. -/
def stopRequested : BrokerProg Bool := call .stopRequested

/-- `listen_abstract`: whether the broker's socket was bound. -/
def listenAbstract : BrokerProg Bool := call .listenAbstract

/-- `accept4` on the broker's socket. The environment is told the descriptor that the connection
    gets, so that it knows the connection by it from then on. -/
def acceptConnection : BrokerProg (Option Fd) := do
  let fd ← Prog.perform Act.fresh
  if ← call (.acceptClient fd) then pure (some fd) else pure none

/-- `connect_abstract` to the composer's socket. -/
def connectComposer : BrokerProg Bool := call .connectComposer

def peerUid (fd : Fd) : BrokerProg (Option UInt32) := call (.peerUid fd)

def packagesList : BrokerProg (Option Text) := call .packagesList

/-- The property `vendor.display.disable_hw_recovery_dump`. -/
def recoveryDumpProperty : BrokerProg (Option String) := call .recoveryDumpProperty

/-- `find_volume_device`: whether there is one. -/
def findVolumeDevice (name : String) (key : Nat) : BrokerProg Bool :=
  call (.findVolumeDevice name key)

def readEvents (fd : Fd) : BrokerProg InputRead := call (.readEvents fd)

/-- `recv_with_fd`: the buffer, and the descriptor that came with it. -/
def recvWithFd (fd : Fd) : BrokerProg (Received × Option Fd) := do
  let received ← call (.recvWithFd fd)
  -- the descriptor is open, but nobody reads it from the control data of a short packet
  let passed ← opened received.passed
  pure (received, if received.ok then passed else none)

/-- A message with the next request id. -/
def makeMessage (opcode : UInt16) : BrokerProg Message := do
  let b ← getBroker
  update fun b => { b with nextRequestId := b.nextRequestId + 1 }
  pure { magic := hdmiLosMagic, version := hdmiLosBrokerVersion, opcode := opcode,
         requestId := b.nextRequestId }

def monotonicMs : BrokerProg Int := call .monotonicMs

def logTransition (t : Transition) : BrokerProg Unit := call (.logTransition t)

end HdmiLos
