import HdmiLos.Broker.Run

/-!
# Changes of the configured mode

Clients change the configured mode with `SET_MODE`, and with an `ARM` or `TOGGLE` request that carries
a mode. The mode is kept in memory and in the configuration file. A `ModeChange` is what the calls of
a request did to the file, and what the client was told.
-/

namespace HdmiLos

open Interaction

variable {ω : Type}

/-- How far a request has come. The gates that count are those that `Arm` looks at behind the write
    of the file; `Status` looks at them before and after. -/
inductive ModeStage where
  /-- the file has not been written -/
  | asked
  /-- the file could not be written -/
  | unwritten
  | stored
  | compatible
  | diagnostic
  /-- the gates were open, and every step of an override of Android's preference succeeded so far -/
  | opened
  | refused
  deriving DecidableEq

/-- How far a call brings it. -/
def ModeStage.step : ModeStage → (c : Io) → c.Ans → ModeStage
  | _, .writeAtomicText .modeConfig _, written => if written then stored else unwritten
  | stored, .access .compatibleOk, present => if present then compatible else refused
  | compatible, .access .diagnosticOnly, only => if only then diagnostic else opened
  | diagnostic, .recoveryDumpProperty, value => if value == some "0" then opened else refused
  | opened, .writeAtomicText .modeJournal _, written => if written then opened else refused
  | opened, .displayCommand command, answer => if command.succeeded answer then opened else refused
  | stage, _, _ => stage

/-- The contents of the configuration file, the reply to the client, and the stage of the request. -/
structure ModeChange where
  config : Option Text
  reply : Option (Fd × Message) := none
  stage : ModeStage := .asked

/-- What a call adds. -/
def ModeChange.step (x : ModeChange) (c : Io) (a : c.Ans) : ModeChange where
  config :=
    match c, a with
    -- the file is renamed into place, so a write that fails leaves it as it was
    | .writeAtomicText .modeConfig text, written => if written then some text else x.config
    | _, _ => x.config
  reply :=
    match c with
    | .writeFull fd m => some (fd, m)
    | _ => x.reply
  stage := x.stage.step c a

/-- What the calls of a request did, with the given file before it. -/
def modeChange (config : Option Text) (calls : List Event) : ModeChange :=
  calls.foldl (fun x e => x.step e.1 e.2) { config := config }

/-- The requests that change the mode: `SET_MODE`, and those that arm with a mode. -/
def Message.ChangesMode (request : Message) (b : Broker) : Prop :=
  request.opcode = opSetMode ∨
    ((request.opcode = opArm ∨ (request.opcode = opToggle ∧ b.active = false ∧ b.armed = false)) ∧
      request.requestedMode ≠ .native)

/-- A broker that starts with this file has the mode. -/
def Loads (config : Option Text) (mode : Mode) : Prop :=
  ∀ {ω : Type} {env : Env ω} {s : Sys ω} {w : ω},
    env (.readText .modeConfig) s.world = some (config, w) →
    ∃ t, loadConfiguredMode.run (sysHandler env) s = (some (), t) ∧ t.vars.requestedMode = mode

/-- The mode is the one in memory, in the file and after a restart. -/
structure ModeStored (mode inMemory : Mode) (config : Option Text) : Prop where
  memory : inMemory = mode
  file : config = some (printMode mode)
  restart : Loads config mode

/-- The client is told that the mode was changed, and then the broker holds it; or it is told of an
    error, and then nothing was changed. -/
structure AllOrNothing (client : Fd) (request : Message) (config : Option Text) (s t : Sys ω) :
    Prop where
  all : ∀ reply, (modeChange config (callsSince s t)).reply = some (client, reply) →
    reply.status = statusOk →
      ModeStored request.requestedMode t.vars.requestedMode (modeChange config (callsSince s t)).config
  nothing : ∀ reply, (modeChange config (callsSince s t)).reply = some (client, reply) →
    reply.status ≠ statusOk → t.vars.requestedMode = s.vars.requestedMode ∧
      (modeChange config (callsSince s t)).config = config

/-- `Arm` answers the request without looking at its mode. -/
def Message.Overlooked (request : Message) (b : Broker) : Prop :=
  request.opcode ≠ opSetMode ∧ b.active = false ∧ b.probing = false ∧ b.armed = true

instance (request : Message) (b : Broker) : Decidable (request.Overlooked b) :=
  inferInstanceAs (Decidable (_ ∧ _))

/-- The request got through: the file was written, and an armed request found open gates and a
    preference that could be overridden. -/
def ModeStage.Through (stage : ModeStage) (request : Message) : Prop :=
  if request.opcode = opSetMode then stage ≠ .asked ∧ stage ≠ .unwritten else stage = .opened

/-- Nothing disturbs the request. It is refused before the mode is assigned, or it gets through, or
    the broker had the mode already, in the file too if it was written. A request that is overlooked
    has to ask for what the broker holds. -/
def Undisturbed (request : Message) (b : Broker) (config : Option Text) (stage : ModeStage) : Prop :=
  if request.Overlooked b then ModeStored request.requestedMode b.requestedMode config
  else stage = .asked ∨ stage.Through request ∨ b.requestedMode = request.requestedMode ∧
    (stage ≠ .unwritten → config = some (printMode request.requestedMode))

end HdmiLos
