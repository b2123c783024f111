import HdmiLos.Composer.Server

/-!
# What the calls of the server say

The log of the server shows which phases it has acquired, when it has set its deadline and when it
has released the display. The conditions and the guarantees of the watchdog are read from it.
-/

namespace HdmiLos.Composer

open Interaction

/-- The server's calls. -/
abbrev ServerLog := List (Answered ServerCall.Ans)

/-- A takeover is under way or complete. -/
def Session.Busy (s : Session) : Prop :=
  s.state = stateDraining ∨ s.state = stateLeased

instance (s : Session) : Decidable s.Busy := inferInstanceAs (Decidable (_ ∨ _))

/-- The phase of an acquire that succeeded. -/
def acquiredBy : Answered ServerCall.Ans → Option UInt32
  | ⟨.acquire phase _, a⟩ => if a.result = statusOk then some phase else none
  | _ => none

/-- The session is told to release. -/
def isReleaseCall : Answered ServerCall.Ans → Bool
  | ⟨.release _, _⟩ => true
  | _ => false

/-- The time at which a phase was acquired or a continuous lease renewed. -/
def grantedAt : Answered ServerCall.Ans → Option Nat
  | ⟨.bootTimeMs .acquired, now⟩ => some now
  | ⟨.bootTimeMs .renewed, now⟩ => some now
  | _ => none

/-- The time at which a disconnect was processed. -/
def disconnectedAt : Answered ServerCall.Ans → Option Nat
  | ⟨.bootTimeMs .disconnected, now⟩ => some now
  | _ => none

/-- The time from which the timeout of `poll` was computed, at the beginning of an iteration. -/
def polledAt : Answered ServerCall.Ans → Option Nat
  | ⟨.bootTimeMs .timeout, now⟩ => some now
  | _ => none

/-- The time that a test of the deadline has read. -/
def checkedAt : Answered ServerCall.Ans → Option Nat
  | ⟨.bootTimeMs .check, now⟩ => some now
  | _ => none

/-- The timeout policy that a request stores: that of an acquire of the first phase, whether it
    succeeds or not. -/
def policyOf (request : Message) : Option Bool :=
  if request.magic = hdmiLosMagic ∧ request.version = hdmiLosVersion ∧
      request.opcode = opAcquire ∧ unknownAcquireFlags request = 0 ∧
      requestedPhase request = acquirePrepare then
    some (hasFlag request.flags flagContinuous)
  else none

/-- A request of the first phase for a continuous lease was received. -/
def asksContinuous : Answered ServerCall.Ans → Bool
  | ⟨.recv _, some request⟩ => policyOf request == some true
  | _ => false

/-- A hotplug event could not be sent. -/
def hotplugLost : Answered ServerCall.Ans → Bool
  | ⟨.send _ message _, false⟩ => message.opcode == opHotplug
  | _ => false

/-- The broker has got every hotplug event. -/
def HotplugSent (log : ServerLog) : Prop :=
  ∀ x ∈ log, hotplugLost x = false

/-- The deadline is at most 65 seconds after the latest grant or 5 seconds after the latest
    disconnect. -/
def WithinAllowance (log : ServerLog) (deadline : Nat) : Prop :=
  (∃ before x after now, log = before ++ x :: after ∧ grantedAt x = some now ∧
    (∀ y ∈ after, grantedAt y = none) ∧ deadline ≤ now + composerFailsafeMs) ∨
  (∃ before x after now, log = before ++ x :: after ∧ disconnectedAt x = some now ∧
    (∀ y ∈ after, disconnectedAt y = none) ∧ deadline ≤ now + disconnectBackstopMs)

/-- The call by which the deadline is enforced. -/
def isFailsafe : Answered ServerCall.Ans → Bool
  | ⟨.release reason, _⟩ => reason == "composer 65 second failsafe"
  | _ => false

/-- The log has a takeover whose first phase was asked for without the continuous flag and whose
    lease was created at the time `t`. No takeover has begun since; `between` are the calls between
    the two phases and `after` those since the lease was created. -/
structure BoundedTakeover (log between after : ServerLog) (t : Nat) : Prop where
  phases : ∃ before fd request prepare prepared create created,
    log = before ++ [⟨.recv fd, some request⟩, ⟨.acquire acquirePrepare prepare, prepared⟩] ++
      between ++ [⟨.acquire acquireCreate create, created⟩, ⟨.bootTimeMs .acquired, t⟩] ++ after ∧
    policyOf request = some false ∧ prepared.result = statusOk ∧ created.result = statusOk
  latest : ∀ x ∈ between ++ after, acquiredBy x ≠ some acquirePrepare

end HdmiLos.Composer
