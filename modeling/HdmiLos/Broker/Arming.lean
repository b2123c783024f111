import HdmiLos.Broker.History

/-!
# What an armed request waits for

`AdvanceArmed` polls the composer's status. It overrides Android's preferred mode while the display
is unplugged, counts the polls that found the display settled in the requested mode, and starts a
session at the third of them. The observers here see a poll, its answer and the override in the
calls.
-/

namespace HdmiLos

open Interaction

variable {ω : Type}

/-! ## Status requests -/

/-- The answer to the request `id` on the connection `fd`, in the calls after it was sent: the first
    message that is not a hotplug event, if it is valid and answers that request. -/
def answerTo (fd : Fd) (id : UInt32) : List Event → Option Message
  | [] => none
  | ⟨.recvWithFd fd', r⟩ :: rest =>
    if fd' = fd then
      if !r.ok || !r.message.validComposer then none
      else if r.message.isHotplug then answerTo fd id rest
      else if r.message.requestId = id then some r.message
      else none
    else answerTo fd id rest
  | _ :: rest => answerTo fd id rest

/-- The answer to the first status request that was sent to the composer. -/
def statusAnswer : List Event → Option Message
  | [] => none
  | ⟨.sendWithFd fd m none, sent⟩ :: rest =>
    if sent && m.opcode == opStatus then answerTo fd m.requestId rest else statusAnswer rest
  | _ :: rest => statusAnswer rest

/-! ## Overrides of Android's preference -/

/-- An observer of `ApplyPreferredMode`: the latest message of the composer, whether the journal was
    written just now, and the commands that were issued behind the journal, each with the message
    that was the latest then and whether Android took it. -/
structure Overrides where
  latest : Option Message := none
  journaled : Bool := false
  issued : List (Option Message × Bool) := []

/-- What a call adds. -/
def Overrides.step (k : Overrides) : Event → Overrides
  | ⟨.writeAtomicText .modeJournal _, written⟩ => { k with journaled := written }
  | ⟨.displayCommand _, result⟩ =>
    if k.journaled then { k with journaled := false, issued := k.issued ++ [(k.latest, result.1)] }
    else k
  | ⟨.recvWithFd fd, r⟩ =>
    { k with latest := (composerMessage ⟨.recvWithFd fd, r⟩).or k.latest, journaled := false }
  | _ => { k with journaled := false }

/-- The overrides that were issued. -/
def overrides (calls : List Event) : List (Option Message × Bool) :=
  (calls.foldl Overrides.step {}).issued

/-- The override came right after a response of the composer that reports the display as not
    connected. -/
def Unplugged (x : Option Message × Bool) : Prop :=
  ∃ m, x.1 = some m ∧ m.isHotplug = false ∧ m.connected = false

/-- A step of `ApplyPreferredMode` failed: a display command, or the write of the journal. -/
def failsApply : Event → Bool
  | ⟨.displayCommand command, answer⟩ => !command.succeeded answer
  | ⟨.writeAtomicText .modeJournal _, written⟩ => !written
  | _ => false

/-- An override failed. -/
def ApplyFailed (calls : List Event) : Prop := ∃ e ∈ calls, failsApply e = true

/-- The armed request has what it needs from an unplug: Android's preference is overridden, and no
    replug is asked for. -/
def Broker.Ready (b : Broker) : Prop :=
  b.preferenceApplied = true ∧ b.replugRequired = false

/-! ## Samples -/

/-- The mode that a status reports is the requested one: any mode if the request is for the
    display's own, and otherwise the same size with a refresh rate within 100 mHz. -/
def Message.showsMode (m : Message) (mode : Mode) : Prop :=
  mode = .native ∨ (m.activeWidth = mode.width ∧ m.activeHeight = mode.height ∧
    (Int.ofNat m.activeRefreshMillihz.toNat - Int.ofNat mode.refreshMillihz.toNat).natAbs ≤ 100)

namespace Did

/-- `AdvanceArmed` polled the composer. -/
def polls (d : Did ω) : Bool :=
  d.part == .armed && d.calls.any fun e => e.1.kind == .composer

/-- `AdvanceArmed` started a session: `Start` reads the compatibility marker, and nothing else in
    this part does. -/
def startsSession (d : Did ω) : Bool :=
  d.part == .armed && d.calls.any fun
    | ⟨.access .compatibleOk, _⟩ => true
    | _ => false

/-- The poll got a status that was connected, in the requested mode and ready for a lease, and found
    an agent registered. -/
def Sample (d : Did ω) : Prop :=
  d.polls = true ∧ ∃ m, statusAnswer d.calls = some m ∧ m.connected = true ∧
    hasFlag m.flags flagLeaseReady = true ∧ m.showsMode d.before.vars.requestedMode ∧
    d.before.vars.agentFd.isSome = true

/-- The messages that a part consumed; those of a poll up to its answer, which a session that it
    starts is not part of. -/
def consumed (d : Did ω) : List Message :=
  if d.part = .armed then (composerMessages d.calls).takeWhile Message.isHotplug
  else composerMessages d.calls

/-- The part consumed no hotplug event without the connected flag. -/
def NoUnplug (d : Did ω) : Prop :=
  ∀ m ∈ d.consumed, m.isHotplug = true → m.connected = true

instance (d : Did ω) : Decidable d.NoUnplug :=
  inferInstanceAs (Decidable (∀ m ∈ d.consumed, m.isHotplug = true → m.connected = true))

/-- No unplug is pending after the messages of the part: each one that was pending before it or came
    in it was followed by a message with the connected flag. -/
def Settled (d : Did ω) : Prop :=
  unplugAfter d.before.vars.composerDisconnectPending (composerMessages d.calls) = false

instance (d : Did ω) : Decidable d.Settled := inferInstanceAs (Decidable (_ = _))

/-- The part set `armed_`. -/
def arms (d : Did ω) : Prop :=
  d.before.vars.armed = false ∧ d.after.vars.armed = true

end Did

/-- The latest `k` polls of a history are samples, and no part since the first of them consumed an
    unplug. -/
def Sampled : Nat → List (Did ω) → Prop
  | 0, _ => True
  | k + 1, hist => ∃ later d older, hist = later ++ d :: older ∧
    (∀ x ∈ later, x.polls = false ∧ x.NoUnplug) ∧ d.Sample ∧ (k ≠ 0 → d.NoUnplug) ∧ Sampled k older

/-- The gate of a start that `AdvanceArmed` issues in the last part of `hist`: since the request was
    armed Android's preference was overridden while the display was unplugged and never otherwise,
    and the last three polls are samples with no unplug between them. -/
def Gated (hist : List (Did ω)) : Prop :=
  ∃ since arming older, hist = since ++ arming :: older ∧ arming.arms ∧
    (∀ d ∈ since, d.before.vars.armed = true) ∧
    (∃ d ∈ since ++ [arming], ∃ x ∈ overrides d.calls, x.2 = true ∧ Unplugged x) ∧
    (∀ d ∈ since ++ [arming], ∀ x ∈ overrides d.calls, Unplugged x) ∧ Sampled 3 since

/-- While a request is armed, only the composer's part of an iteration consumes an unplug. -/
def Did.Heard (d : Did ω) : Prop :=
  d.before.vars.armed = true → d.before.vars.active = false → d.part ≠ .composer → d.NoUnplug

instance (d : Did ω) : Decidable d.Heard :=
  inferInstanceAs (Decidable (_ → _ → _ → _))

end HdmiLos
