import HdmiLos.Broker.Proofs.FootprintProofs

/-!
# Calm functions

Most of the broker neither takes the display nor touches Android's preferred mode: it keeps the owner
of the display and the agent's connection, and makes no call that hands the display over or that
reads or writes the preference and its journal. What remains are `RecoverPreferredMode`,
`ApplyPreferredMode`, `Start`, and the assignments to those fields.
-/

namespace HdmiLos

open Interaction Prog

variable {α : Type} {n : Nat}

/-- The footprint of a calm function. -/
abbrev Calm : Op → Prop := Within Broker.owner [.quiet, .config, .stream, .composer]

theorem vital_owner {b b' : Broker} (h : b.vital = b'.vital) : b.owner = b'.owner :=
  congrArg Prod.fst h

variable {p : BrokerProg α}

theorem calm_quiet (hp : p.Uses Quiet) : p.Uses Calm :=
  uses_of_quiet (fun _ _ => vital_owner) (by simp) hp

theorem calm_streams (hp : p.Uses Streams) : p.Uses Calm :=
  uses_mono (fun _ => Within.mono (fun _ _ => vital_owner) (by simp)) hp

/-! ## The composer socket -/

/-- The footprint of the functions that use the composer socket only. -/
abbrev Composing : Op → Prop := Within Broker.owner [.quiet, .composer]

theorem composing_quiet (hp : p.Uses Quiet) : p.Uses Composing :=
  uses_of_quiet (fun _ _ => vital_owner) (by simp) hp

theorem composing_update {f : Broker → Broker} (hf : ∀ b, (f b).owner = b.owner) :
    (update f).Uses Composing :=
  uses_update hf

theorem calm_composing (hp : p.Uses Composing) : p.Uses Calm :=
  uses_mono (fun _ => Within.mono (fun _ _ h => h) (by simp)) hp

/-- The footprint of a request: besides the calls on the socket it only closes descriptors. -/
def Requesting : Op → Prop
  | .get => True
  | .modify f => ∀ b, (f b).owner = b.owner
  | .fresh => True
  | .io c => c.kind = .composer ∨ ∃ fd, c = .close fd

theorem aside_owner {b b' : Broker} (h : b.aside = b'.aside) : b.owner = b'.owner := by
  have howner : b.aside.owner = b'.aside.owner := congrArg Broker.owner h
  exact howner

instance : Exchanging Requesting where
  get := trivial
  fresh := trivial
  modify h b := aside_owner (h b)
  connect := .inl rfl
  recv _ := .inl rfl
  close fd := .inr ⟨fd, rfl⟩
  send _ _ := .inl rfl

theorem composing_requesting (hp : p.Uses Requesting) : p.Uses Composing := by
  refine uses_mono (fun op hop => ?_) hp
  cases op with
  | get => trivial
  | modify f => exact hop
  | fresh => trivial
  | io c =>
    rcases hop with hkind | ⟨fd, rfl⟩
    · simp [Within, hkind]
    · simp [Within, Io.kind]

theorem requesting_composerRequest (opcode : UInt16) (m : Message) (wantLease : Bool)
    (flags : UInt32) : (composerRequest n opcode m wantLease flags).Uses Requesting :=
  uses_composerRequest n opcode m wantLease flags

theorem composing_handleComposerReadable (fd : Fd) : (handleComposerReadable fd).Uses Composing := by
  refine uses_bind (composing_requesting (uses_recvWithFd fd)) fun r => ?_
  refine uses_bind (composing_quiet (uses_closeIfOpen _)) fun _ => uses_ite trivial ?_
  refine uses_bind (composing_update fun _ => rfl) fun _ => uses_ite ?_ ?_
  · exact uses_bind (composing_quiet (uses_logTransition rfl)) fun _ => trivial
  · exact uses_bind (composing_quiet (uses_logTransition rfl)) fun _ => trivial

theorem calm_composerRequest (opcode : UInt16) (m : Message) (wantLease : Bool) (flags : UInt32) :
    (composerRequest n opcode m wantLease flags).Uses Calm :=
  calm_composing (composing_requesting (requesting_composerRequest opcode m wantLease flags))

/-! ## The agent stream -/

/-- What has to be shown for a wait for the agent. -/
structure WaitParts (S : (α : Type) → BrokerProg α → Prop) : Prop extends Compositional S where
  passive : ∀ {α : Type} {p : BrokerProg α}, p.Uses Passive → S α p
  read : ∀ fd wanted, S (Message ⊕ Bool × Message) (waitAgentRead fd wanted)
  hear : ∀ fd, S ComposerHotplug (handleComposerReadable fd)
  lose : S Unit (update fun b => { b with composerDisconnectPending := true })

namespace WaitParts

variable {S : (α : Type) → BrokerProg α → Prop}

theorem waitAgentComposer (hS : WaitParts S) (fd : Option Fd) (revents : Revents) :
    S Bool (waitAgentComposer fd revents) := by
  cases fd with
  | none => exact hS.pure true
  | some fd =>
    refine hS.ite (hS.pure false) (hS.ite (hS.bind (hS.hear fd) fun hotplug => ?_) (hS.pure true))
    cases hotplug with
    | connected => exact hS.pure true
    | invalid => exact hS.bind hS.lose fun _ => hS.pure false
    | disconnected => exact hS.bind hS.lose fun _ => hS.pure false

theorem waitAgentReady (hS : WaitParts S) (wanted : UInt16) (revents : List Revents)
    (m : Message) : S (Message ⊕ Bool × Message) (waitAgentReady n wanted revents m) := by
  refine hS.bind (hS.passive ordinary_get) fun b => hS.ite (hS.pure _) ?_
  refine hS.bind (hS.passive (uses_volumesUpdate _ _ _)) fun _ => hS.ite (hS.pure _) ?_
  refine hS.bind (hS.waitAgentComposer _ _) fun _ => hS.ite (hS.pure _) ?_
  refine hS.bind (hS.passive uses_deadlineReached) fun _ => hS.ite (hS.pure _) ?_
  cases (revents.getD 0 {}).input with
  | false => exact hS.pure _
  | true =>
    cases b.agentFd with
    | none => exact hS.pure _
    | some fd => exact hS.read fd wanted

theorem waitAgent (hS : WaitParts S) (wanted : UInt16) (timeoutMs : Int) (m : Message) :
    S (Bool × Message) (waitAgent n wanted timeoutMs m) := by
  refine hS.bind (hS.passive uses_monotonicMs) fun now => hS.loop (fun m' => ?_) n m
  refine hS.bind (hS.passive uses_monotonicMs) fun _ => hS.ite (hS.pure _) ?_
  refine hS.bind (hS.passive ordinary_get) fun _ => ?_
  refine hS.bind (hS.passive (uses_waitAgentRemaining _)) fun _ => hS.ite (hS.pure _) ?_
  refine hS.bind (hS.passive (uses_pollFds _ _)) fun a => ?_
  cases a with
  | interrupted => exact hS.pure _
  | failed => exact hS.pure _
  | ready revents => exact hS.waitAgentReady wanted revents m'

end WaitParts

theorem composing_waitAgentComposer (fd : Option Fd) (revents : Revents) :
    (waitAgentComposer fd revents).Uses Composing := by
  cases fd with
  | none => trivial
  | some fd =>
    refine uses_ite trivial (uses_ite (uses_bind (composing_handleComposerReadable fd) ?_) trivial)
    intro hotplug
    cases hotplug with
    | connected => trivial
    | invalid => exact uses_bind (composing_update fun _ => rfl) fun _ => trivial
    | disconnected => exact uses_bind (composing_update fun _ => rfl) fun _ => trivial

theorem uses_waitAgent {F : Op → Prop} [Streaming F] [Hearing F] (n : Nat) (wanted : UInt16)
    (timeoutMs : Int) (m : Message) : (waitAgent n wanted timeoutMs m).Uses F :=
  WaitParts.waitAgent
    { toCompositional := uses_compositional F
      passive := uses_of_passive
      read := uses_waitAgentRead
      hear := uses_handleComposerReadable
      lose := uses_perform (Hearing.modify fun _ => rfl) } wanted timeoutMs m

instance : Streaming Calm where
  toOrdinary := ordinary_within (fun _ _ h => vital_owner (lasting_vital h)) (by simp)
  stream {c} hc := by
    show c.kind ∈ _
    simp [hc]

instance : Hearing Calm where
  get := trivial
  fresh := trivial
  modify h b := aside_owner (h b)
  connect := by simp [Within, Io.kind]
  recv _ := by simp [Within, Io.kind]
  close _ := by simp [Within, Io.kind]

theorem calm_waitAgent (wanted : UInt16) (timeoutMs : Int) (m : Message) :
    (waitAgent n wanted timeoutMs m).Uses Calm :=
  uses_waitAgent n wanted timeoutMs m

/-! ## The preference -/

/-- The armed request and the agent's connection, whoever owns the display. -/
def Broker.standing (b : Broker) : Bool × Option Fd × Bool × Bool × Nat :=
  (b.armed, b.agentFd, b.progress)

/-- The footprint of the functions that do not use the preference and leave an armed request
    alone. -/
abbrev NoPreference : Op → Prop :=
  Within Broker.standing [.quiet, .config, .stream, .handover, .composer]

theorem noPreference_calm (hp : p.Uses Calm) : p.Uses NoPreference :=
  uses_mono (fun _ => Within.mono (fun _ _ h => congrArg Prod.snd h) (by simp)) hp

end HdmiLos
