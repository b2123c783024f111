import HdmiLos.Broker.Basic
import HdmiLos.Interaction.Proofs.MachineProofs

/-!
# Rules for the broker's primitives

The weakest preconditions of the primitives in an arbitrary environment, and the footprints: which
operations a program can issue at all. A function that stays inside a footprint keeps every
property that the footprint's operations keep, so most of the broker needs no symbolic execution.
-/

namespace HdmiLos

open Interaction Prog List

variable {ω α β : Type} {env : Env ω} {H : Sys ω → Prop} {s t u : Sys ω}

/-- A descriptor that is absent has no readiness bits. -/
theorem maskRevents_getD (fds : List (Option Fd)) (revents : List Revents) (i : Nat) :
    (maskRevents fds revents).getD i {} =
      if (fds.getD i none).isSome then revents.getD i {} else {} := by
  induction fds generalizing revents i with
  | nil => simp [maskRevents]
  | cons fd fds ih =>
    cases i with
    | zero => cases fd <;> cases revents <;> simp [maskRevents]
    | succ i =>
      have htail := ih revents.tail i
      cases fd <;> cases revents <;> simpa [maskRevents] using htail

theorem maskRevents_input {fds : List (Option Fd)} {revents : List Revents} {i : Nat}
    (h : ((maskRevents fds revents).getD i {}).input = true) :
    (fds.getD i none).isSome = true ∧ (revents.getD i {}).input = true := by
  rw [maskRevents_getD] at h
  split at h
  · exact ⟨‹_›, h⟩
  · cases h

/-! ## Weakest preconditions -/

@[simp] theorem wp_getBroker (Q : Broker → Sys ω → Prop) :
    wp (sysHandler env) getBroker Q s H = Q s.vars s := rfl

@[simp] theorem wp_update (f : Broker → Broker) (Q : Unit → Sys ω → Prop) :
    wp (sysHandler env) (update f) Q s H = Q () { s with vars := f s.vars } := rfl

theorem wp_call (c : Io) {Q : c.Ans → Sys ω → Prop} (hH : H s)
    (hQ : ∀ a w, env c s.world = some (a, w) →
      Q a { s with log := s.log ++ [⟨c, a⟩], world := w }) :
    wp (sysHandler env) (call c) Q s H :=
  wp_io c hH hQ

@[simp] theorem wp_opened (ok : Bool) (Q : Option Fd → Sys ω → Prop) :
    wp (sysHandler env) (opened ok) Q s H =
      if ok then Q (some s.nextFd) { s with nextFd := s.nextFd + 1 } else Q none s := by
  cases ok <;> rfl

@[simp] theorem wp_makeMessage (opcode : UInt16) (Q : Message → Sys ω → Prop) :
    wp (sysHandler env) (makeMessage opcode) Q s H =
      Q { magic := hdmiLosMagic, version := hdmiLosBrokerVersion, opcode := opcode,
          requestId := s.vars.nextRequestId }
        { s with vars := { s.vars with nextRequestId := s.vars.nextRequestId + 1 } } := rfl

/-! ## Calls of a step -/

theorem callsSince_self (s : Sys ω) : callsSince s s = [] := drop_length

theorem callsSince_of_log {seg : List Event} (h : t.log = s.log ++ seg) : callsSince s t = seg := by
  rw [callsSince, h, drop_left]

theorem callsSince_snoc (h : s.log <+: t.log) (e : Event) (w : ω) :
    callsSince s { t with log := t.log ++ [e], world := w } = callsSince s t ++ [e] :=
  drop_append_of_le_length h.length_le

theorem callsSince_trans (h : s.log <+: t.log) (h' : t.log <+: u.log) :
    callsSince s u = callsSince s t ++ callsSince t u := by
  obtain ⟨x, hx⟩ := h
  obtain ⟨y, hy⟩ := h'
  rw [callsSince_of_log hx.symm, callsSince_of_log hy.symm]
  exact callsSince_of_log (by rw [← hy, ← hx, append_assoc])

theorem mem_callsSince (h : s.log <+: t.log) (h' : t.log <+: u.log) {e : Event}
    (he : e ∈ callsSince s t) : e ∈ callsSince s u := by
  rw [callsSince_trans h h']
  exact mem_append_left _ he

/-! ## Footprints -/

/-- The progress of an armed request. -/
def Broker.progress (b : Broker) : Bool × Bool × Nat :=
  (b.preferenceApplied, b.replugRequired, b.stableModeSamples)

/-- The fields that say who owns the display, the agent's connection, and the progress of an armed
    request. -/
def Broker.owner (b : Broker) : Bool × Bool × Option Fd × Bool × Bool × Nat :=
  (b.active, b.armed, b.agentFd, b.progress)

/-- The owner, and the state of the composer connection. -/
def Broker.vital (b : Broker) : (Bool × Bool × Option Fd × Bool × Bool × Nat) × Bool × Option Fd :=
  (b.owner, b.composerDisconnectPending, b.composerFd)

/-- A footprint: calls of the kinds `K`, and assignments that keep `V` of the fields. -/
def Within {τ : Type} (V : Broker → τ) (K : List IoKind) : Op → Prop
  | .get => True
  | .modify f => ∀ b, V (f b) = V b
  | .fresh => True
  | .io c => c.kind ∈ K

/-- The footprint of the functions that touch neither a peer nor a file. -/
abbrev Quiet : Op → Prop := Within Broker.vital [.quiet]

/-- The footprint of the functions that use the configuration file. -/
abbrev Config : Op → Prop := Within Broker.vital [.quiet, .config]

/-- The footprint of the functions that read and write files and run display commands. -/
abbrev Files : Op → Prop := Within Broker.vital [.quiet, .config, .preference]

/-- The footprint of the functions that use the streams of the agent and the clients. -/
abbrev Streams : Op → Prop := Within Broker.vital [.quiet, .stream]

/-- The footprint of everything but the composer socket. -/
abbrev NoComposer : Op → Prop :=
  Within Broker.vital [.quiet, .config, .preference, .stream, .handover]

variable {K : List IoKind} {τ : Type} {V : Broker → τ}

theorem Within.mono {τ' : Type} {V' : Broker → τ'} {K' : List IoKind}
    (hV : ∀ b b', V b = V b' → V' b = V' b') (hK : K ⊆ K') {op : Op} (hop : Within V K op) :
    Within V' K' op := by
  cases op with
  | get => trivial
  | modify f => exact fun b => hV _ _ (hop b)
  | fresh => trivial
  | io c => exact hK hop

variable {p : BrokerProg α}

/-- A quiet program is inside every footprint that keeps no more than the vital fields. -/
theorem uses_of_quiet (hV : ∀ b b', b.vital = b'.vital → V b = V b')
    (hK : IoKind.quiet ∈ K) (hp : p.Uses Quiet) : p.Uses (Within V K) :=
  uses_mono (fun _ => Within.mono hV (by simpa using hK)) hp

theorem uses_files (hp : p.Uses Config) : p.Uses Files :=
  uses_mono (fun _ => Within.mono (fun _ _ h => h) (by simp)) hp

section Footprints

variable {τ : Type} {V : Broker → τ} {K : List IoKind}

theorem uses_getBroker : getBroker.Uses (Within V K) := uses_perform trivial

theorem uses_update {f : Broker → Broker} (hf : ∀ b, V (f b) = V b) :
    (update f).Uses (Within V K) := uses_perform hf

theorem uses_call {c : Io} (hc : c.kind ∈ K) : (call c).Uses (Within V K) := uses_perform hc

theorem uses_opened (ok : Bool) : (opened ok).Uses (Within V K) := by
  unfold opened
  cases ok
  · trivial
  · exact uses_bind (uses_perform trivial) fun _ => trivial

theorem uses_closeIfOpen (fd : Option Fd) (hK : IoKind.quiet ∈ K := by simp) :
    (closeIfOpen fd).Uses (Within V K) := by
  cases fd with
  | none => trivial
  | some fd => exact uses_call hK

end Footprints

theorem uses_quietCall {c : Io} (hc : c.kind = .quiet) : (call c).Uses Quiet :=
  uses_call (mem_singleton.2 hc)

theorem uses_logAny (t : Transition) : (logTransition t).Uses NoComposer := by
  refine uses_call ?_
  show t.kind ∈ _
  unfold Transition.kind
  split <;> simp

/-! ## Ordinary functions -/

/-- The fields but for the message counter, the detail text and the state of the volume keys. -/
def Broker.lasting (b : Broker) : Broker :=
  { b with nextRequestId := 0, stateDetail := "",
           volumes := { down := b.volumes.down, up := b.volumes.up } }

/-- The calls that grab the volume keys, hold the wake lock or give a descriptor back. -/
def Io.isGuard : Io → Bool
  | .wakeLock _ => true
  | .grab _ _ => true
  | .close _ => true
  | _ => false

/-- A footprint that leaves room for the functions that assign no lasting field and do nothing with
    a peer, a file, the guards of a session or a descriptor that is held. -/
class Ordinary (F : Op → Prop) : Prop where
  get : F .get
  modify : ∀ {f : Broker → Broker}, (∀ b, (f b).lasting = b.lasting) → F (.modify f)
  io : ∀ {c : Io}, c.kind = .quiet → c.isGuard = false → F (.io c)

theorem ordinary_within (hV : ∀ b b', b.lasting = b'.lasting → V b = V b')
    (hK : IoKind.quiet ∈ K) :
    Ordinary (Within V K) where
  get := trivial
  modify h b := hV _ _ (h b)
  io {c} hc _ := by
    show c.kind ∈ K
    rw [hc]
    exact hK

theorem lasting_vital {b b' : Broker} (h : b.lasting = b'.lasting) : b.vital = b'.vital := by
  have hvital : b.lasting.vital = b'.lasting.vital := congrArg Broker.vital h
  exact hvital

instance : Ordinary Quiet := ordinary_within (fun _ _ => lasting_vital) (by simp)

/-- The least ordinary footprint. -/
def Passive : Op → Prop
  | .get => True
  | .modify f => ∀ b, (f b).lasting = b.lasting
  | .fresh => False
  | .io c => c.kind = .quiet ∧ c.isGuard = false

instance : Ordinary Passive where
  get := trivial
  modify h := h
  io hc hguard := ⟨hc, hguard⟩

theorem uses_of_passive {F : Op → Prop} [Ordinary F] (hp : p.Uses Passive) : p.Uses F := by
  refine uses_mono (fun op hop => ?_) hp
  cases op with
  | get => exact Ordinary.get
  | modify f => exact Ordinary.modify hop
  | fresh => exact hop.elim
  | io c => exact Ordinary.io hop.1 hop.2

section Ordinary

variable {F : Op → Prop} [Ordinary F]

theorem ordinary_get : getBroker.Uses F := uses_perform Ordinary.get

theorem ordinary_update {f : Broker → Broker} (hf : ∀ b, (f b).lasting = b.lasting) :
    (update f).Uses F := uses_perform (Ordinary.modify hf)

theorem ordinary_call {c : Io} (hc : c.kind = .quiet) (hguard : c.isGuard = false) :
    (call c).Uses F := uses_perform (Ordinary.io hc hguard)

theorem uses_pollFds (fds : List (Option Fd)) (t : Int) : (pollFds fds t).Uses F := by
  refine uses_bind (ordinary_call rfl rfl) fun a => ?_
  cases a <;> trivial

theorem uses_makeMessage (opcode : UInt16) : (makeMessage opcode).Uses F :=
  uses_bind ordinary_get fun _ => uses_bind (ordinary_update fun _ => rfl) fun _ => trivial

theorem uses_monotonicMs : monotonicMs.Uses F := ordinary_call rfl rfl

theorem uses_logTransition {t : Transition} (ht : t.kind = .quiet) : (logTransition t).Uses F :=
  ordinary_call ht rfl

end Ordinary

theorem uses_acceptConnection : acceptConnection.Uses Quiet :=
  uses_bind (uses_perform trivial) fun _ => uses_bind (uses_quietCall rfl) fun _ =>
    uses_ite trivial trivial

/-! ## Functions that talk to a peer or change the preference -/

/-- A footprint that leaves room for the streams of the agent and the clients. -/
class Streaming (F : Op → Prop) : Prop extends Ordinary F where
  stream : ∀ {c : Io}, c.kind = .stream → F (.io c)

instance : Streaming Streams where
  toOrdinary := ordinary_within (fun _ _ => lasting_vital) (by simp)
  stream {c} hc := by
    show c.kind ∈ _
    simp [hc]

/-- The fields but for those that the messages of the composer change. -/
def Broker.aside (b : Broker) : Broker :=
  { b with composerFd := none, composerDisconnectPending := false, composerFlags := 0,
           activeWidth := 0, activeHeight := 0, activeRefreshMillihz := 0, nextRequestId := 0 }

/-- A footprint that leaves room for listening to the composer. -/
class Hearing (F : Op → Prop) : Prop where
  get : F .get
  fresh : F .fresh
  modify : ∀ {f : Broker → Broker}, (∀ b, (f b).aside = b.aside) → F (.modify f)
  connect : F (.io .connectComposer)
  recv : ∀ fd, F (.io (.recvWithFd fd))
  close : ∀ fd, F (.io (.close fd))

/-- A footprint that leaves room for requests to the composer. -/
class Exchanging (F : Op → Prop) : Prop extends Hearing F where
  send : ∀ fd m, F (.io (.sendWithFd fd m none))

/-- A footprint that leaves room for Android's preference and its journal. -/
class Preferring (F : Op → Prop) : Prop where
  get : F .get
  preference : ∀ {c : Io}, c.kind = .preference → F (.io c)

theorem preferring_within (hK : IoKind.preference ∈ K) : Preferring (Within V K) where
  get := trivial
  preference {c} hc := by
    show c.kind ∈ K
    rw [hc]
    exact hK

instance : Preferring Files := preferring_within (by simp)

end HdmiLos
