import HdmiLos.Agent.Run
import HdmiLos.Interaction.Proofs.MachineProofs

/-!
# The agent's sessions from their parts

The functions that prepare, start and end a session talk to the broker and to Xorg's trace socket
only through `relay_trace_record`. A property that is closed under composition holds of all of them
once it holds of the functions that use neither, and of the relay. Many of them do not even touch the
processes and the descriptors of the session.
-/

namespace HdmiLos.Agent

open Interaction Prog

variable {α : Type} {n : Nat} {S : (α : Type) → AgentProg α → Prop}

/-- The calls that use neither the broker's connection nor the trace socket. -/
def Io.mute : Io → Bool
  | writeBroker _ => false
  | recvBroker _ => false
  | recvTrace _ => false
  | sendTrace _ _ => false
  | _ => true

/-- The footprint of the functions that make only such calls. -/
def Mute : Act Agent Io → Prop
  | .io c => c.mute = true
  | _ => True

/-- The calls that moreover open and close no descriptor, and neither start a process nor wait for
    one. -/
def Io.plain : Io → Bool
  | close _ => false
  | socketpair => false
  | dup _ _ => false
  | fork _ _ => false
  | waitpid _ => false
  | waitNoHang _ => false
  | c => c.mute

/-- The processes, the descriptors and the prepared mode are as before. -/
structure Kept (a b : Agent) : Prop where
  bridge : b.bridge = a.bridge
  xorg : b.xorg = a.xorg
  session : b.session = a.session
  trace : b.trace = a.trace
  verifyLease : b.verifyLease = a.verifyLease
  probeMode : b.probeMode = a.probeMode

/-- The footprint of the functions that only look and wait. -/
def Plain : Act Agent Io → Prop
  | .get => True
  | .modify f => ∀ a, Kept a (f a)
  | .fresh => False
  | .io c => c.plain = true

theorem mute_of_plain {p : AgentProg α} (hp : p.Uses Plain) : p.Uses Mute := by
  refine uses_mono (fun op hop => ?_) hp
  cases op with
  | io c =>
    cases c with
    | writeBroker m => cases hop
    | recvBroker reader => cases hop
    | recvTrace fd => cases hop
    | sendTrace fd record => cases hop
    | _ => rfl
  | _ => trivial

/-! ## Plain functions -/

theorem plain_getAgent : getAgent.Uses Plain := uses_perform trivial

theorem plain_assign {f : Agent → Agent} (hf : ∀ a, Kept a (f a)) : (assign f).Uses Plain :=
  uses_perform hf

theorem plain_call {c : Io} (hc : c.plain = true) : (call c).Uses Plain := uses_perform hc

theorem plain_awaitExit (pid : Pid) (stop : Int) (x : Unit) : (awaitExit pid stop x).Uses Plain :=
  uses_bind (plain_call rfl) fun _ => uses_ite (uses_bind (plain_call rfl) fun _ => uses_ite
      (uses_bind (plain_call rfl) fun _ => trivial) trivial) trivial

theorem plain_signalGroup (pid : Pid) : (signalGroup n pid).Uses Plain := by
  refine uses_bind (plain_call rfl) fun _ => uses_ite ?_ trivial
  refine uses_bind (plain_call rfl) fun _ => uses_bind (plain_call rfl) fun _ => ?_
  refine uses_bind (plain_call rfl) fun _ =>
    uses_bind (uses_loop (plain_awaitExit pid _) n ()) fun _ => ?_
  exact uses_bind (plain_call rfl) fun _ => uses_ite (plain_call rfl) trivial

theorem kept_readInputLine (a : Agent) (line : Text) : Kept a (readInputLine a line) := by
  unfold readInputLine
  dsimp only
  split
  · exact ⟨rfl, rfl, rfl, rfl, rfl, rfl⟩
  split
  · exact ⟨rfl, rfl, rfl, rfl, rfl, rfl⟩
  · exact ⟨rfl, rfl, rfl, rfl, rfl, rfl⟩

theorem Kept.trans {a b c : Agent} (h : Kept a b) (h' : Kept b c) : Kept a c :=
  ⟨h'.bridge.trans h.bridge, h'.xorg.trans h.xorg, h'.session.trans h.session,
    h'.trace.trans h.trace, h'.verifyLease.trans h.verifyLease, h'.probeMode.trans h.probeMode⟩

theorem kept_readInputLines (lines : List Text) (a : Agent) :
    Kept a (lines.foldl readInputLine a) := by
  induction lines generalizing a with
  | nil => exact ⟨rfl, rfl, rfl, rfl, rfl, rfl⟩
  | cons line lines ih => exact (kept_readInputLine a line).trans (ih _)

theorem plain_readInputPaths : readInputPaths.Uses Plain := by
  refine uses_bind (plain_call rfl) fun lines => ?_
  cases lines with
  | none => trivial
  | some lines =>
    exact uses_bind (plain_assign (kept_readInputLines lines)) fun _ =>
      uses_bind plain_getAgent fun _ => trivial

theorem plain_awaitInputRound (pid : Pid) (stop : Int) (x : Unit) :
    (awaitInputRound pid stop x).Uses Plain := by
  refine uses_bind (plain_call rfl) fun _ => uses_ite ?_ trivial
  refine uses_bind (plain_call rfl) fun _ => uses_ite ?_ trivial
  exact uses_bind plain_readInputPaths fun _ =>
    uses_ite trivial (uses_bind (plain_call rfl) fun _ => trivial)

theorem plain_connectorAttempts (lease : Fd) (connector : UInt32) (attempts : Nat)
    (room : ConnectorCounts) : (connectorAttempts lease connector attempts room).Uses Plain := by
  induction attempts generalizing room with
  | zero => trivial
  | succ attempts ih =>
    refine uses_bind (plain_call rfl) fun filled => ?_
    cases filled with
    | none => trivial
    | some filled => exact uses_ite trivial (ih filled.counts)

theorem plain_readAndroidMode (lease : Fd) (connector crtc : UInt32) :
    (readAndroidMode lease connector crtc).Uses Plain := by
  refine uses_ite trivial (uses_bind (uses_bind (plain_call rfl) fun query => ?_) fun filled => ?_)
  · cases query with
    | none => trivial
    | some query => exact plain_connectorAttempts lease connector 3 query.counts
  · cases filled with
    | none => trivial
    | some filled =>
      refine uses_bind (plain_call rfl) fun current => ?_
      cases current with
      | none => trivial
      | some current =>
        exact uses_bind (plain_assign fun _ => ⟨rfl, rfl, rfl, rfl, rfl, rfl⟩) fun _ =>
          uses_bind plain_getAgent fun _ => trivial

theorem plain_configureXorg (lease : Fd) (connector crtc : UInt32) :
    (configureXorg lease connector crtc).Uses Plain :=
  uses_bind (plain_readAndroidMode lease connector crtc) fun _ =>
    uses_ite (uses_bind plain_getAgent fun _ => plain_call rfl) trivial

theorem plain_verifyScanout : verifyScanout.Uses Plain := by
  refine uses_bind plain_getAgent fun a => ?_
  cases a.verifyLease with
  | none => trivial
  | some lease =>
    refine uses_ite trivial (uses_bind (plain_call rfl) fun current => ?_)
    cases current <;> trivial

/-! ## Mute functions -/

theorem mute_getAgent : getAgent.Uses Mute := uses_perform trivial

theorem mute_assign (f : Agent → Agent) : (assign f).Uses Mute := uses_perform trivial

theorem mute_call {c : Io} (hc : c.mute = true) : (call c).Uses Mute := uses_perform hc

theorem mute_fresh : fresh.Uses Mute := uses_perform trivial

theorem mute_closeIfOpen (fd : Option Fd) : (closeIfOpen fd).Uses Mute := by
  cases fd with
  | none => trivial
  | some fd => exact mute_call rfl

theorem mute_fork (child : Child) : (fork child).Uses Mute :=
  uses_bind mute_fresh fun _ => uses_bind (mute_call rfl) fun _ => uses_ite trivial trivial

theorem mute_terminateGroup (role : Role) : (terminateGroup n role).Uses Mute := by
  refine uses_bind mute_getAgent fun a => ?_
  cases pid a role with
  | none => trivial
  | some p =>
    exact uses_bind (mute_of_plain (plain_signalGroup p)) fun _ =>
      uses_bind (mute_call rfl) fun _ => mute_assign _

theorem mute_abandonTool (pid : Pid) : (abandonTool pid).Uses Mute :=
  uses_bind (mute_call rfl) fun _ => uses_bind (mute_call rfl) fun _ => trivial

theorem mute_preflightReap (pid : Pid) (exited : Option (Option Nat)) :
    (preflightReap n pid exited).Uses Mute := by
  cases exited with
  | some code => trivial
  | none =>
    refine uses_bind (uses_loop (fun _ => uses_bind (mute_call rfl) fun waited => ?_) n ()) ?_
    · cases waited <;> trivial
    · intro waited
      cases waited with
      | some code => trivial
      | none => exact uses_bind (mute_call rfl) fun _ => uses_bind (mute_call rfl) fun _ => trivial

theorem mute_spawnXorg (lease : Fd) : (spawnXorg lease).Uses Mute := by
  refine uses_bind (mute_call rfl) fun _ => uses_ite (uses_bind mute_fresh fun _ => ?_) trivial
  refine uses_bind (mute_fork _) fun xorg => ?_
  cases xorg with
  | none => exact uses_bind (mute_call rfl) fun _ => trivial
  | some pid => exact uses_bind (mute_assign _) fun _ => trivial

theorem mute_startSession : startSession.Uses Mute :=
  uses_bind (mute_assign _) fun _ => uses_bind mute_getAgent fun _ => uses_ite trivial
    (uses_bind (mute_fork _) fun _ => uses_bind (mute_assign _) fun _ => trivial)

theorem mute_cleanupSession : (cleanupSession n).Uses Mute := by
  refine uses_bind (mute_terminateGroup _) fun _ => uses_bind (mute_terminateGroup _) fun _ => ?_
  refine uses_bind (uses_bind mute_getAgent fun _ => uses_bind (mute_closeIfOpen _) fun _ =>
    mute_assign _) fun _ => ?_
  refine uses_bind (uses_bind mute_getAgent fun _ => uses_bind (mute_closeIfOpen _) fun _ =>
    mute_assign _) fun _ => ?_
  exact uses_bind (mute_terminateGroup _) fun _ => mute_call rfl

/-! ## Functions that look, relay and run tools -/

/-- What has to be shown of the parts of a function that changes neither the processes nor the
    descriptors of a session. -/
structure QuietParts (S : (α : Type) → AgentProg α → Prop) : Prop extends Compositional S where
  plain : ∀ {α : Type} {p : AgentProg α}, p.Uses Plain → S α p
  relay : ∀ timeoutMs, S Bool (relayTraceRecord timeoutMs)
  runWait : ∀ n tool, S Bool (runWait n tool)

namespace QuietParts

variable (hS : QuietParts S)

include hS

theorem prepareAuthority : S Bool (prepareAuthority n) := by
  refine hS.bind (hS.plain (plain_call rfl)) fun _ => hS.ite ?_ (hS.pure false)
  refine hS.bind (hS.plain (plain_call rfl)) fun _ => hS.ite ?_ (hS.pure false)
  refine hS.bind (hS.plain (plain_call rfl)) fun _ => hS.ite ?_ (hS.pure false)
  exact hS.bind (hS.runWait n _) fun _ => hS.ite (hS.plain (plain_call rfl)) (hS.pure false)

/-- The part of `prepare_session` behind the start of the input bridge. -/
theorem awaitInput (pid : Pid) : S Bool (do
      let now ← monotonicMs
      Prog.loop (awaitInputRound pid (now + 4500)) n ()
      let a ← getAgent
      if a.mouse.isEmpty || a.keyboard.isEmpty then pure false else Agent.prepareAuthority n) := by
  refine hS.bind (hS.plain (plain_call rfl)) fun now => ?_
  refine hS.bind (hS.plain (uses_loop (plain_awaitInputRound pid _) n ())) fun _ => ?_
  exact hS.bind (hS.plain plain_getAgent) fun _ => hS.ite (hS.pure false) hS.prepareAuthority

theorem xorgReady : S Bool (xorgReady n) :=
  hS.bind (hS.plain (plain_call rfl)) fun _ => hS.ite (hS.runWait n _) (hS.pure false)

theorem verifyStart : S Bool (verifyStart n) := by
  refine hS.bind (hS.plain plain_verifyScanout) fun _ => hS.ite ?_ (hS.pure false)
  refine hS.bind (hS.plain (plain_call rfl)) fun _ => hS.ite ?_ (hS.pure false)
  refine hS.bind (hS.runWait n _) fun _ => hS.ite ?_ (hS.pure false)
  refine hS.bind (hS.runWait n _) fun _ => hS.ite ?_ (hS.pure false)
  refine hS.bind (hS.plain (plain_call rfl)) fun _ => hS.bind (hS.plain (plain_call rfl)) fun _ => ?_
  exact hS.bind (hS.plain plain_getAgent) fun _ => hS.pure _

theorem preflightLoaded (poll : PollOne) : S Bool (preflightLoaded poll) := by
  cases poll with
  | ready revents => exact hS.ite (hS.relay 0) (hS.pure false)
  | timeout => exact hS.pure false
  | failed => exact hS.pure false

theorem preflightRelay (isOpen : Bool) : S (Bool ⊕ Option (Option Nat)) (preflightRelay isOpen) :=
  hS.ite (hS.bind (hS.relay 50) fun _ => hS.pure _)
    (hS.bind (hS.plain (plain_call rfl)) fun _ => hS.pure _)

end QuietParts

/-! ## The sessions -/

/-- What has to be shown of the parts. -/
structure SessionParts (S : (α : Type) → AgentProg α → Prop) : Prop extends Compositional S where
  mute : ∀ {α : Type} {p : AgentProg α}, p.Uses Mute → S α p
  relay : ∀ timeoutMs, S Bool (relayTraceRecord timeoutMs)

namespace SessionParts

variable (hS : SessionParts S)

include hS

theorem runWait (tool : String) : S Bool (runWait n tool) := by
  refine hS.bind (hS.mute (mute_fork _)) fun child => ?_
  cases child with
  | none => exact hS.pure false
  | some pid =>
    refine hS.bind (hS.mute (mute_call rfl)) fun now => hS.loop (fun _ => ?_) n ()
    refine hS.bind (hS.mute (mute_call rfl)) fun waited => ?_
    cases waited with
    | exited code => exact hS.pure _
    | interrupted => exact hS.pure _
    | failed => exact hS.pure _
    | running =>
      refine hS.bind (hS.mute (mute_call rfl)) fun _ => hS.ite (hS.mute (mute_abandonTool pid)) ?_
      refine hS.bind (hS.mute mute_getAgent) fun _ => hS.ite ?_ ?_
      · exact hS.bind (hS.relay 50) fun _ => hS.ite (hS.pure _) (hS.mute (mute_abandonTool pid))
      · exact hS.bind (hS.mute (mute_call rfl)) fun _ => hS.pure _

theorem quiet : QuietParts S where
  toCompositional := hS.toCompositional
  plain hp := hS.mute (mute_of_plain hp)
  relay := hS.relay
  runWait _ tool := hS.runWait tool

theorem preflightRound (pid : Pid) (stop : Int) (isOpen : Bool) :
    S (Bool ⊕ Option (Option Nat)) (preflightRound pid stop isOpen) := by
  refine hS.bind (hS.mute (mute_call rfl)) fun _ => hS.ite ?_ (hS.pure _)
  refine hS.bind (hS.mute (mute_call rfl)) fun waited => ?_
  cases waited with
  | exited code => exact hS.pure _
  | failed => exact hS.pure _
  | interrupted => exact hS.quiet.preflightRelay isOpen
  | running => exact hS.quiet.preflightRelay isOpen

theorem preflightChild (pid : Pid) (fd : Fd) : S Bool (preflightChild n pid fd) := by
  refine hS.bind (hS.mute (mute_assign _)) fun _ => hS.bind (hS.mute (mute_call rfl)) fun polled => ?_
  refine hS.bind (hS.quiet.preflightLoaded polled) fun loaded =>
    hS.bind (hS.mute (mute_call rfl)) fun now => ?_
  refine hS.bind (hS.loop (hS.preflightRound pid _) n true) fun exited => ?_
  refine hS.bind (hS.mute (mute_preflightReap pid exited)) fun code => ?_
  refine hS.bind (hS.mute (mute_call rfl)) fun _ => hS.bind (hS.mute (mute_assign _)) fun _ => ?_
  rcases code with _ | _ | code
  · exact hS.pure false
  · exact hS.pure false
  · exact hS.pure _

theorem tracePreflight : S Bool (tracePreflight n) := by
  refine hS.bind (hS.mute (mute_call rfl)) fun _ => hS.ite ?_ (hS.pure false)
  refine hS.bind (hS.mute (mute_call rfl)) fun _ => hS.ite ?_ (hS.pure false)
  refine hS.bind (hS.mute mute_fresh) fun fd => hS.bind (hS.mute (mute_fork _)) fun child => ?_
  cases child with
  | none => exact hS.bind (hS.mute (mute_call rfl)) fun _ => hS.pure false
  | some pid => exact hS.preflightChild pid fd

theorem prepareBridge : S Bool (prepareBridge n) := by
  refine hS.bind (hS.mute (mute_fork _)) fun bridge => hS.bind (hS.mute (mute_assign _)) fun _ => ?_
  cases bridge with
  | none => exact hS.pure false
  | some pid => exact hS.quiet.awaitInput pid

theorem prepareSession (mode : UInt32) : S Bool (prepareSession n mode) := by
  refine hS.ite (hS.pure false) ?_
  refine hS.bind (hS.mute (mute_terminateGroup _)) fun _ => ?_
  refine hS.bind (hS.mute (mute_terminateGroup _)) fun _ => ?_
  refine hS.bind (hS.mute (mute_terminateGroup _)) fun _ =>
    hS.bind (hS.mute (mute_assign _)) fun _ => ?_
  have hruntime : S Bool (prepareRuntime n) := by
    refine hS.bind (hS.mute (mute_call rfl)) fun _ => hS.ite ?_ (hS.pure false)
    refine hS.bind (hS.mute (mute_call rfl)) fun _ => hS.ite ?_ (hS.pure false)
    exact hS.bind (hS.mute (mute_call rfl)) fun _ => hS.tracePreflight
  exact hS.bind hruntime fun _ => hS.ite hS.prepareBridge (hS.pure false)

theorem startRound (pid : Pid) (stop : Int) (x : Unit) :
    S (Unit ⊕ Bool) (startRound n pid stop x) := by
  refine hS.bind (hS.mute (mute_call rfl)) fun _ => hS.ite ?_ (hS.pure _)
  refine hS.bind (hS.mute (mute_call rfl)) fun _ => hS.ite ?_ (hS.pure _)
  refine hS.bind (hS.relay 100) fun _ => hS.ite ?_ (hS.pure _)
  refine hS.bind hS.quiet.xorgReady fun _ => hS.ite ?_ (hS.bind (hS.mute (mute_call rfl))
    fun _ => hS.pure _)
  refine hS.bind (hS.mute mute_getAgent) fun _ => hS.ite (hS.pure _) (hS.ite ?_ ?_)
  · exact hS.bind (hS.mute (mute_call rfl)) fun _ => hS.pure _
  · exact hS.bind hS.quiet.verifyStart fun _ => hS.ite (hS.mute mute_startSession) (hS.pure _)

theorem startProcess (lease : Fd) : S Bool (startProcess n lease) := by
  refine hS.bind (hS.mute mute_fresh) fun copy => hS.bind (hS.mute (mute_call rfl)) fun _ => ?_
  refine hS.ite ?_ ?_
  · refine hS.bind (hS.mute (mute_assign _)) fun _ => ?_
    refine hS.bind (hS.mute (mute_spawnXorg lease)) fun xorg => ?_
    refine hS.bind (hS.mute (mute_assign _)) fun _ => hS.bind (hS.mute (mute_call rfl)) fun _ => ?_
    cases xorg with
    | none => exact hS.pure false
    | some pid =>
      exact hS.bind (hS.mute (mute_call rfl)) fun now => hS.loop (hS.startRound pid _) n ()
  · exact hS.bind (hS.mute (mute_assign _)) fun _ =>
      hS.bind (hS.mute (mute_call rfl)) fun _ => hS.pure false

theorem startXorg (lease : Fd) (connector crtc : UInt32) :
    S Bool (startXorg n lease connector crtc) := by
  refine hS.bind (hS.quiet.plain (plain_configureXorg lease connector crtc)) fun _ => hS.ite ?_ ?_
  · exact hS.bind (hS.mute (mute_assign _)) fun _ => hS.startProcess lease
  · exact hS.bind (hS.mute (mute_call rfl)) fun _ => hS.pure false

theorem startRequested (request : Message) (lease : Option Fd) :
    S Bool (startRequested n request lease) := by
  refine hS.bind (hS.mute mute_getAgent) fun _ => ?_
  cases lease with
  | none => exact hS.pure false
  | some lease => exact hS.ite (hS.startXorg lease _ _) (hS.pure false)

theorem cleanupFailed (ok : Bool) : S Unit (cleanupFailed n ok) :=
  hS.ite (hS.pure ()) (hS.mute mute_cleanupSession)

end SessionParts

end HdmiLos.Agent
