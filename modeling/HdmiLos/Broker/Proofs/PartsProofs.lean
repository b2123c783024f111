import HdmiLos.Broker.Proofs.CalmProofs

/-!
# The main loop from its parts

A property of programs that is closed under composition holds of every part of the main loop once it
holds of the functions that talk to the composer or wait for the agent, of the assignments that do
not take the display, and of the functions that change something for others: `RecoverPreferredMode`,
`ApplyPreferredMode` and `Start`. Where `ApplyPreferredMode` alone does not have the property, it is
shown of the two functions that call it.
-/

namespace HdmiLos

open Interaction Prog

/-- The footprint of a calm function that does not talk to the composer. -/
abbrev Plain : Op → Prop := Within Broker.owner [.quiet, .config, .stream]

variable {α : Type} {p : BrokerProg α} {S : (α : Type) → BrokerProg α → Prop} {n : Nat}

theorem plain_quiet (hp : p.Uses Quiet) : p.Uses Plain :=
  uses_of_quiet (fun _ _ => vital_owner) (by simp) hp

theorem plain_config (hp : p.Uses Config) : p.Uses Plain :=
  uses_mono (fun _ => Within.mono (fun _ _ => vital_owner) (by simp)) hp

theorem plain_streams (hp : p.Uses Streams) : p.Uses Plain :=
  uses_mono (fun _ => Within.mono (fun _ _ => vital_owner) (by simp)) hp

theorem plain_closeComposer : closeComposer.Uses Plain :=
  uses_bind uses_getBroker fun _ => uses_bind (plain_quiet (uses_closeIfOpen _)) fun _ =>
    uses_update fun _ => rfl

/-! ## Start -/

/-- The footprint of `Start` between its requests to the composer and its waits for the agent. -/
abbrev Starting : Op → Prop := Within Broker.standing [.quiet, .config, .stream, .handover]

theorem starting_plain (hp : p.Uses Plain) : p.Uses Starting :=
  uses_mono (fun _ => Within.mono (fun _ _ h => congrArg Prod.snd h) (by simp)) hp

/-- What has to be shown for a session to be started. -/
structure StartParts (n : Nat) (S : (α : Type) → BrokerProg α → Prop) : Prop
    extends Compositional S where
  starting : ∀ {α : Type} {p : BrokerProg α}, p.Uses Starting → S α p
  request : ∀ opcode m wantLease flags, S Reply (composerRequest n opcode m wantLease flags)
  wait : ∀ wanted timeoutMs m, S (Bool × Message) (waitAgent n wanted timeoutMs m)

namespace StartParts

variable (hS : StartParts n S)

include hS

theorem quiet (hp : p.Uses Quiet) : S α p :=
  hS.starting (starting_plain (plain_quiet hp))

theorem streams (hp : p.Uses Streams) : S α p :=
  hS.starting (starting_plain (plain_streams hp))

theorem logTransition (t : Transition) : S Unit (logTransition t) := by
  refine hS.starting (uses_call ?_)
  show t.kind ∈ _
  unfold Transition.kind
  split <;> simp

theorem startPrepare (agent : Fd) (mode : UInt32) :
    S (StepResult Unit) (startPrepare n agent mode) := by
  have hprepare : S Bool (prepareAgent n agent mode) := by
    refine hS.bind (hS.quiet (uses_makeMessage _)) fun _ => ?_
    refine hS.bind (hS.streams (uses_call (by simp [Io.kind]))) fun _ => hS.ite ?_ (hS.pure _)
    exact hS.bind (hS.wait _ _ _) fun _ => hS.pure _
  refine hS.bind (hS.logTransition _) fun _ => hS.bind hprepare fun _ => ?_
  refine hS.ite (hS.bind (hS.logTransition _) fun _ => hS.pure _) ?_
  refine hS.bind (hS.streams (uses_sendAgentStop agent)) fun _ => ?_
  exact hS.bind (hS.quiet uses_cleanupGuards) fun _ => hS.pure _

theorem startAcquire (agent : Fd) (stage : Stage) (flags : UInt32)
    (wantLease : Bool) (text : String) :
    S (StepResult Reply) (startAcquire n agent stage flags wantLease text) := by
  refine hS.bind (hS.logTransition _) fun _ => hS.bind (hS.request _ _ _ _) fun reply => ?_
  refine hS.ite ?_ (hS.bind (hS.logTransition _) fun _ => hS.pure _)
  refine hS.bind (hS.logTransition _) fun _ => ?_
  refine hS.bind (hS.streams (uses_sendAgentStop agent)) fun _ => ?_
  refine hS.bind (hS.quiet (uses_closeIfOpen _)) fun _ => hS.bind (hS.request _ _ _ _) fun _ => ?_
  exact hS.bind (hS.quiet uses_cleanupGuards) fun _ => hS.pure _

theorem startAgent (agent : Fd) (mode : UInt32) (created : Message)
    (lease : Fd) : S (StepResult Unit) (startAgent n agent mode created lease) := by
  refine hS.bind (hS.logTransition _) fun _ => hS.bind (hS.quiet (uses_makeMessage _)) fun _ => ?_
  refine hS.bind (hS.starting (uses_call (by simp [Io.kind]))) fun sent => ?_
  refine hS.bind (hS.quiet (uses_quietCall rfl)) fun _ => hS.ite ?_ ?_
  · exact hS.bind (hS.request _ _ _ _) fun _ =>
      hS.bind (hS.quiet uses_cleanupGuards) fun _ => hS.pure _
  · refine hS.bind (hS.wait _ _ _) fun r => ?_
    obtain ⟨ready, response⟩ := r
    refine hS.ite (hS.bind (hS.logTransition _) fun _ => hS.pure _) ?_
    refine hS.bind (hS.streams (uses_sendAgentStop agent)) fun _ => ?_
    refine hS.bind (hS.request _ _ _ _) fun reply => ?_
    exact hS.bind (hS.quiet uses_cleanupGuards) fun _ => hS.ite (hS.pure _) (hS.pure _)

theorem startActive (mode : UInt32) : S (Int × String) (startActive mode) := by
  have hbeat : ∀ continuous, (startHeartbeat continuous).Uses Quiet := fun _ =>
    uses_ite (uses_bind uses_monotonicMs fun _ => uses_update fun _ => rfl) trivial
  refine hS.bind (hS.starting (uses_update fun _ => rfl)) fun _ => ?_
  refine hS.bind (hS.starting uses_getBroker) fun b => hS.bind (hS.quiet (hbeat _)) fun _ => ?_
  exact hS.bind (hS.quiet (uses_setDetail _)) fun _ => hS.pure _

theorem startGuarded (agent : Fd) (mode : UInt32) :
    S (Int × String) (startGuarded n agent mode) := by
  have hdeadline : ∀ continuous, (startDeadline continuous).Uses Quiet := fun _ =>
    uses_ite (uses_update fun _ => rfl)
      (uses_bind uses_monotonicMs fun _ => uses_update fun _ => rfl)
  refine hS.bind (hS.starting (uses_update fun _ => rfl)) fun _ => ?_
  refine hS.bind (hS.starting uses_getBroker) fun b => hS.bind (hS.quiet (hdeadline _)) fun _ => ?_
  refine hS.bind (hS.startPrepare agent mode) fun r => ?_
  cases r with
  | inl failure => exact hS.pure _
  | inr _ =>
    refine hS.bind (hS.startAcquire _ _ _ _ _) fun r => ?_
    cases r with
    | inl failure => exact hS.pure _
    | inr _ =>
      refine hS.bind (hS.startAcquire _ _ _ _ _) fun r => ?_
      cases r with
      | inl failure => exact hS.pure _
      | inr _ =>
        refine hS.bind (hS.startAcquire _ _ _ _ _) fun r => ?_
        cases r with
        | inl failure => exact hS.pure _
        | inr created =>
          dsimp only
          cases created.leaseFd with
          | none => exact hS.pure _
          | some lease =>
            refine hS.bind (hS.startAgent agent mode _ lease) fun r => ?_
            cases r with
            | inl failure => exact hS.pure _
            | inr _ => exact hS.startActive mode

theorem start (mode : UInt32) : S (Int × String) (start n mode) := by
  refine hS.bind (hS.starting uses_getBroker) fun b => hS.ite (hS.pure _) (hS.ite (hS.pure _) ?_)
  refine hS.bind (hS.quiet uses_closedGate) fun gate => ?_
  cases gate with
  | some text => exact hS.pure _
  | none =>
    dsimp only
    cases b.agentFd with
    | none => exact hS.pure _
    | some agent =>
      refine hS.bind (hS.quiet uses_acquireGuards) fun failed => ?_
      cases failed with
      | some text => exact hS.pure _
      | none => exact hS.startGuarded agent mode

end StartParts

theorem noPreference_start (n : Nat) (mode : UInt32) : (start n mode).Uses NoPreference :=
  StartParts.start
    { toCompositional := uses_compositional NoPreference
      starting := fun hp => uses_mono (fun _ => Within.mono (fun _ _ h => h) (by simp)) hp
      request := fun _ _ _ _ => noPreference_calm (calm_composerRequest _ _ _ _)
      wait := fun _ _ _ => noPreference_calm (calm_waitAgent _ _ _) } mode

/-! ## What has to be shown -/

/-- An assignment that does not take the display, and drops an armed request or leaves it alone. -/
def Mild (f : Broker → Broker) : Prop :=
  ∀ b, ((f b).active = true → b.active = true) ∧
    ((f b).armed = true → b.armed = true ∧ (f b).progress = b.progress)

/-- What has to be shown for an armed request to be dropped. -/
structure ArmParts (S : (α : Type) → BrokerProg α → Prop) : Prop extends Compositional S where
  plain : ∀ {α : Type} {p : BrokerProg α}, p.Uses Plain → S α p
  assign : ∀ {f : Broker → Broker}, Mild f → S Unit (update f)
  recover : S Bool recoverPreferredMode

namespace ArmParts

variable (hS : ArmParts S)

include hS

theorem get : S Broker getBroker := hS.plain uses_getBroker

theorem quiet (hp : p.Uses Quiet) : S α p :=
  hS.plain (plain_quiet hp)

theorem guarded {c : Broker → Bool} {p q : Broker → BrokerProg Unit}
    (hp : ∀ b, S Unit (p b)) (hq : ∀ b, S Unit (q b)) :
    S Unit (do let b ← getBroker; if c b then p b else q b) :=
  hS.bind hS.get fun b => hS.ite (hp b) (hq b)

theorem disarm (reason : String) : S Unit (disarm reason) :=
  hS.bind (hS.assign fun _ => ⟨id, nofun⟩) fun _ => hS.bind hS.recover fun _ =>
    hS.quiet (uses_setDetail reason)

theorem disarmFor (text fallback : String) : S Unit (disarmFor text fallback) :=
  hS.bind (hS.disarm _) fun _ => hS.quiet (uses_setDetail _)

theorem releaseArmed : S Unit releaseArmed :=
  hS.guarded (fun _ => hS.bind (hS.assign fun _ => ⟨id, nofun⟩) fun _ =>
    hS.bind hS.recover fun _ => hS.pure ()) fun _ => hS.pure ()

end ArmParts

/-- What has to be shown for a request to be armed and for a lease to be probed. -/
structure RequestParts (n : Nat) (S : (α : Type) → BrokerProg α → Prop) : Prop
    extends ArmParts S where
  request : ∀ opcode m wantLease flags, S Reply (composerRequest n opcode m wantLease flags)

/-- What has to be shown for a request to advance. -/
structure ApplyParts (n : Nat) (S : (α : Type) → BrokerProg α → Prop) : Prop
    extends RequestParts n S where
  set : ∀ {f : Broker → Broker}, (∀ b, (f b).active = true → b.active = true) → S Unit (update f)
  apply : S (Bool × String) applyPreferredMode

/-- What has to be shown of the parts of the loop. -/
structure LoopParts (n : Nat) (S : (α : Type) → BrokerProg α → Prop) : Prop
    extends RequestParts n S where
  wait : ∀ wanted timeoutMs m, S (Bool × Message) (waitAgent n wanted timeoutMs m)
  start : ∀ mode, S (Int × String) (start n mode)
  armOpen : S (Int × String) (armOpen n)

/-- What has to be shown if the functions that talk to the composer are not told apart from the
    calm ones. -/
structure BrokerParts (S : (α : Type) → BrokerProg α → Prop) : Prop extends Compositional S where
  calm : ∀ {α : Type} {p : BrokerProg α}, p.Uses Calm → S α p
  assign : ∀ {f : Broker → Broker}, (∀ b, (f b).active = true → b.active = true) →
    S Unit (update f)
  recover : S Bool recoverPreferredMode
  apply : S (Bool × String) applyPreferredMode
  start : ∀ n mode, S (Int × String) (start n mode)

namespace RequestParts

variable (hS : RequestParts n S)

include hS

/-! ## Arming -/

theorem arm (hopen : S (Int × String) (HdmiLos.armOpen n))
    (request : Message) : S (Int × String) (arm n request) := by
  have hgates : S (Int × String) (armGates n) :=
    hS.bind (hS.quiet uses_gatesOpen) fun _ => hS.ite hopen (hS.pure _)
  refine hS.bind hS.get fun _ => hS.ite (hS.pure _) (hS.ite (hS.pure _) (hS.ite hgates ?_))
  refine hS.bind (hS.plain (plain_config (uses_setMode request))) fun r => ?_
  exact hS.ite (hS.pure r) hgates

/-! ## The lease probe -/

theorem finishLeaseProbe (lease : Option Fd) (status : Int)
    (message : String) : S (Int × String) (finishLeaseProbe n lease status message) := by
  refine hS.bind (hS.quiet (uses_closeProbeLease lease)) fun _ => ?_
  refine hS.bind (hS.quiet (uses_logTransition rfl)) fun _ => ?_
  refine hS.bind (hS.request _ _ _ _) fun _ => ?_
  refine hS.bind (hS.quiet (uses_logTransition rfl)) fun _ => ?_
  refine hS.bind (hS.assign fun _ => ⟨id, fun h => ⟨h, rfl⟩⟩) fun _ => ?_
  refine hS.bind (hS.quiet uses_cleanupGuards) fun _ => ?_
  exact hS.bind (hS.quiet (uses_setDetail _)) fun _ => hS.ite (hS.pure _) (hS.pure _)

theorem probeAcquire (stage : Stage) (phase : UInt32) (wantLease : Bool)
    (text : String) : S (StepResult (Option Fd)) (probeAcquire n stage phase wantLease text) := by
  refine hS.bind (hS.quiet (uses_logTransition rfl)) fun _ => ?_
  refine hS.bind (hS.request _ _ _ _) fun _ => hS.ite ?_ ?_
  · exact hS.bind (hS.quiet (uses_logTransition rfl)) fun _ =>
      hS.bind (hS.finishLeaseProbe _ _ _) fun _ => hS.pure _
  · exact hS.bind (hS.quiet (uses_logTransition rfl)) fun _ => hS.pure _

theorem probeHold (lease : Option Fd) : S (Int × String) (probeHold n lease) := by
  refine hS.bind (hS.quiet (uses_logTransition rfl)) fun _ => ?_
  refine hS.bind (hS.quiet uses_monotonicMs) fun _ => ?_
  refine hS.bind (hS.quiet (uses_loop (uses_probeHoldRound n _) n ())) fun escaped => ?_
  refine hS.bind (hS.quiet (uses_logTransition (by cases escaped <;> rfl))) fun _ => ?_
  exact hS.finishLeaseProbe _ _ _

theorem probeLease : S (Int × String) (probeLease n) := by
  refine hS.bind hS.get fun _ => hS.ite (hS.pure _) ?_
  refine hS.bind (hS.quiet uses_closedGate) fun gate => ?_
  cases gate with
  | some text => exact hS.pure _
  | none =>
    refine hS.bind (hS.quiet uses_acquireGuards) fun failed => ?_
    cases failed with
    | some text => exact hS.pure _
    | none =>
      refine hS.bind (hS.assign fun _ => ⟨id, fun h => ⟨h, rfl⟩⟩) fun _ => ?_
      refine hS.bind (hS.quiet uses_monotonicMs) fun _ => ?_
      refine hS.bind (hS.assign fun _ => ⟨id, fun h => ⟨h, rfl⟩⟩) fun _ => ?_
      refine hS.bind (hS.quiet (uses_setDetail _)) fun _ => ?_
      refine hS.bind (hS.probeAcquire _ _ _ _) fun prepared => ?_
      cases prepared with
      | inl result => exact hS.pure _
      | inr _ =>
        refine hS.bind (hS.probeAcquire _ _ _ _) fun paused => ?_
        cases paused with
        | inl result => exact hS.pure _
        | inr _ =>
          refine hS.bind (hS.probeAcquire _ _ _ _) fun created => ?_
          cases created with
          | inl result => exact hS.pure _
          | inr lease => exact hS.probeHold lease

end RequestParts

namespace ApplyParts

variable (hS : ApplyParts n S)

include hS

theorem armWaiting (replug : Bool) (text : String) : S (Int × String) (armWaiting replug text) :=
  hS.bind (hS.set fun _ h => h) fun _ => hS.pure _

theorem advanceWaiting (text : String) : S Unit (advanceWaiting text) :=
  hS.set fun _ h => h

theorem armOpen : S (Int × String) (armOpen n) := by
  refine hS.bind (hS.set fun _ h => h) fun _ => ?_
  refine hS.bind (hS.quiet uses_monotonicMs) fun _ => hS.bind (hS.set fun _ h => h) fun _ => ?_
  refine hS.bind (hS.request _ _ _ _) fun _ => hS.bind hS.get fun _ => ?_
  refine hS.ite (hS.armWaiting _ _) (hS.ite (hS.armWaiting _ _) ?_)
  refine hS.bind (hS.set fun _ h => h) fun _ => hS.bind hS.apply fun r => ?_
  obtain ⟨applied, failure⟩ := r
  cases applied with
  | true => exact hS.bind (hS.set fun _ h => h) fun _ => hS.armWaiting _ _
  | false => exact hS.bind (hS.set fun _ h => h) fun _ => hS.pure _

theorem advanceUnplugged : S Unit advanceUnplugged := by
  refine hS.bind (hS.set fun _ h => h) fun _ => ?_
  refine hS.bind (hS.bind hS.get fun _ => hS.ite (hS.pure _) hS.apply) fun r => ?_
  obtain ⟨applied, failure⟩ := r
  exact hS.ite (hS.set fun _ h => h) (hS.disarmFor _ _)

theorem advancePlugged (hstart : ∀ mode, S (Int × String) (start n mode))
    (now : Int) : S Unit (advancePlugged n now) := by
  refine hS.bind hS.get fun _ => hS.ite (hS.quiet (uses_setDetail _)) ?_
  refine hS.ite (hS.advanceWaiting _) (hS.ite (hS.advanceWaiting _) ?_)
  refine hS.ite (hS.advanceWaiting _) (hS.bind (hS.set fun _ h => h) fun _ => ?_)
  refine hS.ite (hS.pure ()) (hS.bind (hstart probeXorgLegacy) fun r => ?_)
  obtain ⟨status, text⟩ := r
  exact hS.ite (hS.disarmFor _ _) (hS.pure ())

theorem advanceArmed (hstart : ∀ mode, S (Int × String) (start n mode)) :
    S Unit (advanceArmed n) := by
  refine hS.bind (hS.quiet uses_monotonicMs) fun now => hS.bind hS.get fun _ => ?_
  refine hS.ite (hS.pure ()) (hS.bind (hS.set fun _ h => h) fun _ => ?_)
  refine hS.bind (hS.request _ _ _ _) fun _ => hS.ite (hS.advanceWaiting _) ?_
  exact hS.bind hS.get fun _ => hS.ite (hS.advancePlugged hstart now) hS.advanceUnplugged

end ApplyParts

namespace BrokerParts

theorem applyParts (hS : BrokerParts S) (n : Nat) : ApplyParts n S :=
  { toCompositional := hS.toCompositional
    plain := fun hp => hS.calm (uses_mono (fun _ => Within.mono (fun _ _ h => h) (by simp)) hp)
    assign := fun hf => hS.assign fun b => (hf b).1
    recover := hS.recover
    request := fun opcode m wantLease flags =>
      hS.calm (calm_composerRequest opcode m wantLease flags)
    set := hS.assign
    apply := hS.apply }

/-- The parts of the loop from those of the broker. -/
theorem loopParts (hS : BrokerParts S) (n : Nat) : LoopParts n S :=
  { toRequestParts := (hS.applyParts n).toRequestParts
    wait := fun wanted timeoutMs m => hS.calm (calm_waitAgent wanted timeoutMs m)
    start := hS.start n
    armOpen := (hS.applyParts n).armOpen }

end BrokerParts

namespace LoopParts

variable (hS : LoopParts n S)

include hS

/-! ## Restore -/

theorem releaseAgent : S Unit (releaseAgent n) := by
  refine hS.bind hS.get fun b => ?_
  cases b.agentFd with
  | none => exact hS.pure ()
  | some agent =>
    refine hS.bind (hS.quiet (uses_makeMessage _)) fun _ => ?_
    refine hS.bind (hS.plain (uses_call (by simp [Io.kind]))) fun _ => hS.ite ?_ (hS.pure ())
    exact hS.bind (hS.wait _ _ _) fun _ => hS.pure ()

theorem releaseComposer (tell : Bool) : S Unit (releaseComposer n tell) :=
  hS.guarded (fun _ => hS.bind (hS.request _ _ _ _) fun _ => hS.pure ()) fun _ => hS.pure ()

theorem release (reason : String) (tell : Bool) : S Unit (release n reason tell) := by
  refine hS.guarded (c := fun b => !b.active && b.volumes.down.isNone && b.volumes.up.isNone)
    (fun _ => hS.pure ()) fun b => ?_
  refine hS.bind (hS.quiet (uses_logTransition rfl)) fun _ => ?_
  refine hS.bind hS.releaseAgent fun _ => ?_
  refine hS.bind (hS.releaseComposer tell) fun _ => ?_
  refine hS.bind (hS.assign fun _ => ⟨nofun, fun h => ⟨h, rfl⟩⟩) fun _ => ?_
  refine hS.bind (hS.quiet uses_cleanupGuards) fun _ => hS.bind hS.releaseArmed fun _ => ?_
  exact hS.bind (hS.quiet (uses_setDetail reason)) fun _ => hS.quiet (uses_logTransition rfl)

/-! ## Clients -/

omit hS in
theorem plain_refused (client : Fd) (id : UInt32) (f : Message → Message) :
    (do
      let m ← status id
      let _ ← writeFull client (f m)
      closeFd client : BrokerProg Unit).Uses Plain :=
  uses_bind (plain_quiet (uses_status _)) fun _ => uses_bind (uses_call (by simp [Io.kind])) fun _ =>
    plain_quiet (uses_quietCall rfl)

theorem respond (request : Message) (result : Int) (text : String)
    (keep : Bool) : S Message (respond request result text keep) :=
  hS.quiet (uses_respond _ _ _ _)

theorem serveToggle (request response : Message) : S Message (serveToggle n request response) := by
  refine hS.bind hS.get fun _ => hS.ite ?_ (hS.ite ?_ ?_)
  · exact hS.bind (hS.release _ _) fun _ => hS.quiet (uses_status _)
  · exact hS.bind (hS.disarm _) fun _ => hS.quiet (uses_status _)
  · refine hS.bind (hS.quiet (uses_quietCall rfl)) fun _ => hS.ite (hS.pure _) ?_
    exact hS.bind (hS.arm hS.armOpen request) fun _ => hS.respond _ _ _ _

theorem serveProbe (root : Bool) (request response : Message) :
    S Message (serveProbe n root request response) := by
  have hprobe : S (Int × String) (probe n request) :=
    hS.ite (hS.probeLease) (hS.ite (hS.start _) (hS.pure _))
  exact hS.ite (hS.pure _) (hS.bind hprobe fun _ => hS.respond _ _ _ _)

theorem serveDisarm (request : Message) : S Message (serveDisarm n request) :=
  hS.bind (hS.guarded (fun _ => hS.release _ _) fun _ => hS.disarm _) fun _ =>
    hS.quiet (uses_status _)

theorem serveRequest (root : Bool) (request : Message) :
    S Message (serveRequest n root request) := by
  refine hS.bind (hS.quiet (uses_status _)) fun response => ?_
  refine hS.ite (hS.serveToggle request response) (hS.ite ?_ (hS.ite ?_ ?_))
  · exact hS.bind (hS.plain (plain_config (uses_setMode request))) fun _ => hS.respond _ _ _ _
  · exact hS.bind (hS.arm hS.armOpen request) fun _ => hS.respond _ _ _ _
  · refine hS.ite (hS.serveDisarm request) (hS.ite (hS.serveProbe root request response) ?_)
    exact hS.ite (hS.pure _) (hS.pure _)

theorem registerAgent (client : Fd) (request : Message) :
    S Unit (registerAgent client request) := by
  refine hS.bind hS.get fun _ => ?_
  refine hS.ite (hS.plain (plain_refused client request.requestId _))
    (hS.ite (hS.plain (plain_refused client request.requestId _)) ?_)
  refine hS.bind (hS.assign fun _ => ⟨id, fun h => ⟨h, rfl⟩⟩) fun _ =>
    hS.bind (hS.quiet (uses_status _)) fun _ => ?_
  exact hS.bind (hS.plain (uses_call (by simp [Io.kind]))) fun _ => hS.pure ()

theorem serveClient (client : Fd) (root : Bool) (request : Message) :
    S Unit (serveClient n client root request) := by
  refine hS.ite (hS.registerAgent client request) ?_
  refine hS.bind (hS.request _ _ _ _) fun _ => hS.bind (hS.serveRequest root request) fun _ => ?_
  refine hS.bind (hS.plain (uses_call (by simp [Io.kind]))) fun _ => ?_
  exact hS.quiet (uses_quietCall rfl)

theorem acceptedClient (client : Fd) : S Unit (acceptedClient n client) := by
  have hclose : S Unit (closeFd client) := hS.quiet (uses_quietCall rfl)
  refine hS.bind (hS.quiet (uses_quietCall rfl)) fun uid => ?_
  cases uid with
  | none => exact hclose
  | some uid =>
    refine hS.bind (hS.plain (uses_call (by simp [Io.kind]))) fun received => ?_
    refine hS.ite hclose (hS.bind (hS.quiet (uses_quietCall rfl)) fun _ => ?_)
    exact hS.ite (hS.plain (plain_refused client received.message.requestId _))
      (hS.serveClient client _ received.message)

theorem runClient (listen : Revents) : S Unit (runClient n listen) := by
  refine hS.ite (hS.bind (hS.quiet uses_acceptConnection) fun client => ?_) (hS.pure ())
  cases client with
  | none => exact hS.pure ()
  | some client => exact hS.acceptedClient client

/-! ## The main loop -/

theorem releaseIfActive (reason : String) (tell : Bool) : S Unit (releaseIfActive n reason tell) :=
  hS.guarded (fun _ => hS.release reason tell) fun _ => hS.pure ()

theorem runHotplug (hpreserve : S Unit preserveArmAcrossDisconnect)
    (hotplug : ComposerHotplug) :
    S Unit (runHotplug n hotplug) := by
  refine hS.bind hS.get fun _ => ?_
  cases hotplug with
  | invalid => exact hS.ite (hS.release _ _) (hS.ite (hS.disarm _) (hS.pure ()))
  | disconnected => exact hS.ite (hS.release _ _) (hS.ite hpreserve (hS.pure ()))
  | connected => exact hS.pure ()

theorem runComposer
    (hhear : ∀ fd, S ComposerHotplug (handleComposerReadable fd))
    (hpreserve : S Unit preserveArmAcrossDisconnect) (revents : Revents) :
    S Unit (runComposer n revents) := by
  refine hS.bind hS.get fun b => ?_
  cases b.composerFd with
  | none => exact hS.pure ()
  | some fd =>
    refine hS.ite (hS.bind (hS.plain plain_closeComposer) fun _ => hS.releaseIfActive _ _) ?_
    refine hS.ite ?_ (hS.pure ())
    exact hS.bind (hhear fd) fun hotplug => hS.runHotplug hpreserve hotplug

theorem runAgent (revents : Revents) : S Unit (runAgent n revents) := by
  refine hS.bind hS.get fun b => ?_
  cases b.agentFd with
  | none => exact hS.pure ()
  | some fd =>
    refine hS.ite ?_ (hS.ite ?_ (hS.pure ()))
    · exact hS.bind (hS.quiet (uses_quietCall rfl)) fun _ =>
        hS.bind (hS.assign fun _ => ⟨id, fun h => ⟨h, rfl⟩⟩) fun _ => hS.releaseIfActive _ _
    · exact hS.bind (hS.plain (plain_streams (uses_runAgentEvent fd))) fun _ =>
        hS.ite (hS.pure ()) (hS.releaseIfActive _ _)

theorem runVolumes (down up : Revents) : S Unit (runVolumes n down up) :=
  hS.guarded (fun _ => hS.bind (hS.quiet (uses_volumesUpdate _ _ _)) fun _ =>
    hS.ite (hS.release _ _) (hS.pure ())) fun _ => hS.pure ()

theorem armHeartbeat : S Unit armHeartbeat :=
  hS.quiet (uses_bind uses_monotonicMs fun _ => uses_update fun _ => rfl)

theorem runHeartbeat : S Unit (runHeartbeat n) := by
  refine hS.guarded (c := fun b => b.active && b.sessionContinuous) (fun b => ?_)
    fun _ => hS.pure ()
  refine hS.bind (hS.quiet uses_monotonicMs) fun _ => hS.ite ?_ (hS.pure ())
  exact hS.bind (hS.request _ _ _ _) fun _ => hS.ite hS.armHeartbeat (hS.release _ _)

theorem runDeadline : S Unit (runDeadline n) :=
  hS.guarded (fun _ => hS.bind (hS.quiet uses_deadlineReached) fun _ =>
    hS.ite (hS.release _ _) (hS.pure ())) fun _ => hS.pure ()

theorem runArmed (hadvance : S Unit (advanceArmed n)) : S Unit (runArmed n) :=
  hS.guarded (c := fun b => b.armed && !b.active) (fun _ => hadvance) fun _ => hS.pure ()

theorem runPoll : S PollAnswer runPoll :=
  hS.quiet (uses_bind uses_getBroker fun _ => uses_pollFds _ _)

theorem runPeers
    (hhear : ∀ fd, S ComposerHotplug (handleComposerReadable fd))
    (hpreserve : S Unit preserveArmAcrossDisconnect) (hadvance : S Unit (advanceArmed n))
    (revents : List Revents) :
    S Unit (runPeers n revents) := by
  refine hS.bind (hS.runComposer hhear hpreserve _) fun _ => hS.bind (hS.runAgent _) fun _ => ?_
  refine hS.bind (hS.runVolumes _ _) fun _ => hS.bind hS.runHeartbeat fun _ => ?_
  exact hS.bind hS.runDeadline fun _ => hS.runArmed hadvance

theorem runRound
    (hhear : ∀ fd, S ComposerHotplug (handleComposerReadable fd))
    (hpreserve : S Unit preserveArmAcrossDisconnect) (hadvance : S Unit (advanceArmed n)) (x : Unit) :
    S (Unit ⊕ Unit) (runRound n x) := by
  refine hS.bind (hS.quiet (uses_quietCall rfl)) fun _ => hS.ite (hS.pure _) ?_
  refine hS.bind ?_ fun _ => hS.ite (hS.pure _) (hS.pure _)
  refine hS.bind hS.runPoll fun a => ?_
  cases a with
  | interrupted => exact hS.pure true
  | failed => exact hS.pure false
  | ready revents =>
    exact hS.bind (hS.runClient _) fun _ => hS.bind (hS.runPeers hhear hpreserve hadvance revents)
      fun _ => hS.pure true

theorem runStop : S Unit (runStop n) := by
  refine hS.bind (hS.release _ _) fun _ => ?_
  refine hS.bind (hS.guarded (fun _ => hS.disarm _) fun _ => hS.pure ()) fun _ => ?_
  refine hS.bind hS.get fun _ => hS.bind (hS.quiet (uses_closeIfOpen _)) fun _ => ?_
  exact hS.bind (hS.quiet (uses_closeIfOpen _)) fun _ => hS.quiet (uses_closeIfOpen _)

theorem runStartup : S Bool runStartup := by
  refine hS.bind (hS.plain (plain_config uses_loadConfiguredMode)) fun _ => ?_
  refine hS.bind hS.recover fun _ => hS.bind (hS.quiet (uses_quietCall rfl)) fun ok => ?_
  refine hS.bind (hS.quiet (uses_opened ok)) fun _ => ?_
  exact hS.bind (hS.assign fun _ => ⟨id, fun h => ⟨h, rfl⟩⟩) fun _ => hS.pure _

end LoopParts

/-- What holds of the parts holds of the broker. -/
theorem BrokerParts.run (hS : BrokerParts S) : S Int (run n) := by
  have happly := hS.applyParts n
  have hloop := hS.loopParts n
  have hhear : ∀ fd, S ComposerHotplug (handleComposerReadable fd) := fun fd =>
    hS.calm (calm_composing (composing_handleComposerReadable fd))
  refine hloop.bind hloop.runStartup fun _ => hloop.ite ?_ (hloop.pure 1)
  refine hloop.bind (hloop.loop (fun x => hloop.runRound hhear (happly.set fun _ h => h)
    (happly.advanceArmed (hS.start n)) x) n ()) fun _ => ?_
  exact hloop.bind hloop.runStop fun _ => hloop.pure 0

end HdmiLos
