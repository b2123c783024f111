import HdmiLos.Broker.Proofs.BasicProofs
import HdmiLos.Broker.Run

/-!
# Footprints of the broker's functions

Which peers and fields each function can touch. The proofs follow the programs.
-/

namespace HdmiLos

open Interaction Prog

/-! ## Guards -/

theorem uses_releaseVolumeDevice (fd : Option Fd) : (releaseVolumeDevice fd).Uses Quiet := by
  cases fd with
  | none => trivial
  | some fd => exact uses_bind (uses_quietCall rfl) fun _ => uses_quietCall rfl

theorem uses_volumesRelease : volumesRelease.Uses Quiet :=
  uses_bind uses_getBroker fun _ => uses_bind (uses_releaseVolumeDevice _) fun _ =>
    uses_bind (uses_releaseVolumeDevice _) fun _ => uses_update fun _ => rfl

theorem uses_grabBoth (down up : Option Fd) : (grabBoth down up).Uses Quiet := by
  cases down with
  | none => trivial
  | some down =>
    cases up with
    | none => trivial
    | some up =>
      exact uses_bind (uses_quietCall rfl) fun _ => uses_ite (uses_quietCall rfl) trivial

theorem uses_volumesAcquire : volumesAcquire.Uses Quiet := by
  refine uses_bind (uses_quietCall rfl) fun _ => uses_bind (uses_opened _) fun _ => ?_
  refine uses_bind (uses_update fun _ => rfl) fun _ => ?_
  refine uses_bind (uses_quietCall rfl) fun _ => uses_bind (uses_opened _) fun _ => ?_
  refine uses_bind (uses_update fun _ => rfl) fun _ => ?_
  exact uses_bind (uses_grabBoth _ _) fun _ =>
    uses_ite trivial (uses_bind uses_volumesRelease fun _ => trivial)

theorem uses_cleanupGuards : cleanupGuards.Uses Quiet :=
  uses_bind uses_volumesRelease fun _ => uses_bind (uses_quietCall rfl) fun _ =>
    uses_update fun _ => rfl

theorem uses_acquireGuards : acquireGuards.Uses Quiet :=
  uses_bind uses_volumesAcquire fun _ => uses_ite (uses_bind (uses_quietCall rfl) fun _ =>
      uses_ite trivial (uses_bind uses_cleanupGuards fun _ => trivial)) trivial

section Ordinary

variable {F : Op → Prop} [Ordinary F]

/-! ## Volume keys and gates -/

theorem uses_volumesReadOne (n : Nat) (fd : Option Fd) (key : Nat) (pressed : Bool) :
    (volumesReadOne n fd key pressed).Uses F := by
  cases fd with
  | none => trivial
  | some fd =>
    refine uses_loop (fun _ => uses_bind (ordinary_call rfl rfl) fun a => ?_) n pressed
    cases a <;> trivial

theorem uses_volumesChord : volumesChord.Uses F :=
  uses_bind uses_monotonicMs fun _ => uses_bind ordinary_get fun _ => uses_ite
    (uses_bind (ordinary_update fun _ => rfl) fun _ => trivial)
    (uses_bind (ordinary_update fun _ => rfl) fun _ => trivial)

theorem uses_volumesRead (n : Nat) (ready : Bool) (fd : VolumeGuard → Option Fd) (key : Nat)
    (pressed : VolumeGuard → Bool) {set : Bool → VolumeGuard → VolumeGuard}
    (hset : ∀ p v, (set p v).down = v.down ∧ (set p v).up = v.up) :
    (volumesRead n ready fd key pressed set).Uses F := by
  refine uses_ite (uses_bind ordinary_get fun _ => uses_bind (uses_volumesReadOne _ _ _ _) fun r =>
    uses_bind (ordinary_update fun b => ?_) fun _ => trivial) trivial
  simp only [Broker.lasting, (hset r.2 b.volumes).1, (hset r.2 b.volumes).2]

theorem uses_volumesUpdate (n : Nat) (down up : Revents) : (volumesUpdate n down up).Uses F :=
  uses_ite trivial <| uses_bind (uses_volumesRead _ _ _ _ _ fun _ _ => ⟨rfl, rfl⟩) fun _ => uses_ite
    (uses_bind (uses_volumesRead _ _ _ _ _ fun _ _ => ⟨rfl, rfl⟩) fun _ =>
      uses_ite uses_volumesChord trivial) trivial

theorem uses_diagnosticDumpReady : diagnosticDumpReady.Uses F :=
  uses_bind (ordinary_call rfl rfl) fun _ => uses_ite
    (uses_bind (ordinary_call rfl rfl) fun _ => trivial) trivial

theorem uses_gatesOpen : gatesOpen.Uses F :=
  uses_bind (ordinary_call rfl rfl) fun _ => uses_ite uses_diagnosticDumpReady trivial

theorem uses_closedGate : closedGate.Uses F :=
  uses_bind (ordinary_call rfl rfl) fun _ => uses_ite
    (uses_bind uses_diagnosticDumpReady fun _ => uses_ite trivial trivial) trivial

theorem uses_setDetail (text : String) : (setDetail text).Uses F := ordinary_update fun _ => rfl

theorem uses_deadlineReached : deadlineReached.Uses F :=
  uses_bind ordinary_get fun _ => uses_ite (uses_bind uses_monotonicMs fun _ => trivial) trivial

theorem uses_waitAgentRemaining (stop : Int) : (waitAgentRemaining stop).Uses F :=
  uses_bind uses_monotonicMs fun _ => uses_bind ordinary_get fun _ =>
    uses_ite (uses_bind uses_monotonicMs fun _ => trivial) trivial

/-! ## Status messages -/

theorem uses_statusOwner (b : Broker) (m : Message) : (statusOwner b m).Uses F := by
  have clock : ∀ f : Int → Message,
      (monotonicMs >>= fun now => (pure (f now) : BrokerProg Message)).Uses F :=
    fun f => uses_bind uses_monotonicMs fun _ => trivial
  refine uses_ite (clock _) (uses_ite (uses_ite trivial (clock _)) (uses_ite trivial ?_))
  refine uses_ite (uses_bind (ordinary_call rfl rfl) fun _ => uses_ite trivial ?_) trivial
  exact uses_ite trivial trivial

theorem uses_status (id : UInt32) : (status id).Uses F :=
  uses_bind (uses_makeMessage _) fun _ => uses_bind ordinary_get fun _ =>
    uses_bind uses_gatesOpen fun _ => uses_bind (ordinary_call rfl rfl) fun _ => uses_ite
      (uses_bind uses_diagnosticDumpReady fun _ => uses_ite (uses_statusOwner _ _) trivial) trivial

theorem uses_respond (request : Message) (result : Int) (text : String) (keep : Bool) :
    (respond request result text keep).Uses F :=
  uses_bind (uses_status _) fun _ => uses_ite trivial trivial

/-! ## The lease probe -/

theorem uses_closeProbeLease (lease : Option Fd) : (closeProbeLease lease).Uses Quiet := by
  cases lease with
  | none => trivial
  | some fd =>
    exact uses_bind (uses_logTransition rfl) fun _ =>
      uses_bind (uses_quietCall rfl) fun _ => uses_logTransition rfl

theorem uses_probeHoldRound (n : Nat) (stop : Int) (x : Unit) : (probeHoldRound n stop x).Uses F := by
  refine uses_bind (ordinary_call rfl rfl) fun _ => uses_ite trivial ?_
  refine uses_bind uses_monotonicMs fun _ => uses_ite trivial ?_
  refine uses_bind ordinary_get fun _ => uses_bind (uses_pollFds _ _) fun a => ?_
  cases a with
  | interrupted => trivial
  | failed => trivial
  | ready revents => exact uses_bind (uses_volumesUpdate _ _ _) fun _ => uses_ite trivial trivial

end Ordinary

/-! ## Files and display commands -/

theorem uses_loadConfiguredMode : loadConfiguredMode.Uses Config := by
  refine uses_bind (uses_call (by simp [Io.kind, TextFile.kind])) fun text => ?_
  cases text with
  | none => trivial
  | some text =>
    dsimp only
    cases scanMode text with
    | none => trivial
    | some m => exact uses_ite (uses_update fun _ => rfl) trivial

section Preferring

variable {F : Op → Prop} [Preferring F]

theorem uses_recoverPreferredMode : recoverPreferredMode.Uses F := by
  refine uses_bind (uses_perform (Preferring.preference rfl)) fun journal => ?_
  cases journal with
  | none => trivial
  | some journal =>
    dsimp only
    cases scanMode journal with
    | none => trivial
    | some m =>
      refine uses_bind (uses_perform (Preferring.preference rfl)) fun r => uses_ite ?_ trivial
      exact uses_bind (uses_perform (Preferring.preference rfl)) fun _ => trivial

theorem uses_overridePreferredMode : overridePreferredMode.Uses F :=
  uses_bind (uses_perform Preferring.get) fun _ =>
    uses_bind (uses_perform (Preferring.preference rfl)) fun _ =>
      uses_ite trivial (uses_bind uses_recoverPreferredMode fun _ => trivial)

theorem uses_applyPreferredMode : applyPreferredMode.Uses F := by
  refine uses_bind (uses_perform (Preferring.preference rfl)) fun r => ?_
  dsimp only
  cases (if r.1 then parseSavedMode r.2 else none) with
  | none => trivial
  | some old =>
    exact uses_bind (uses_perform (Preferring.preference rfl)) fun _ =>
      uses_ite uses_overridePreferredMode trivial

end Preferring

theorem uses_setMode (request : Message) : (setMode request).Uses Config :=
  uses_bind uses_getBroker fun _ => uses_ite trivial <| uses_ite trivial <|
    uses_bind (uses_update fun _ => rfl) fun _ => uses_bind
      (uses_bind uses_getBroker fun _ => uses_call (by simp [Io.kind, TextFile.kind])) fun _ =>
      uses_ite trivial trivial

/-! ## The agent stream -/

section Streaming

variable {F : Op → Prop} [Streaming F]

theorem uses_stream {c : Io} (hc : c.kind = .stream) : (call c).Uses F :=
  uses_perform (Streaming.stream hc)

theorem uses_handleAgentEvent (fd : Fd) (event : Message) : (handleAgentEvent fd event).Uses F :=
  uses_ite (uses_bind (uses_logTransition rfl) fun _ =>
    uses_bind (uses_makeMessage _) fun _ => uses_stream rfl) trivial

theorem uses_waitAgentRead (fd : Fd) (wanted : UInt16) : (waitAgentRead fd wanted).Uses F := by
  refine uses_bind (uses_stream rfl) fun received => uses_ite trivial ?_
  refine uses_ite (uses_bind (uses_handleAgentEvent fd _) fun _ => uses_ite trivial trivial) ?_
  exact uses_ite trivial trivial

theorem uses_runAgentEvent (fd : Fd) : (runAgentEvent fd).Uses F :=
  uses_bind (uses_stream rfl) fun _ => uses_ite trivial (uses_handleAgentEvent fd _)

theorem uses_sendAgentStop (agent : Fd) : (sendAgentStop agent).Uses F :=
  uses_bind (uses_makeMessage _) fun _ => uses_bind (uses_stream rfl) fun _ => trivial

end Streaming

/-! ## The composer socket -/

section Hearing

variable {F : Op → Prop} [Hearing F]

theorem hearing_closeIfOpen (fd : Option Fd) : (closeIfOpen fd).Uses F := by
  cases fd with
  | none => trivial
  | some fd => exact uses_perform (Hearing.close fd)

theorem hearing_opened (ok : Bool) : (opened ok).Uses F := by
  cases ok with
  | false => trivial
  | true => exact uses_bind (uses_perform Hearing.fresh) fun _ => trivial

theorem uses_closeComposer : closeComposer.Uses F :=
  uses_bind (uses_perform Hearing.get) fun _ => uses_bind (hearing_closeIfOpen _) fun _ =>
    uses_perform (Hearing.modify fun _ => rfl)

theorem uses_ensureComposer : ensureComposer.Uses F := by
  refine uses_bind (uses_perform Hearing.get) fun b => ?_
  cases b.composerFd with
  | some fd => trivial
  | none =>
    refine uses_bind (uses_perform Hearing.connect) fun ok => ?_
    refine uses_bind (hearing_opened ok) fun fd => ?_
    exact uses_bind (uses_perform (Hearing.modify fun _ => rfl)) fun _ => trivial

theorem uses_recvWithFd (fd : Fd) : (recvWithFd fd).Uses F :=
  uses_bind (uses_perform (Hearing.recv fd)) fun _ => uses_bind (hearing_opened _) fun _ => trivial

theorem uses_composerFailed (passed : Option Fd) (m : Message) : (composerFailed passed m).Uses F :=
  uses_bind (hearing_closeIfOpen _) fun _ => uses_bind uses_closeComposer fun _ => trivial

theorem uses_composerReceive (fd : Fd) (id : UInt32) (wantLease : Bool) (x : Unit) :
    (composerReceive fd id wantLease x).Uses F := by
  refine uses_bind (uses_recvWithFd fd) fun r => ?_
  refine uses_ite (uses_bind (uses_composerFailed _ _) fun _ => trivial) (uses_ite ?_ ?_)
  · exact uses_bind (hearing_closeIfOpen _) fun _ =>
      uses_bind (uses_perform (Hearing.modify fun _ => rfl)) fun _ => trivial
  · refine uses_ite (uses_bind (uses_composerFailed _ _) fun _ => trivial) ?_
    refine uses_bind (hearing_closeIfOpen _) fun _ => ?_
    exact uses_bind (uses_perform (Hearing.modify fun _ => rfl)) fun _ =>
      uses_bind (uses_perform Hearing.get) fun _ => trivial

theorem uses_handleComposerReadable [Ordinary F] (fd : Fd) :
    (handleComposerReadable fd).Uses F := by
  refine uses_bind (uses_recvWithFd fd) fun r => ?_
  refine uses_bind (hearing_closeIfOpen _) fun _ => uses_ite trivial ?_
  refine uses_bind (uses_perform (Hearing.modify fun _ => rfl)) fun _ => uses_ite ?_ ?_
  · exact uses_bind (uses_logTransition rfl) fun _ => trivial
  · exact uses_bind (uses_logTransition rfl) fun _ => trivial

end Hearing

theorem uses_composerRequest {F : Op → Prop} [Exchanging F] (n : Nat) (opcode : UInt16) (m : Message)
    (wantLease : Bool) (flags : UInt32) :
    (composerRequest n opcode m wantLease flags).Uses F := by
  refine uses_bind uses_ensureComposer fun fd => ?_
  cases fd with
  | none => trivial
  | some fd =>
    refine uses_bind (uses_bind (uses_perform Hearing.get) fun _ =>
      uses_bind (uses_perform (Hearing.modify fun _ => rfl)) fun _ => trivial) fun request => ?_
    refine uses_bind (uses_perform (Exchanging.send fd _)) fun sent => uses_ite ?_ ?_
    · exact uses_loop (uses_composerReceive fd _ _) n ()
    · exact uses_composerFailed _ _

end HdmiLos
