import HdmiLos.Tracer.Interpose
import HdmiLos.Interaction.Proofs.MachineProofs

/-!
# The interposer from its parts

Everything the interposer does around a kernel call is made of exchanges with the agent and of calls
that concern neither the agent nor the kernel. A property that is kept by sequencing holds of the
whole once it holds of these.
-/

namespace HdmiLos.Tracer

open Interaction Prog

/-- The calls that concern neither the trace socket nor the kernel, take no sequence number and do
    not store into the cache of properties. -/
def Io.routine : Io → Bool
  | shared (.cacheStore _ _ _) => false
  | shared .fetchAddSequence => false
  | send _ => false
  | waitReadable => false
  | recv => false
  | ioctl _ _ _ => false
  | getCrtc _ _ => false
  | pageFlip _ _ _ => false
  | exit _ => false
  | _ => true

/-- The calls that ask the kernel. -/
def Io.kernel : Io → Bool
  | ioctl _ _ _ => true
  | getCrtc _ _ => true
  | pageFlip _ _ _ => true
  | _ => false

/-- A property of the parts of a report to the agent, with the sequence numbers that the records may
    have. -/
structure ReportParts (N : UInt32 → Prop) (S : (α : Type) → TracerProg α → Prop) : Prop where
  sequential : Sequential S
  getThread : S Thread getThread
  assign : ∀ f, S Unit (assign f)
  routine : ∀ c : Io, c.routine = true → S c.Ans (call c)
  exchange : ∀ record, N record.sequence → S Unit (exchangeOrExit record)

variable {sequence : UInt32} {N : UInt32 → Prop} {S : (α : Type) → TracerProg α → Prop}

namespace ReportParts

variable {α : Type} (h : ReportParts N S)

include h

variable {p : TracerProg (α × Int)}

theorem library (hp : S (α × Int) p) : S α (library p) :=
  h.sequential.bind hp fun _ => h.sequential.bind (h.assign _) fun _ => h.sequential.pure _

theorem onlyIf {condition : Bool} {p : TracerProg Unit} (hp : S Unit p) :
    S Unit (onlyIf condition p) := by
  cases condition with
  | false => exact h.sequential.pure ()
  | true => exact hp

variable {p : TracerProg (Option α × Int)}

theorem safeCopy (source : UInt64)
    (hp : S (Option α × Int) p) : S (Option α) (safeCopy source p) := by
  unfold Tracer.safeCopy
  split
  · exact h.sequential.pure _
  · exact h.library hp

/-! ## Records -/

theorem decodeCopy (source : UInt64)
    (hp : S (Option α × Int) p) (decode : α → Decoded) :
    S Decoded (decodeCopy source p decode) := by
  refine h.sequential.bind (h.safeCopy source hp) fun copied => ?_
  cases copied <;> exact h.sequential.pure _

theorem decodeRequest (request argument : UInt64) : S Decoded (decodeRequest request argument) := by
  unfold Tracer.decodeRequest
  split
  · exact h.sequential.pure _
  split
  · exact h.decodeCopy argument (h.routine (.copyCrtc argument) rfl) _
  split
  · exact h.decodeCopy argument (h.routine (.copyObjProperties argument) rfl) _
  split
  · exact h.decodeCopy argument (h.routine (.copySetProperty argument) rfl) _
  split
  · exact h.decodeCopy argument (h.routine (.copyPageFlip argument) rfl) _
  split
  · exact h.decodeCopy argument (h.routine (.copyAtomic argument) rfl) _
  · exact h.library (h.routine (.describe _ _) rfl)

theorem exchangeDecoded {record : TraceRecord} (hN : N record.sequence)
    (argument : UInt64) : S Unit (exchangeDecoded record argument) := by
  unfold Tracer.exchangeDecoded Tracer.decodeRecord
  rw [bind_bind]
  exact h.sequential.bind (h.decodeRequest _ argument) fun _ => h.exchange _ hN

theorem shouldTraceRequest (request : UInt64) : S Bool (shouldTraceRequest request) :=
  h.sequential.bind (h.routine (.shared .loadSteady) rfl) fun _ => h.sequential.pure _

/-! ## Details -/

theorem emitDetails {emit : α → TracerProg Unit} (xs : List α)
    (hemit : ∀ x, S Unit (emit x)) : S Unit (emitDetails emit xs) := by
  induction xs with
  | nil => exact h.sequential.pure ()
  | cons x xs ih => exact h.sequential.bind (hemit x) fun _ => ih

theorem emitSetcrtcDetails (hN : N sequence)
    (request argument : UInt64) : S Unit (emitSetcrtcDetails sequence request argument) := by
  refine h.sequential.bind
    (h.safeCopy argument (h.routine (.copyCrtc argument) rfl)) fun copied => ?_
  cases copied with
  | none => exact h.sequential.pure ()
  | some value =>
    dsimp only
    split
    · exact h.sequential.pure ()
    · refine h.sequential.bind (h.safeCopy _ (h.routine (.copyU32 _ _) rfl)) fun connectors => ?_
      cases connectors with
      | none => exact h.sequential.pure ()
      | some connectors => exact h.emitDetails _ fun _ => h.exchange _ hN

theorem emitAtomicWalk (hN : N sequence)
    (request : UInt64) (objects counts properties : List UInt32) (values : List UInt64) :
    S Unit (emitAtomicWalk sequence request objects counts properties values) := by
  unfold Tracer.emitAtomicWalk
  split
  · exact h.sequential.pure ()
  · exact h.emitDetails _ fun _ => h.exchange _ hN

theorem emitAtomicProperties (hN : N sequence)
    (request : UInt64) (value : AtomicRequest) (objects counts : List UInt32) (total : UInt32) :
    S Unit (emitAtomicProperties sequence request value objects counts total) := by
  unfold Tracer.emitAtomicProperties
  split
  · exact h.emitAtomicWalk hN request objects counts [] []
  · refine h.sequential.bind (h.safeCopy _ (h.routine (.copyU32 _ _) rfl)) fun properties => ?_
    cases properties with
    | none => exact h.sequential.pure ()
    | some properties =>
      refine h.sequential.bind (h.safeCopy _ (h.routine (.copyU64 _ _) rfl)) fun values => ?_
      cases values with
      | none => exact h.sequential.pure ()
      | some values => exact h.emitAtomicWalk hN request objects counts _ _

theorem emitAtomicDetails (hN : N sequence)
    (request argument : UInt64) : S Unit (emitAtomicDetails sequence request argument) := by
  refine h.sequential.bind
    (h.safeCopy argument (h.routine (.copyAtomic argument) rfl)) fun copied => ?_
  cases copied with
  | none => exact h.sequential.pure ()
  | some value =>
    dsimp only
    split
    · exact h.sequential.pure ()
    split
    · exact h.exchange _ hN
    · refine h.sequential.bind (h.safeCopy _ (h.routine (.copyU32 _ _) rfl)) fun objects => ?_
      cases objects with
      | none => exact h.sequential.pure ()
      | some objects =>
        refine h.sequential.bind (h.safeCopy _ (h.routine (.copyU32 _ _) rfl)) fun counts => ?_
        cases counts with
        | none => exact h.sequential.pure ()
        | some counts =>
          dsimp only
          split
          · exact h.exchange _ hN
          · exact h.emitAtomicProperties hN request value _ _ _

/-! ## Around the kernel call -/

theorem emitRequestDetails (hN : N sequence)
    (request argument : UInt64) : S Unit (emitRequestDetails sequence request argument) := by
  unfold Tracer.emitRequestDetails
  split
  · exact h.emitSetcrtcDetails hN request argument
  split
  · exact h.emitAtomicDetails hN request argument
  · exact h.sequential.pure ()

theorem traceAfterCall_other (traced : Bool)
    (hN : N sequence) {request : UInt64} (argument : UInt64) (result errno : Int)
    (hrequest : request ≠ drmModeObjGetProperties) :
    S Unit (traceAfterCall traced sequence request argument result errno) := by
  unfold Tracer.traceAfterCall
  split
  · refine h.sequential.bind (h.exchangeDecoded hN argument) fun _ => ?_
    rw [beq_false_of_ne hrequest, Bool.and_false]
    exact h.sequential.pure ()
  · exact h.sequential.pure ()

theorem suppressedBy (cfg : Config) (request argument : UInt64) :
    S (Option SetProperty) (suppressedBy cfg request argument) := by
  unfold Tracer.suppressedBy Tracer.shouldSuppressConnectorPropertyNoop
  split
  case isFalse => exact h.sequential.pure _
  split
  case isFalse => exact h.sequential.pure _
  refine h.sequential.bind
    (h.safeCopy argument (h.routine (.copySetProperty argument) rfl)) fun copied => ?_
  cases copied with
  | none => exact h.sequential.pure _
  | some value =>
    refine h.sequential.bind (h.routine (.shared (.cacheIsNoop _ _ _)) rfl) fun isNoop => ?_
    split <;> exact h.sequential.pure _

theorem answerSuppressed (traced : Bool) (hN : N sequence)
    (request argument : UInt64) (suppressed : SetProperty) :
    S Int (answerSuppressed traced sequence request argument suppressed) := by
  refine h.sequential.bind (h.onlyIf ?_) fun _ =>
    h.sequential.bind (h.assign _) fun _ => h.sequential.pure _
  exact h.sequential.bind (h.exchange _ hN) fun _ => h.exchangeDecoded hN argument

theorem traceInitialize (hN : N 0) (cfg : Config) : S Unit (traceInitialize cfg) := by
  unfold Tracer.traceInitialize
  split
  · exact h.exchange _ hN
  · exact h.sequential.pure ()

end ReportParts

/-- A property of the parts of reports with any sequence number. -/
structure NumberingParts (S : (α : Type) → TracerProg α → Prop) : Prop
    extends ReportParts (fun _ => True) S where
  fetch : S UInt32 (shared .fetchAddSequence)

namespace NumberingParts

theorem traceBeforeCall (h : NumberingParts S) (traced : Bool) (request argument : UInt64) :
    S UInt32 (traceBeforeCall traced request argument) := by
  unfold Tracer.traceBeforeCall
  split
  · refine h.sequential.bind h.fetch fun sequence => ?_
    refine h.sequential.bind (h.exchangeDecoded trivial argument) fun _ => ?_
    exact h.sequential.bind (h.emitRequestDetails trivial request argument)
      fun _ => h.sequential.pure _
  · exact h.sequential.pure _

theorem drmModeGetPropertyHook (h : NumberingParts S) (cfg : Config) (fd : Int) (id : UInt32) :
    S (Option Property) (drmModeGetPropertyHook cfg fd id) := by
  refine h.sequential.bind (h.library (h.routine (.realGetProperty fd id) rfl)) fun found => ?_
  cases found with
  | none => exact h.sequential.pure _
  | some property =>
    dsimp only
    cases ignoredReason cfg property with
    | none => exact h.sequential.pure _
    | some reason =>
      refine h.sequential.bind ?_ fun _ => h.sequential.bind
        (h.library (h.routine (.freeProperty property) rfl)) fun _ => h.sequential.pure _
      refine h.sequential.bind h.getThread fun v => ?_
      split
      · refine h.sequential.bind (h.shouldTraceRequest _) fun traced => ?_
        split
        · exact h.sequential.bind (h.assign _) fun _ =>
            h.sequential.bind h.fetch fun _ =>
            h.sequential.bind (h.exchange _ trivial) fun _ => h.assign _
        · exact h.sequential.pure ()
      · exact h.sequential.pure ()

end NumberingParts

/-! ## Footprints -/

/-- The calls of an exchange. -/
def Io.exchanges : Io → Bool
  | send _ => true
  | waitReadable => true
  | recv => true
  | shared .storeSteady => true
  | exit _ => true
  | _ => false

section Footprints

variable {P : Act Thread Io → Prop} {α : Type}

theorem uses_library (hassign : ∀ f, P (.modify f)) (hp : p.Uses P) : (library p).Uses P :=
  uses_bind hp fun _ => uses_bind (uses_perform (hassign _)) fun _ => trivial

theorem uses_receiveAck (hassign : ∀ f, P (.modify f))
    (hexchange : ∀ c : Io, c.exchanges = true → P (.io c)) (record : TraceRecord) :
    (receiveAck record).Uses P := by
  refine uses_bind (uses_library hassign (uses_perform (hexchange .recv rfl))) fun received => ?_
  cases received with
  | none => trivial
  | some ack =>
    dsimp only
    refine uses_ite (uses_bind ?_ fun _ => trivial) trivial
    exact uses_ite (uses_perform (hexchange (.shared .storeSteady) rfl)) trivial

theorem uses_exchangeOrExit (hassign : ∀ f, P (.modify f))
    (hexchange : ∀ c : Io, c.exchanges = true → P (.io c)) (record : TraceRecord) :
    (exchangeOrExit record).Uses P := by
  refine uses_bind ?_ fun _ => uses_ite trivial
    (uses_bind (uses_perform (hexchange (.exit 125) rfl)) nofun)
  refine uses_bind (uses_library hassign (uses_perform (hexchange (.send record) rfl)))
    fun _ => uses_ite ?_ trivial
  exact uses_bind (uses_library hassign (uses_perform (hexchange .waitReadable rfl)))
    fun _ => uses_ite (uses_receiveAck hassign hexchange record) trivial

/-- A footprint with the routine calls, those of an exchange and the sequence numbers. -/
theorem usesParts (hget : P .get) (hassign : ∀ f, P (.modify f))
    (hcall : ∀ c : Io, c.routine = true ∨ c.exchanges = true → P (.io c))
    (hfetch : P (.io (.shared .fetchAddSequence))) : NumberingParts (fun _ p => p.Uses P) where
  sequential := (uses_compositional P).sequential
  getThread := uses_perform hget
  assign f := uses_perform (hassign f)
  routine c hc := uses_perform (hcall c (.inl hc))
  exchange record _ := uses_exchangeOrExit hassign (fun c hc => hcall c (.inr hc)) record
  fetch := uses_perform hfetch

end Footprints

/-! ## With the cache -/

/-- A property of the parts of all reports. -/
structure StoreParts (N : UInt32 → Prop) (S : (α : Type) → TracerProg α → Prop) : Prop
    extends ReportParts N S where
  store : ∀ value property propertyValue, S Unit (cacheProperty value property propertyValue)

namespace StoreParts

variable (h : StoreParts N S)

include h

theorem emitObjectProperty (hN : N sequence)
    (request : UInt64) (value : ObjProperties) (index : Nat) (property : UInt32)
      (propertyValue : UInt64) :
    S Unit (emitObjectProperty sequence request value index property propertyValue) :=
  h.sequential.bind (h.onlyIf (h.store value property propertyValue)) fun _ => h.exchange _ hN

theorem emitObjectPropertyDetails (hN : N sequence)
    (request argument : UInt64) : S Unit (emitObjectPropertyDetails sequence request argument) := by
  refine h.sequential.bind
    (h.safeCopy argument (h.routine (.copyObjProperties argument) rfl)) fun copied => ?_
  cases copied with
  | none => exact h.sequential.pure ()
  | some value =>
    dsimp only
    split
    · exact h.sequential.pure ()
    split
    · exact h.exchange _ hN
    · refine h.sequential.bind (h.safeCopy _ (h.routine (.copyU32 _ _) rfl)) fun properties => ?_
      cases properties with
      | none => exact h.sequential.pure ()
      | some properties =>
        refine h.sequential.bind (h.safeCopy _ (h.routine (.copyU64 _ _) rfl)) fun values => ?_
        cases values with
        | none => exact h.sequential.pure ()
        | some values =>
          exact h.emitDetails _ fun i => h.emitObjectProperty hN request value i _ _

theorem traceAfterCall (traced : Bool) (hN : N sequence)
    (request argument : UInt64) (result errno : Int) :
    S Unit (traceAfterCall traced sequence request argument result errno) := by
  unfold Tracer.traceAfterCall
  split
  · refine h.sequential.bind (h.exchangeDecoded hN argument) fun _ => ?_
    exact h.onlyIf (h.emitObjectPropertyDetails hN request argument)
  · exact h.sequential.pure ()

end StoreParts

/-! ## With the kernel calls -/

/-- A property of the parts of what follows a system call. -/
structure FallbackParts (N : UInt32 → Prop) (S : (α : Type) → TracerProg α → Prop) : Prop
    extends StoreParts N S where
  getCrtc : ∀ fd crtc, S _ (call (.getCrtc fd crtc))
  pageFlip : ∀ fd crtc fb, S _ (call (.pageFlip fd crtc fb))

namespace FallbackParts

variable (h : FallbackParts N S)

include h

theorem awaitFlip (fd : Int) (requested : DrmCrtc) (attempts : Nat) :
    S Bool (awaitFlip fd requested attempts) := by
  induction attempts with
  | zero => exact h.sequential.pure _
  | succ attempts ih =>
    refine h.sequential.bind (h.getCrtc fd _) fun answer => ?_
    have hagain := h.sequential.bind (h.library (h.routine (.usleep 25000) rfl)) fun _ => ih
    cases answer with
    | ok verified =>
      dsimp only
      split
      · exact h.sequential.pure _
      · exact hagain
    | error errno => exact h.sequential.bind (h.assign _) fun _ => hagain

theorem flipSameMode (cfg : Config) (fd : Int)
    (hN : N sequence) (requested current : DrmCrtc) :
      S Int (flipSameMode cfg fd sequence requested current) := by
  refine h.sequential.bind (h.pageFlip fd _ _) fun answer => ?_
  cases answer with
  | error errno =>
    exact h.sequential.bind (h.assign _) fun _ =>
      h.sequential.bind (h.exchange _ hN) fun _ => h.sequential.pure _
  | ok _ =>
    refine h.sequential.bind (h.awaitFlip fd requested 20) fun verified => ?_
    split
    · exact h.sequential.bind (h.exchange _ hN) fun _ => h.sequential.pure _
    · exact h.sequential.bind (h.exchange _ hN) fun _ =>
        h.sequential.bind (h.assign _) fun _ => h.sequential.pure _

theorem flipCurrent (cfg : Config) (fd : Int)
    (hN : N sequence) (requested : DrmCrtc) : S Int (flipCurrent cfg fd sequence requested) := by
  refine h.sequential.bind (h.getCrtc fd _) fun answer => ?_
  cases answer with
  | error errno =>
    exact h.sequential.bind (h.assign _) fun _ =>
      h.sequential.bind (h.exchange _ hN) fun _ => h.sequential.pure _
  | ok current =>
    dsimp only
    split
    · exact h.sequential.bind (h.exchange _ hN) fun _ => h.sequential.pure _
    split
    · exact h.sequential.bind (h.exchange _ hN) fun _ =>
        h.sequential.bind (h.exchange _ hN) fun _ => h.sequential.pure _
    · exact h.flipSameMode cfg fd hN requested current

theorem trySameModePageflip (cfg : Config) (fd : Int) (argument : UInt64) (hN : N sequence) :
    S Int (trySameModePageflip cfg fd argument sequence) := by
  unfold Tracer.trySameModePageflip
  split
  · exact h.sequential.pure _
  refine h.sequential.bind
    (h.safeCopy argument (h.routine (.copyCrtc argument) rfl)) fun copied => ?_
  cases copied with
  | none => exact h.sequential.bind (h.exchange _ hN) fun _ => h.sequential.pure _
  | some requested =>
    dsimp only
    split
    · exact h.sequential.bind (h.exchange _ hN) fun _ => h.sequential.pure _
    refine h.sequential.bind (h.safeCopy _ (h.routine (.copyU32 _ 1) rfl)) fun connectors => ?_
    dsimp only
    split
    · exact h.sequential.bind (h.exchange _ hN) fun _ => h.sequential.pure _
    · exact h.flipCurrent cfg fd hN requested

theorem fallBack (cfg : Config) (fd : Int) (request argument : UInt64) (hN : N sequence)
    (result savedErrno : Int) :
    S (Int × Int) (fallBack cfg fd request argument sequence result savedErrno) := by
  unfold Tracer.fallBack
  split
  · refine h.sequential.bind (h.trySameModePageflip cfg fd argument hN) fun fallback => ?_
    split
    · exact h.sequential.pure _
    split
    · exact h.sequential.bind h.getThread fun _ => h.sequential.pure _
    · exact h.sequential.pure _
  · exact h.sequential.pure _

end FallbackParts

/-- A property of all parts of the interposer. -/
structure InterposeParts (S : (α : Type) → TracerProg α → Prop) : Prop
    extends FallbackParts (fun _ => True) S where
  fetch : S UInt32 (shared .fetchAddSequence)
  system : ∀ fd request argument, S _ (call (.ioctl fd request argument))

namespace InterposeParts

variable (h : InterposeParts S)

include h

theorem numbering : NumberingParts S :=
  { h.toReportParts with fetch := h.fetch }

theorem plainCall (fd : Int) (request argument : UInt64) :
    S Int (plainCall fd request argument) := by
  refine h.sequential.bind (h.system fd request argument) fun answer => ?_
  cases answer with
  | ok result => exact h.sequential.pure _
  | error errno => exact h.sequential.bind (h.assign _) fun _ => h.sequential.pure _

theorem kernelCall (fd : Int) (request argument : UInt64) :
    S (Int × Int) (kernelCall fd request argument) := by
  refine h.sequential.bind (h.assign _) fun _ => ?_
  refine h.sequential.bind (h.system fd request argument) fun answer => ?_
  cases answer with
  | ok result => exact h.sequential.pure _
  | error errno => exact h.sequential.bind (h.assign _) fun _ => h.sequential.pure _

theorem passRequest (cfg : Config) (traced : Bool) (sequence : UInt32)
    (fd : Int) (request argument : UInt64) :
    S Int (passRequest cfg traced sequence fd request argument) :=
  h.sequential.bind (h.kernelCall fd request argument) fun _ =>
    h.sequential.bind (h.fallBack cfg fd request argument trivial _ _) fun _ =>
    h.sequential.bind (h.traceAfterCall traced trivial request argument _ _) fun _ =>
    h.sequential.bind (h.assign _) fun _ => h.sequential.pure _

theorem ioctl (cfg : Config) (fd : Int) (request argument : UInt64) :
    S Int (ioctl cfg fd request argument) := by
  refine h.sequential.bind h.getThread fun v => ?_
  split
  · exact h.plainCall fd request argument
  refine h.sequential.bind (h.assign _) fun _ => ?_
  refine h.sequential.bind (h.shouldTraceRequest request) fun traced => ?_
  refine h.sequential.bind (h.numbering.traceBeforeCall traced request argument) fun sequence => ?_
  refine h.sequential.bind (h.suppressedBy cfg request argument) fun suppressed => ?_
  cases suppressed with
  | some suppressed => exact h.answerSuppressed traced trivial request argument suppressed
  | none => exact h.passRequest cfg traced sequence fd request argument

end InterposeParts

end HdmiLos.Tracer
