import HdmiLos.Composer.Session

/-!
# Runs of the composer's takeover

The session is used by several threads: the lease server acquires and releases, a secure session
and the end of the composer release, and hotplug creates and destroys displays. Each of these is
one event, and a run is a sequence of them from the start of the composer, in an environment that
answers as it likes.
-/

namespace HdmiLos.Composer

open Interaction

variable {ω : Type}

/-! ## Events -/

/-- What can happen to the session. Every caller of `ReleaseHdmiLease` is a `release`. -/
inductive Event where
  | acquire (phase : UInt32) (response : Message)
  | release (reason : String)
  | status
  | mapPluggable (slots : List Slot)
  | attach (slot : Slot) (display : Display)
  | destroy (slot : Slot)

/-- What an event does. The value is the result of an acquire or release. -/
def Event.prog : Event → SessionProg Int
  | acquire phase response => do
    let acquired ← acquireHdmiLease phase response
    pure acquired.result
  | release reason => releaseHdmiLease reason
  | status => do
    let _ ← getHdmiLeaseStatus {}
    pure statusOk
  | mapPluggable slots => do
    update fun s => { s with pluggable := slots }
    pure statusOk
  | attach slot display => do
    update fun s => { s with displays := Function.update s.displays slot (some display) }
    pure statusOk
  | destroy slot => do
    destroyDisplay slot
    pure statusOk

/-- A display in the slot has the device `d`. -/
def Session.HasDevice (s : Session) (slot : Slot) (d : Device) : Prop :=
  (s.displays slot).bind Display.device = some d

/-- A new display takes an empty slot, and its device is not that of another display. -/
def Event.Possible (s : Session) : Event → Prop
  | attach slot display =>
    s.displays slot = none ∧
      ∀ other d d', s.HasDevice other d → display.device = some d' → d.id ≠ d'.id
  | _ => True

def Event.isRelease : Event → Bool
  | release _ => true
  | _ => false

/-! ## Runs -/

/-- The map of the leases is empty. -/
def Session.NoLease (s : Session) : Prop :=
  ∀ device, s.leases device = none

/-- No two displays share a device. -/
def Session.Distinct (s : Session) : Prop :=
  ∀ slot slot' d d', s.HasDevice slot d → s.HasDevice slot' d' → d.id = d'.id → slot = slot'

/-- The session when the composer starts. -/
structure Session.Initial (s : Session) : Prop where
  state : s.state = stateAndroid
  phase : s.phase = acquireNone
  displayIdx : s.displayIdx = none
  info : s.info = {}
  noLease : s.NoLease
  distinct : s.Distinct

/-- A run with its events and their results, latest first. Every step satisfies `P`. -/
inductive Run (env : Env ω) (P : Sys ω → Event → Sys ω → Prop) :
    List (Event × Int) → Sys ω → Prop where
  | start {s : Sys ω} (hs : s.vars.Initial) (hlog : s.log = []) : Run env P [] s
  | step {hist : List (Event × Int)} {s t : Sys ω} {e : Event} {r : Int} (h : Run env P hist s)
    (possible : e.Possible s.vars) (run : e.prog.run (sysHandler env) s = (some r, t))
    (kept : P s e t) : Run env P ((e, r) :: hist) t

/-! ## Stages -/

/-- The only entry of the map is `e`, of the display that the takeover has selected. -/
def Session.OnlyLease (s : Session) (e : LeaseState) : Prop :=
  ∃ slot display d, s.displayIdx = some slot ∧ slot < s.numDisplays ∧
    s.displays slot = some display ∧ display.leaseDevice = .ok d ∧ d.tv = true ∧
    s.leases d.id = some e ∧ ∀ other, other ≠ d.id → s.leases other = none

/-- The stages of a takeover. -/
inductive Stage where
  | android
  | draining
  | leased
  | error
  deriving DecidableEq, Repr

/-- What the fields and the map are in a stage. -/
def Stage.Holds (s : Session) : Stage → Prop
  | android =>
    s.state = stateAndroid ∧ s.phase = acquireNone ∧ s.displayIdx = none ∧ s.info = {} ∧ s.NoLease
  | draining =>
    s.state = stateDraining ∧ (s.phase = acquirePrepare ∨ s.phase = acquirePause) ∧
      ∃ e, s.OnlyLease e ∧ e.prepared = true ∧ e.active = false
  | leased =>
    s.state = stateLeased ∧ s.phase = acquireCreate ∧
      ∃ e, s.OnlyLease e ∧ e.active = true ∧ e.lesseeId = s.info.lesseeId
  | error =>
    s.state = stateError ∧ s.phase ≠ acquireNone ∧ (∃ slot, s.displayIdx = some slot) ∧ s.NoLease

/-- The selected display is not destroyed. -/
def Spares (s : Sys ω) (e : Event) (_t : Sys ω) : Prop :=
  ∀ slot, e = .destroy slot → s.vars.displayIdx ≠ some slot

/-- An acquire of this phase succeeded. -/
def Succeeded (phase : UInt32) (x : Event × Int) : Prop :=
  (∃ response, x.1 = .acquire phase response) ∧ x.2 = statusOk

/-- The events since the phase `phase` was acquired contain no release, and those before satisfy
    `Q`. -/
def Since (phase : UInt32) (Q : List (Event × Int) → Prop) (hist : List (Event × Int)) : Prop :=
  ∃ later x older, hist = later ++ x :: older ∧ Succeeded phase x ∧
    (∀ y ∈ later, y.1.isRelease = false) ∧ Q older

/-! ## Leases -/

/-- Every lease that was created for the device has been revoked since, by a call that succeeded or
    found that it no longer exists. -/
def Recovered (device : Nat) (log : List (Answered Io.Ans)) : Prop :=
  ∀ before after objects fd lessee,
    log = before ++ ⟨.createLease device objects, some (fd, lessee)⟩ :: after →
    ∃ a, a ≠ RevokeAnswer.failed ∧ (⟨.revokeLease device lessee, a⟩ : Answered Io.Ans) ∈ after

/-- If a step tries to revoke a lease, one of its attempts does not fail. -/
def Revokes (s : Sys ω) (_e : Event) (t : Sys ω) : Prop :=
  ∀ device lessee a, (⟨.revokeLease device lessee, a⟩ : Answered Io.Ans) ∈ t.log.drop s.log.length →
    ∃ a', a' ≠ RevokeAnswer.failed ∧
      (⟨.revokeLease device lessee, a'⟩ : Answered Io.Ans) ∈ t.log.drop s.log.length

end HdmiLos.Composer
