import HdmiLos.Composer.Takeover

/-!
# The updates of a display

A takeover pauses Android's updates of the display and lets them go on when it ends. Whether they
are enabled is read from the calls: `ToggleScreenUpdates(false)` pauses them, and
`ToggleScreenUpdates(true)` or a pair of `SetDisplayStatus` calls, pause and resume, enables them
again if it reports success.
-/

namespace HdmiLos.Composer

open Interaction

variable {ω : Type}

/-- The updates of a display are enabled, and the last call has paused its power state. -/
structure Switch where
  enabled : Bool := true
  pausing : Bool := false
  deriving DecidableEq, Repr

/-- What a call does to the updates of the display in the slot. -/
def Switch.step (slot : Slot) (u : Switch) : Answered Io.Ans → Switch
  | ⟨.toggleScreenUpdates i false, _⟩ => if i = slot then { u with enabled := false } else u
  | ⟨.toggleScreenUpdates i true, ok⟩ =>
    if i = slot then { u with enabled := u.enabled || ok } else u
  | ⟨.setDisplayStatus i .pause, ok⟩ => if i = slot then { u with pausing := ok } else u
  | ⟨.setDisplayStatus i .resume, ok⟩ =>
    if i = slot then { enabled := u.enabled || (u.pausing && ok) } else u
  | _ => u

/-- The screen updates by display. -/
abbrev Updates := Slot → Switch

/-- The updates after the calls. -/
def Updates.after (up : Updates) (calls : List (Answered Io.Ans)) : Updates :=
  fun slot => calls.foldl (Switch.step slot) (up slot)

/-- The updates after an event with these calls. A new display starts with its updates enabled. -/
def Event.updates (e : Event) (up : Updates) (calls : List (Answered Io.Ans)) : Updates :=
  match e with
  | attach slot _ => Function.update (up.after calls) slot {}
  | _ => up.after calls

/-- A run, with the updates of the displays. Every step satisfies `P`. -/
inductive Watched (env : Env ω) (P : Sys ω → Event → Sys ω → Prop) : Updates → Sys ω → Prop where
  | start {s : Sys ω} (hs : s.vars.Initial) (hlog : s.log = []) : Watched env P (fun _ => {}) s
  | step {up : Updates} {s t : Sys ω} {e : Event} {r : Int} (h : Watched env P up s)
    (possible : e.Possible s.vars) (run : e.prog.run (sysHandler env) s = (some r, t))
    (kept : P s e t) : Watched env P (e.updates up (t.log.drop s.log.length)) t

/-- Every attempt to let the updates go on succeeds. -/
def Resumes (calls : List (Answered Io.Ans)) : Prop :=
  ∀ slot, (⟨.toggleScreenUpdates slot true, false⟩ : Answered Io.Ans) ∉ calls

/-- The display is found connected whenever its connector is looked at. -/
def FoundConnected (display : Display) (calls : List (Answered Io.Ans)) : Prop :=
  ∃ d, display.leaseDevice = .ok d ∧ d.opened = true ∧ d.connId ≠ 0 ∧
    ∀ a, (⟨.getConnector d.connId, a⟩ : Answered Io.Ans) ∈ calls → a = some true

/-- An acquire that gives up a takeover lets the updates go on, and the display of a takeover that has
    paused them is connected when it is released. -/
def Restores (s : Sys ω) (e : Event) (t : Sys ω) : Prop :=
  match e with
  | .acquire _ _ => Resumes (t.log.drop s.log.length)
  | .release _ => acquirePause ≤ s.vars.phase → ∀ slot display,
      s.vars.selectedDisplay = some (slot, display) →
      FoundConnected display (t.log.drop s.log.length)
  | _ => True

end HdmiLos.Composer
