import HdmiLos.Broker.Channels

/-!
# The volume escape

Both volume keys held for three seconds end a session. The guard is updated now and then with the
input events that have come since the last time, read in one or more pieces, and keeps whether each
key is pressed and since when both are. Here is what a series of updates was given, and what it
means that the keys were held all the time.
-/

namespace HdmiLos

open Interaction

/-- What one update of the volume guard is given: the time, and for each device whether it is ready
    and what is then read from it. -/
structure Delivery where
  now : Int
  downReady : Bool
  down : List (List InputEvent)
  upReady : Bool
  up : List (List InputEvent)

/-- The event releases the key. -/
def InputEvent.releases (key : Nat) (e : InputEvent) : Bool :=
  e.type == evKey && e.code == key && e.value == 0

namespace Delivery

def downRevents (x : Delivery) : Revents := { input := x.downReady }

def upRevents (x : Delivery) : Revents := { input := x.upReady }

/-- The releases that are delivered. -/
def releasesDown (x : Delivery) : Bool := x.down.flatten.any (·.releases keyVolumeDown)

def releasesUp (x : Delivery) : Bool := x.up.flatten.any (·.releases keyVolumeUp)

/-- A key is released. -/
def Releases (x : Delivery) : Prop := x.releasesDown = true ∨ x.releasesUp = true

/-- How often a device is read. -/
def reads (x : Delivery) : Nat := max x.down.length x.up.length

end Delivery

/-- The key is pressed after the events. It is not pressed when the devices are acquired. -/
def pressedBy (key : Nat) (events : List InputEvent) : Bool := pressedAfter key false events

/-- Volume-down is pressed after the deliveries. -/
def downPressedBy (xs : List Delivery) : Bool :=
  pressedBy keyVolumeDown (xs.flatMap fun x => x.down.flatten)

/-- Volume-up is pressed after the deliveries. -/
def upPressedBy (xs : List Delivery) : Bool :=
  pressedBy keyVolumeUp (xs.flatMap fun x => x.up.flatten)

/-- Both keys are pressed after the deliveries. -/
def BothPressed (xs : List Delivery) : Prop := downPressedBy xs = true ∧ upPressedBy xs = true

/-! ## A series of updates -/

section Updates

variable {ω : Type} (env : Env ω)

/-- Reading the device gives the pieces one after the other, and then nothing more. -/
inductive Reads (fd : Fd) : List (List InputEvent) → ω → ω → Prop where
  | again {w w' : ω} (h : env (.readEvents fd) w = some (.again, w')) : Reads fd [] w w'
  | events {batch : List InputEvent} {batches : List (List InputEvent)} {w w' w'' : ω}
      (h : env (.readEvents fd) w = some (.events batch, w')) (rest : Reads fd batches w' w'') :
      Reads fd (batch :: batches) w w''

/-- What is read from a device that may not be ready. -/
def ReadsIf (fd : Fd) (ready : Bool) (batches : List (List InputEvent)) (w w' : ω) : Prop :=
  if ready then Reads env fd batches w w' else batches = [] ∧ w' = w

/-- The environment delivers to an update, without a loss of input. -/
def Delivers (down up : Fd) (x : Delivery) (w : ω) : Prop :=
  ∃ w₁ w₂ w₃, ReadsIf env down x.downReady x.down w w₁ ∧ ReadsIf env up x.upReady x.up w₁ w₂ ∧
    env .monotonicMs w₂ = some (x.now, w₃)

/-- A series of updates of the guard, each with what was delivered to it and what it returned.
    Between two updates the broker does not touch the guard. -/
inductive Updates (n : Nat) (down up : Fd) :
    VolumeGuard → List (Delivery × Bool) → VolumeGuard → Prop where
  | nil (v : VolumeGuard) : Updates n down up v [] v
  | cons {s t : Sys ω} {x : Delivery} {r : Bool} {xs : List (Delivery × Bool)} {v : VolumeGuard}
      (hdelivers : Delivers env down up x s.world)
      (hrun : (volumesUpdate n x.downRevents x.upRevents).run (sysHandler env) s = (some r, t))
      (rest : Updates n down up t.vars.volumes xs v) :
      Updates n down up s.vars.volumes ((x, r) :: xs) v

end Updates

/-- The guard after its devices were acquired. -/
def VolumeGuard.acquired (down up : Fd) : VolumeGuard := { down := some down, up := some up }

/-- The times of the updates are positive and do not go back. -/
def Timed (xs : List Delivery) : Prop :=
  (∀ x ∈ xs, 0 < x.now) ∧ xs.Pairwise fun x y => x.now ≤ y.now

/-- Both keys were held for three seconds up to the update `x` that comes after `before`: they were
    pressed at an update at least that long ago and neither was released after it. So in the last
    three seconds both were pressed at every update and none was given a release. -/
structure HeldUntil (before : List Delivery) (x : Delivery) : Prop where
  since : ∃ earlier start later, before = earlier ++ start :: later ∧
    start.now + kChordHoldMs ≤ x.now ∧ BothPressed (earlier ++ [start]) ∧
    ∀ y ∈ later ++ [x], ¬y.Releases
  window : ∀ earlier y later, before ++ [x] = earlier ++ y :: later →
    x.now - kChordHoldMs < y.now → BothPressed (earlier ++ [y]) ∧ ¬y.Releases

/-- An update that returns true comes after both keys were held for three seconds. -/
def EscapeSound (xs : List (Delivery × Bool)) : Prop :=
  ∀ before x after, xs = before ++ (x, true) :: after → HeldUntil (before.map Prod.fst) x

/-- Both keys pressed at an update, and no release after it: every update at least three seconds
    later returns true. -/
def EscapeComplete (xs : List (Delivery × Bool)) : Prop :=
  ∀ before start later x r after, xs = before ++ start :: later ++ (x, r) :: after →
    BothPressed ((before ++ [start]).map Prod.fst) → (∀ y ∈ later, ¬y.1.Releases) → ¬x.Releases →
    start.1.now + kChordHoldMs ≤ x.now → r = true

/-- The volume escape means a continuous hold, and every update to which input is delivered returns. -/
structure EscapeMeansHold {ω : Type} (env : Env ω) (n : Nat) (down up : Fd)
    (xs : List (Delivery × Bool)) : Prop where
  sound : EscapeSound xs
  complete : EscapeComplete xs
  returns : ∀ (s : Sys ω) (x : Delivery), s.vars.volumes.down = some down →
    s.vars.volumes.up = some up → Delivers env down up x s.world → x.reads < n →
    ∃ r t, (volumesUpdate n x.downRevents x.upRevents).run (sysHandler env) s = (some r, t)

/-- A key that is released during an update is not pressed at the end of it. -/
def Settled (xs : List Delivery) : Prop :=
  ∀ earlier x later, xs = earlier ++ x :: later →
    (x.releasesDown = true → downPressedBy (earlier ++ [x]) = false) ∧
      (x.releasesUp = true → upPressedBy (earlier ++ [x]) = false)

end HdmiLos
