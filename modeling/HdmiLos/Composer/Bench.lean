import HdmiLos.Composer.Takeover

/-!
# A composer on the bench

One pluggable display on the second CRTC, whose fixed primary plane is reserved, and an environment
in which every step succeeds. What the kernel answers to a revocation, and whether the display is
still connected once it has been leased, is left open.
-/

namespace HdmiLos.Composer

open Interaction

/-- The properties of every plane: its type, and those that a takeover resets. -/
def benchProperties : List (UInt32 × UInt64) :=
  [(1, 1), (2, 0), (3, 0), (4, 0), (5, 0), (6, 0), (7, 0), (8, 0), (9, 0), (10, 0), (11, 0)]

/-- The names of the bench's properties. -/
def benchPropertyName (id : UInt32) : String :=
  ["", "type", "CRTC_ID", "FB_ID", "CRTC_X", "CRTC_Y", "CRTC_W", "CRTC_H", "SRC_X", "SRC_Y",
    "SRC_W", "SRC_H"].getD id.toNat ""

/-- The display's state: its updates are paused, and it is connected. -/
structure BenchWorld where
  paused : Bool := false
  connected : Bool := true

/-- A device with one external display. -/
def benchEnv (revoke : RevokeAnswer) (unplugged : Bool) : Env BenchWorld
  | .clientConnected, w => some (true, w)
  | .secureSession, w => some (false, w)
  | .virtualDisplay, w => some (false, w)
  | .refreshPrimary, w => some ((), w)
  | .handlePluggableDisplays, w => some ((), w)
  | .displayUsable _, w => some (true, w)
  | .displayPaused _, w => some (w.paused, w)
  | .toggleScreenUpdates _ on, w => some (true, { w with paused := !on })
  | .setDisplayStatus _ status, w => some (true, { w with paused := status == .pause })
  | .activeConfig _, w => some (none, w)
  | .displayAttributes _ _, w => some (none, w)
  | .isMaster, w => some (true, w)
  | .getConnector _, w => some (some w.connected, w)
  | .getResources, w => some (some [50, 60], w)
  | .getPlaneResources, w => some (some [1, 2], w)
  | .getPlane id, w => some (some { planeId := id, possibleCrtcs := 3 }, w)
  | .objectProperties _, w => some (some benchProperties, w)
  | .getProperty id, w => some (some { id := id, name := benchPropertyName id }, w)
  | .atomicAlloc, w => some (true, w)
  | .atomicAdd _ _ _, w => some (true, w)
  | .atomicCommit _, w => some (true, w)
  | .perform _, w => some ((), w)
  | .nullCommit, w => some (true, w)
  | .createLease _ _, w => some (some (7, 9), { w with connected := !unplugged })
  | .revokeLease _ _, w => some (revoke, w)

/-- A session with that display. -/
def benchSession : Session :=
  { numDisplays := 3
    displays := fun slot =>
      if slot = 1 then some { device := some { id := 5, connId := 40, crtcId := 60 } } else none
    pluggable := [1]
    reservedPlane := 2 }

/-- The session before any event. -/
def benchStart : Sys BenchWorld :=
  { vars := benchSession, world := {} }

/-- What `next` records of these events, latest first, and their last state, if all of them return
    and every step passes the check. -/
def benchTrace {H : Type} (next : H → Sys BenchWorld → Event → Sys BenchWorld → H) (start : H)
    (env : Env BenchWorld) (check : Sys BenchWorld → Event → Sys BenchWorld → Bool) :
    List Event → Option (H × Sys BenchWorld)
  | [] => some (start, benchStart)
  | e :: events =>
    match benchTrace next start env check events with
    | none => none
    | some (h, s) =>
      match e.prog.run (sysHandler env) s with
      | (some _, t) => if check s e t then some (next h s e t, t) else none
      | (none, _) => none

/-- The three phases of a takeover, latest first. -/
def takeoverEvents : List Event :=
  [.acquire acquireCreate {}, .acquire acquirePause {}, .acquire acquirePrepare {}]

/-- An event that attaches no display is always possible. -/
def Event.attaches : Event → Bool
  | attach _ _ => true
  | _ => false

theorem Event.possible_of_attaches {e : Event} (h : e.attaches = false) (s : Session) :
    e.Possible s := by
  cases e with
  | attach slot display => cases h
  | _ => trivial

theorem benchStart_initial : benchStart.vars.Initial := by
  refine ⟨rfl, rfl, rfl, rfl, fun _ => rfl, ?_⟩
  intro i j d d' hi hj _
  have hslot : ∀ {i : Slot} {d : Device}, benchStart.vars.HasDevice i d → i = 1 := by
    intro i d h
    by_contra hne
    simp [Session.HasDevice, benchStart, benchSession, hne] at h
  rw [hslot hi, hslot hj]

variable {check : Sys BenchWorld → Event → Sys BenchWorld → Bool}

/-- What holds at the start and is kept by the steps of a trace holds at its end. -/
theorem holds_benchTrace {H : Type} {next : H → Sys BenchWorld → Event → Sys BenchWorld → H}
    {start : H} {env : Env BenchWorld}
    {R : H → Sys BenchWorld → Prop} (hstart : R start benchStart)
    (hstep : ∀ {h s e r t}, R h s → e.Possible s.vars →
      e.prog.run (sysHandler env) s = (some r, t) → check s e t = true → R (next h s e t) t)
    {events : List Event} (hevents : ∀ e ∈ events, e.attaches = false) {h : H}
    {s : Sys BenchWorld} (htrace : benchTrace next start env check events = some (h, s)) :
    R h s := by
  induction events generalizing h s with
  | nil =>
    cases htrace
    exact hstart
  | cons e events ih =>
    simp only [benchTrace] at htrace
    split at htrace
    · cases htrace
    · rename_i h' s' hs
      have hR := ih (fun x hx => hevents x (List.mem_cons_of_mem _ hx)) hs
      split at htrace
      · rename_i r t ht
        split at htrace
        · rename_i hc
          cases htrace
          exact hstep hR (Event.possible_of_attaches (hevents e List.mem_cons_self) _) ht hc
        · cases htrace
      · cases htrace

/-- A trace that returns is a run to a state with whatever is evaluated of it. -/
theorem exists_run_benchTrace (env : Env BenchWorld)
    {P : Sys BenchWorld → Event → Sys BenchWorld → Prop}
    (hcheck : ∀ s e t, check s e t = true → P s e t) (events : List Event)
    (hevents : ∀ e ∈ events, e.attaches = false) (f : Sys BenchWorld → Bool)
    (h : (benchTrace (fun _ _ _ _ => ()) () env check events).any (fun x => f x.2) = true) :
    ∃ hist s, Run env P hist s ∧ f s = true := by
  obtain ⟨⟨_, s⟩, hx, hf⟩ := (Option.any_eq_true _ _).1 h
  obtain ⟨hist, hrun⟩ := holds_benchTrace (R := fun _ s => ∃ hist, Run env P hist s)
    ⟨[], .start benchStart_initial rfl⟩
    (fun ⟨hist, hrun⟩ hpossible ht hc => ⟨_, hrun.step hpossible ht (hcheck _ _ _ hc)⟩) hevents hx
  exact ⟨hist, s, hrun, hf⟩

end HdmiLos.Composer
