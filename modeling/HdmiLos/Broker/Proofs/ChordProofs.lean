import Mathlib.Data.List.Induction
import HdmiLos.Broker.Chord
import HdmiLos.Broker.Proofs.BasicProofs

/-!
# The volume escape means a hold

An update computes a step of the guard from what is delivered. Along the steps the time since which
both keys are pressed is that of an earlier update, and no key was released after it, as long as a
release in an update is seen at its end.
-/

namespace HdmiLos

open Interaction Prog List

/-! ## The guard as a function of the deliveries -/

/-- The guard after an update, and what the update returns. -/
def VolumeGuard.step (v : VolumeGuard) (x : Delivery) : Bool × VolumeGuard :=
  let v := { v with downPressed := pressedAfter keyVolumeDown v.downPressed x.down.flatten
                    upPressed := pressedAfter keyVolumeUp v.upPressed x.up.flatten }
  if v.downPressed && v.upPressed then
    let since := if v.bothSince = 0 then x.now else v.bothSince
    (decide (x.now - since ≥ kChordHoldMs), { v with bothSince := since })
  else (false, { v with bothSince := 0 })

theorem pressedAfter_append (key : Nat) (pressed : Bool) (a b : List InputEvent) :
    pressedAfter key pressed (a ++ b) = pressedAfter key (pressedAfter key pressed a) b :=
  foldl_append

section Run

variable {ω : Type} {env : Env ω} {s : Sys ω} {n : Nat} {down up fd : Fd} {key : Nat}
  {batches : List (List InputEvent)}

/-- Reading a device to its end, which takes more rounds than there are pieces. -/
theorem wp_readOne_delivered {pressed : Bool} {w : ω}
    (h : Reads env fd batches s.world w) :
    wp (sysHandler env) (volumesReadOne n (some fd) key pressed)
      (fun a t => a = (true, pressedAfter key pressed batches.flatten) ∧ t.vars = s.vars ∧
        t.world = w) s (fun _ => n ≤ batches.length) := by
  rw [volumesReadOne]
  generalize hworld : s.world = world at h
  induction h generalizing n s pressed with
  | @again w w' h =>
    cases n with
    | zero => exact Nat.zero_le _
    | succ n =>
      rw [Prog.loop, wp_bind, wp_bind]
      refine wp_io_answered (a := InputRead.again) (w := w') (hworld ▸ h) ?_
      exact ⟨rfl, rfl, rfl⟩
  | @events batch batches w w' w'' h rest ih =>
    cases n with
    | zero => exact Nat.zero_le _
    | succ n =>
      rw [Prog.loop, wp_bind, wp_bind]
      refine wp_io_answered (a := InputRead.events batch) (w := w') (hworld ▸ h) ?_
      have hrest := @ih { s with log := s.log ++ [⟨.readEvents fd, .events batch⟩], world := w' } n
        (pressedAfter key pressed batch) rfl
      rw [flatten_cons, pressedAfter_append, length_cons]
      show wp (sysHandler env) (Prog.loop _ n _) _ _ _
      exact wp_mono hrest (fun _ _ h => h) fun _ h => Nat.succ_le_succ h

theorem wp_read_delivered {ready : Bool} {device : VolumeGuard → Option Fd}
    {pressed : VolumeGuard → Bool} {assign : Bool → VolumeGuard → VolumeGuard} {w : ω}
    (hfd : device s.vars.volumes = some fd)
    (hassign : ∀ v, assign (pressed v) v = v) (h : ReadsIf env fd ready batches s.world w) :
    wp (sysHandler env) (volumesRead n ready device key pressed assign)
      (fun a t => a = true ∧ t.world = w ∧ t.vars = { s.vars with
          volumes := assign (pressedAfter key (pressed s.vars.volumes) batches.flatten)
            s.vars.volumes })
      s (fun _ => n ≤ batches.length) := by
  cases ready with
  | false =>
    obtain ⟨rfl, rfl⟩ := h
    refine ⟨rfl, rfl, ?_⟩
    show s.vars = { s.vars with volumes := assign (pressed s.vars.volumes) s.vars.volumes }
    rw [hassign]
  | true =>
    rw [volumesRead, if_pos rfl, wp_bind, wp_getBroker, hfd]
    refine wp_seq (wp_readOne_delivered h) ?_
    rintro _ t ⟨rfl, hvars, hw⟩
    rw [wp_bind, updateVolumes, wp_update, wp_pure]
    exact ⟨rfl, hw, by rw [hvars]⟩

theorem wp_update_delivered {x : Delivery} (hdown : s.vars.volumes.down = some down)
    (hup : s.vars.volumes.up = some up) (h : Delivers env down up x s.world) :
    wp (sysHandler env) (volumesUpdate n x.downRevents x.upRevents)
      (fun r t => (r, t.vars.volumes) = s.vars.volumes.step x) s (fun _ => n ≤ x.reads) := by
  obtain ⟨w₁, w₂, w₃, hreadDown, hreadUp, hnow⟩ := h
  rw [volumesUpdate, if_neg (by simp [Delivery.downRevents, Delivery.upRevents]), wp_bind]
  refine wp_mono (wp_read_delivered hdown (fun _ => rfl) hreadDown) ?_
    fun _ hn => Nat.le_trans hn (Nat.le_max_left _ _)
  rintro _ t ⟨rfl, rfl, hvars⟩
  rw [if_pos rfl, wp_bind]
  have hup' : t.vars.volumes.up = some up := by rw [hvars]; exact hup
  refine wp_mono (wp_read_delivered hup' (fun _ => rfl) hreadUp) ?_
    fun _ hn => Nat.le_trans hn (Nat.le_max_right _ _)
  rintro _ u ⟨rfl, rfl, hvars'⟩
  rw [if_pos rfl, volumesChord, wp_bind]
  refine wp_io_answered hnow ?_
  rw [wp_bind, wp_getBroker, VolumeGuard.step]
  simp only [hvars', hvars]
  split
  · rfl
  · rfl

end Run

/-! ## Keys -/

theorem releases_iff {e : InputEvent} :
    e.releases key = true ↔ e.type = evKey ∧ e.code = key ∧ e.value = 0 := by
  simp [InputEvent.releases, and_assoc]

theorem pressedAfter_of_unreleased {events : List InputEvent}
    (h : events.any (·.releases key) = false) : pressedAfter key true events = true := by
  induction events with
  | nil => rfl
  | cons e events ih =>
    rw [any_cons, Bool.or_eq_false_iff] at h
    have hstep : pressedAfter key true [e] = true := by
      by_cases hkey : e.type = evKey ∧ e.code = key
      · have hvalue : e.value ≠ 0 := fun hzero =>
          absurd (releases_iff.mpr ⟨hkey.1, hkey.2, hzero⟩) (by simp [h.1])
        simp [pressedAfter, hkey, hvalue]
      · have hother : ¬(e.type == evKey && e.code == key) = true := by simpa using hkey
        rw [pressedAfter, foldl_cons, foldl_nil, if_neg hother]
    rw [← singleton_append, pressedAfter_append, hstep]
    exact ih h.2

variable {p : List Delivery} {x : Delivery}

theorem downPressedBy_snoc (p : List Delivery) (x : Delivery) :
    downPressedBy (p ++ [x]) = pressedAfter keyVolumeDown (downPressedBy p) x.down.flatten := by
  rw [downPressedBy, flatMap_append, pressedBy, pressedAfter_append]
  simp [downPressedBy, pressedBy]

theorem upPressedBy_snoc (p : List Delivery) (x : Delivery) :
    upPressedBy (p ++ [x]) = pressedAfter keyVolumeUp (upPressedBy p) x.up.flatten := by
  rw [upPressedBy, flatMap_append, pressedBy, pressedAfter_append]
  simp [upPressedBy, pressedBy]

theorem BothPressed.snoc (h : BothPressed p) (hx : ¬x.Releases) : BothPressed (p ++ [x]) := by
  rw [Delivery.Releases, not_or, Bool.not_eq_true, Bool.not_eq_true] at hx
  rw [BothPressed, downPressedBy_snoc, upPressedBy_snoc, h.1, h.2]
  exact ⟨pressedAfter_of_unreleased hx.1, pressedAfter_of_unreleased hx.2⟩

variable {later : List Delivery}

theorem BothPressed.append (h : BothPressed p) (hlater : ∀ y ∈ later, ¬y.Releases) :
    BothPressed (p ++ later) := by
  induction later generalizing p with
  | nil => simpa using h
  | cons y later ih =>
    rw [← singleton_append, ← append_assoc]
    exact ih (h.snoc (hlater y (by simp))) fun z hz => hlater z (mem_cons_of_mem _ hz)

theorem Settled.init (h : Settled (p ++ [x])) : Settled p := by
  intro earlier y later hsplit
  exact h earlier y (later ++ [x]) (by rw [hsplit]; simp)

/-- A key that is pressed at the end of an update was not released in it. -/
theorem Settled.unreleased (h : Settled (p ++ [x])) (hboth : BothPressed (p ++ [x])) :
    ¬x.Releases := by
  obtain ⟨hdown, hup⟩ := h p x [] rfl
  rintro (hr | hr)
  · exact absurd hboth.1 (by simp [hdown hr])
  · exact absurd hboth.2 (by simp [hup hr])

/-! ## The guard along the deliveries -/

/-- The guard after the deliveries. -/
def VolumeGuard.after (v : VolumeGuard) (xs : List Delivery) : VolumeGuard :=
  xs.foldl (fun v x => (v.step x).2) v

theorem VolumeGuard.after_snoc (v : VolumeGuard) (p : List Delivery) (x : Delivery) :
    v.after (p ++ [x]) = ((v.after p).step x).2 := by
  simp [VolumeGuard.after]

/-- What the guard knows of the deliveries: the state of the keys, and since when both are
    pressed. -/
structure Knows (v : VolumeGuard) (p : List Delivery) : Prop where
  down : v.downPressed = downPressedBy p
  up : v.upPressed = upPressedBy p
  idle : ¬BothPressed p → v.bothSince = 0
  held : BothPressed p → v.bothSince ≠ 0 ∧ ∃ earlier start later, p = earlier ++ start :: later ∧
    start.now = v.bothSince ∧ BothPressed (earlier ++ [start]) ∧
    (Settled p → ∀ y ∈ later, ¬y.Releases)

variable {v : VolumeGuard}

theorem Knows.step_eq (h : Knows v p) (x : Delivery) :
    (BothPressed (p ++ [x]) ∧ (v.step x).1 = decide (x.now - (v.step x).2.bothSince ≥ kChordHoldMs) ∧
        (v.step x).2.bothSince = if v.bothSince = 0 then x.now else v.bothSince) ∨
      (¬BothPressed (p ++ [x]) ∧ (v.step x).1 = false ∧ (v.step x).2.bothSince = 0) := by
  rw [BothPressed, downPressedBy_snoc, upPressedBy_snoc, ← h.down, ← h.up, VolumeGuard.step]
  dsimp only
  split
  case isTrue hboth => exact .inl ⟨by simpa using hboth, rfl, rfl⟩
  case isFalse hboth => exact .inr ⟨by simpa using hboth, rfl, rfl⟩

theorem step_pressed (v : VolumeGuard) (x : Delivery) :
    (v.step x).2.downPressed = pressedAfter keyVolumeDown v.downPressed x.down.flatten ∧
      (v.step x).2.upPressed = pressedAfter keyVolumeUp v.upPressed x.up.flatten := by
  rw [VolumeGuard.step]
  dsimp only
  split
  · exact ⟨rfl, rfl⟩
  · exact ⟨rfl, rfl⟩

theorem Knows.step (h : Knows v p) (hnow : 0 < x.now) : Knows (v.step x).2 (p ++ [x]) where
  down := by rw [(step_pressed v x).1, downPressedBy_snoc, h.down]
  up := by rw [(step_pressed v x).2, upPressedBy_snoc, h.up]
  idle := by
    intro hnot
    rcases h.step_eq x with ⟨hboth, -⟩ | ⟨-, -, hzero⟩
    · exact absurd hboth hnot
    · exact hzero
  held := by
    intro hboth
    rcases h.step_eq x with ⟨-, -, hsince⟩ | ⟨hnot, -⟩
    case inr => exact absurd hboth hnot
    rw [hsince]
    by_cases hzero : v.bothSince = 0
    · -- the hold begins with this update
      rw [if_pos hzero]
      exact ⟨by omega, p, x, [], rfl, rfl, hboth, fun _ => by simp⟩
    · rw [if_neg hzero]
      have hbefore : BothPressed p := by
        by_contra hnot
        exact hzero (h.idle hnot)
      obtain ⟨-, earlier, start, later, hsplit, hstart, hpressed, hlater⟩ := h.held hbefore
      refine ⟨hzero, earlier, start, later ++ [x], by rw [hsplit]; simp, hstart, hpressed, ?_⟩
      intro hsettled y hy
      rcases mem_append.mp hy with hy | hy
      · exact hlater hsettled.init y hy
      · rw [mem_singleton.mp hy]
        exact hsettled.unreleased hboth

theorem knows_after (down up : Fd) {p : List Delivery} (h : ∀ x ∈ p, 0 < x.now) :
    Knows ((VolumeGuard.acquired down up).after p) p := by
  induction p using List.reverseRecOn with
  | nil =>
    refine ⟨rfl, rfl, fun _ => rfl, fun hboth => ?_⟩
    exact absurd hboth.1 (by decide)
  | append_singleton p x ih =>
    rw [VolumeGuard.after_snoc]
    exact (ih fun y hy => h y (mem_append_left _ hy)).step (h x (by simp))

theorem bothSince_append (later : List Delivery) (h : Knows v p) (hboth : BothPressed p)
    (hnow : ∀ y ∈ later, 0 < y.now) (hlater : ∀ y ∈ later, ¬y.Releases) :
    (v.after later).bothSince = v.bothSince := by
  induction later generalizing v p with
  | nil => rfl
  | cons y later ih =>
    have hnext : BothPressed (p ++ [y]) := hboth.snoc (hlater y (by simp))
    have hsince : (v.step y).2.bothSince = v.bothSince := by
      rcases h.step_eq y with ⟨-, -, hsince⟩ | ⟨hnot, -⟩
      · rw [hsince, if_neg (h.held hboth).1]
      · exact absurd hnext hnot
    have hrest := ih (h.step (hnow y (by simp))) hnext (fun z hz => hnow z (mem_cons_of_mem _ hz))
      fun z hz => hlater z (mem_cons_of_mem _ hz)
    rw [hsince] at hrest
    exact hrest

/-! ## A series of updates -/

theorem step_devices (v : VolumeGuard) (x : Delivery) :
    (v.step x).2.down = v.down ∧ (v.step x).2.up = v.up := by
  rw [VolumeGuard.step]
  dsimp only
  split
  · exact ⟨rfl, rfl⟩
  · exact ⟨rfl, rfl⟩

variable {down : Fd} {xs : List (Delivery × Bool)} {up : Fd}

theorem updates_result {ω : Type} {env : Env ω} {n : Nat} {v' : VolumeGuard}
    (h : Updates env n down up v xs v') (hdown : v.down = some down)
    (hup : v.up = some up) {before after : List (Delivery × Bool)} {r : Bool}
    (hsplit : xs = before ++ (x, r) :: after) : r = ((v.after (before.map Prod.fst)).step x).1 := by
  induction h generalizing before with
  | nil v => simp at hsplit
  | @cons s t y r' xs v' hdelivers hrun rest ih =>
    have hstep : (r', t.vars.volumes) = s.vars.volumes.step y :=
      wp_returned (wp_update_delivered hdown hup hdelivers) hrun
    have hguard : t.vars.volumes = (s.vars.volumes.step y).2 := congrArg Prod.snd hstep
    cases before with
    | nil =>
      obtain ⟨hhead, -⟩ := List.cons.inj hsplit
      obtain ⟨rfl, rfl⟩ := Prod.mk.inj hhead
      exact congrArg Prod.fst hstep
    | cons b before =>
      obtain ⟨rfl, hrest⟩ := List.cons.inj hsplit
      have hresult := ih (by rw [hguard, (step_devices _ y).1, hdown])
        (by rw [hguard, (step_devices _ y).2, hup]) hrest
      rw [hguard] at hresult
      exact hresult

theorem split_after {earlier earlier' later' : List Delivery} {start y : Delivery}
    (hsorted : (earlier ++ start :: later).Pairwise fun x y => x.now ≤ y.now)
    (hsplit : earlier ++ start :: later = earlier' ++ y :: later') (hlt : start.now < y.now) :
    ∃ middle, earlier' = earlier ++ start :: middle ∧ later = middle ++ y :: later' := by
  rcases append_eq_append_iff.mp hsplit with ⟨a, ha, hb⟩ | ⟨a, ha, hb⟩
  · cases a with
    | nil =>
      obtain ⟨rfl, -⟩ := List.cons.inj hb
      exact absurd hlt (Int.lt_irrefl _)
    | cons z middle =>
      obtain ⟨rfl, hlater⟩ := List.cons.inj hb
      exact ⟨middle, ha, hlater⟩
  · cases a with
    | nil =>
      obtain ⟨rfl, -⟩ := List.cons.inj hb
      exact absurd hlt (Int.lt_irrefl _)
    | cons z middle =>
      obtain ⟨rfl, -⟩ := List.cons.inj hb
      rw [ha, append_assoc, pairwise_append] at hsorted
      have hle := (pairwise_cons.mp hsorted.2.1).1 start (by simp)
      omega

theorem heldUntil_of_true (htimed : Timed (p ++ [x])) (hsettled : Settled (p ++ [x]))
    (h : (((VolumeGuard.acquired down up).after p).step x).1 = true) : HeldUntil p x := by
  have hknows := knows_after down up fun y hy => htimed.1 y (mem_append_left _ hy)
  rcases hknows.step_eq x with ⟨hboth, hresult, hsince⟩ | ⟨-, hfalse, -⟩
  case inr =>
    rw [hfalse] at h
    cases h
  have hx : ¬x.Releases := hsettled.unreleased hboth
  rw [h, hsince] at hresult
  have hlong : kChordHoldMs ≤ x.now - (if ((VolumeGuard.acquired down up).after p).bothSince = 0
      then x.now else ((VolumeGuard.acquired down up).after p).bothSince) := by
    simpa using hresult.symm
  by_cases hzero : ((VolumeGuard.acquired down up).after p).bothSince = 0
  · rw [if_pos hzero, kChordHoldMs] at hlong
    omega
  rw [if_neg hzero] at hlong
  have hbefore : BothPressed p := by
    by_contra hnot
    exact hzero (hknows.idle hnot)
  obtain ⟨-, earlier, start, later, hsplit, hstart, hpressed, hlater⟩ := hknows.held hbefore
  have hquiet : ∀ y ∈ later ++ [x], ¬y.Releases := by
    intro y hy
    rcases mem_append.mp hy with hy | hy
    · exact hlater hsettled.init y hy
    · rwa [mem_singleton.mp hy]
  refine ⟨⟨earlier, start, later, hsplit, by omega, hpressed, hquiet⟩, ?_⟩
  intro earlier' y later' hsplit' hwindow
  have hall : p ++ [x] = earlier ++ start :: (later ++ [x]) := by
    rw [hsplit]
    simp
  have hsorted := htimed.2
  rw [hall] at hsorted hsplit'
  obtain ⟨middle, rfl, hbehind⟩ := split_after hsorted hsplit' (by omega)
  have hmem : ∀ z ∈ middle ++ [y], ¬z.Releases := by
    intro z hz
    refine hquiet z ?_
    rw [hbehind]
    rcases mem_append.mp hz with hz | hz
    · exact mem_append_left _ hz
    · rw [mem_singleton.mp hz]
      simp
  refine ⟨?_, hmem y (by simp)⟩
  have hpressed' := hpressed.append hmem
  simpa using hpressed'

theorem true_of_held {start : Delivery} (htimed : Timed (p ++ start :: later ++ [x]))
    (hboth : BothPressed (p ++ [start])) (hlater : ∀ y ∈ later, ¬y.Releases) (hx : ¬x.Releases)
    (hlong : start.now + kChordHoldMs ≤ x.now) :
    (((VolumeGuard.acquired down up).after (p ++ start :: later)).step x).1 = true := by
  have hpos : ∀ y ∈ p ++ start :: later ++ [x], 0 < y.now := htimed.1
  have hsplit : p ++ start :: later = (p ++ [start]) ++ later := by simp
  have hknows := knows_after down up (p := p ++ [start]) fun y hy => hpos y (by
    simp only [mem_append, mem_singleton] at hy
    simp only [mem_append, mem_cons]
    tauto)
  have hall := knows_after down up (p := p ++ start :: later) fun y hy =>
    hpos y (mem_append_left _ hy)
  -- the hold is counted from an update that is not later than the one both keys were pressed at
  have hsince : ((VolumeGuard.acquired down up).after (p ++ [start])).bothSince ≤ start.now := by
    obtain ⟨-, earlier, first, rest, hfirst, hnow, -⟩ := hknows.held hboth
    rw [← hnow]
    have hmem : first ∈ p ++ [start] := by
      rw [hfirst]
      simp
    rcases mem_append.mp hmem with hmem | hmem
    · have hsorted := htimed.2
      rw [append_assoc, pairwise_append] at hsorted
      exact hsorted.2.2 first hmem start (by simp)
    · obtain rfl := mem_singleton.mp hmem
      exact Int.le_refl _
  have hkeeps : ((VolumeGuard.acquired down up).after (p ++ start :: later)).bothSince =
      ((VolumeGuard.acquired down up).after (p ++ [start])).bothSince := by
    have hstay := bothSince_append later hknows hboth (fun y hy => hpos y (by
      simp only [mem_append, mem_cons]
      tauto)) hlater
    rw [hsplit]
    simpa [VolumeGuard.after] using hstay
  have hnext : BothPressed (p ++ start :: later ++ [x]) := by
    rw [hsplit]
    exact (hboth.append hlater).snoc hx
  have hne : ((VolumeGuard.acquired down up).after (p ++ start :: later)).bothSince ≠ 0 := by
    rw [hkeeps]
    exact (hknows.held hboth).1
  rcases hall.step_eq x with ⟨-, hresult, hbegin⟩ | ⟨hnot, -⟩
  · rw [hresult, hbegin, if_neg hne, hkeeps]
    exact decide_eq_true (by omega)
  · exact absurd hnext hnot

/-- As long as a key that is released during an update is not pressed at the end of it, the volume
escape means that both keys were held for three seconds. -/
theorem escape_means_hold {ω : Type} (env : Env ω) (n : Nat) (down up : Fd)
    (xs : List (Delivery × Bool)) (v : VolumeGuard)
    (h : Updates env n down up (.acquired down up) xs v) (htimed : Timed (xs.map Prod.fst))
    (hsettled : Settled (xs.map Prod.fst)) : EscapeMeansHold env n down up xs where
  sound := by
    intro before x after hsplit
    have hresult := updates_result h rfl rfl hsplit
    have hmap : xs.map Prod.fst = (before.map Prod.fst ++ [x]) ++ after.map Prod.fst := by
      rw [hsplit]
      simp
    rw [hmap] at htimed hsettled
    refine heldUntil_of_true ?_ ?_ hresult.symm
    · exact ⟨fun y hy => htimed.1 y (mem_append_left _ hy), (pairwise_append.mp htimed.2).1⟩
    · intro earlier y later hpart
      exact hsettled earlier y (later ++ after.map Prod.fst) (by rw [hpart]; simp)
  complete := by
    intro before start later x r after hsplit hboth hlater hx hlong
    have hresult := updates_result h rfl rfl hsplit
    have hmap : xs.map Prod.fst =
        (before.map Prod.fst ++ start.1 :: later.map Prod.fst ++ [x]) ++ after.map Prod.fst := by
      rw [hsplit]
      simp
    rw [hmap] at htimed
    rw [hresult, map_append, map_cons]
    refine true_of_held ?_ (by simpa using hboth) ?_ hx hlong
    · exact ⟨fun y hy => htimed.1 y (mem_append_left _ hy), (pairwise_append.mp htimed.2).1⟩
    · intro y hy
      obtain ⟨z, hz, rfl⟩ := mem_map.mp hy
      exact hlater z hz
  returns := by
    intro s x hdown hup hdelivers hn
    have hwp := wp_update_delivered (n := n) hdown hup hdelivers
    rcases hrun : (volumesUpdate n x.downRevents x.upRevents).run (sysHandler env) s with ⟨_ | r, t⟩
    · exact absurd (wp_halted hwp hrun) (by omega)
    · exact ⟨r, t, rfl⟩

/-! ## Scripted input -/

/-- Input and times that are given out one after the other. -/
structure Script where
  reads : List InputRead
  clock : List Int

def scriptEnv : Env Script
  | .readEvents _, w =>
    match w.reads with
    | [] => none
    | read :: reads => some (read, { w with reads := reads })
  | .monotonicMs, w =>
    match w.clock with
    | [] => none
    | now :: clock => some (now, { w with clock := clock })
  | _, _ => none

theorem Updates.next {ω : Type} {env : Env ω} {n : Nat} {v' : VolumeGuard} (w : ω)
    (hdown : v.down = some down) (hup : v.up = some up)
    (hdelivers : Delivers env down up x w) (hn : x.reads < n)
    (rest : Updates env n down up (v.step x).2 xs v') :
    Updates env n down up v ((x, (v.step x).1) :: xs) v' := by
  let s : Sys ω := { vars := { volumes := v }, world := w }
  have hwp := wp_update_delivered (n := n) (s := s) hdown hup hdelivers
  rcases hrun : (volumesUpdate n x.downRevents x.upRevents).run (sysHandler env) s with ⟨_ | r, t⟩
  · exact absurd (wp_halted hwp hrun) (by omega)
  · have hstep := wp_returned hwp hrun
    have hresult : r = (v.step x).1 := congrArg Prod.fst hstep
    have hguard : t.vars.volumes = (v.step x).2 := congrArg Prod.snd hstep
    rw [hresult] at hrun
    exact .cons (s := s) hdelivers hrun (hguard ▸ rest)

theorem settled_of_unreleased {xs : List Delivery}
    (h : ∀ x ∈ xs, x.releasesDown = false ∧ x.releasesUp = false) : Settled xs := by
  intro earlier x later hsplit
  have hx := h x (by rw [hsplit]; simp)
  simp [hx.1, hx.2]

def pressEvent (key : Nat) : InputEvent := ⟨evKey, key, 1⟩

def releaseEvent (key : Nat) : InputEvent := ⟨evKey, key, 0⟩

/-- Both keys are pressed at 1000 ms. -/
def bothPress : Delivery :=
  ⟨1000, true, [[pressEvent keyVolumeDown]], true, [[pressEvent keyVolumeUp]]⟩

/-- Volume up is released and pressed again, both before the update at 2500 ms. -/
def upAgain : Delivery := ⟨2500, false, [], true, [[releaseEvent keyVolumeUp, pressEvent keyVolumeUp]]⟩

/-- Nothing is delivered at 4000 ms. -/
def quietUpdate : Delivery := ⟨4000, false, [], false, []⟩

theorem delivers_bothPress : Delivers scriptEnv 3 4 bothPress
    ⟨[.events [pressEvent keyVolumeDown], .again, .events [pressEvent keyVolumeUp], .again], [1000]⟩ :=
  ⟨_, _, _, Reads.events rfl (.again rfl), Reads.events rfl (.again rfl), rfl⟩

theorem delivers_upAgain : Delivers scriptEnv 3 4 upAgain
    ⟨[.events [releaseEvent keyVolumeUp, pressEvent keyVolumeUp], .again], [2500]⟩ :=
  ⟨_, _, _, ⟨rfl, rfl⟩, Reads.events rfl (.again rfl), rfl⟩

theorem delivers_quietUpdate : Delivers scriptEnv 3 4 quietUpdate ⟨[], [4000]⟩ :=
  ⟨_, _, _, ⟨rfl, rfl⟩, ⟨rfl, rfl⟩, rfl⟩

theorem escape_means_hold_plain :
    EscapeMeansHold scriptEnv 2 3 4 [(bothPress, false), (quietUpdate, true)] :=
  escape_means_hold scriptEnv 2 3 4 _ _ (.next _ rfl rfl delivers_bothPress (by decide)
      (.next _ rfl rfl delivers_quietUpdate (by decide) (.nil _)))
    ⟨by decide, by decide⟩ (settled_of_unreleased (by decide))

/-- With a release and a press of volume up in one update the hold is counted on, and the escape
comes 1500 ms after the release. -/
theorem escape_without_hold : (∃ v, Updates scriptEnv 2 3 4 (.acquired 3 4)
      [(bothPress, false), (upAgain, false), (quietUpdate, true)] v) ∧
      Timed [bothPress, upAgain, quietUpdate] ∧
      ¬EscapeSound [(bothPress, false), (upAgain, false), (quietUpdate, true)] := by
  refine ⟨⟨_, .next _ rfl rfl delivers_bothPress (by decide)
    (.next _ rfl rfl delivers_upAgain (by decide)
      (.next _ rfl rfl delivers_quietUpdate (by decide) (.nil _)))⟩, ⟨by decide, by decide⟩, ?_⟩
  intro h
  have hheld := h [(bothPress, false), (upAgain, false)] quietUpdate [] rfl
  have hwindow := hheld.window [bothPress] upAgain [quietUpdate] rfl (by decide)
  exact hwindow.2 (.inr (by decide))

end HdmiLos
