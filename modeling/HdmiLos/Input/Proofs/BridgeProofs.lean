import HdmiLos.Input.Bridge
import Mathlib.Data.Fintype.Card
import Mathlib.Data.List.Perm.Basic

/-!
# Held keys

The counter of a virtual key is the number of the sources that hold it, through every function of
the bridge. A key is pressed and released exactly when the counter leaves and reaches zero, so what
is written for it alternates.
-/

namespace HdmiLos.Input

open List

/-! ## Taps -/

theorem keyValues_append (code : Nat) (events events' : List InputEvent) :
    keyValues code (events ++ events') = keyValues code events ++ keyValues code events' := by
  simp [keyValues]

variable {down : Bool}

/-- After presses and releases in turn, the last value tells whether the key is down. -/
theorem Taps.last {values : List Int} (h : Taps down values) :
    lastValue values = some 1 ↔ down = true := by
  induction h with
  | untouched => simp [lastValue]
  | press _ _ => simp [lastValue]
  | again _ ih => simpa [lastValue] using ih
  | release _ _ => simp [lastValue]

/-! ## The invariant -/

section Pressed

variable (s : Physical) {code code' : Nat} (down : Bool)

theorem Physical.setPressed_self : (s.setPressed code down).pressed code = down :=
  Function.update_self ..

theorem Physical.setPressed_of_ne (h : code' ≠ code) :
    (s.setPressed code down).pressed code' = s.pressed code' :=
  Function.update_of_ne h ..

theorem Physical.setPressed_roles : (s.setPressed code down).roles = s.roles := rfl

end Pressed

/-- The counters are those of the sources, and what was written for each key alternates. -/
structure FanIn (sources : List Physical) (o : Outputs) : Prop where
  holders : ∀ d code, ((o d).holders code).toNat = sources.countP (Physical.holds d code)
  taps : ∀ d code, Taps ((o d).holders code != 0) (keyValues code (o d).emitted)
  distinct : (sources.map (·.fd)).Nodup

section Invariant

variable {sources sources' others : List Physical} {o o' : Outputs} {s : Physical} {p : Port}
  {d : Device} {code : Nat}

/-- There are fewer sources than the counter can count, since each has a descriptor. -/
theorem FanIn.bounded (h : FanIn sources o) : sources.length < 2 ^ 32 := by
  have hcard := List.Nodup.length_le_card h.distinct
  rw [length_map, Fintype.card_fin] at hcard
  omega

theorem FanIn.perm (h : FanIn sources o) (hperm : sources.Perm sources') : FanIn sources' o where
  holders d code := (h.holders d code).trans (hperm.countP_eq _)
  taps := h.taps
  distinct := (hperm.map _).nodup h.distinct

theorem FanIn.replace {s' : Physical} (h : FanIn (s :: others) o) (hfd : s'.fd = s.fd)
    (hroles : s'.roles = s.roles) (hpressed : s'.pressed = s.pressed) : FanIn (s' :: others) o where
  holders d code := by
    have hholds : s'.holds d code = s.holds d code := by
      rw [Physical.holds, Physical.holds, hroles, hpressed]
    rw [h.holders d code, countP_cons, countP_cons, hholds]
  taps := h.taps
  distinct := by
    have hdistinct := h.distinct
    rw [map_cons] at hdistinct ⊢
    rw [hfd]
    exact hdistinct

variable {event : InputEvent}

theorem FanIn.emit (h : FanIn sources o) (hevent : event.type ≠ evKey)
    (d : Device) : FanIn sources (o.emit d event) := by
  have hsilent : ∀ code, keyValues code [event] = [] := fun code => by
    simp [keyValues, hevent]
  refine ⟨fun d' code => ?_, fun d' code => ?_, h.distinct⟩
  · by_cases hd : d' = d
    · rw [hd, Outputs.emit, Function.update_self]
      exact h.holders d code
    · rw [Outputs.emit, Function.update_of_ne hd]
      exact h.holders d' code
  · by_cases hd : d' = d
    · rw [hd, Outputs.emit, Function.update_self]
      show Taps ((o d).holders code != 0) (keyValues code ((o d).emitted ++ [event]))
      rw [keyValues_append, hsilent code, append_nil]
      exact h.taps d code
    · rw [Outputs.emit, Function.update_of_ne hd]
      exact h.taps d' code

/-- A change of the key `code` of a source with its target, the counter and what is written. -/
theorem FanIn.change {n : UInt32} (events : List InputEvent)
    (h : FanIn (s :: others) o) (htarget : keyTarget s.roles code = some d)
    (hcount : n.toNat = others.countP (Physical.holds d code) + if down then 1 else 0)
    (hevents : ∀ e ∈ events, e.code.toNat = code)
    (htaps : Taps (n != 0) (keyValues code (o d).emitted ++ keyValues code events)) :
    FanIn (s.setPressed code down :: others)
      (Function.update o d { o d with holders := Function.update (o d).holders code n
                                      emitted := (o d).emitted ++ events }) := by
  have hself : (s.setPressed code down).holds d code = down := by
    rw [Physical.holds, Physical.setPressed_roles, htarget, Physical.setPressed_self]
    simp
  -- other keys, and other devices, are as before
  have hother : ∀ d' code', (d', code') ≠ (d, code) →
      (s.setPressed code down).holds d' code' = s.holds d' code' := fun d' code' hne => by
    rw [Physical.holds, Physical.holds, Physical.setPressed_roles]
    by_cases hcode : code' = code
    · have hd : (some d == some d') = false := by
        simpa using fun hd : d = d' => hne (by rw [hd, hcode])
      rw [hcode, htarget, hd, Bool.and_false, Bool.and_false]
    · rw [Physical.setPressed_of_ne s down hcode]
  have hsilent : ∀ code', code' ≠ code → keyValues code' events = [] := fun code' hne => by
    rw [keyValues, map_eq_nil_iff, filter_eq_nil_iff]
    intro e he hkey
    simp only [Bool.and_eq_true, beq_iff_eq] at hkey
    exact hne (hkey.2.symm.trans (hevents e he))
  refine ⟨fun d' code' => ?_, fun d' code' => ?_, h.distinct⟩
  · rw [countP_cons]
    by_cases hd : d' = d
    · rw [hd, Function.update_self]
      by_cases hcode : code' = code
      · rw [hcode, hself]
        show (Function.update (o d).holders code n code).toNat = _
        rw [Function.update_self, hcount]
      · rw [hother d code' fun heq => hcode (Prod.mk.inj heq).2]
        show (Function.update (o d).holders code n code').toNat = _
        rw [Function.update_of_ne hcode, h.holders d code', countP_cons]
    · rw [Function.update_of_ne hd, hother d' code' fun heq => hd (Prod.mk.inj heq).1,
        h.holders d' code', countP_cons]
  · by_cases hd : d' = d
    · rw [hd, Function.update_self]
      show Taps (Function.update (o d).holders code n code' != 0)
        (keyValues code' ((o d).emitted ++ events))
      rw [keyValues_append]
      by_cases hcode : code' = code
      · rw [hcode, Function.update_self]
        exact htaps
      · rw [Function.update_of_ne hcode, hsilent code' hcode, append_nil]
        exact h.taps d code'
    · rw [Function.update_of_ne hd]
      exact h.taps d' code'

end Invariant

/-! ## Keys of one source -/

/-- The invariant while a source is worked on next to the others. -/
def Held (others : List Physical) (p : Port) : Prop := FanIn (p.source :: others) p.outputs

section Keys

variable {others : List Physical} {p : Port} {d : Device} {code : Nat}

theorem keyTarget_lt {roles : UInt32} (h : keyTarget roles code = some d) : code < keyCnt := by
  unfold keyTarget at h
  split at h
  · cases h
  · omega

theorem emitKey_code (h : code < keyCnt) : (UInt16.ofNat code).toNat = code := by
  unfold keyCnt at h
  rw [UInt16.toNat_ofNat']
  omega

theorem keyValues_key (h : code < keyCnt) (value : Int) :
    keyValues code [⟨evKey, UInt16.ofNat code, value⟩] = [value] := by
  simp [keyValues, emitKey_code h]

variable (h : Held others p)

include h

theorem Held.count (htarget : keyTarget p.source.roles code = some d) :
    ((p.outputs d).holders code).toNat =
      others.countP (Physical.holds d code) + if p.source.pressed code then 1 else 0 := by
  have hholds : p.source.holds d code = p.source.pressed code := by
    rw [Physical.holds, htarget]
    simp
  have hcount := h.holders d code
  rw [countP_cons, hholds] at hcount
  exact hcount

theorem Held.others_lt (f : Physical → Bool) : others.countP f + 1 < 2 ^ 32 := by
  have hle : others.countP f ≤ others.length := countP_le_length
  have hlt := h.bounded
  rw [length_cons] at hlt
  omega

variable {n : UInt32}

theorem Held.change_sent {value : Int}
    (htarget : keyTarget p.source.roles code = some d)
    (hcount : n.toNat = others.countP (Physical.holds d code) + if down then 1 else 0)
    (htaps : Taps (n != 0) (keyValues code (p.outputs d).emitted ++ [value])) :
    Held others (Port.sendKey ⟨p.source.setPressed code down, p.outputs.setHolders d code n⟩ d code
      value) := by
  have hcode := keyTarget_lt htarget
  have hchange := FanIn.change [⟨evKey, UInt16.ofNat code, value⟩] h htarget hcount
    (fun e he => by rw [mem_singleton.1 he]; exact emitKey_code hcode)
    (by rw [keyValues_key hcode]; exact htaps)
  have houtputs : (p.outputs.setHolders d code n).emitKey d code value =
      Function.update p.outputs d { p.outputs d with
        holders := Function.update (p.outputs d).holders code n
        emitted := (p.outputs d).emitted ++ [⟨evKey, UInt16.ofNat code, value⟩] } := by
    rw [Outputs.emitKey, Outputs.emit, Outputs.setHolders, Function.update_self,
      Function.update_idem]
  show FanIn _ _
  rw [Port.sendKey, houtputs]
  refine hchange.replace ?_ ?_ ?_ <;> cases d <;> rfl

theorem Held.change_silent
    (htarget : keyTarget p.source.roles code = some d)
    (hcount : n.toNat = others.countP (Physical.holds d code) + if down then 1 else 0)
    (htaps : Taps (n != 0) (keyValues code (p.outputs d).emitted)) :
    Held others ⟨p.source.setPressed code down, p.outputs.setHolders d code n⟩ := by
  have hchange := FanIn.change [] h htarget hcount (forall_mem_nil _)
    (by rw [show keyValues code [] = [] from rfl, append_nil]; exact htaps)
  rw [append_nil] at hchange
  exact hchange

omit h in
theorem bne_zero_of_pos (h : 0 < n.toNat) : (n != 0) = true := by
  rw [bne_iff_ne]
  rintro rfl
  exact absurd h (Nat.lt_irrefl 0)

theorem held_repeat (htarget : keyTarget p.source.roles code = some d)
    (hpressed : p.source.pressed code = true) : Held others (p.sendKey d code 2) := by
  have hcount := h.count htarget
  rw [hpressed, if_pos rfl] at hcount
  have hpos : 0 < ((p.outputs d).holders code).toNat := by omega
  have hdown := bne_zero_of_pos hpos
  have htaps := h.taps d code
  rw [hdown] at htaps
  have hsent : Held others (Port.sendKey ⟨p.source.setPressed code true,
      p.outputs.setHolders d code ((p.outputs d).holders code)⟩ d code 2) :=
    h.change_sent htarget hcount (by rw [hdown]; exact htaps.again)
  have hsource : p.source.setPressed code true = p.source := by
    rw [Physical.setPressed, ← hpressed, Function.update_eq_self]
  have houtputs : p.outputs.setHolders d code ((p.outputs d).holders code) = p.outputs := by
    rw [Outputs.setHolders, Function.update_eq_self, Function.update_eq_self]
  rw [hsource, houtputs] at hsent
  exact hsent

theorem held_press (htarget : keyTarget p.source.roles code = some d)
    (hpressed : p.source.pressed code = false) :
    Held others (p.changeTarget d code 1) := by
  have hcount := h.count htarget
  rw [hpressed] at hcount
  have hlt := h.others_lt (Physical.holds d code)
  have hnext : ((p.outputs d).holders code + 1).toNat =
      others.countP (Physical.holds d code) + 1 := by
    rw [UInt32.toNat_add, hcount]
    exact Nat.mod_eq_of_lt hlt
  have hdown : ((p.outputs d).holders code + 1 != 0) = true := bne_zero_of_pos (by omega)
  have htaps := h.taps d code
  unfold Port.changeTarget
  simp only [hpressed, if_neg (by decide : ¬(1 : Int) = 2), and_self, if_true]
  split
  case isTrue hzero =>
    refine h.change_sent htarget hnext ?_
    rw [hzero] at htaps
    rw [hdown]
    exact htaps.press
  case isFalse hpos =>
    refine h.change_silent htarget hnext ?_
    rw [bne_iff_ne.2 hpos] at htaps
    rw [hdown]
    exact htaps

theorem held_release (htarget : keyTarget p.source.roles code = some d)
    (hpressed : p.source.pressed code = true) :
    Held others (p.changeTarget d code 0) := by
  have hcount := h.count htarget
  rw [hpressed, if_pos rfl] at hcount
  have hpos : 0 < ((p.outputs d).holders code).toNat := by omega
  have hdown := bne_zero_of_pos hpos
  have hnext : ((p.outputs d).holders code - 1).toNat =
      others.countP (Physical.holds d code) + 0 := by
    have hle : (1 : UInt32) ≤ (p.outputs d).holders code := UInt32.le_iff_toNat_le.2 hpos
    rw [UInt32.toNat_sub_of_le _ _ hle, hcount]
    rfl
  have htaps := h.taps d code
  rw [hdown] at htaps
  unfold Port.changeTarget
  simp only [hpressed, if_neg (by decide : ¬(0 : Int) = 2), and_self, if_true]
  rw [if_neg (by decide : ¬((0 : Int) = 1 ∧ true = false))]
  split
  case isTrue hzero =>
    refine h.change_sent htarget hnext ?_
    rw [hzero]
    exact htaps.release
  case isFalse hne =>
    refine h.change_silent htarget hnext ?_
    rw [bne_iff_ne.2 hne]
    exact htaps

/-- A key event of a source keeps the invariant, whatever its code and value. -/
theorem held_changeKey (code : Nat) (value : Int) : Held others (p.changeKey code value) := by
  unfold Port.changeKey
  split
  case h_1 => exact h
  case h_2 d htarget =>
    by_cases hpress : value = 1 ∧ p.source.pressed code = false
    · rw [hpress.1]
      exact held_press h htarget hpress.2
    by_cases hrelease : value = 0 ∧ p.source.pressed code = true
    · rw [hrelease.1]
      exact held_release h htarget hrelease.2
    unfold Port.changeTarget
    simp only [if_neg hpress, if_neg hrelease]
    split
    · split
      case isTrue hheld => exact held_repeat h htarget (Bool.and_eq_true_iff.1 hheld).1
      case isFalse => exact h
    · exact h

end Keys

/-! ## Frames and batches -/

section Frames

variable {others : List Physical} {p : Port} (h : Held others p)

include h

theorem Held.emit (hevent : event.type ≠ evKey)
    (d : Device) : Held others ⟨p.source, p.outputs.emit d event⟩ :=
  FanIn.emit h hevent d

theorem Held.replace {s : Physical} (hfd : s.fd = p.source.fd)
    (hroles : s.roles = p.source.roles) (hpressed : s.pressed = p.source.pressed) :
    Held others ⟨s, p.outputs⟩ :=
  FanIn.replace h hfd hroles hpressed

theorem held_foldl {f : Port → Nat → Port} (hf : ∀ p code, Held others p → Held others (f p code))
    (codes : List Nat) : Held others (codes.foldl f p) := by
  induction codes generalizing p with
  | nil => exact h
  | cons code codes ih => exact ih (hf p code h)

theorem held_flushFrame : Held others p.flushFrame := by
  have hsync : evSyn ≠ evKey := by decide
  have hmouse : Held others ⟨p.source,
      if p.source.pendingMouse then p.outputs.emitSync .mouse else p.outputs⟩ := by
    split
    · exact h.emit hsync .mouse
    · exact h
  have hboth : Held others ⟨p.source,
      if p.source.pendingKeyboard then Outputs.emitSync (if p.source.pendingMouse then
        p.outputs.emitSync .mouse else p.outputs) .keyboard
      else if p.source.pendingMouse then p.outputs.emitSync .mouse else p.outputs⟩ := by
    split
    · exact hmouse.emit hsync .keyboard
    · exact hmouse
  exact hboth.replace rfl rfl rfl

theorem held_reconcileKeyBits (bits : List UInt8) : Held others (p.reconcileKeyBits bits) := by
  refine held_foldl h (fun p code h => ?_) _
  unfold Port.reconcileKey
  split
  · exact h
  split
  · exact held_changeKey h code _
  · exact h

theorem held_passEvent (hevent : event.type ≠ evKey)
    (d : Device) : Held others (p.passEvent d event) := by
  have hemit := h.emit hevent d
  cases d with
  | mouse => exact hemit.replace rfl rfl rfl
  | keyboard => exact hemit.replace rfl rfl rfl

theorem held_forwardData (event : InputEvent) : Held others (p.forwardData event) := by
  unfold Port.forwardData
  split
  case isTrue => exact held_changeKey h _ _
  case isFalse hkey =>
    split
    · exact held_passEvent h hkey .mouse
    split
    case isTrue =>
      have hmouse : Held others (if hasFlag p.source.roles roleMouse then p.passEvent .mouse event
          else p) := by
        split
        · exact held_passEvent h hkey .mouse
        · exact h
      dsimp only
      generalize (if hasFlag p.source.roles roleMouse then p.passEvent .mouse event else p) = q
        at hmouse ⊢
      split
      · exact held_passEvent hmouse hkey .keyboard
      · exact hmouse
    case isFalse => exact h

theorem held_endDropping : Held others p.endDropping :=
  held_flushFrame (h.replace rfl rfl rfl)

theorem held_forwardReport (keys : Option (List UInt8)) : Held others (p.forwardReport keys).2 := by
  unfold Port.forwardReport
  split
  · cases keys with
    | none => exact h
    | some bits => exact held_endDropping (held_reconcileKeyBits h bits)
  · exact held_flushFrame h

theorem held_forwardEvent (event : InputEvent) (keys : Option (List UInt8)) :
    Held others (p.forwardEvent event keys).2 := by
  unfold Port.forwardEvent
  split
  · exact h.replace rfl rfl rfl
  split
  · exact held_forwardReport h keys
  split
  · exact h
  · exact held_forwardData h event

theorem held_forwardAll (drained : Bool) (events : List (InputEvent × Option (List UInt8))) :
    Held others (Port.forwardAll drained events p).2 := by
  induction events generalizing p with
  | nil => exact h
  | cons item events ih =>
    obtain ⟨event, keys⟩ := item
    have hevent := held_forwardEvent h event keys
    unfold Port.forwardAll
    split
    case h_1 q hq =>
      rw [hq] at hevent
      exact ih hevent
    case h_2 q hq =>
      rw [hq] at hevent
      exact hevent

theorem held_forwardEvents (revents : Revents)
    (events : List (InputEvent × Option (List UInt8))) (drained : Bool) :
    Held others (p.forwardEvents revents events drained).2 := by
  unfold Port.forwardEvents
  split
  · exact h
  split
  · exact h
  · exact held_forwardAll h drained events

end Frames

/-! ## A source goes away -/

section Leaving

variable {others : List Physical} {p : Port} {code : Nat} {d : Device}

/-- A release takes back at most what the source held, and the key itself. -/
theorem holds_changeKey_release {code' : Nat}
    (hholds : (p.changeKey code 0).source.holds d code' = true) :
    p.source.holds d code' = true ∧ (p.source.pressed code = true → code' ≠ code) := by
  unfold Port.changeKey at hholds
  split at hholds
  case h_1 hnone =>
    refine ⟨hholds, ?_⟩
    rintro - rfl
    rw [Physical.holds, hnone] at hholds
    simp at hholds
  case h_2 d' htarget =>
    by_cases hpressed : p.source.pressed code = true
    · -- the source is the old one without the key, but for the pending flags
      have hsource : (p.changeTarget d' code 0).source.holds d code' =
          (p.source.setPressed code false).holds d code' := by
        unfold Port.changeTarget
        simp only [hpressed, if_neg (by decide : ¬(0 : Int) = 2),
          if_neg (by decide : ¬((0 : Int) = 1 ∧ true = false)), and_self, if_true]
        split
        · cases d' <;> rfl
        · rfl
      rw [hsource, Physical.holds, Physical.setPressed_roles] at hholds
      have hne : code' ≠ code := by
        rintro rfl
        rw [Physical.setPressed_self, Bool.false_and] at hholds
        cases hholds
      rw [Physical.setPressed_of_ne _ _ hne] at hholds
      exact ⟨hholds, fun _ => hne⟩
    · have hsame : p.changeTarget d' code 0 = p := by
        unfold Port.changeTarget
        simp [hpressed]
      rw [hsame] at hholds
      exact ⟨hholds, fun h => absurd h hpressed⟩

theorem holds_releaseKey {code' : Nat} (hholds : (p.releaseKey code).source.holds d code' = true) :
    p.source.holds d code' = true ∧ code' ≠ code := by
  unfold Port.releaseKey at hholds
  split at hholds
  case isTrue hpressed =>
    obtain ⟨hbefore, hne⟩ := holds_changeKey_release hholds
    exact ⟨hbefore, hne hpressed⟩
  case isFalse hpressed =>
    refine ⟨hholds, ?_⟩
    rintro rfl
    rw [Physical.holds, Bool.and_eq_true] at hholds
    exact hpressed hholds.1

theorem holds_releaseAll (codes : List Nat)
    (hholds : (codes.foldl Port.releaseKey p).source.holds d code = true) :
    p.source.holds d code = true ∧ code ∉ codes := by
  induction codes generalizing p with
  | nil => exact ⟨hholds, not_mem_nil⟩
  | cons code' codes ih =>
    obtain ⟨hone, hnotin⟩ := ih hholds
    obtain ⟨hbefore, hne⟩ := holds_releaseKey hone
    exact ⟨hbefore, not_mem_cons_of_ne_of_not_mem hne hnotin⟩

theorem held_releaseKey (h : Held others p) (code : Nat) : Held others (p.releaseKey code) := by
  unfold Port.releaseKey
  split
  · exact held_changeKey h code 0
  · exact h

theorem Held.leave (h : Held others p) (hnone : ∀ d code, p.source.holds d code = false) :
    FanIn others p.outputs := by
  refine ⟨fun d code => ?_, h.taps, (nodup_cons.1 h.distinct).2⟩
  rw [h.holders d code, countP_cons, hnone d code]
  rfl

theorem holds_flushFrame (p : Port) (d : Device) (code : Nat) :
    p.flushFrame.source.holds d code = p.source.holds d code := rfl

/-- What a source held is let go when it leaves. -/
theorem fanIn_letGo (h : Held others p) : FanIn others p.letGo.outputs := by
  unfold Port.letGo
  refine Held.leave (held_flushFrame (held_foldl h (fun p code h => held_releaseKey h code) _)) ?_
  intro d code
  rw [holds_flushFrame]
  by_contra hholds
  obtain ⟨hbefore, hnotin⟩ := holds_releaseAll _ (Bool.eq_true_of_not_eq_false hholds)
  rw [Physical.holds, Bool.and_eq_true, beq_iff_eq] at hbefore
  exact hnotin (mem_range.2 (keyTarget_lt hbefore.2))

end Leaving

/-! ## The bridge -/

section Bridge

variable {b : Bridge}

/-- The invariant of the bridge. -/
def Bridge.FansIn (b : Bridge) : Prop := FanIn b.sources b.outputs

variable {o : Outputs}

theorem fansIn_mk {sources : List Physical} {ended : Bool} (h : FanIn sources o) :
    Bridge.FansIn ⟨sources, o, ended⟩ := h

theorem fansIn_scanPath (h : b.FansIn) (c : Candidate) : (b.scanPath c).FansIn := by
  unfold Bridge.scanPath
  split
  · exact h
  split
  case h_2 => exact h
  case h_1 fd bus name _ _ =>
    dsimp only
    split
    case isFalse => exact h
    case isTrue hnew =>
      simp only [Bool.and_eq_true, Bool.not_eq_true', any_eq_false, beq_iff_eq] at hnew
      refine ⟨fun d code => ?_, h.taps, ?_⟩
      · rw [h.holders d code, countP_append]
        rfl
      · rw [map_append]
        refine List.Nodup.append h.distinct (nodup_singleton _) ?_
        intro fd' hold hnew'
        obtain ⟨s, hs, rfl⟩ := mem_map.1 hold
        exact hnew.2 s hs (mem_singleton.1 hnew')

theorem fansIn_scanPhysical (h : b.FansIn) (found : List Candidate) :
    (b.scanPhysical found).FansIn := by
  unfold Bridge.scanPhysical
  induction found generalizing b with
  | nil => exact h
  | cons c found ih => exact ih (fansIn_scanPath h c)

theorem Bridge.FansIn.held {i : Nat} {s : Physical} (h : b.FansIn) (hs : b.sources[i]? = some s) :
    Held (b.sources.eraseIdx i) ⟨s, b.outputs⟩ := by
  obtain ⟨hi, rfl⟩ := List.getElem?_eq_some_iff.1 hs
  exact h.perm (getElem_cons_eraseIdx_perm hi).symm

theorem fansIn_forward (h : b.FansIn) (i : Nat) (revents : Revents)
    (events : List (InputEvent × Option (List UInt8))) (drained : Bool) :
    (b.forward i revents events drained).2.FansIn := by
  unfold Bridge.forward
  split
  · exact h
  case h_2 s hs =>
    have hheld := held_forwardEvents (h.held hs) revents events drained
    have hi : i < b.sources.length := (List.getElem?_eq_some_iff.1 hs).1
    exact FanIn.perm hheld (set_perm_cons_eraseIdx hi _).symm

theorem fansIn_disconnect (h : b.FansIn) (i : Nat) : (b.disconnectPhysical i).FansIn := by
  unfold Bridge.disconnectPhysical
  split
  · exact h
  case h_2 s hs =>
    exact fansIn_mk (fanIn_letGo (h.held hs))

theorem fansIn_disconnectAll (n : Nat) (h : b.FansIn) : (Bridge.disconnectAll n b).FansIn := by
  induction n generalizing b with
  | zero => exact h
  | succ n ih => exact ih (fansIn_disconnect h n)

theorem disconnectAll_sources (n : Nat) (hn : b.sources.length = n) :
    (Bridge.disconnectAll n b).sources = [] := by
  induction n generalizing b with
  | zero => exact length_eq_zero_iff.1 hn
  | succ n ih =>
    refine ih ?_
    have hlt : n < b.sources.length := by omega
    have hsome : b.sources[n]? = some b.sources[n] := getElem?_eq_getElem hlt
    have hsources : (b.disconnectPhysical n).sources = b.sources.eraseIdx n := by
      unfold Bridge.disconnectPhysical
      rw [hsome]
    rw [hsources, length_eraseIdx_of_lt hlt, hn]
    rfl

theorem holders_zero (h : FanIn [] o) (d : Device) (code : Nat) : (o d).holders code = 0 := by
  have hcount := h.holders d code
  rw [countP_nil] at hcount
  exact UInt32.toNat_inj.1 hcount

theorem releaseKeys_idle (h : FanIn [] o) (d : Device) : o.releaseKeys d = o := by
  have hloop : ∀ codes : List Nat,
      codes.foldl (Outputs.releaseKey d) (false, o) = (false, o) := fun codes => by
    induction codes with
    | nil => rfl
    | cons code codes ih =>
      have hone : Outputs.releaseKey d (false, o) code = (false, o) := by
        rw [Outputs.releaseKey, holders_zero h d code]
        rfl
      rw [foldl_cons, hone]
      exact ih
  rw [Outputs.releaseKeys, hloop]
  rfl

theorem fanIn_destroyVirtual (h : FanIn [] o) (d : Device) : FanIn [] (o.destroyVirtual d) := by
  unfold Outputs.destroyVirtual
  split
  · rw [releaseKeys_idle h d]
    refine ⟨fun d' code => ?_, fun d' code => ?_, h.distinct⟩
    · by_cases hd : d' = d
      · rw [hd, Function.update_self]
        exact h.holders d code
      · rw [Function.update_of_ne hd]
        exact h.holders d' code
    · by_cases hd : d' = d
      · rw [hd, Function.update_self]
        exact h.taps d code
      · rw [Function.update_of_ne hd]
        exact h.taps d' code
  · exact h

theorem fansIn_finish (h : b.FansIn) : b.finish.FansIn := by
  have hall := fansIn_disconnectAll b.sources.length h
  have hnone := disconnectAll_sources b.sources.length rfl
  unfold Bridge.finish
  generalize Bridge.disconnectAll b.sources.length b = b' at hall hnone ⊢
  rw [Bridge.FansIn, hnone] at hall
  have hdestroyed := fanIn_destroyVirtual (fanIn_destroyVirtual hall .keyboard) .mouse
  show FanIn b'.sources _
  rw [hnone]
  exact hdestroyed

/-- A move keeps the counts of the keys. -/
theorem fansIn_step (h : b.FansIn) (m : Bridge.Move) : (b.step m).FansIn := by
  unfold Bridge.step
  split
  · exact h
  cases m with
  | scan found => exact fansIn_scanPhysical h found
  | forward i revents events drained => exact fansIn_forward h i revents events drained
  | disconnect i => exact fansIn_disconnect h i
  | finish => exact fansIn_finish h

theorem fansIn_start (hiresWheel hiresHwheel : Bool) :
    (Bridge.start hiresWheel hiresHwheel).FansIn := by
  refine ⟨fun d code => ?_, fun d code => ?_, nodup_nil⟩
  · cases d <;> rfl
  · cases d <;> exact .untouched

/-- The counts are right after every run. -/
theorem fansIn_run (hiresWheel hiresHwheel : Bool) (moves : List Bridge.Move) :
    (Bridge.run hiresWheel hiresHwheel moves).FansIn := by
  have hfold : ∀ (moves : List Bridge.Move) {b : Bridge}, b.FansIn →
      (moves.foldl Bridge.step b).FansIn := fun moves => by
    induction moves with
    | nil => exact fun h => h
    | cons m moves ih => exact fun h => ih (fansIn_step h m)
  exact hfold moves (fansIn_start hiresWheel hiresHwheel)

end Bridge

/-- In every run of the bridge, the counter of a virtual key is the number of sources that hold it.
    What is written for the key are presses and releases in turn with repeats in between, and it is
    down exactly while the counter is not zero. Without sources no key is down. -/
theorem held_keys (hiresWheel hiresHwheel : Bool) (moves : List Bridge.Move) (d : Device)
    (code : Nat) :
    let b := Bridge.run hiresWheel hiresHwheel moves
    let held := (b.outputs d).holders code
    let values := keyValues code (b.outputs d).emitted
    held.toNat = b.sources.countP (Physical.holds d code) ∧ Taps (held != 0) values ∧
      (lastValue values = some 1 ↔ 0 < held) ∧
      (b.sources = [] → Taps false values ∧ lastValue values ≠ some 1) := by
  have h := fansIn_run hiresWheel hiresHwheel moves
  have htaps := h.taps d code
  have hpos : ∀ n : UInt32, (n != 0) = true ↔ 0 < n := fun n => by
    rw [bne_iff_ne, UInt32.lt_iff_toNat_lt, ne_eq, ← UInt32.toNat_inj, UInt32.toNat_zero]
    omega
  refine ⟨h.holders d code, htaps, htaps.last.trans (hpos _), fun hnone => ?_⟩
  rw [Bridge.FansIn, hnone] at h
  rw [holders_zero h d code] at htaps
  exact ⟨htaps, fun hlast => absurd (htaps.last.1 hlast) (by decide)⟩

end HdmiLos.Input
