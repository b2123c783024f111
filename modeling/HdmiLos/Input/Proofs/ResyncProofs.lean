import HdmiLos.Input.Resync
import HdmiLos.Input.Proofs.BridgeProofs

/-!
# After a dropped frame the bridge agrees with the kernel again

The keys of a source are brought to a wanted state one by one, both when the kernel says which are
down and when the source goes away. What one key does is said once, for both; over all the codes it
gives the edges of the keys that some source holds. The flags of the pending frames are right because
each event that is sent sets the flag of its device.
-/

namespace HdmiLos.Input

open List

/-- The flag of the device. -/
def Physical.pending (s : Physical) : Device → Bool
  | .mouse => s.pendingMouse
  | .keyboard => s.pendingKeyboard

/-- The source, or one of the others, holds the key. -/
def Port.holding (others : List Physical) (p : Port) (d : Device) (code : Nat) : Bool :=
  p.source.holds d code || others.any (Physical.holds d code)

/-! ## Writes and flags -/

section Writes

variable {o : Outputs} {d d' : Device} {event : InputEvent} {code : Nat}

theorem emit_emitted :
    (o.emit d event d').emitted = (o d').emitted ++ if d' = d then [event] else [] := by
  unfold Outputs.emit
  by_cases hd : d' = d
  · subst hd
    rw [Function.update_self, if_pos rfl]
  · rw [Function.update_of_ne hd, if_neg hd, append_nil]

theorem setHolders_emitted (n : UInt32) : (o.setHolders d code n d').emitted = (o d').emitted := by
  unfold Outputs.setHolders
  by_cases hd : d' = d
  · subst hd
    rw [Function.update_self]
  · rw [Function.update_of_ne hd]

theorem setPending_pending (s : Physical) :
    (s.setPending d).pending d' = (s.pending d' || decide (d' = d)) := by
  cases d <;> cases d' <;> simp [Physical.setPending, Physical.pending]

theorem flushFrame_emitted (p : Port) (d : Device) :
    (p.flushFrame.outputs d).emitted = (p.outputs d).emitted ++
      if p.source.pending d then [{ type := evSyn, code := synReport }] else [] := by
  unfold Port.flushFrame Outputs.emitSync
  cases d <;> cases hm : p.source.pendingMouse <;> cases hk : p.source.pendingKeyboard <;>
    simp [emit_emitted, Physical.pending, hm, hk]

theorem flushFrame_pending (p : Port) (d : Device) : p.flushFrame.source.pending d = false := by
  cases d <;> rfl

end Writes

/-! ## One key -/

/-- The event of one key, when it is one. -/
def edge (before after : Bool) (code : Nat) : List InputEvent :=
  if before != after then
    [{ type := evKey, code := UInt16.ofNat code, value := if after then 1 else 0 }]
  else []

/-- The key `code` of the source is brought to `down`, if it has a target. -/
structure Brought (others : List Physical) (code : Nat) (down : Bool) (p p' : Port) : Prop where
  held : Held others p'
  roles : p'.source.roles = p.source.roles
  dropping : p'.source.dropping = p.source.dropping
  pressed : ∀ code', p'.source.pressed code' =
    if code' = code ∧ (keyTarget p.source.roles code).isSome then down else p.source.pressed code'
  emitted : ∀ d, (p'.outputs d).emitted = (p.outputs d).emitted ++
    edge (p.holding others d code) (p'.holding others d code) code
  pending : ∀ d, p'.source.pending d =
    (p.source.pending d || (p.holding others d code != p'.holding others d code))

section OneKey

variable {others : List Physical} {p : Port} {d : Device} {code : Nat} {down : Bool}

theorem Brought.same (h : Held others p)
    (hdown : (keyTarget p.source.roles code).isSome → p.source.pressed code = down) :
    Brought others code down p p where
  held := h
  roles := rfl
  dropping := rfl
  pressed code' := by
    split
    case isTrue hcode =>
      rw [hcode.1]
      exact hdown hcode.2
    case isFalse => rfl
  emitted d := by
    rw [edge, bne_self_eq_false, if_neg Bool.false_ne_true, append_nil]
  pending d := by
    rw [bne_self_eq_false, Bool.or_false]

theorem holds_target (s : Physical) (htarget : keyTarget s.roles code = some d) (d' : Device) :
    s.holds d' code = (s.pressed code && decide (d' = d)) := by
  rw [Physical.holds, htarget]
  cases d <;> cases d' <;> simp

theorem others_any (n : Nat) (hn : n = others.countP (Physical.holds d code)) :
    others.any (Physical.holds d code) = decide (n ≠ 0) := by
  rw [hn, Bool.eq_iff_iff, any_eq_true, decide_eq_true_iff, ne_eq, countP_eq_zero]
  simp

/-- The counter goes to `n` and the key to `down`. An event is sent if no other source has the
    key. -/
theorem brought_target {n : UInt32} {p' : Port} (h : Held others p')
    (htarget : keyTarget p.source.roles code = some d) (hpressed : p.source.pressed code ≠ down)
    (hp' : p' = if others.any (Physical.holds d code) then
        ⟨p.source.setPressed code down, p.outputs.setHolders d code n⟩
      else Port.sendKey ⟨p.source.setPressed code down, p.outputs.setHolders d code n⟩ d code
        (if down then 1 else 0)) :
    Brought others code down p p' := by
  have hroles : p'.source.roles = p.source.roles := by
    rw [hp']
    split
    · rfl
    · cases d <;> rfl
  have hsource : p'.source.pressed = Function.update p.source.pressed code down := by
    rw [hp']
    split
    · rfl
    · cases d <;> rfl
  have hbefore : p.source.pressed code = !down := by
    cases down <;> simpa using hpressed
  -- the device of the key goes from the one state to the other unless another source has the key
  have hholding : ∀ d', (p.holding others d' code != p'.holding others d' code) =
      (decide (d' = d) && !others.any (Physical.holds d code)) := by
    intro d'
    unfold Port.holding
    rw [holds_target _ htarget, holds_target _ (hroles ▸ htarget), hsource, Function.update_self,
      hbefore]
    by_cases hd : d' = d
    · subst hd
      cases down <;> cases others.any (Physical.holds d' code) <;> simp
    · simp [hd]
  have hafter : others.any (Physical.holds d code) = false → p'.holding others d code = down := by
    intro hnone
    unfold Port.holding
    rw [holds_target _ (hroles ▸ htarget), hsource, Function.update_self, hnone]
    simp
  refine ⟨h, hroles, ?_, ?_, ?_, ?_⟩
  · rw [hp']
    split
    · rfl
    · cases d <;> rfl
  · intro code'
    rw [hsource, htarget]
    by_cases hcode : code' = code
    · subst hcode
      rw [Function.update_self, if_pos ⟨rfl, rfl⟩]
    · rw [Function.update_of_ne hcode, if_neg (fun hc => hcode hc.1)]
  · intro d'
    rw [edge, hholding]
    by_cases hany : others.any (Physical.holds d code) = true
    · rw [hp', if_pos hany, hany]
      simp [setHolders_emitted]
    · rw [Bool.not_eq_true] at hany
      rw [hany]
      by_cases hd : d' = d
      · subst hd
        rw [hafter hany, hp', hany]
        simp [Port.sendKey, Outputs.emitKey, emit_emitted, setHolders_emitted]
      · rw [hp', hany]
        simp [Port.sendKey, Outputs.emitKey, emit_emitted, setHolders_emitted, hd]
  · intro d'
    rw [hholding, hp']
    by_cases hany : others.any (Physical.holds d code) = true
    · rw [if_pos hany, hany]
      cases d' <;> simp [Physical.pending, Physical.setPressed]
    · rw [if_neg hany, Bool.eq_false_iff.2 hany, Port.sendKey, setPending_pending]
      cases d' <;> simp [Physical.pending, Physical.setPressed]

/-- `change_key` at a key that is not as wanted. -/
theorem brought_changeKey (h : Held others p)
    (hpressed : (keyTarget p.source.roles code).isSome → p.source.pressed code ≠ down) :
    Brought others code down p (p.changeKey code (if down then 1 else 0)) := by
  have hheld := held_changeKey h code (if down then 1 else 0)
  unfold Port.changeKey at hheld ⊢
  cases htarget : keyTarget p.source.roles code with
  | none =>
    refine Brought.same h ?_
    intro hsome
    rw [htarget] at hsome
    cases hsome
  | some d =>
    rw [htarget] at hheld hpressed
    have hne := hpressed rfl
    have hcount := h.count htarget
    cases down with
    | true =>
      have hup := Bool.eq_false_iff.2 hne
      rw [hup, if_neg Bool.false_ne_true, Nat.add_zero] at hcount
      have hany := others_any _ hcount
      refine brought_target (n := (p.outputs d).holders code + 1) hheld htarget hne ?_
      have hzero : ((p.outputs d).holders code).toNat ≠ 0 ↔ ¬(p.outputs d).holders code = 0 := by
        rw [← UInt32.toNat_inj, UInt32.toNat_zero]
      unfold Port.changeTarget
      rw [hany]
      by_cases hheld' : (p.outputs d).holders code = 0
      · simp [hup, hheld']
      · simp [hup, hheld', hzero]
    | false =>
      have hdown := Bool.ne_false_iff.1 hne
      rw [hdown, if_pos rfl] at hcount
      have hle : (1 : UInt32) ≤ (p.outputs d).holders code := by
        rw [UInt32.le_iff_toNat_le, hcount]
        exact Nat.le_add_left 1 _
      have hless : ((p.outputs d).holders code - 1).toNat =
          others.countP (Physical.holds d code) := by
        rw [UInt32.toNat_sub_of_le _ _ hle, hcount]
        rfl
      have hany := others_any _ hless
      refine brought_target (n := (p.outputs d).holders code - 1) hheld htarget hne ?_
      have hzero : ((p.outputs d).holders code - 1).toNat ≠ 0 ↔
          ¬(p.outputs d).holders code - 1 = 0 := by
        rw [← UInt32.toNat_inj, UInt32.toNat_zero]
      unfold Port.changeTarget
      rw [hany]
      by_cases hheld' : (p.outputs d).holders code - 1 = 0
      · simp [hdown, hheld']
      · simp [hdown, hheld', hzero]

theorem brought_reconcileKey (h : Held others p) (bits : List UInt8) (code : Nat) :
    Brought others code (Port.keyBit bits code) p (p.reconcileKey bits code) := by
  unfold Port.reconcileKey
  split
  case isTrue hnone =>
    refine Brought.same h ?_
    intro hsome
    rw [Option.isNone_iff_eq_none] at hnone
    rw [hnone] at hsome
    cases hsome
  case isFalse =>
    split
    case isTrue hne =>
      exact brought_changeKey h (fun _ => (bne_iff_ne.1 hne).symm)
    case isFalse heq =>
      exact Brought.same h (fun _ => (by simpa using heq : _ = _).symm)

theorem brought_releaseKey (h : Held others p) (code : Nat) :
    Brought others code false p (p.releaseKey code) := by
  unfold Port.releaseKey
  split
  case isTrue hdown => exact brought_changeKey h (fun _ => by rw [hdown]; decide)
  case isFalse hup => exact Brought.same h (fun _ => Bool.eq_false_iff.2 hup)

end OneKey

/-! ## All keys -/

/-- The keys in `codes` of the source are brought to what is wanted. -/
structure BroughtAll (others : List Physical) (codes : List Nat) (want : Nat → Bool)
    (p p' : Port) : Prop where
  held : Held others p'
  roles : p'.source.roles = p.source.roles
  dropping : p'.source.dropping = p.source.dropping
  pressed : ∀ code, p'.source.pressed code =
    if code ∈ codes ∧ (keyTarget p.source.roles code).isSome then want code
    else p.source.pressed code
  emitted : ∀ d, (p'.outputs d).emitted = (p.outputs d).emitted ++
    edges codes (p.holding others d) (p'.holding others d)
  pending : ∀ d, p'.source.pending d =
    (p.source.pending d || decide (edges codes (p.holding others d) (p'.holding others d) ≠ []))

variable {want : Nat → Bool}

section AllKeys

variable {others : List Physical} {p p' : Port} {d : Device} {code : Nat}

theorem edges_cons (before after : Nat → Bool) (codes : List Nat) :
    edges (code :: codes) before after =
      edge (before code) (after code) code ++ edges codes before after := by
  unfold edges edge
  rw [filter_cons]
  split
  · rw [map_cons, singleton_append]
  · rw [nil_append]

theorem edges_congr {codes : List Nat} {before before' after : Nat → Bool}
    (h : ∀ code ∈ codes, before code = before' code) :
    edges codes before after = edges codes before' after := by
  unfold edges
  rw [filter_congr fun code hcode => by rw [h code hcode]]

theorem edge_ne_nil (before after : Bool) :
    (edge before after code ≠ []) ↔ (before != after) = true := by
  unfold edge
  split
  case isTrue h => simp [h]
  case isFalse h => simp [h]

theorem holding_congr (hroles : p'.source.roles = p.source.roles)
    (hpressed : p'.source.pressed code = p.source.pressed code) :
    p'.holding others d code = p.holding others d code := by
  unfold Port.holding Physical.holds
  rw [hroles, hpressed]

/-- The loops over the codes, by what one key does. Each code comes once, so what was done to a key
    stays as it is. -/
theorem broughtAll_foldl {f : Port → Nat → Port}
    (hf : ∀ p code, Held others p → Brought others code (want code) p (f p code))
    (codes : List Nat) (hnodup : codes.Nodup) (h : Held others p) :
    BroughtAll others codes want p (codes.foldl f p) := by
  induction codes generalizing p with
  | nil =>
    refine ⟨h, rfl, rfl, ?_, ?_, ?_⟩
    · intro code
      rw [if_neg (fun hc => not_mem_nil hc.1)]
      rfl
    · exact fun d => (append_nil _).symm
    · exact fun d => (Bool.or_false _).symm
  | cons code codes ih =>
    obtain ⟨hnot, hnodup⟩ := nodup_cons.1 hnodup
    have hone := hf p code h
    have hrest := ih hnodup hone.held
    have hroles := hrest.roles.trans hone.roles
    rw [foldl_cons]
    -- the key itself is not touched again, and the others were not touched by it
    have hself : ∀ d, (codes.foldl f (f p code)).holding others d code =
        (f p code).holding others d code := by
      intro d
      refine holding_congr hrest.roles ?_
      rw [hrest.pressed, if_neg (fun hc => hnot hc.1)]
    have hother : ∀ d, ∀ code' ∈ codes, (f p code).holding others d code' =
        p.holding others d code' := by
      intro d code' hmem
      refine holding_congr hone.roles ?_
      rw [hone.pressed, if_neg]
      rintro ⟨rfl, -⟩
      exact hnot hmem
    refine ⟨hrest.held, hroles, hrest.dropping.trans hone.dropping, ?_, ?_, ?_⟩
    · intro code'
      rw [hrest.pressed, hone.pressed, hone.roles]
      by_cases hcode : code' = code
      · subst hcode
        simp [hnot]
      · simp [hcode]
    · intro d
      rw [hrest.emitted, hone.emitted, edges_cons, hself, edges_congr (hother d), append_assoc]
    · intro d
      rw [hrest.pending, hone.pending, edges_cons, hself, edges_congr (hother d), Bool.or_assoc,
        Bool.eq_iff_iff]
      simp only [Bool.or_eq_true, decide_eq_true_eq, ne_eq, append_eq_nil_iff,
        not_and_or, edge_ne_nil]

theorem broughtAll_reconcileKeyBits (h : Held others p) (bits : List UInt8) :
    BroughtAll others (range keyCnt) (Port.keyBit bits) p (p.reconcileKeyBits bits) :=
  broughtAll_foldl (fun _ code h => brought_reconcileKey h bits code) _ nodup_range h

theorem broughtAll_releaseKeys (h : Held others p) :
    BroughtAll others (range keyCnt) (fun _ => false) p
      ((range keyCnt).foldl Port.releaseKey p) :=
  broughtAll_foldl (fun _ code h => brought_releaseKey h code) _ nodup_range h

theorem BroughtAll.flushed {s : Physical} (h : BroughtAll others (range keyCnt) want p p')
    (hs : ∀ d, s.pending d = p'.source.pending d) (d : Device) :
    let keys := edges (range keyCnt) (p.holding others d) (p'.holding others d)
    ((Port.flushFrame ⟨s, p'.outputs⟩).outputs d).emitted = (p.outputs d).emitted ++ keys ++
      if p.source.pending d = false ∧ keys = [] then [] else
        [{ type := evSyn, code := synReport }] := by
  intro keys
  rw [flushFrame_emitted]
  show (p'.outputs d).emitted ++ (if s.pending d then _ else []) = _
  rw [hs, h.pending, h.emitted]
  show _ ++ (if (p.source.pending d || decide (keys ≠ [])) = true then _ else []) = _
  congr 1
  by_cases hkeys : keys = []
  · cases p.source.pending d <;> simp [hkeys]
  · simp [hkeys]

end AllKeys

/-! ## What the flags say -/

/-- Each device that is written to has its flag set. -/
structure Sends (p p' : Port) : Prop where
  dropping : p'.source.dropping = p.source.dropping
  events : ∀ d, ∃ events, (p'.outputs d).emitted = (p.outputs d).emitted ++ events ∧
    p'.source.pending d = (p.source.pending d || decide (events ≠ []))

section Flags

variable {p p' q : Port} {d : Device} {code : Nat}

theorem Sends.refl (p : Port) : Sends p p :=
  ⟨rfl, fun _ => ⟨[], (append_nil _).symm, (Bool.or_false _).symm⟩⟩

theorem Sends.trans (h : Sends p q) (h' : Sends q p') : Sends p p' := by
  refine ⟨h'.dropping.trans h.dropping, fun d => ?_⟩
  obtain ⟨events, hemitted, hpending⟩ := h.events d
  obtain ⟨events', hemitted', hpending'⟩ := h'.events d
  refine ⟨events ++ events', ?_, ?_⟩
  · rw [hemitted', hemitted, append_assoc]
  · rw [hpending', hpending, Bool.or_assoc, Bool.eq_iff_iff]
    simp only [Bool.or_eq_true, decide_eq_true_eq, ne_eq, append_eq_nil_iff, not_and_or]

theorem Sends.between (h : Sends p p') (d : Device) : p'.source.pending d =
      (p.source.pending d || decide (p.outputs.between p'.outputs d ≠ [])) := by
  obtain ⟨events, hemitted, hpending⟩ := h.events d
  rw [hpending, Outputs.between, hemitted, drop_left]

theorem sends_passEvent (p : Port) (d : Device) (event : InputEvent) :
    Sends p (p.passEvent d event) := by
  refine ⟨by cases d <;> rfl, fun d' => ?_⟩
  refine ⟨if d' = d then [event] else [], emit_emitted, ?_⟩
  rw [Port.passEvent, setPending_pending]
  by_cases hd : d' = d
  · simp [hd]
  · simp [hd]

/-- The key is kept in the source and in the counter, and nothing is written for it. -/
theorem sends_keep (p : Port) (d : Device) (code : Nat) (down : Bool) (n : UInt32) :
    Sends p ⟨p.source.setPressed code down, p.outputs.setHolders d code n⟩ := by
  refine ⟨rfl, fun d' => ⟨[], ?_, ?_⟩⟩
  · rw [setHolders_emitted, append_nil]
  · cases d' <;> exact (Bool.or_false _).symm

theorem sends_changeKey (p : Port) (code : Nat) (value : Int) : Sends p (p.changeKey code value) := by
  have hsend : ∀ (q : Port) (d : Device) (v : Int), Sends q (q.sendKey d code v) :=
    fun q d v => sends_passEvent q d _
  unfold Port.changeKey
  split
  · exact Sends.refl p
  unfold Port.changeTarget
  dsimp only
  split
  · split
    · exact hsend p _ 2
    · exact Sends.refl p
  split
  · split
    · exact (sends_keep p _ code true _).trans (hsend _ _ 1)
    · exact sends_keep p _ code true _
  split
  · split
    · exact (sends_keep p _ code false _).trans (hsend _ _ 0)
    · exact sends_keep p _ code false _
  · exact Sends.refl p

theorem sends_forwardData (p : Port) (event : InputEvent) : Sends p (p.forwardData event) := by
  unfold Port.forwardData
  split
  · exact sends_changeKey p _ _
  split
  · exact sends_passEvent p .mouse event
  split
  · dsimp only
    have hmouse : Sends p (if hasFlag p.source.roles roleMouse then p.passEvent .mouse event
        else p) := by
      split
      · exact sends_passEvent p .mouse event
      · exact Sends.refl p
    generalize (if hasFlag p.source.roles roleMouse then p.passEvent .mouse event else p) = q
      at hmouse ⊢
    split
    · exact hmouse.trans (sends_passEvent _ .keyboard event)
    · exact hmouse
  · exact Sends.refl p

end Flags

/-- The flags of the source say what its past says. -/
structure Agrees (s : Physical) (past : Past) : Prop where
  dropping : s.dropping = true ↔ past.Dropped
  pending : ∀ d, s.pending d = decide (past.sent d ≠ [])

section Agreement

variable {s : Physical} {past : Past} {p p' : Port} {event : InputEvent} {o o' : Outputs}

theorem dropped_next : (past.next event o o').Dropped ↔
    event.isDropped = true ∨ past.Dropped ∧ event.isReport = false := by
  constructor
  · rintro ⟨earlier, e, later, hseen, hdropped, hlater⟩
    change past.seen ++ [event] = _ at hseen
    obtain rfl | ⟨later, e', rfl⟩ := eq_nil_or_concat later
    · obtain ⟨-, hlast⟩ := append_inj' hseen rfl
      rw [singleton_inj] at hlast
      exact .inl (hlast ▸ hdropped)
    · rw [concat_eq_append] at hseen hlater
      rw [← cons_append, ← append_assoc] at hseen
      obtain ⟨hfront, hlast⟩ := append_inj' hseen rfl
      rw [singleton_inj] at hlast
      refine .inr ⟨⟨earlier, e, later, hfront, hdropped, ?_⟩, ?_⟩
      · exact fun x hx => hlater x (mem_append_left _ hx)
      · rw [hlast]
        exact hlater e' (mem_append_right _ (mem_singleton.2 rfl))
  · rintro (hdropped | ⟨⟨earlier, e, later, hseen, hdropped, hlater⟩, hreport⟩)
    · exact ⟨past.seen, event, [], rfl, hdropped, forall_mem_nil _⟩
    · refine ⟨earlier, e, later ++ [event], ?_, hdropped, ?_⟩
      · show past.seen ++ [event] = _
        rw [hseen, append_assoc, cons_append]
      · intro x hx
        obtain hx | hx := mem_append.1 hx
        · exact hlater x hx
        · rw [mem_singleton.1 hx]
          exact hreport

theorem isReport_of_isDropped (h : event.isDropped = true) : event.isReport = false := by
  unfold InputEvent.isDropped at h
  unfold InputEvent.isReport
  simp only [Bool.and_eq_true, beq_iff_eq] at h
  rw [h.2]
  exact Bool.and_false _

theorem forwardEvent_report (hreport : event.isReport = true) (keys : Option (List UInt8)) :
    p.forwardEvent event keys = p.forwardReport keys := by
  have hdropped : event.isDropped = false := by
    rw [← Bool.not_eq_true]
    intro hdropped
    rw [isReport_of_isDropped hdropped] at hreport
    cases hreport
  unfold InputEvent.isReport at hreport
  unfold InputEvent.isDropped at hdropped
  simp only [Bool.and_eq_true, beq_iff_eq] at hreport
  simp only [Bool.and_eq_false_iff, beq_eq_false_iff_ne] at hdropped
  unfold Port.forwardEvent
  rw [if_neg (not_and_or.2 hdropped), if_pos hreport]

theorem forwardReport_answered (hdropping : p.source.dropping = true) (bits : List UInt8) :
    p.forwardReport (some bits) = (true, (p.reconcileKeyBits bits).endDropping) := by
  unfold Port.forwardReport
  rw [if_pos hdropping]

theorem forwardReport_unanswered (hdropping : p.source.dropping = true) :
    p.forwardReport none = (false, p) := by
  unfold Port.forwardReport
  rw [if_pos hdropping]

theorem forwardEvent_dropped (hdropped : event.isDropped = true) (keys : Option (List UInt8)) :
    p.forwardEvent event keys = (true, ⟨{ p.source with dropping := true }, p.outputs⟩) := by
  unfold InputEvent.isDropped at hdropped
  simp only [Bool.and_eq_true, beq_iff_eq] at hdropped
  unfold Port.forwardEvent
  rw [if_pos hdropped]

theorem forwardEvent_data (hreport : event.isReport = false) (hdropped : event.isDropped = false)
    (keys : Option (List UInt8)) :
    p.forwardEvent event keys = (true, if p.source.dropping then p else p.forwardData event) := by
  unfold InputEvent.isReport at hreport
  unfold InputEvent.isDropped at hdropped
  simp only [Bool.and_eq_false_iff, beq_eq_false_iff_ne] at hreport hdropped
  unfold Port.forwardEvent
  rw [if_neg (not_and_or.2 hdropped), if_neg (not_and_or.2 hreport)]
  split <;> rfl

theorem Agrees.fresh (hdropping : s.dropping = false) (hpending : ∀ d, s.pending d = false) :
    Agrees s {} := by
  refine ⟨⟨fun h => ?_, ?_⟩, fun d => ?_⟩
  · rw [hdropping] at h
    cases h
  · rintro ⟨earlier, e, later, hseen, -⟩
    exact absurd hseen (by simp)
  · rw [hpending]
    rfl

theorem Agrees.report (hreport : event.isReport = true) (hdropping : s.dropping = false)
    (hpending : ∀ d, s.pending d = false) : Agrees s (past.next event o o') := by
  refine ⟨?_, fun d => ?_⟩
  · rw [hdropping, dropped_next, hreport]
    have hdropped : ¬event.isDropped = true := fun hdropped => by
      rw [isReport_of_isDropped hdropped] at hreport
      cases hreport
    simp [hdropped]
  · rw [hpending, Past.next]
    simp [hreport]

theorem Agrees.data (h : Agrees p.source past) (hsends : Sends p p')
    (hreport : event.isReport = false) (hdropped : event.isDropped = false) :
    Agrees p'.source (past.next event p.outputs p'.outputs) := by
  refine ⟨?_, fun d => ?_⟩
  · rw [hsends.dropping, h.dropping, dropped_next]
    simp [hreport, hdropped]
  · rw [hsends.between, h.pending, Bool.eq_iff_iff, Past.next]
    simp only [hreport, Bool.or_eq_true, decide_eq_true_eq, ne_eq, Bool.false_eq_true, if_false,
      append_eq_nil_iff, not_and_or]

theorem agrees_forwardEvent (h : Agrees p.source past) (keys : Option (List UInt8))
    (hp' : p.forwardEvent event keys = (true, p')) :
    Agrees p'.source (past.next event p.outputs p'.outputs) := by
  by_cases hreport : event.isReport = true
  · rw [forwardEvent_report hreport] at hp'
    unfold Port.forwardReport at hp'
    split at hp'
    case isTrue =>
      cases keys with
      | none => cases hp'
      | some bits =>
        obtain rfl := (Prod.mk.inj hp').2
        exact Agrees.report hreport rfl (flushFrame_pending _)
    case isFalse hdropping =>
      obtain rfl := (Prod.mk.inj hp').2
      exact Agrees.report hreport (Bool.eq_false_iff.2 hdropping) (flushFrame_pending p)
  rw [Bool.not_eq_true] at hreport
  by_cases hdropped : event.isDropped = true
  · rw [forwardEvent_dropped hdropped] at hp'
    obtain rfl := (Prod.mk.inj hp').2
    refine ⟨?_, fun d => ?_⟩
    · rw [dropped_next]
      simp [hdropped]
    · have hnone : p.outputs.between p.outputs d = [] := drop_length
      show p.source.pending d = _
      rw [h.pending, Past.next]
      simp [hreport, hnone]
  rw [Bool.not_eq_true] at hdropped
  rw [forwardEvent_data hreport hdropped] at hp'
  obtain rfl := (Prod.mk.inj hp').2
  refine Agrees.data h ?_ hreport hdropped
  split
  · exact Sends.refl p
  · exact sends_forwardData p event

end Agreement

/-! ## Every run -/

/-- The invariant of the runs. -/
structure Watched.Sound (w : Watched) : Prop where
  fansIn : w.bridge.FansIn
  length : w.pasts.length = w.bridge.sources.length
  agrees : ∀ (i : Nat) s past, w.bridge.sources[i]? = some s → w.pasts[i]? = some past → Agrees s past

section Runs

variable {w : Watched}

theorem scanPhysical_sources (b : Bridge) (found : List Candidate) :
    ∃ added : List Physical, (b.scanPhysical found).sources = b.sources ++ added ∧
      ∀ s ∈ added, s.dropping = false ∧ ∀ d, s.pending d = false := by
  have hpath : ∀ (b : Bridge) (c : Candidate), ∃ added : List Physical,
      (b.scanPath c).sources = b.sources ++ added ∧
        ∀ s ∈ added, s.dropping = false ∧ ∀ d, s.pending d = false := by
    intro b c
    have hnone : ∃ added : List Physical, b.sources = b.sources ++ added ∧
        ∀ s ∈ added, s.dropping = false ∧ ∀ d, s.pending d = false :=
      ⟨[], (append_nil _).symm, forall_mem_nil _⟩
    unfold Bridge.scanPath
    split
    · exact hnone
    split
    case h_2 => exact hnone
    case h_1 fd bus name _ _ =>
      dsimp only
      split
      · refine ⟨_, rfl, ?_⟩
        rintro s hs
        rw [mem_singleton.1 hs]
        exact ⟨rfl, fun d => by cases d <;> rfl⟩
      · exact hnone
  unfold Bridge.scanPhysical
  induction found generalizing b with
  | nil => exact ⟨[], (append_nil _).symm, forall_mem_nil _⟩
  | cons c found ih =>
    obtain ⟨one, hone, hfresh⟩ := hpath b c
    obtain ⟨rest, hrest, hfresh'⟩ := ih (b.scanPath c)
    refine ⟨one ++ rest, ?_, ?_⟩
    · rw [foldl_cons, hrest, hone, append_assoc]
    · exact forall_mem_append.2 ⟨hfresh, hfresh'⟩

theorem Watched.Sound.scan (h : w.Sound) (found : List Candidate) : (w.scan found).Sound := by
  obtain ⟨added, hsources, hfresh⟩ := scanPhysical_sources w.bridge found
  have hpasts : (w.scan found).pasts = w.pasts ++ replicate added.length ({} : Past) := by
    unfold Watched.scan
    dsimp only
    rw [hsources, length_append, Nat.add_sub_cancel_left]
  refine ⟨fansIn_scanPhysical h.fansIn found, ?_, ?_⟩
  · rw [hpasts]
    show _ = (w.bridge.scanPhysical found).sources.length
    rw [hsources, length_append, length_append, length_replicate, h.length]
  · intro i s past hs hpast
    change (w.bridge.scanPhysical found).sources[i]? = some s at hs
    rw [hpasts] at hpast
    rw [hsources] at hs
    by_cases hi : i < w.bridge.sources.length
    · rw [getElem?_append_left hi] at hs
      rw [getElem?_append_left (by rw [h.length]; exact hi)] at hpast
      exact h.agrees i s past hs hpast
    · rw [getElem?_append_right (Nat.not_lt.1 hi)] at hs
      rw [getElem?_append_right (by rw [h.length]; exact Nat.not_lt.1 hi)] at hpast
      obtain ⟨hdropping, hpending⟩ := hfresh s (mem_of_getElem? hs)
      rw [eq_of_mem_replicate (mem_of_getElem? hpast)]
      exact Agrees.fresh hdropping hpending

theorem disconnectPhysical_sources (b : Bridge) (i : Nat) :
    (b.disconnectPhysical i).sources = b.sources.eraseIdx i := by
  unfold Bridge.disconnectPhysical
  split
  case h_1 hnone => rw [eraseIdx_of_length_le (getElem?_eq_none_iff.1 hnone)]
  case h_2 => rfl

theorem Watched.Sound.disconnect (h : w.Sound) (i : Nat) : (w.disconnect i).Sound := by
  refine ⟨fansIn_disconnect h.fansIn i, ?_, ?_⟩
  · show (w.pasts.eraseIdx i).length = (w.bridge.disconnectPhysical i).sources.length
    rw [disconnectPhysical_sources, length_eraseIdx, length_eraseIdx, h.length]
  · intro j s past hs hpast
    change (w.bridge.disconnectPhysical i).sources[j]? = some s at hs
    change (w.pasts.eraseIdx i)[j]? = some past at hpast
    rw [disconnectPhysical_sources, getElem?_eraseIdx] at hs
    rw [getElem?_eraseIdx] at hpast
    split at hs
    case isTrue hj =>
      rw [if_pos hj] at hpast
      exact h.agrees j s past hs hpast
    case isFalse hj =>
      rw [if_neg hj] at hpast
      exact h.agrees (j + 1) s past hs hpast

theorem Watched.Sound.event (h : w.Sound) (i : Nat) (event : InputEvent)
    (keys : Option (List UInt8)) : (w.event i event keys).Sound := by
  unfold Watched.event
  split
  case h_2 => exact h
  case h_1 s past hs hpast =>
    have hi : i < w.bridge.sources.length := (List.getElem?_eq_some_iff.1 hs).1
    have hheld := held_forwardEvent (h.fansIn.held hs) event keys
    split
    case h_2 => exact h.disconnect i
    case h_1 p hp =>
      rw [hp] at hheld
      refine ⟨FanIn.perm hheld (set_perm_cons_eraseIdx hi _).symm, ?_, ?_⟩
      · rw [length_set, length_set, h.length]
      · intro j s' past' hs' hpast'
        dsimp only at hs' hpast'
        by_cases hj : i = j
        · subst hj
          rw [getElem?_set_self hi] at hs'
          rw [getElem?_set_self (by rw [h.length]; exact hi)] at hpast'
          cases hs'
          cases hpast'
          exact agrees_forwardEvent (h.agrees i s past hs hpast) keys hp
        · rw [getElem?_set_ne hj] at hs' hpast'
          exact h.agrees j s' past' hs' hpast'

theorem Watched.Sound.finish (h : w.Sound) : Watched.Sound ⟨w.bridge.finish, []⟩ := by
  refine ⟨fansIn_finish h.fansIn, ?_, ?_⟩
  · have hnone : w.bridge.finish.sources = [] := disconnectAll_sources _ rfl
    show 0 = w.bridge.finish.sources.length
    rw [hnone]
    rfl
  · intro i s past _ hpast
    cases hpast

theorem Watched.Sound.step (h : w.Sound) (t : Tick) : (w.step t).Sound := by
  unfold Watched.step
  split
  · exact h
  cases t with
  | scan found => exact h.scan found
  | event i event keys => exact h.event i event keys
  | disconnect i => exact h.disconnect i
  | finish => exact h.finish

theorem sound_foldl (ticks : List Tick) (h : w.Sound) : (ticks.foldl Watched.step w).Sound := by
  induction ticks generalizing w with
  | nil => exact h
  | cons t ticks ih => exact ih (h.step t)

/-- The pasts are right after any ticks. -/
theorem sound_watch (hiresWheel hiresHwheel : Bool) (ticks : List Tick) :
    (watch hiresWheel hiresHwheel ticks).Sound := by
  refine sound_foldl ticks ⟨fansIn_start hiresWheel hiresHwheel, rfl, ?_⟩
  intro i s past hs _
  cases hs

end Runs

/-! ## The end of a dropped frame -/

variable {event : InputEvent} {keys : Option (List UInt8)}

section Resynchronising

variable {b : Bridge} {w : Watched} {i : Nat} {s : Physical} {past : Past}

theorem Bridge.set_same (hs : b.sources[i]? = some s) :
    b = { b with sources := b.sources.set i s, outputs := b.outputs } := by
  obtain ⟨hi, rfl⟩ := List.getElem?_eq_some_iff.1 hs
  rw [set_getElem_self]

theorem holding_eq (hs : b.sources[i]? = some s) (d : Device) :
    b.holding d = Port.holding (b.sources.eraseIdx i) ⟨s, b.outputs⟩ d := by
  funext code
  obtain ⟨hi, rfl⟩ := List.getElem?_eq_some_iff.1 hs
  have hperm := (getElem_cons_eraseIdx_perm hi).symm
  unfold Bridge.holding
  rw [hperm.any_eq]
  rfl

variable {p : Port}

theorem holding_set (hi : i < b.sources.length) (o : Outputs) (ended : Bool) (d : Device) :
    Bridge.holding ⟨b.sources.set i p.source, o, ended⟩ d = p.holding (b.sources.eraseIdx i) d := by
  funext code
  have hperm := set_perm_cons_eraseIdx hi p.source
  unfold Bridge.holding
  rw [hperm.any_eq]
  rfl

theorem holding_erase (hnone : ∀ d code, p.source.holds d code = false) (o : Outputs)
    (ended : Bool) (d : Device) :
    Bridge.holding ⟨b.sources.eraseIdx i, o, ended⟩ d = p.holding (b.sources.eraseIdx i) d := by
  funext code
  unfold Bridge.holding Port.holding
  rw [hnone, Bool.false_or]

variable {p' : Port}

theorem settles_of_brought {b' : Bridge} {q : Port} (hs : b.sources[i]? = some s)
    (hagrees : Agrees s past)
    (hall : BroughtAll (b.sources.eraseIdx i) (range keyCnt) want ⟨s, b.outputs⟩ p')
    (hholding : ∀ d, b'.holding d = p'.holding (b.sources.eraseIdx i) d)
    (hq : q.outputs = p'.outputs) (hpending : ∀ d, q.source.pending d = p'.source.pending d)
    (houtputs : b'.outputs = q.flushFrame.outputs) : Settles past b b' := by
  intro d
  have hflushed := hall.flushed hpending d
  rw [← hq] at hflushed
  have hsent : past.sent d = [] ↔ s.pending d = false := by
    rw [hagrees.pending, decide_eq_false_iff_not, not_not]
  dsimp only at hflushed ⊢
  rw [holding_eq hs, hholding, houtputs]
  simp only [hsent]
  exact hflushed

/-- The keys that have no target are no keys of the source. -/
theorem holds_none_of_brought {others : List Physical}
    (hall : BroughtAll others (range keyCnt) (fun _ => false) p p') (d : Device) (code : Nat) :
    p'.source.holds d code = false := by
  unfold Physical.holds
  rw [hall.roles, hall.pressed]
  cases htarget : keyTarget p.source.roles code with
  | none => simp
  | some d' => simp [keyTarget_lt htarget]

theorem settles_disconnect (h : w.Sound) (hs : w.bridge.sources[i]? = some s)
    (hpast : w.pasts[i]? = some past) :
    Settles past w.bridge (w.bridge.disconnectPhysical i) := by
  have hall := broughtAll_releaseKeys (h.fansIn.held hs)
  have hbridge : w.bridge.disconnectPhysical i = { w.bridge with
        sources := w.bridge.sources.eraseIdx i
        outputs := (Port.letGo ⟨s, w.bridge.outputs⟩).outputs } := by
    unfold Bridge.disconnectPhysical
    rw [hs]
  rw [hbridge]
  unfold Port.letGo
  generalize (range keyCnt).foldl Port.releaseKey ⟨s, w.bridge.outputs⟩ = p' at hall ⊢
  exact settles_of_brought hs (h.agrees i s past hs hpast) hall
    (holding_erase (holds_none_of_brought hall) _ _) rfl (fun _ => rfl) rfl

theorem event_of_forward (hs : w.bridge.sources[i]? = some s) (hpast : w.pasts[i]? = some past)
    (hp : Port.forwardEvent ⟨s, w.bridge.outputs⟩ event keys = (true, p)) :
    (w.event i event keys).bridge =
      { w.bridge with sources := w.bridge.sources.set i p.source, outputs := p.outputs } := by
  unfold Watched.event
  rw [hs, hpast]
  dsimp only
  rw [hp]

theorem event_of_lost (hs : w.bridge.sources[i]? = some s) (hpast : w.pasts[i]? = some past)
    (hp : Port.forwardEvent ⟨s, w.bridge.outputs⟩ event keys = (false, p)) :
    (w.event i event keys).bridge = w.bridge.disconnectPhysical i := by
  unfold Watched.event
  rw [hs, hpast]
  dsimp only
  rw [hp]
  rfl

theorem quiet_event (hs : w.bridge.sources[i]? = some s) (hpast : w.pasts[i]? = some past)
    (hdropping : s.dropping = true) (event : InputEvent) (keys : Option (List UInt8))
    (hreport : event.isReport = false) : (w.event i event keys).bridge = w.bridge := by
  have hsame : Port.forwardEvent ⟨s, w.bridge.outputs⟩ event keys =
      (true, ⟨s, w.bridge.outputs⟩) := by
    by_cases hdropped : event.isDropped = true
    · rw [forwardEvent_dropped hdropped]
      dsimp only
      rw [← hdropping]
    · rw [forwardEvent_data hreport (Bool.eq_false_iff.2 hdropped)]
      dsimp only
      rw [if_pos hdropping]
  rw [event_of_forward hs hpast hsame]
  exact (Bridge.set_same hs).symm

theorem event_of_answered (hs : w.bridge.sources[i]? = some s) (hpast : w.pasts[i]? = some past)
    (hdropping : s.dropping = true) (hreport : event.isReport = true)
    (bits : List UInt8) :
    (w.event i event (some bits)).bridge =
      let p := (Port.reconcileKeyBits ⟨s, w.bridge.outputs⟩ bits).endDropping
      { w.bridge with sources := w.bridge.sources.set i p.source, outputs := p.outputs } := by
  have hanswered := forwardReport_answered (p := ⟨s, w.bridge.outputs⟩) hdropping bits
  rw [← forwardEvent_report hreport] at hanswered
  exact event_of_forward hs hpast hanswered

theorem endDropping_source (p : Port) : p.endDropping.source.roles = p.source.roles ∧
    p.endDropping.source.dropping = false ∧ p.endDropping.source.pressed = p.source.pressed :=
  ⟨rfl, rfl, rfl⟩

theorem BroughtAll.pressed_target {others : List Physical}
    (hall : BroughtAll others (range keyCnt) want p p') {code : Nat}
    (hsome : (keyTarget p.source.roles code).isSome) : p'.source.pressed code = want code := by
  obtain ⟨d, htarget⟩ := Option.isSome_iff_exists.1 hsome
  rw [hall.pressed]
  exact if_pos ⟨mem_range.2 (keyTarget_lt htarget), hsome⟩

theorem matched_event (h : w.Sound) (hs : w.bridge.sources[i]? = some s)
    (hpast : w.pasts[i]? = some past) (hdropping : s.dropping = true)
    (hreport : event.isReport = true) (bits : List UInt8) :
    ∃ s', (w.event i event (some bits)).bridge.sources = w.bridge.sources.set i s' ∧
      s'.roles = s.roles ∧ s'.dropping = false ∧
      ∀ code, (keyTarget s.roles code).isSome → s'.pressed code = Port.keyBit bits code := by
  have hall := broughtAll_reconcileKeyBits (h.fansIn.held hs) bits
  rw [event_of_answered hs hpast hdropping hreport bits]
  generalize Port.reconcileKeyBits ⟨s, w.bridge.outputs⟩ bits = p' at hall ⊢
  obtain ⟨hroles, hended, hpressed⟩ := endDropping_source p'
  refine ⟨p'.endDropping.source, rfl, hroles.trans hall.roles, hended, fun code hsome => ?_⟩
  rw [hpressed]
  exact hall.pressed_target hsome

theorem settles_endDropping (hs : b.sources[i]? = some s) (hagrees : Agrees s past)
    (hall : BroughtAll (b.sources.eraseIdx i) (range keyCnt) want ⟨s, b.outputs⟩ p') :
    Settles past b { b with
      sources := b.sources.set i p'.endDropping.source
      outputs := p'.endDropping.outputs } := by
  have hi : i < b.sources.length := (List.getElem?_eq_some_iff.1 hs).1
  have hholding : ∀ d, p'.endDropping.holding (b.sources.eraseIdx i) d =
      p'.holding (b.sources.eraseIdx i) d := fun _ => rfl
  refine settles_of_brought (q := ⟨{ p'.source with dropping := false }, p'.outputs⟩) hs hagrees
    hall (fun d => ?_) rfl ?_ rfl
  · exact (holding_set hi _ _ d).trans (hholding d)
  · exact fun d => by cases d <;> rfl

theorem settles_event (h : w.Sound) (hs : w.bridge.sources[i]? = some s)
    (hpast : w.pasts[i]? = some past) (hdropping : s.dropping = true)
    (hreport : event.isReport = true) (bits : List UInt8) :
    Settles past w.bridge (w.event i event (some bits)).bridge := by
  have hall := broughtAll_reconcileKeyBits (h.fansIn.held hs) bits
  rw [event_of_answered hs hpast hdropping hreport bits]
  exact settles_endDropping hs (h.agrees i s past hs hpast) hall

end Resynchronising

/-! ## The runs by moves -/

section Moves

variable {w : Watched} {i : Nat} {s : Physical}

/-- Where `forward_events` returns false, it has changed nothing. -/
theorem forwardEvent_false {p q : Port} (h : p.forwardEvent event keys = (false, q)) : q = p := by
  by_cases hreport : event.isReport = true
  · rw [forwardEvent_report hreport] at h
    unfold Port.forwardReport at h
    split at h
    · cases keys with
      | none => exact (Prod.mk.inj h).2.symm
      | some bits => cases h
    · cases h
  · by_cases hdropped : event.isDropped = true
    · rw [forwardEvent_dropped hdropped] at h
      cases h
    · rw [forwardEvent_data (Bool.eq_false_iff.2 hreport) (Bool.eq_false_iff.2 hdropped)] at h
      cases h

theorem ticks_forwardAll (drained : Bool) (events : List (InputEvent × Option (List UInt8)))
    (h : w.Sound) (hended : w.bridge.ended = false) (hs : w.bridge.sources[i]? = some s) :
    let p := (Port.forwardAll drained events ⟨s, w.bridge.outputs⟩).2
    ∃ ticks : List Tick, (ticks.foldl Watched.step w).bridge =
      { w.bridge with sources := w.bridge.sources.set i p.source, outputs := p.outputs } := by
  induction events generalizing w s with
  | nil => exact ⟨[], Bridge.set_same hs⟩
  | cons item events ih =>
    obtain ⟨event, keys⟩ := item
    have hi : i < w.bridge.sources.length := (List.getElem?_eq_some_iff.1 hs).1
    have hpasts : i < w.pasts.length := by
      rw [h.length]
      exact hi
    have hpast : w.pasts[i]? = some w.pasts[i] := getElem?_eq_getElem hpasts
    unfold Port.forwardAll
    split
    case h_2 q hq =>
      rw [forwardEvent_false hq]
      exact ⟨[], Bridge.set_same hs⟩
    case h_1 q hq =>
      have hbridge := event_of_forward hs hpast hq
      have hone : w.step (.event i event keys) = w.event i event keys := by
        unfold Watched.step
        rw [hended]
        rfl
      have hq' : (w.event i event keys).bridge.sources[i]? = some q.source := by
        rw [hbridge, getElem?_set_self hi]
      obtain ⟨ticks, hticks⟩ := ih (h.event i event keys) (by rw [hbridge]; exact hended) hq'
      refine ⟨.event i event keys :: ticks, ?_⟩
      rw [foldl_cons, hone, hticks, hbridge]
      dsimp only
      rw [set_set]

/-- A move of the bridge is some ticks. -/
theorem ticks_step (h : w.Sound) (m : Bridge.Move) :
    ∃ ticks : List Tick, (ticks.foldl Watched.step w).bridge = w.bridge.step m := by
  have hone : ∀ t : Tick, (([t]).foldl Watched.step w).bridge = (w.step t).bridge := fun _ => rfl
  cases hended : w.bridge.ended with
  | true =>
    refine ⟨[], ?_⟩
    unfold Bridge.step
    rw [if_pos hended]
    rfl
  | false =>
    have hrunning : ¬w.bridge.ended = true := by
      rw [hended]
      exact Bool.false_ne_true
    unfold Bridge.step
    rw [if_neg hrunning]
    cases m with
    | scan found =>
      refine ⟨[.scan found], ?_⟩
      rw [hone, Watched.step, if_neg hrunning]
      rfl
    | disconnect i =>
      refine ⟨[.disconnect i], ?_⟩
      rw [hone, Watched.step, if_neg hrunning]
      rfl
    | finish =>
      refine ⟨[.finish], ?_⟩
      rw [hone, Watched.step, if_neg hrunning]
    | forward i revents events drained =>
      dsimp only
      unfold Bridge.forward
      cases hs : w.bridge.sources[i]? with
      | none => exact ⟨[], rfl⟩
      | some s =>
        dsimp only
        unfold Port.forwardEvents
        split
        · exact ⟨[], Bridge.set_same hs⟩
        split
        · exact ⟨[], Bridge.set_same hs⟩
        · exact ticks_forwardAll drained events h hended hs

/-- Every run of the bridge is one that is followed here. -/
theorem ticks_run (hiresWheel hiresHwheel : Bool) (moves : List Bridge.Move) :
    ∃ ticks, (watch hiresWheel hiresHwheel ticks).bridge =
      Bridge.run hiresWheel hiresHwheel moves := by
  have hfold : ∀ (moves : List Bridge.Move) (ticks : List Tick),
      ∃ ticks', (watch hiresWheel hiresHwheel ticks').bridge =
        moves.foldl Bridge.step (watch hiresWheel hiresHwheel ticks).bridge := by
    intro moves
    induction moves with
    | nil => exact fun ticks => ⟨ticks, rfl⟩
    | cons m moves ih =>
      intro ticks
      obtain ⟨more, hmore⟩ := ticks_step (sound_watch hiresWheel hiresHwheel ticks) m
      obtain ⟨ticks', hticks'⟩ := ih (ticks ++ more)
      refine ⟨ticks', ?_⟩
      rw [hticks', foldl_cons, ← hmore, watch, foldl_append]
      rfl
  exact hfold moves []

end Moves

/-- In every run of the bridge, whatever its sources say and however it is read: a source that has
    said `SYN_DROPPED` forwards nothing up to its next `SYN_REPORT`, and there its keys are brought
    to those that the kernel answers with, by the edges of the shared keys alone and one report for
    each device that got something. Without an answer the source goes, with its keys. -/
theorem resynchronises_dropped (hiresWheel hiresHwheel : Bool) (ticks : List Tick) (i : Nat)
    (s : Physical) (past : Past)
    (hs : (watch hiresWheel hiresHwheel ticks).bridge.sources[i]? = some s)
    (hpast : (watch hiresWheel hiresHwheel ticks).pasts[i]? = some past) (hdropped : past.Dropped) :
    Resynchronises (watch hiresWheel hiresHwheel ticks) i s past := by
  have h := sound_watch hiresWheel hiresHwheel ticks
  generalize watch hiresWheel hiresHwheel ticks = w at h hs hpast ⊢
  have hdropping : s.dropping = true := (h.agrees i s past hs hpast).dropping.2 hdropped
  constructor
  case quiet => exact quiet_event hs hpast hdropping
  case matched => exact fun _ bits hreport => matched_event h hs hpast hdropping hreport bits
  case settled => exact fun _ bits hreport => settles_event h hs hpast hdropping hreport bits
  case lost =>
    intro event hreport
    have hunanswered := forwardReport_unanswered (p := ⟨s, w.bridge.outputs⟩) hdropping
    rw [← forwardEvent_report hreport] at hunanswered
    rw [event_of_lost hs hpast hunanswered]
    exact ⟨disconnectPhysical_sources _ i, settles_disconnect h hs hpast⟩

/-- A keyboard that holds a key in the middle of a frame when its queue overruns. -/
theorem resynchronises_dropped_keyboard : ∃ s past, Resynchronises (watch false false
      [.scan [⟨"/dev/input/event5", some 7, some (busUsb, "Keyboard"), false, true, true, true⟩],
        .event 0 ⟨evKey, 30, 1⟩ none, .event 0 ⟨evSyn, synDropped, 0⟩ none]) 0 s past ∧
      past.seen = [⟨evKey, 30, 1⟩, ⟨evSyn, synDropped, 0⟩] ∧ s.pressed 30 = true := by
  have hkeys : ((watch false false
      [.scan [⟨"/dev/input/event5", some 7, some (busUsb, "Keyboard"), false, true, true, true⟩],
        .event 0 ⟨evKey, 30, 1⟩ none,
        .event 0 ⟨evSyn, synDropped, 0⟩ none]).bridge.sources[0]?.map (·.pressed 30)) = some true := by
    decide
  have hseen : ((watch false false
      [.scan [⟨"/dev/input/event5", some 7, some (busUsb, "Keyboard"), false, true, true, true⟩],
        .event 0 ⟨evKey, 30, 1⟩ none,
        .event 0 ⟨evSyn, synDropped, 0⟩ none]).pasts[0]?.map (·.seen)) =
      some [⟨evKey, 30, 1⟩, ⟨evSyn, synDropped, 0⟩] := by
    decide
  obtain ⟨s, hs, hpressed⟩ := Option.map_eq_some_iff.1 hkeys
  obtain ⟨past, hpast, hevents⟩ := Option.map_eq_some_iff.1 hseen
  refine ⟨s, past, resynchronises_dropped false false _ 0 s past hs hpast ?_, hevents, hpressed⟩
  exact ⟨[⟨evKey, 30, 1⟩], ⟨evSyn, synDropped, 0⟩, [], hevents, rfl, forall_mem_nil _⟩

end HdmiLos.Input
