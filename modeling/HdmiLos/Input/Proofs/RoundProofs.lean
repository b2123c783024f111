import HdmiLos.Input.Round
import HdmiLos.Input.Proofs.BridgeProofs
import Mathlib.Data.List.InsertIdx

/-!
# A pass of the poll loop serves every source once

The walk goes down, so closing the gap of a source that goes away moves only sources that have been
served: those in front of the walk stay where they were next to their own entries of the poll array.
-/

namespace HdmiLos.Input

open List

variable {t : SourceTable} {r r' : Round} {i : Nat} {source : Pointer} {polled : PollFd}
  {reads : Nat → List (InputEvent × Option (List UInt8)) × Bool}

theorem SourceTable.length_live (t : SourceTable) : t.live.length = t.count :=
  length_take_of_le t.bound

theorem SourceTable.live_removeAt (hi : i < t.count) : (t.removeAt i hi).live = t.live.eraseIdx i :=
  memmove_next hi t.bound

namespace Round

/-! ## One turn -/

/-- What a turn does, the call of which returns `ok` and leaves `p`: if it fails, the source lets go
    of its keys and leaves the array. -/
structure Turn (source : Pointer) (polled : PollFd) (i : Nat) (ok : Bool) (p : Port)
    (r r' : Round) : Prop where
  forwarded : r'.forwarded = r.forwarded ++ [⟨source, polled, ok⟩]
  disconnected : r'.disconnected = r.disconnected ++ if ok then [] else [source]
  live : r'.table.live = if ok then r.table.live else r.table.live.eraseIdx i
  heap : r'.heap = Function.update r.heap source p.source
  outputs : r'.outputs = if ok then p.outputs else p.letGo.outputs

theorem disconnectPhysical_some (hsource : r.table.live[i]? = some source) :
    ∃ hi : i < r.table.count, r.disconnectPhysical i = some { r with
      table := r.table.removeAt i hi
      outputs := (Port.letGo ⟨r.heap source, r.outputs⟩).outputs
      disconnected := r.disconnected ++ [source] } := by
  obtain ⟨hi, -⟩ := List.getElem?_eq_some_iff.1 hsource
  rw [r.table.length_live] at hi
  refine ⟨hi, ?_⟩
  rw [disconnectPhysical, dif_pos hi, hsource]
  rfl

variable {fds : List PollFd}

theorem serve_turn {ok : Bool} {p : Port} (hsource : r.table.live[i]? = some source)
    (hpolled : fds[i]? = some polled)
    (hcall : Port.forwardEvents ⟨r.heap source, r.outputs⟩ polled.revents (reads i).1 (reads i).2 =
      (ok, p)) : ∃ r', r.serve fds reads i = some r' ∧ Turn source polled i ok p r r' := by
  let s : Round := { r with
    heap := Function.update r.heap source p.source
    outputs := p.outputs
    forwarded := r.forwarded ++ [⟨source, polled, ok⟩] }
  have hforward : r.forward source polled (reads i).1 (reads i).2 = (ok, s) := by
    rw [forward, hcall]
  cases ok with
  | true =>
    refine ⟨s, ?_, rfl, (append_nil _).symm, rfl, rfl, rfl⟩
    simp only [serve, hsource, hpolled, Option.bind_eq_bind, Option.bind_some, hforward]
  | false =>
    obtain ⟨hi, hgone⟩ := disconnectPhysical_some (r := s) hsource
    have hserve : r.serve fds reads i = s.disconnectPhysical i := by
      simp only [serve, hsource, hpolled, Option.bind_eq_bind, Option.bind_some, hforward]
    have hport : (⟨s.heap source, s.outputs⟩ : Port) = p :=
      congrArg (Port.mk · p.outputs) (Function.update_self source p.source r.heap)
    rw [hport] at hgone
    refine ⟨_, hserve.trans hgone, rfl, rfl, SourceTable.live_removeAt hi, rfl, ?_⟩
    rw [if_neg Bool.false_ne_true]

/-! ## The walk -/

/-- The end of the call for the source at `i`, with the virtual devices as they are at its turn. -/
def callOf (r : Round) (revents : Nat → Revents)
    (reads : Nat → List (InputEvent × Option (List UInt8)) × Bool) (outputs : Outputs)
    (entry : Pointer × Nat) : Bool × Port :=
  Port.forwardEvents ⟨r.heap entry.1, outputs⟩ (revents entry.2) (reads entry.2).1 (reads entry.2).2

/-- The virtual devices once the sources from `i` on have had their turns, the last one first: those
    whose call failed have let go of their keys. -/
def outputsFrom (r : Round) (revents : Nat → Revents)
    (reads : Nat → List (InputEvent × Option (List UInt8)) × Bool) (i : Nat) : Outputs :=
  (r.table.live.zipIdx.drop i).foldr (fun entry outputs =>
    let (ok, p) := r.callOf revents reads outputs entry
    if ok then p.outputs else p.letGo.outputs) r.outputs

/-- The end of the call for the source at `i` in a walk down the array. -/
def turnOf (r : Round) (revents : Nat → Revents)
    (reads : Nat → List (InputEvent × Option (List UInt8)) × Bool) (i : Nat) (source : Pointer) :
    Bool × Port :=
  r.callOf revents reads (r.outputsFrom revents reads (i + 1)) (source, i)

/-- The calls for all sources, in the order of the array: each with the entry of its own
    descriptor. -/
def calls (r : Round) (revents : Nat → Revents)
    (reads : Nat → List (InputEvent × Option (List UInt8)) × Bool) : List Forwarded :=
  r.table.live.mapIdx fun i source =>
    ⟨source, ⟨(r.heap source).fd, revents i⟩, (r.turnOf revents reads i source).1⟩

/-- The walk that started from `s` has come down to `i`: the sources from `i` on have been served,
    and those that are left of them are behind the others. -/
structure Walked (s : Round) (revents : Nat → Revents)
    (reads : Nat → List (InputEvent × Option (List UInt8)) × Bool) (i : Nat) (r : Round) : Prop where
  forwarded : r.forwarded = s.forwarded ++ ((s.calls revents reads).drop i).reverse
  disconnected : r.disconnected = s.disconnected ++
    (((s.calls revents reads).drop i).reverse.filter (!·.ok)).map (·.source)
  live : r.table.live = s.table.live.take i ++
    (((s.calls revents reads).drop i).filter (·.ok)).map (·.source)
  ahead : ∀ j < i, ∀ source, s.table.live[j]? = some source → r.heap source = s.heap source
  behind : ∀ j, i ≤ j → ∀ source, s.table.live[j]? = some source →
    r.heap source = (s.turnOf revents reads j source).2.source
  outputs : r.outputs = s.outputsFrom revents reads i

variable {revents : Nat → Revents} {s : Round}

theorem pollSet_getElem? (h : s.table.live[i]? = some source) :
    (s.pollSet.mapIdx fun i entry => { entry with revents := revents i })[i]? =
      some ⟨(s.heap source).fd, revents i⟩ := by
  simp [pollSet, h]

theorem outputsFrom_of_getElem? (hsource : s.table.live[i]? = some source) :
    s.outputsFrom revents reads i = if (s.turnOf revents reads i source).1
      then (s.turnOf revents reads i source).2.outputs
      else (s.turnOf revents reads i source).2.letGo.outputs := by
  have hentry : s.table.live.zipIdx[i]? = some (source, i) := by
    rw [getElem?_zipIdx, hsource]
    simp
  have hdrop : s.table.live.zipIdx.drop i = (source, i) :: s.table.live.zipIdx.drop (i + 1) :=
    drop_eq_getElem?_toList_append.trans (by rw [hentry]; rfl)
  rw [outputsFrom, hdrop]
  rfl

/-- No slot in use has the source of another. -/
theorem live_ne {j : Nat} {other : Pointer} (hsource : r.table.live[i]? = some source)
    (hother : r.table.live[j]? = some other) (hij : i ≠ j) : other ≠ source := by
  rintro rfl
  have hi := (List.getElem?_eq_some_iff.1 hsource).1
  exact hij ((List.getElem?_inj hi r.table.distinct).1 (hsource.trans hother.symm))

theorem Walked.turn (h : Walked s revents reads (i + 1) r)
    (hsource : s.table.live[i]? = some source) {ok : Bool} {p : Port}
    (hcall : s.turnOf revents reads i source = (ok, p))
    (hturn : Turn source ⟨(s.heap source).fd, revents i⟩ i ok p r r') :
    Walked s revents reads i r' := by
  have hi := (List.getElem?_eq_some_iff.1 hsource).1
  have hdrop : (s.calls revents reads).drop i =
      ⟨source, ⟨(s.heap source).fd, revents i⟩, ok⟩ :: (s.calls revents reads).drop (i + 1) := by
    have hcalls : (s.calls revents reads)[i]? =
        some ⟨source, ⟨(s.heap source).fd, revents i⟩, ok⟩ := by
      rw [calls, getElem?_mapIdx, hsource, Option.map_some, hcall]
    exact drop_eq_getElem?_toList_append.trans (by rw [hcalls]; rfl)
  have htake : s.table.live.take (i + 1) = s.table.live.take i ++ [source] := by
    rw [take_add_one, hsource]
    rfl
  have hlength : (s.table.live.take i).length = i := length_take_of_le (Nat.le_of_lt hi)
  refine ⟨?_, ?_, ?_, ?_, ?_, ?_⟩
  · rw [hturn.forwarded, h.forwarded, hdrop, reverse_cons, append_assoc]
  · rw [hturn.disconnected, h.disconnected, hdrop]
    cases ok <;> simp
  · rw [hturn.live, h.live, htake, hdrop]
    cases ok with
    | true => simp
    | false =>
      rw [if_neg Bool.false_ne_true, append_assoc,
        eraseIdx_append_of_length_le (by omega), hlength]
      simp
  · intro j hj other hother
    rw [hturn.heap, Function.update_of_ne (live_ne hsource hother (by omega))]
    exact h.ahead j (by omega) other hother
  · intro j hj other hother
    rw [hturn.heap]
    by_cases hij : i = j
    · subst hij
      obtain rfl := Option.some.inj (hsource.symm.trans hother)
      rw [hcall, Function.update_self]
    · rw [Function.update_of_ne (live_ne hsource hother hij)]
      exact h.behind j (by omega) other hother
  · rw [hturn.outputs, outputsFrom_of_getElem? hsource, hcall]

/-- The source that is next is where it was, with its entry. -/
theorem Walked.next (h : Walked s revents reads (i + 1) r)
    (hsource : s.table.live[i]? = some source) : r.table.live[i]? = some source := by
  have hi := (List.getElem?_eq_some_iff.1 hsource).1
  rw [h.live, List.getElem?_append_left (by simp; omega), List.getElem?_take_of_succ, hsource]

theorem Walked.serveAll (h : Walked s revents reads i r) (hi : i ≤ s.table.count) :
    ∃ r', r.serveAll (s.pollSet.mapIdx fun i entry => { entry with revents := revents i }) reads i =
      some r' ∧ Walked s revents reads 0 r' := by
  induction i generalizing r with
  | zero => exact ⟨r, rfl, h⟩
  | succ i ih =>
    have hlive : i < s.table.live.length := by
      rw [s.table.length_live]
      exact hi
    have hsource := getElem?_eq_getElem hlive
    have hpolled : (s.pollSet.mapIdx fun i entry => { entry with revents := revents i })[i]? = _ :=
      pollSet_getElem? hsource
    rcases hcall : s.turnOf revents reads i s.table.live[i] with ⟨ok, p⟩
    obtain ⟨r₁, hserve, hturn⟩ := serve_turn (h.next hsource) hpolled (by
      rw [h.ahead i (Nat.lt_succ_self i) _ hsource, h.outputs, ← hcall]
      rfl)
    obtain ⟨r', hrest, hwalked⟩ := ih (h.turn hsource hcall hturn) (Nat.le_of_lt hi)
    refine ⟨r', ?_, hwalked⟩
    rw [Round.serveAll, hserve]
    exact hrest

theorem serveAll_walked (s : Round) (revents : Nat → Revents)
    (reads : Nat → List (InputEvent × Option (List UInt8)) × Bool) :
    ∃ r, s.serveAll (s.pollSet.mapIdx fun i entry => { entry with revents := revents i }) reads
      s.table.count = some r ∧ Walked s revents reads 0 r := by
  have hcalls : (s.calls revents reads).drop s.table.count = [] := by
    refine drop_of_length_le (Nat.le_of_eq ?_)
    rw [calls, length_mapIdx, s.table.length_live]
  have hstart : Walked s revents reads s.table.count s := by
    refine ⟨?_, ?_, ?_, fun _ _ _ _ => rfl, ?_, ?_⟩
    · rw [hcalls]
      exact (append_nil _).symm
    · rw [hcalls]
      exact (append_nil _).symm
    · rw [hcalls, take_of_length_le (Nat.le_of_eq s.table.length_live)]
      exact (append_nil _).symm
    · intro j hj source hsource
      have hlt := (List.getElem?_eq_some_iff.1 hsource).1
      rw [s.table.length_live] at hlt
      omega
    · rw [outputsFrom, drop_of_length_le (by rw [length_zipIdx, s.table.length_live])]
      rfl
  exact hstart.serveAll (Nat.le_refl _)

/-- In a pass whose poll reports something, the calls of `forward_events` are one for each source of
    the poll array, the last one first, each with the entry of its own descriptor and the events
    that are read from it: this is the state in which the source and the virtual devices are left.
    The sources whose call failed are disconnected, and the others stay in the array, in the order
    in which they were. -/
theorem poll_round_serves_each (s : Round) (revents : Nat → Revents)
    (reads : Nat → List (InputEvent × Option (List UInt8)) × Bool)
    (hreported : ∃ i < s.table.count, revents i ≠ {}) :
    ∃ r, s.pass (.reported revents) reads = some r ∧
      r.forwarded = s.forwarded ++ (s.calls revents reads).reverse ∧
      (∀ i source, s.table.live[i]? = some source →
        r.heap source = (s.turnOf revents reads i source).2.source) ∧
      r.outputs = s.outputsFrom revents reads 0 ∧
      r.disconnected = s.disconnected ++
        ((s.calls revents reads).reverse.filter (!·.ok)).map (·.source) ∧
      r.table.live = ((s.calls revents reads).filter (·.ok)).map (·.source) ∧
      r.table.count = ((s.calls revents reads).filter (·.ok)).length := by
  obtain ⟨i, hi, hrevents⟩ := hreported
  have hsource := getElem?_eq_getElem (hi.trans_eq s.table.length_live.symm)
  have hresult : (s.pollSet.mapIdx fun i entry => { entry with revents := revents i }).any
      (·.revents != {}) = true :=
    any_eq_true.2 ⟨_, mem_of_getElem? (pollSet_getElem? hsource), bne_iff_ne.2 hrevents⟩
  obtain ⟨r, hr, hwalked⟩ := serveAll_walked s revents reads
  have hlive : r.table.live = ((s.calls revents reads).filter (·.ok)).map (·.source) := hwalked.live
  refine ⟨r, ?_, hwalked.forwarded, fun i => hwalked.behind i (Nat.zero_le i), hwalked.outputs,
    hwalked.disconnected, hlive, ?_⟩
  · rw [pass, if_pos hresult]
    exact hr
  · rw [← r.table.length_live, hlive, length_map]

/-- Two keyboards. -/
def twoKeyboards : List Bridge.Move :=
  [.scan ([3, 4].map fun fd => ⟨toString fd.val, some fd, some (busBluetooth, "BT Keyboard"), false,
    true, true, true⟩)]

def keyboardsRound : Round where
  table := ⟨[0, 1], 2, by decide, by decide⟩
  heap source := (Bridge.run false false twoKeyboards).sources.getD source { fd := 0 }
  outputs := (Bridge.run false false twoKeyboards).outputs

/-- The first keyboard goes away, and a key is pressed on the second one. -/
def unplugging (i : Nat) : Revents := if i = 0 then { error := true } else { input := true }

theorem poll_round_serves_each_unplugged : ∃ r,
    keyboardsRound.pass (.reported unplugging) (fun _ => ([(⟨evKey, 30, 1⟩, none)], true)) =
        some r ∧
      r.table.live = [1] ∧ (r.heap 1).pressed 30 = true ∧ r.disconnected = [0] := by
  obtain ⟨r, hr, -, hheap, -, hdisconnected, hlive, -⟩ := poll_round_serves_each keyboardsRound
    unplugging (fun _ => ([(⟨evKey, 30, 1⟩, none)], true)) ⟨0, by decide, by decide⟩
  refine ⟨r, hr, hlive.trans rfl, ?_, hdisconnected.trans rfl⟩
  rw [hheap 1 1 rfl]
  rfl

/-- When no descriptor has a result, `poll` returns 0 and no source is forwarded. -/
theorem poll_round_without_result : ∃ r,
    keyboardsRound.pass (.reported fun _ => {}) (fun _ => ([(⟨evKey, 30, 1⟩, none)], true)) =
        some r ∧
      keyboardsRound.table.live = [0, 1] ∧ r.forwarded = [] :=
  ⟨keyboardsRound, rfl, rfl, rfl⟩

/-! ## The pass in the bridge -/

theorem bridge_getElem? (hsource : r.table.live[i]? = some source) :
    r.bridge.sources[i]? = some (r.heap source) := by
  rw [bridge, getElem?_map, hsource]
  rfl

theorem bridge_forward (hsource : r.table.live[i]? = some source) (polled : PollFd)
    (events : List (InputEvent × Option (List UInt8))) (drained : Bool) :
    ((r.forward source polled events drained).1, (r.forward source polled events drained).2.bridge) =
      r.bridge.forward i polled.revents events drained := by
  have hi := (List.getElem?_eq_some_iff.1 hsource).1
  have hset : ∀ p : Physical, r.table.live.map (Function.update r.heap source p) =
      (r.table.live.map r.heap).set i p := by
    intro p
    refine ext_getElem? fun j => ?_
    rw [getElem?_set, getElem?_map, getElem?_map, length_map]
    by_cases hij : i = j
    · subst hij
      rw [hsource, if_pos rfl, if_pos hi]
      exact congrArg some (Function.update_self _ _ _)
    · rw [if_neg hij]
      cases hj : r.table.live[j]? with
      | none => rfl
      | some other =>
        have hne : other ≠ source := by
          rintro rfl
          exact hij ((getElem?_inj hi r.table.distinct).1 (hsource.trans hj.symm))
        exact congrArg some (Function.update_of_ne hne _ _)
  rw [Bridge.forward, bridge_getElem? hsource]
  simp only [forward, bridge, hset]

theorem bridge_disconnectPhysical (hr : r.disconnectPhysical i = some r') :
    r'.bridge = r.bridge.disconnectPhysical i := by
  unfold disconnectPhysical at hr
  split at hr
  case isTrue hi =>
    obtain ⟨source, hsource, rfl⟩ := Option.map_eq_some_iff.1 hr
    rw [Bridge.disconnectPhysical, bridge_getElem? hsource]
    simp only [bridge, SourceTable.live_removeAt, eraseIdx_map]
  case isFalse => cases hr

/-- A turn is a call of `forward_events`, and the end of the source if it fails. -/
theorem bridge_serve (hr : r.serve fds reads i = some r') :
    ∃ moves : List Bridge.Move, r'.bridge = moves.foldl Bridge.step r.bridge := by
  obtain ⟨source, hsource, hr⟩ := Option.bind_eq_some_iff.1 hr
  obtain ⟨polled, -, hr⟩ := Option.bind_eq_some_iff.1 hr
  have hmove := bridge_forward hsource polled (reads i).1 (reads i).2
  split at hr
  case h_1 s hforward =>
    cases hr
    refine ⟨[.forward i polled.revents (reads i).1 (reads i).2], ?_⟩
    rw [hforward] at hmove
    exact congrArg Prod.snd hmove
  case h_2 s hforward =>
    refine ⟨[.forward i polled.revents (reads i).1 (reads i).2, .disconnect i], ?_⟩
    rw [hforward] at hmove
    have hforwarded : s.bridge =
        r.bridge.step (.forward i polled.revents (reads i).1 (reads i).2) :=
      congrArg Prod.snd hmove
    calc r'.bridge = s.bridge.step (.disconnect i) := bridge_disconnectPhysical hr
      _ = (r.bridge.step (.forward i polled.revents (reads i).1 (reads i).2)).step
          (.disconnect i) := by rw [hforwarded]

theorem bridge_serveAll {n : Nat} (hr : r.serveAll fds reads n = some r') :
    ∃ moves : List Bridge.Move, r'.bridge = moves.foldl Bridge.step r.bridge := by
  induction n generalizing r with
  | zero =>
    cases hr
    exact ⟨[], rfl⟩
  | succ n ih =>
    obtain ⟨s, hserve, hrest⟩ := Option.bind_eq_some_iff.1 hr
    obtain ⟨first, hfirst⟩ := bridge_serve hserve
    obtain ⟨rest, hmoves⟩ := ih hrest
    refine ⟨first ++ rest, ?_⟩
    rw [hmoves, hfirst, foldl_append]

/-- A pass of the loop is a run of moves of the bridge. -/
theorem bridge_pass {polled : Polled} (hr : r.pass polled reads = some r') :
    ∃ moves : List Bridge.Move, r'.bridge = moves.foldl Bridge.step r.bridge := by
  cases polled with
  | reported revents =>
    rw [pass] at hr
    split at hr
    · exact bridge_serveAll hr
    · cases hr
      exact ⟨[], rfl⟩
  | interrupted =>
    cases hr
    exact ⟨[], rfl⟩
  | failed =>
    cases hr
    exact ⟨[], rfl⟩

/-- A pass always comes to its end: the walk never leaves the array. -/
theorem pass_returns (s : Round) (polled : Polled)
    (reads : Nat → List (InputEvent × Option (List UInt8)) × Bool) :
    ∃ r, s.pass polled reads = some r := by
  cases polled with
  | reported revents =>
    rw [pass]
    split
    · obtain ⟨r, hr, -⟩ := serveAll_walked s revents reads
      exact ⟨r, hr⟩
    · exact ⟨s, rfl⟩
  | interrupted => exact ⟨s, rfl⟩
  | failed => exact ⟨_, rfl⟩

/-- Passes follow a run of the bridge with a longer one. -/
theorem bridge_passAll {hiresWheel hiresHwheel : Bool} {moves : List Bridge.Move}
    (hstart : r.bridge = Bridge.run hiresWheel hiresHwheel moves)
    (passes : List (Polled × (Nat → List (InputEvent × Option (List UInt8)) × Bool))) :
    ∃ r' moves', r.passAll passes = some r' ∧
      r'.bridge = Bridge.run hiresWheel hiresHwheel moves' := by
  induction passes generalizing r moves with
  | nil => exact ⟨r, moves, rfl, hstart⟩
  | cons x passes ih =>
    obtain ⟨r₁, hpass⟩ := r.pass_returns x.1 x.2
    obtain ⟨more, hmore⟩ := bridge_pass hpass
    have hnext : r₁.bridge = Bridge.run hiresWheel hiresHwheel (moves ++ more) := by
      rw [hmore, hstart, Bridge.run, Bridge.run, foldl_append]
    obtain ⟨r', moves', hrest, hbridge⟩ := ih hnext
    refine ⟨r', moves', ?_, hbridge⟩
    rw [passAll, foldlM_cons, hpass]
    exact hrest

/-- However many passes of the loop follow a run of the bridge, whatever `poll` reports and whichever
    sources go away in the middle of a walk, they come to their end: the counter of a virtual key is
    the number of sources in the array that hold it, and what is written for the key are presses and
    releases in turn. -/
theorem passes_keep_keys {hiresWheel hiresHwheel : Bool} {moves : List Bridge.Move}
    (hstart : r.bridge = Bridge.run hiresWheel hiresHwheel moves)
    (passes : List (Polled × (Nat → List (InputEvent × Option (List UInt8)) × Bool))) :
    ∃ r', r.passAll passes = some r' ∧ ∀ (d : Device) (code : Nat),
      ((r'.outputs d).holders code).toNat =
          r'.table.live.countP (fun source => (r'.heap source).holds d code) ∧
        Taps ((r'.outputs d).holders code != 0) (keyValues code (r'.outputs d).emitted) := by
  obtain ⟨r', moves', hrun, hbridge⟩ := bridge_passAll hstart passes
  have hfans := fansIn_run hiresWheel hiresHwheel moves'
  rw [← hbridge] at hfans
  refine ⟨r', hrun, fun d code => ⟨?_, hfans.taps d code⟩⟩
  rw [← Function.comp_def (Physical.holds d code), ← countP_map]
  exact hfans.holders d code

/-- A key is pressed on both keyboards, and then one of them goes away. -/
def keyboardsPasses : List (Polled × (Nat → List (InputEvent × Option (List UInt8)) × Bool)) :=
  [(.reported fun _ => { input := true }, fun _ => ([(⟨evKey, 30, 1⟩, none)], true)),
    (.reported fun i => { error := i == 0 }, fun _ => ([], true))]

theorem passes_keep_keys_pressed : ∃ r' : Round,
    keyboardsRound.passAll keyboardsPasses = some r' ∧ r'.table.live = [1] ∧
      ((r'.outputs .keyboard).holders 30).toNat =
        r'.table.live.countP (fun source => (r'.heap source).holds .keyboard 30) := by
  have hstart : keyboardsRound.bridge = Bridge.run false false twoKeyboards := rfl
  obtain ⟨r', hr, hkeys⟩ := passes_keep_keys hstart keyboardsPasses
  have hrun : (keyboardsRound.passAll keyboardsPasses).any (fun r => r.table.live == [1]) = true :=
    rfl
  rw [hr] at hrun
  exact ⟨r', hr, beq_iff_eq.1 hrun, (hkeys .keyboard 30).1⟩

end Round

end HdmiLos.Input
