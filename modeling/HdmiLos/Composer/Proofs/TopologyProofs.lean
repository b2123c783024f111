import HdmiLos.Composer.Topology
import HdmiLos.Interaction.Proofs.MachineProofs

/-!
# The fixed primary plane of a CRTC

The loop of `GetFixedPrimaryPlane` counts the planes that it recognises as primary. The plane that it
stops at has the rank of the CRTC if those are the first planes of the primary type. A plane that
cannot be inspected is not counted, so the ranks behind it are too low.
-/

namespace HdmiLos.Composer

open Interaction Prog List

variable {T : PlaneTopology} {id crtc : UInt32} {v : Session} {x : Survey} {h : Prop}

/-! ## Looking at a plane -/

/-- The observer of a call. The second component says that all answers were the device's. -/
def surveyMonitor (T : PlaneTopology) : Monitor Io.Ans (Survey × Prop) where
  allows _ _ := True
  next m c a := (m.1.step c a, m.2 ∧ T.Reports c a)

theorem obeys_query {c : Io} {Q : c.Ans → Session → Survey × Prop → Prop}
    (hQ : ∀ a, Q a v (x.step c a, h ∧ T.Reports c a)) :
    (call c).Obeys (surveyMonitor T) Q v (x, h) :=
  ⟨trivial, hQ⟩

/-- Once an answer was not the device's, nothing more has to be shown. -/
theorem obeys_truthful {α : Type} {p : SessionProg α} {Q : α → Survey → Prop} {m : Survey × Prop}
    (hp : m.2 → p.Obeys (surveyMonitor T) (fun a _ m' => m'.2 → Q a m'.1) v m) :
    p.Obeys (surveyMonitor T) (fun a _ m' => m'.2 → Q a m'.1) v m := by
  by_cases hm : m.2
  · exact hp hm
  · refine obeys_mono (obeys_invariant (I := fun _ m' => m'.2 → m.2) (uses_mono (fun op _ => ?_)
      (uses_true p)) id) fun _ _ _ hm' htrue => absurd (hm' htrue) hm
    cases op with
    | modify f => exact fun _ _ hm' => hm'
    | io c => exact fun _ _ hm' => ⟨trivial, fun a htrue => hm' htrue.1⟩
    | _ => trivial

/-- What a look at a plane has left: it was recognised, and then has a property that says so, or it
    was not. -/
structure Looked (T : PlaneTopology) (x : Survey) (properties : List (UInt32 × UInt64))
    (primary : Bool) (x' : Survey) : Prop where
  plane : x'.plane = x.plane
  primaries : x'.primaries = if primary then x.primaries ++ [x.plane] else x.primaries
  found : primary = true → ∃ p ∈ properties, (T.property p.1).name = "type" ∧ p.2 = planeTypePrimary

theorem obeys_findProperty (properties : List (UInt32 × UInt64)) (hx : x.properties = properties) :
    (findProperty "type" properties).Obeys (surveyMonitor T) (fun found _ m => m.2 →
      Looked T x properties (found.any (·.2 == planeTypePrimary)) m.1) v (x, h) := by
  induction properties generalizing x h with
  | nil => exact fun _ => ⟨rfl, rfl, nofun⟩
  | cons p rest ih =>
    obtain ⟨property, value⟩ := p
    refine obeys_bind (obeys_query fun answer => ?_)
    -- the search goes on behind an answer without the name
    have hrest : ∀ answer : Option Property, answer.any (·.name = "type") = false →
        (findProperty "type" rest).Obeys (surveyMonitor T) (fun found _ m => m.2 →
          Looked T x ((property, value) :: rest) (found.any (·.2 == planeTypePrimary)) m.1) v
          (x.step (.getProperty property) answer, h ∧ T.Reports (.getProperty property) answer) := by
      intro answer hname
      have hsame : (x.step (.getProperty property) answer).primaries = x.primaries :=
        if_neg (by rw [hname]; exact Bool.false_ne_true)
      refine obeys_mono (ih (show x.properties.tail = rest by rw [hx]; rfl)) fun _ _ m hm htrue => ?_
      have hprimaries := (hm htrue).primaries
      rw [hsame] at hprimaries
      refine ⟨(hm htrue).plane, hprimaries, fun hp => ?_⟩
      obtain ⟨p, hp, htype⟩ := (hm htrue).found hp
      exact ⟨p, mem_cons_of_mem _ hp, htype⟩
    cases answer with
    | none => exact hrest none rfl
    | some answer =>
      refine obeys_ite (fun hname => ?_) fun hname => hrest (some answer) (by simpa using hname)
      rintro ⟨-, hanswer⟩
      obtain rfl : answer = T.property property := by simpa [PlaneTopology.Reports] using hanswer
      refine ⟨rfl, ?_, fun hp => ⟨(property, value), mem_cons_self, hname, by simpa using hp⟩⟩
      simp [Survey.step, hname, hx]

theorem obeys_isPrimaryPlane (plane : Plane) :
    (isPrimaryPlane plane).Obeys (surveyMonitor T) (fun primary _ m => m.2 →
      Looked T x (T.properties plane.planeId) primary m.1) v (x, h) := by
  refine obeys_bind (obeys_bind (obeys_query fun answer => ?_))
  cases answer with
  | none => exact fun _ => ⟨rfl, rfl, nofun⟩
  | some properties =>
    have hon : (findProperty "type" properties).Obeys (surveyMonitor T) (fun found _ m => m.2 →
        Looked T x (T.properties plane.planeId) (found.any (·.2 == planeTypePrimary)) m.1) v
        (x.step (.objectProperties plane.planeId) (some properties),
          h ∧ T.Reports (.objectProperties plane.planeId) (some properties)) := by
      refine obeys_truthful (Q := fun (found : Option (UInt32 × UInt64)) => Looked T x
        (T.properties plane.planeId) (found.any (·.2 == planeTypePrimary))) fun htrue => ?_
      obtain rfl : properties = T.properties plane.planeId := by
        simpa [PlaneTopology.Reports] using htrue.2
      exact obeys_mono (obeys_findProperty _ rfl) fun _ _ m hm htrue =>
        ⟨(hm htrue).plane, (hm htrue).primaries, (hm htrue).found⟩
    refine obeys_mono hon fun found _ m hm => ?_
    cases found <;> exact hm

/-- In an orderly device, what is recognised is primary. -/
theorem PlaneTopology.Orderly.isPrimary (hT : T.Orderly)
    (h : ∃ p ∈ T.properties id, (T.property p.1).name = "type" ∧ p.2 = planeTypePrimary) :
    T.isPrimary id = true := by
  obtain ⟨p, hp, hname, hvalue⟩ := h
  rw [PlaneTopology.isPrimary, PlaneTopology.typeOf]
  cases hfind : (T.properties id).find? fun q => (T.property q.1).name = "type" with
  | none => exact absurd hname (by simpa using find?_eq_none.1 hfind p hp)
  | some q =>
    have hq := find?_some hfind
    obtain rfl : q = p := hT.single id q (mem_of_find?_eq_some hfind) p hp (by simpa using hq) hname
    simp [hvalue]

/-! ## The loop over the planes -/

/-- The loop has passed the planes `passed`, and has counted those that it recognised. -/
structure Counted (T : PlaneTopology) (passed : List UInt32) (i : UInt32) (x : Survey) : Prop where
  count : i.toNat = x.primaries.length
  bound : x.primaries.length ≤ passed.length
  sublist : T.Orderly → x.primaries.Sublist (passed.filter T.isPrimary)

variable {i : UInt32} {passed : List UInt32}

theorem Counted.skip {x' : Survey} (hx : Counted T passed i x)
    (hprimaries : x'.primaries = x.primaries) (id : UInt32) : Counted T (passed ++ [id]) i x' := by
  refine ⟨hprimaries ▸ hx.count, ?_, fun hT => ?_⟩
  · rw [hprimaries, length_append]
    exact Nat.le_add_right_of_le hx.bound
  · rw [hprimaries, filter_append]
    exact (hx.sublist hT).trans (sublist_append_left _ _)

theorem Counted.recognise {x' : Survey} (hx : Counted T passed i x)
    (hprimaries : x'.primaries = x.primaries ++ [id])
    (hprimary : T.Orderly → T.isPrimary id = true) (hbound : passed.length + 1 < 2 ^ 32) :
    Counted T (passed ++ [id]) (i + 1) x' := by
  have hle := hx.bound
  refine ⟨?_, ?_, fun hT => ?_⟩
  · rw [hprimaries, length_append, UInt32.toNat_add, hx.count]
    simp
    omega
  · rw [hprimaries, length_append, length_append]
    simpa using hle
  · rw [hprimaries, filter_append]
    simpa [hprimary hT] using (hx.sublist hT).append_right [id]

/-- What the loop leaves: the index, and a plane only if it recognised that one as the last, with as
    many before it as the index says. -/
structure Found (T : PlaneTopology) (index : UInt32) (x : Survey) (out : FixedPrimary) : Prop where
  crtcIndex : out.crtcIndex = index
  plane : out.planeId ≠ 0 → ∃ passed rest r, T.planes = passed ++ out.planeId :: rest ∧
    x.primaries = r ++ [out.planeId] ∧ r.length = index.toNat ∧
    (T.Orderly → r.Sublist (passed.filter T.isPrimary) ∧ T.isPrimary out.planeId = true) ∧
    (T.plane out.planeId).possibleCrtcs &&& (1 <<< index) ≠ 0

/-- The scan counts the primary planes it passes. -/
theorem obeys_scanPrimaryPlanes {rest : List UInt32} {index : UInt32} {out : FixedPrimary}
    (hplanes : T.planes = passed ++ rest) (hx : Counted T passed i x)
    (hindex : out.crtcIndex = index) (hout : out.planeId = 0) :
    (scanPrimaryPlanes rest i out).Obeys (surveyMonitor T)
      (fun out _ m => m.2 → Found T index m.1 out) v (x, h) := by
  induction rest generalizing passed i out x h v with
  | nil => exact fun _ => ⟨hindex, fun hid => absurd hout hid⟩
  | cons id rest ih =>
    have hplanes' : T.planes = (passed ++ [id]) ++ rest := by
      rw [append_assoc]
      exact hplanes
    have hbound : passed.length + 1 < 2 ^ 32 := by
      have hlength := T.planeBound
      rw [hplanes, length_append, length_cons] at hlength
      omega
    refine obeys_bind (obeys_query fun answer =>
      obeys_truthful (Q := fun out x => Found T index x out) fun htrue => ?_)
    cases answer with
    | none => exact ih hplanes' (hx.skip rfl id) hindex hout
    | some plane =>
      obtain rfl : plane = T.plane id := by simpa [PlaneTopology.Reports] using htrue.2
      refine obeys_bind (obeys_mono (obeys_isPrimaryPlane _) fun primary v' m hm => ?_)
      refine obeys_truthful (Q := fun out x => Found T index x out) fun htrue' => ?_
      obtain ⟨x', h'⟩ := m
      have hlooked := hm htrue'
      rw [T.named] at hlooked
      cases primary with
      | false => exact ih hplanes' (hx.skip hlooked.primaries id) hindex hout
      | true =>
        have hprimary : T.Orderly → T.isPrimary id = true := fun hT => hT.isPrimary (hlooked.found rfl)
        have hcounted := hx.recognise hlooked.primaries hprimary hbound
        rw [if_pos rfl]
        refine obeys_ite (fun hmatch => obeys_ite (fun hid _ => ⟨hindex, fun _ => ?_⟩) fun hid => ?_)
          fun _ => ih hplanes' hcounted hindex hout
        · show ∃ passed' rest' r, T.planes = passed' ++ (T.plane id).planeId :: rest' ∧ _
          rw [T.named]
          refine ⟨passed, rest, x.primaries, hplanes, hlooked.primaries, ?_,
            fun hT => ⟨hx.sublist hT, hprimary hT⟩, ?_⟩
          · rw [← hx.count, hmatch.1, hindex]
          · rw [← hindex]
            exact hmatch.2
        · exact ih hplanes' hcounted hindex (not_not.1 hid)

/-! ## The whole function -/

theorem crtcIndexOf_lt {crtcs : List UInt32} (hbound : crtcs.length < 2 ^ 31)
    (hindex : crtcIndexOf crtcs crtc < 32) :
    crtcs.findIdx? (· == crtc) = some (crtcIndexOf crtcs crtc).toNat := by
  unfold crtcIndexOf at hindex ⊢
  cases hfound : crtcs.findIdx? (· == crtc) with
  | none =>
    rw [hfound] at hindex
    exact absurd hindex (by decide)
  | some i =>
    have hi : i < crtcs.length := (findIdx?_eq_some_iff_findIdx_eq.1 hfound).1
    show some i = some (UInt32.ofNat i).toNat
    rw [UInt32.toNat_ofNat_of_lt' (Nat.lt_trans (Nat.lt_trans hi hbound) (by decide))]

/-- What is left of a call: an error without a plane, or what the loop has found. -/
def Resolved (T : PlaneTopology) (crtc : UInt32) (r : DisplayError × FixedPrimary)
    (x : Survey) : Prop :=
  if r.1 = .noError then r.2.planeId ≠ 0 ∧ r.2.crtcIndex < 32 ∧
    T.crtcs.findIdx? (· == crtc) = some r.2.crtcIndex.toNat ∧ Found T r.2.crtcIndex x r.2
  else r.2.planeId = 0

theorem obeys_getFixedPrimaryPlane (T : PlaneTopology) (crtc : UInt32) :
    (getFixedPrimaryPlane crtc).Obeys (surveyMonitor T)
      (fun r _ m => m.2 → Resolved T crtc r m.1) v ({}, h) := by
  refine obeys_bind (obeys_query fun answer =>
    obeys_truthful (Q := Resolved T crtc) fun htrue => ?_)
  cases answer with
  | none => exact fun _ => rfl
  | some crtcs =>
    obtain rfl : crtcs = T.crtcs := by simpa [PlaneTopology.Reports] using htrue.2
    refine obeys_ite (fun _ _ => rfl) fun hindex => ?_
    have hlt : crtcIndexOf T.crtcs crtc < 32 := UInt32.not_le.1 hindex
    refine obeys_bind (obeys_query fun answer =>
      obeys_truthful (Q := Resolved T crtc) fun htrue => ?_)
    cases answer with
    | none => exact fun _ => rfl
    | some planes =>
      obtain rfl : planes = T.planes := by simpa [PlaneTopology.Reports] using htrue.2
      refine obeys_bind (obeys_mono (obeys_scanPrimaryPlanes (nil_append _).symm
        ⟨rfl, Nat.le_refl _, fun _ => List.Sublist.slnil⟩ rfl rfl) fun out _ m hm => ?_)
      refine obeys_ite (fun hzero _ => hzero) fun hfound htrue => ?_
      have hout := hm htrue
      rw [Resolved, if_pos rfl, hout.crtcIndex]
      exact ⟨hfound, hlt, crtcIndexOf_lt T.crtcBound hlt, hout⟩

/-- In an orderly device a plane has one place among the primary ones. -/
theorem PlaneTopology.Orderly.rank (hT : T.Orderly) {rest r : List UInt32} {plane : UInt32}
    (hplanes : T.planes = passed ++ plane :: rest) (hr : r.Sublist (passed.filter T.isPrimary))
    (hprimary : T.isPrimary plane = true) (hrank : T.primaries[r.length]? = some plane) :
    r ++ [plane] <+: T.primaries := by
  have hsplit : T.primaries = passed.filter T.isPrimary ++ plane :: rest.filter T.isPrimary := by
    rw [PlaneTopology.primaries, hplanes, filter_append, filter_cons_of_pos hprimary]
  have hnodup : T.primaries.Nodup := hT.distinct.filter _
  have hplace : T.primaries[(passed.filter T.isPrimary).length]? = some plane := by
    rw [hsplit]
    simp
  obtain ⟨hlt, -⟩ := List.getElem?_eq_some_iff.1 hrank
  have hlength : r.length = (passed.filter T.isPrimary).length :=
    (getElem?_inj hlt hnodup).1 (hrank.trans hplace.symm)
  rw [hr.eq_of_length hlength, hsplit]
  exact ⟨rest.filter T.isPrimary, by simp⟩

/-- Every call that returns an error returns no plane. One that succeeds has found the fixed plane of
    the CRTC if the planes that it recognised are the first ones of the primary type, and, in an
    orderly device, only then. -/
theorem fixed_primary_exact {ω : Type} {T : PlaneTopology} {env : Env ω} {crtc : UInt32}
    {s t : Sys ω} {error : DisplayError} {out : FixedPrimary} {new : List (Answered Io.Ans)}
    (hrun : (getFixedPrimaryPlane crtc).run (sysHandler env) s = (some (error, out), t))
    (hlog : t.log = s.log ++ new) (hreports : ∀ x ∈ new, T.Reports x.1 x.2) :
    ((error = .noError → recognised new <+: T.primaries) → T.Fixes crtc error out) ∧
      (T.Orderly → T.Fixes crtc error out → error = .noError → recognised new <+: T.primaries) := by
  obtain ⟨new', hlog', hpost⟩ := wp_returned
    (wp_obeys (obeys_getFixedPrimaryPlane (h := True) T crtc)) hrun
  obtain rfl : new = new' := append_cancel_left (hlog.symm.trans hlog')
  have hsurvey : ∀ (x : Survey) (h : Prop) (calls : List (Answered Io.Ans)),
      ((surveyMonitor T).after (x, h) calls).1 = calls.foldl (fun x e => x.step e.1 e.2) x ∧
        (h → (∀ e ∈ calls, T.Reports e.1 e.2) → ((surveyMonitor T).after (x, h) calls).2) := by
    intro x h calls
    induction calls generalizing x h with
    | nil => exact ⟨rfl, fun hh _ => hh⟩
    | cons e calls ih =>
      refine ⟨(ih _ _).1, fun hh hall => (ih _ _).2 ⟨hh, hall e mem_cons_self⟩ fun e' he' => ?_⟩
      exact hall e' (mem_cons_of_mem _ he')
  have hout := hpost ((hsurvey _ _ _).2 trivial hreports)
  unfold Resolved at hout
  by_cases herror : error = .noError
  · rw [if_pos herror] at hout
    obtain ⟨hplane, hlt, hcrtc, hfound⟩ := hout
    obtain ⟨passed, rest, r, hplanes, hprimaries, hlength, horderly, hbit⟩ := hfound.plane hplane
    rw [(hsurvey _ _ _).1] at hprimaries
    have hrecognised : recognised new = r ++ [out.planeId] := hprimaries
    rw [PlaneTopology.Fixes, if_pos herror, hrecognised, ← hlength]
    constructor
    · intro hseg
      obtain ⟨later, hlater⟩ := hseg herror
      refine ⟨hlength ▸ hcrtc, hlt, ?_, hbit⟩
      rw [← hlater]
      simp
    · intro hT hfixes _
      exact hT.rank hplanes (horderly hT).1 (horderly hT).2 hfixes.2.2.1
  · rw [if_neg herror] at hout
    rw [PlaneTopology.Fixes, if_neg herror]
    exact ⟨fun _ => hout, fun _ _ h => absurd h herror⟩

/-- Two CRTCs, and three planes of the primary type. -/
def threePrimaries : PlaneTopology where
  crtcs := [10, 20]
  planes := [1, 2, 3]
  plane id := { planeId := id, possibleCrtcs := 3 }
  properties _ := [(5, 0), (7, planeTypePrimary)]
  property id := { id := id, name := if id = 7 then "type" else "FB_ID" }
  named _ := rfl
  crtcBound := by decide
  planeBound := by decide

/-- The queries of another property fail, and the second plane is found all the same. -/
theorem fixed_primary_exact_three :
    ∃ (t : Sys Unit) (out : FixedPrimary) (new : List (Answered Io.Ans)),
      (getFixedPrimaryPlane 20).run (sysHandler (threePrimaries.env (· matches .getProperty 5)))
        { vars := { numDisplays := 0 }, world := () } = (some (.noError, out), t) ∧
      t.log = [] ++ new ∧ threePrimaries.Fixes 20 .noError out := by
  have hcall : ∃ (t : Sys Unit) (out : FixedPrimary) (new : List (Answered Io.Ans)),
      (getFixedPrimaryPlane 20).run (sysHandler (threePrimaries.env (· matches .getProperty 5)))
        { vars := { numDisplays := 0 }, world := () } = (some (.noError, out), t) ∧
      t.log = [] ++ new ∧ (∀ x ∈ new, threePrimaries.Reports x.1 x.2) ∧ recognised new = [1, 2] :=
    ⟨_, ⟨1, 2, 0⟩, _, rfl, rfl, by simp [PlaneTopology.Reports], rfl⟩
  obtain ⟨t, out, new, hrun, hlog, hreports, hrecognised⟩ := hcall
  refine ⟨t, out, new, hrun, hlog, (fixed_primary_exact hrun hlog hreports).1 fun _ => ?_⟩
  rw [hrecognised]
  exact ⟨[3], by decide⟩

/-- The first plane cannot be inspected, and the third is taken for the second. -/
theorem fixed_primary_shifted :
    ∃ (T : PlaneTopology) (env : Env Unit) (s t : Sys Unit) (out : FixedPrimary)
      (new : List (Answered Io.Ans)),
      (getFixedPrimaryPlane 20).run (sysHandler env) s = (some (.noError, out), t) ∧
      t.log = s.log ++ new ∧ (∀ x ∈ new, T.Reports x.1 x.2) ∧ ¬T.Fixes 20 .noError out := by
  refine ⟨threePrimaries, threePrimaries.env (· matches .getPlane 1),
    { vars := { numDisplays := 0 }, world := () }, _, ⟨1, 3, 0⟩, _, rfl, rfl, ?_, ?_⟩
  · simp [PlaneTopology.Reports]
  · rw [PlaneTopology.Fixes, if_pos rfl]
    rintro ⟨-, -, hplane, -⟩
    exact absurd hplane (by decide)

end HdmiLos.Composer
