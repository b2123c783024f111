import HdmiLos.Composer.Proofs.HostProofs
import Mathlib.Data.List.Induction

/-!
# Reading the log of the server

The view of a log is what its calls say about the server's variables and the stage of the takeover.
What a log can look like is said call by call: a call fits the calls before it.
-/

namespace HdmiLos.Composer

open Interaction List

/-! ## The view -/

/-- The deadline, the timeout policy, and the phase that the server has acquired since its last
    release. -/
structure View where
  deadline : Nat := 0
  continuous : Bool := false
  stage : UInt32 := acquireNone

/-- What a call changes. -/
def View.step (v : View) : Answered ServerCall.Ans → View
  | ⟨.bootTimeMs .acquired, now⟩ => { v with deadline := now + composerFailsafeMs }
  | ⟨.bootTimeMs .renewed, now⟩ => { v with deadline := now + composerFailsafeMs }
  | ⟨.bootTimeMs .disconnected, now⟩ =>
    { v with deadline := now + disconnectBackstopMs, continuous := false }
  | ⟨.recv _, some request⟩ => { v with continuous := (policyOf request).getD v.continuous }
  | ⟨.acquire phase _, a⟩ => if a.result = statusOk then { v with stage := phase } else v
  | ⟨.release _, _⟩ => {}
  | _ => v

/-- What the calls of a log say. -/
def viewOf (log : ServerLog) : View :=
  log.foldl View.step {}

@[simp] theorem viewOf_snoc (log : ServerLog) (x : Answered ServerCall.Ans) :
    viewOf (log ++ [x]) = (viewOf log).step x := by
  simp [viewOf]

/-- The calls that the view does not depend on. -/
def ServerCall.plain : ServerCall → Bool
  | bootTimeMs .timeout => true
  | bootTimeMs _ => false
  | recv _ => false
  | acquire _ _ => false
  | release _ => false
  | _ => true

variable {c : ServerCall}

theorem ServerCall.tame_of_plain (h : c.plain = true) : c.tame = true := by
  cases c <;> first | rfl | cases h

theorem View.step_plain (v : View) (h : c.plain = true) (a : c.Ans) : v.step ⟨c, a⟩ = v := by
  cases c with
  | bootTimeMs site => cases site <;> first | rfl | cases h
  | recv fd => cases h
  | acquire phase response => cases h
  | release reason => cases h
  | _ => rfl

theorem View.step_deadline (v : View) (x : Answered ServerCall.Ans) : (v.step x).deadline =
      if isReleaseCall x then 0
      else match grantedAt x, disconnectedAt x with
        | some now, _ => now + composerFailsafeMs
        | none, some now => now + disconnectBackstopMs
        | none, none => v.deadline := by
  obtain ⟨c, a⟩ := x
  cases c with
  | bootTimeMs site => cases site <;> rfl
  | recv fd => cases a <;> rfl
  | acquire phase response =>
    simp only [View.step]
    split <;> rfl
  | _ => rfl

theorem View.step_stage (v : View) (x : Answered ServerCall.Ans) : (v.step x).stage =
      if isReleaseCall x then acquireNone else (acquiredBy x).getD v.stage := by
  obtain ⟨c, a⟩ := x
  cases c with
  | bootTimeMs site => cases site <;> rfl
  | recv fd => cases a <;> rfl
  | acquire phase response =>
    simp only [View.step, isReleaseCall, acquiredBy]
    split <;> rfl
  | _ => rfl

variable {x : Answered ServerCall.Ans} {v : View}

theorem View.step_continuous (hv : v.continuous = false) (hx : asksContinuous x = false) :
    (v.step x).continuous = false := by
  obtain ⟨c, a⟩ := x
  cases c with
  | bootTimeMs site => cases site <;> first | rfl | exact hv
  | recv fd =>
    cases a with
    | none => exact hv
    | some request =>
      simp only [asksContinuous] at hx
      simp only [View.step]
      cases hpolicy : policyOf request with
      | none => exact hv
      | some policy =>
        cases policy with
        | false => rfl
        | true =>
          rw [hpolicy] at hx
          cases hx
  | acquire phase response =>
    simp only [View.step]
    split <;> exact hv
  | release reason => rfl
  | _ => exact hv

/-! ## Splitting a log -/

/-- What the calls before a call say about it. -/
def Fits (before : ServerLog) : Answered ServerCall.Ans → Prop
  | ⟨.acquire phase _, a⟩ => a.result = statusOk → NextPhase (viewOf before).stage phase
  | ⟨.bootTimeMs .acquired, _⟩ => ∃ older x phase, before = older ++ [x] ∧ acquiredBy x = some phase
  | ⟨.bootTimeMs .renewed, _⟩ => (viewOf before).continuous = true
  | _ => True

theorem fits_plain (h : c.plain = true) (before : ServerLog) (a : c.Ans) : Fits before ⟨c, a⟩ := by
  cases c with
  | bootTimeMs site => cases site <;> trivial
  | acquire phase response => cases h
  | _ => trivial

/-- Every call of the log fits those before it. -/
def Told (log : ServerLog) : Prop :=
  ∀ before x after, log = before ++ x :: after → Fits before x

theorem told_nil : Told [] := by
  intro before x after h
  cases before <;> cases h

variable {log : ServerLog}

theorem Told.snoc (h : Told log) (hx : Fits log x) : Told (log ++ [x]) := by
  intro before y after heq
  rcases Prog.split_snoc heq with ⟨-, rfl, rfl⟩ | ⟨after', -, hlog⟩
  · exact hx
  · exact h before y after' hlog

/-- A test that finds the deadline passed is followed by the release. -/
def Fires (log : ServerLog) : Prop :=
  ∀ before x after now, log = before ++ x :: after → checkedAt x = some now →
    (viewOf before).deadline ≤ now → ∃ y after', after = y :: after' ∧ isFailsafe y = true

theorem fires_nil : Fires [] := by
  intro before x after now h
  cases before <;> cases h

theorem Fires.snoc (h : Fires log)
    (hx : ∀ now, checkedAt x = some now → now < (viewOf log).deadline) : Fires (log ++ [x]) := by
  intro before y after now heq hy hnow
  rcases Prog.split_snoc heq with ⟨-, rfl, rfl⟩ | ⟨after', rfl, hlog⟩
  · have hlt := hx now hy
    omega
  · obtain ⟨z, rest, rfl, hz⟩ := h before y after' now hlog hy hnow
    exact ⟨z, rest ++ [x], rfl, hz⟩

theorem Fires.expired (h : Fires log) (now : Nat) (r : Int) :
    Fires (log ++ [⟨.bootTimeMs .check, now⟩] ++ [⟨.release "composer 65 second failsafe", r⟩]) := by
  intro before y after now' heq hy hnow
  rcases Prog.split_snoc heq with ⟨-, -, rfl⟩ | ⟨after', rfl, hlog⟩
  · cases hy
  · rcases Prog.split_snoc hlog with ⟨rfl, -, -⟩ | ⟨after'', rfl, hlog'⟩
    · exact ⟨_, [], rfl, rfl⟩
    · obtain ⟨z, rest, rfl, hz⟩ := h before y after'' now' hlog' hy hnow
      exact ⟨z, _, by simp only [cons_append]; rfl, hz⟩

theorem checkedAt_plain (h : c.plain = true) (a : c.Ans) : checkedAt ⟨c, a⟩ = none := by
  cases c with
  | bootTimeMs site => cases site <;> first | rfl | cases h
  | _ => rfl

/-! ## What the view remembers -/

theorem viewOf_append (log log' : ServerLog) :
    viewOf (log ++ log') = log'.foldl View.step (viewOf log) := by
  simp [viewOf]

/-- A deadline is set by the latest grant or disconnect. -/
theorem withinAllowance_viewOf (h : 0 < (viewOf log).deadline) :
    WithinAllowance log (viewOf log).deadline := by
  induction log using List.reverseRecOn with
  | nil => cases h
  | append_singleton log x ih =>
    rw [viewOf_snoc, View.step_deadline] at h ⊢
    cases hrelease : isReleaseCall x with
    | true =>
      rw [hrelease, if_pos rfl] at h
      cases h
    | false =>
      simp only [hrelease, Bool.false_eq_true, if_false] at h ⊢
      cases hgrant : grantedAt x with
      | some now => exact .inl ⟨log, x, [], now, rfl, hgrant, by simp, Nat.le_refl _⟩
      | none =>
        simp only [hgrant] at h ⊢
        cases hdisconnect : disconnectedAt x with
        | some now => exact .inr ⟨log, x, [], now, rfl, hdisconnect, by simp, Nat.le_refl _⟩
        | none =>
          simp only [hdisconnect] at h ⊢
          rcases ih h with ⟨before, y, after, now, rfl, hy, hafter, hle⟩ |
            ⟨before, y, after, now, rfl, hy, hafter, hle⟩
          · refine .inl ⟨before, y, after ++ [x], now, by simp, hy, ?_, hle⟩
            intro z hz
            rcases mem_append.1 hz with hz | hz
            · exact hafter z hz
            · rw [mem_singleton.1 hz, hgrant]
          · refine .inr ⟨before, y, after ++ [x], now, by simp, hy, ?_, hle⟩
            intro z hz
            rcases mem_append.1 hz with hz | hz
            · exact hafter z hz
            · rw [mem_singleton.1 hz, hdisconnect]

/-- Without a grant and a release the deadline stays, or it is that of a disconnect. -/
theorem deadline_of_quiet (hlog : ∀ x ∈ log, grantedAt x = none ∧ isReleaseCall x = false) :
    ((log.foldl View.step v).deadline = v.deadline ∧ ∀ x ∈ log, disconnectedAt x = none) ∨
      ∃ x ∈ log, ∃ now, disconnectedAt x = some now ∧
        (log.foldl View.step v).deadline = now + disconnectBackstopMs := by
  induction log using List.reverseRecOn with
  | nil => exact .inl ⟨rfl, by simp⟩
  | append_singleton log x ih =>
    obtain ⟨hgrant, hrelease⟩ := hlog x (mem_append_right _ mem_cons_self)
    have hstep : ((log ++ [x]).foldl View.step v).deadline =
        ((disconnectedAt x).map (· + disconnectBackstopMs)).getD
          (log.foldl View.step v).deadline := by
      rw [foldl_append, foldl_cons, foldl_nil, View.step_deadline, hrelease, hgrant]
      cases disconnectedAt x <;> rfl
    rw [hstep]
    cases hdisconnect : disconnectedAt x with
    | some now => exact .inr ⟨x, by simp, now, hdisconnect, rfl⟩
    | none =>
      rcases ih fun y hy => hlog y (mem_append_left _ hy) with ⟨hd, hnone⟩ | ⟨y, hy, now, hd, hv⟩
      · refine .inl ⟨hd, fun z hz => ?_⟩
        rcases mem_append.1 hz with hz | hz
        · exact hnone z hz
        · rw [mem_singleton.1 hz, hdisconnect]
      · exact .inr ⟨y, mem_append_left _ hy, now, hd, hv⟩

/-- A stage that is not lost was there before or was acquired since. -/
theorem stage_of_foldl (h : (log.foldl View.step v).stage ≠ acquireNone) :
    v.stage ≠ acquireNone ∨ ∃ x ∈ log, ∃ phase, acquiredBy x = some phase := by
  induction log generalizing v with
  | nil => exact .inl h
  | cons x log ih =>
    rcases ih h with hstage | ⟨y, hy, hphase⟩
    · rw [View.step_stage] at hstage
      cases hrelease : isReleaseCall x with
      | true =>
        rw [hrelease, if_pos rfl] at hstage
        exact absurd rfl hstage
      | false =>
        rw [hrelease] at hstage
        cases hacquired : acquiredBy x with
        | some phase => exact .inr ⟨x, mem_cons_self, phase, hacquired⟩
        | none =>
          rw [hacquired] at hstage
          exact .inl hstage
    · exact .inr ⟨y, mem_cons_of_mem _ hy, hphase⟩

theorem continuous_foldl (hv : v.continuous = false) (hlog : ∀ x ∈ log, asksContinuous x = false) :
    (log.foldl View.step v).continuous = false := by
  induction log generalizing v with
  | nil => exact hv
  | cons x log ih =>
    refine ih (View.step_continuous hv (hlog x mem_cons_self)) ?_
    exact fun y hy => hlog y (mem_cons_of_mem _ hy)

/-! ## The calls after a grant -/

theorem acquiredBy_eq_some {phase : UInt32} (h : acquiredBy x = some phase) :
    ∃ response a, x = ⟨.acquire phase response, a⟩ ∧ a.result = statusOk := by
  obtain ⟨c, a⟩ := x
  cases c with
  | acquire phase' response =>
    simp only [acquiredBy] at h
    split at h
    · rename_i hok
      cases h
      exact ⟨response, a, rfl, hok⟩
    · cases h
  | _ => cases h

theorem Told.of_append {log' : ServerLog} (h : Told (log ++ log')) : Told log := by
  intro before x after heq
  exact h before x (after ++ log') (by rw [heq, append_assoc, cons_append])

variable {after : ServerLog}

theorem Told.next (h : Told log) {before : ServerLog} {phase : UInt32}
    (hlog : log = before ++ x :: after) (hx : acquiredBy x = some phase) :
    NextPhase (viewOf before).stage phase := by
  obtain ⟨response, a, rfl, hok⟩ := acquiredBy_eq_some hx
  exact h before _ after hlog hok

variable {base : ServerLog}

/-- A phase is not acquired after the lease has been created until a new takeover begins. -/
theorem no_acquire_after (htold : Told (base ++ after))
    (hstage : (viewOf base).stage = acquireCreate)
    (hprepare : ∀ x ∈ after, acquiredBy x ≠ some acquirePrepare) :
    (∀ x ∈ after, acquiredBy x = none) ∧ ((viewOf (base ++ after)).stage = acquireCreate ∨
      (viewOf (base ++ after)).stage = acquireNone) := by
  induction after using List.reverseRecOn with
  | nil =>
    rw [append_nil]
    exact ⟨by simp, .inl hstage⟩
  | append_singleton after x ih =>
    rw [← append_assoc] at htold ⊢
    obtain ⟨hnone, hcases⟩ := ih htold.of_append fun y hy => hprepare y (mem_append_left _ hy)
    have hx : acquiredBy x = none := by
      cases hacquired : acquiredBy x with
      | none => rfl
      | some phase =>
        exfalso
        rcases htold.next rfl hacquired with rfl | ⟨-, hp⟩ | ⟨-, hp⟩
        · exact hprepare x (mem_append_right _ mem_cons_self) hacquired
        · rcases hcases with hc | hc
          · exact absurd (hc.symm.trans hp) (by decide)
          · exact absurd (hc.symm.trans hp) (by decide)
        · rcases hcases with hc | hc
          · exact absurd (hc.symm.trans hp) (by decide)
          · exact absurd (hc.symm.trans hp) (by decide)
    refine ⟨fun y hy => ?_, ?_⟩
    · rcases mem_append.1 hy with hy | hy
      · exact hnone y hy
      · rw [mem_singleton.1 hy, hx]
    · rw [viewOf_snoc, View.step_stage, hx]
      split
      · exact .inr rfl
      · exact hcases

/-- Without an acquire, a stage that is still known has not been released. -/
theorem no_release_after (hacquire : ∀ x ∈ after, acquiredBy x = none)
    (hstage : (viewOf (base ++ after)).stage ≠ acquireNone) :
    ∀ x ∈ after, isReleaseCall x = false := by
  intro x hx
  cases hrelease : isReleaseCall x with
  | false => rfl
  | true =>
    exfalso
    obtain ⟨l, l', rfl⟩ := append_of_mem hx
    rw [← append_assoc, viewOf_append, foldl_cons] at hstage
    rcases stage_of_foldl hstage with hnone | ⟨y, hy, phase, hphase⟩
    · rw [View.step_stage, hrelease, if_pos rfl] at hnone
      exact hnone rfl
    · rw [hacquire y (mem_append_right _ (mem_cons_of_mem _ hy))] at hphase
      cases hphase

/-- Without an acquire and a continuous policy nothing is granted. -/
theorem no_grant_after (htold : Told (base ++ after))
    (hcontinuous : (viewOf base).continuous = false)
    (hpolicy : ∀ x ∈ after, asksContinuous x = false)
    (hacquire : ∀ x ∈ after, acquiredBy x = none)
    (hbase : ∀ older x, base = older ++ [x] → acquiredBy x = none) :
    ∀ x ∈ after, grantedAt x = none := by
  intro x hx
  obtain ⟨l, l', rfl⟩ := append_of_mem hx
  have hfits : Fits (base ++ l) x := htold (base ++ l) x l' (by rw [append_assoc])
  obtain ⟨c, a⟩ := x
  cases c with
  | bootTimeMs site =>
    cases site with
    | acquired =>
      exfalso
      obtain ⟨older, y, phase, hlog, hphase⟩ := hfits
      rcases eq_nil_or_concat l with rfl | ⟨l₀, z, rfl⟩
      · rw [append_nil] at hlog
        rw [hbase older y hlog] at hphase
        cases hphase
      · rw [concat_eq_append, ← append_assoc] at hlog
        have hz : z = y := singleton_inj.1 (append_inj' hlog rfl).2
        rw [← hz, hacquire z (mem_append_left _ (by simp))] at hphase
        cases hphase
    | renewed =>
      exfalso
      have hfalse : (viewOf (base ++ l)).continuous = false := by
        rw [viewOf_append]
        exact continuous_foldl hcontinuous fun y hy => hpolicy y (mem_append_left _ hy)
      exact absurd (hfits.symm.trans hfalse) (by decide)
    | _ => rfl
  | _ => rfl

/-- Without a grant and a release the deadline is bounded, and so are the tests of it. -/
theorem deadline_bounded (bound : Nat) (hfires : Fires (base ++ after))
    (hgrant : ∀ x ∈ after, grantedAt x = none) (hrelease : ∀ x ∈ after, isReleaseCall x = false)
    (hbase : (viewOf base).deadline ≤ bound)
    (hdisconnect : ∀ x ∈ after, ∀ now, disconnectedAt x = some now →
      now + disconnectBackstopMs ≤ bound) :
    (viewOf (base ++ after)).deadline ≤ bound ∧
      ∀ x ∈ after, ∀ now, checkedAt x = some now → now < bound := by
  have hbound : ∀ l, l <+: after → (viewOf (base ++ l)).deadline ≤ bound := by
    rintro l hl
    rw [viewOf_append]
    rcases deadline_of_quiet (v := viewOf base)
      fun x (hx : x ∈ l) => ⟨hgrant x (hl.subset hx), hrelease x (hl.subset hx)⟩ with
      ⟨hd, -⟩ | ⟨x, hx, now, hnow, hd⟩
    · rw [hd]
      exact hbase
    · rw [hd]
      exact hdisconnect x (hl.subset hx) now hnow
  refine ⟨hbound after (prefix_refl _), fun x hx now hnow => ?_⟩
  by_contra hlate
  obtain ⟨l, l', rfl⟩ := append_of_mem hx
  have hdue : (viewOf (base ++ l)).deadline ≤ now :=
    Nat.le_trans (hbound l (prefix_append _ _)) (Nat.le_of_not_lt hlate)
  obtain ⟨y, rest, rfl, hy⟩ := hfires (base ++ l) x l' now (by rw [append_assoc]) hnow hdue
  have hquiet := hrelease y (by simp)
  obtain ⟨c, a⟩ := y
  cases c with
  | release reason => cases hquiet
  | _ => cases hy

/-! ## Hotplug events -/

theorem HotplugSent.of_snoc
    (h : HotplugSent (log ++ [x])) : HotplugSent log ∧ hotplugLost x = false := by
  refine ⟨fun y hy => h y (mem_append_left _ hy), h x ?_⟩
  exact mem_append_right _ mem_cons_self

end HdmiLos.Composer
