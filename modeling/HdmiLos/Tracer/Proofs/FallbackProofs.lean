import HdmiLos.Tracer.Fallback
import HdmiLos.Tracer.Proofs.PartsProofs

/-!
# The page-flip substitution

The calls of the interposer around the kernel calls are reports: they contain no kernel call, so
they change nothing about which flips were made and what was verified. What remains is the path from
the rejected modeset to the flip, executed symbolically.
-/

namespace HdmiLos.Tracer

open Interaction Prog List

variable {ω α : Type} {env : Env ω} {H : Sys ω → Prop} {s t : Sys ω}

/-! ## Weakest preconditions -/

@[simp] theorem wp_getThread (Q : Thread → Sys ω → Prop) :
    wp (sysHandler env) getThread Q s H = Q s.vars s := rfl

@[simp] theorem wp_assign (f : Thread → Thread) (Q : Unit → Sys ω → Prop) :
    wp (sysHandler env) (assign f) Q s H = Q () { s with vars := f s.vars } := rfl

@[simp] theorem wp_setErrno (errno : Int) (Q : Unit → Sys ω → Prop) :
    wp (sysHandler env) (setErrno errno) Q s H =
      Q () { s with vars := { s.vars with errno := errno } } := rfl

theorem wp_call (c : Io) {Q : c.Ans → Sys ω → Prop} (hH : H s)
    (hQ : ∀ a w, env c s.world = some (a, w) →
      Q a { s with log := s.log ++ [⟨c, a⟩], world := w }) :
    wp (sysHandler env) (call c) Q s H :=
  wp_io c hH hQ

@[simp] theorem wp_library (p : TracerProg (α × Int)) (Q : α → Sys ω → Prop) :
    wp (sysHandler env) (library p) Q s H = wp (sysHandler env) p
      (fun a t => Q a.1 { t with vars := { t.vars with errno := a.2 } }) s H := by
  simp only [library, wp_bind, wp_setErrno, wp_pure]

/-- Nothing is copied from the null pointer; elsewhere the call is made. -/
theorem wp_safeCopy {source : UInt64} {p : TracerProg (Option α × Int)}
    {Q : Option α → Sys ω → Prop} (hnull : source = 0 → Q none s)
    (hcopy : source ≠ 0 → wp (sysHandler env) p
      (fun a t => Q a.1 { t with vars := { t.vars with errno := a.2 } }) s H) :
    wp (sysHandler env) (safeCopy source p) Q s H := by
  rw [safeCopy, wp_ite]
  split
  case isTrue hsource => exact hnull (by simpa using hsource)
  case isFalse hsource =>
    rw [wp_library]
    exact hcopy (by simpa using hsource)

/-! ## Reports -/

/-- The calls made from `s` to `t` have the property `P`. -/
def Since (s : Sys ω) (P : List Event → Prop) (t : Sys ω) : Prop :=
  ∃ calls, t.log = s.log ++ calls ∧ P calls

/-- Calls among which there is no kernel call. -/
def Reports (calls : List Event) : Prop := ∀ e ∈ calls, e.1.kernel = false

/-- The footprint of the functions that make only such calls. -/
def Reporting : Act Thread Io → Prop
  | .io c => c.kernel = false
  | _ => True

theorem numberingParts : NumberingParts (fun _ p => p.Uses Reporting) :=
  usesParts trivial (fun _ => trivial) (fun c hc => by
    cases c <;> first | rfl | simp [Io.routine, Io.exchanges] at hc) rfl

theorem reportingParts : StoreParts (fun _ => True) (fun _ p => p.Uses Reporting) where
  toReportParts := numberingParts.toReportParts
  store _ _ _ := uses_bind (uses_perform rfl) fun _ => trivial

theorem reporting_emitDetail (sequence : UInt32) (request : UInt64) (name : String)
    (a0 a1 a2 a3 : UInt64) (detail : String) :
    (emitDetail sequence request name a0 a1 a2 a3 detail).Uses Reporting :=
  reportingParts.exchange _ trivial

theorem reporting_emitReject (sequence : UInt32) (a0 a1 a2 a3 : UInt64) (detail : String) :
    (emitReject sequence a0 a1 a2 a3 detail).Uses Reporting :=
  reportingParts.exchange _ trivial

variable {P : List Event → Prop}

/-- A property of the calls that reports do not touch is kept by a report. -/
theorem wp_reports {p : TracerProg α} (hp : p.Uses Reporting)
    (hP : ∀ calls new, P calls → Reports new → P (calls ++ new)) (ht : Since s P t) :
    wp (sysHandler env) p (fun _ => Since s P) t (Since s P) := by
  obtain ⟨calls, hlog, hcalls⟩ := ht
  have hgrown : ∀ u, Process.Grown Reporting t u → Since s P u := by
    rintro u ⟨new, hu, hnew⟩
    exact ⟨calls ++ new, by rw [hu, hlog, append_assoc], hP calls new hcalls hnew⟩
  exact wp_mono (wp_log_uses hp) (fun _ => hgrown) hgrown

/-! ## What the calls show -/

variable {e : Event}

theorem flips_of_kernel (he : e.1.kernel = false) : Event.flips e = false := by
  obtain ⟨c, a⟩ := e
  cases c <;> first | rfl | cases he

theorem passes_of_kernel (he : e.1.kernel = false) : Event.passes e = false := by
  obtain ⟨c, a⟩ := e
  cases c <;> first | rfl | cases he

theorem gets_of_kernel (he : e.1.kernel = false) : Event.gets e = false := by
  obtain ⟨c, a⟩ := e
  cases c <;> first | rfl | cases he

variable {new : List Event}

theorem Reports.noFlip (h : Reports new) : NoFlip new :=
  fun e he => flips_of_kernel (h e he)

theorem Reports.noPass (h : Reports new) : NoPass new :=
  fun e he => passes_of_kernel (h e he)

theorem Reports.filter_gets (h : Reports new) : new.filter Event.gets = [] :=
  filter_eq_nil_iff.2 fun e he => by simp [gets_of_kernel (h e he)]

section Calls

variable {cfg : Config} {fd : Int} {argument : UInt64} {calls new after : List Event} {r : DrmCrtc}
  {answer : Except Int Unit}

theorem noFlip_nil : NoFlip [] := forall_mem_nil _

theorem noPass_nil : NoPass [] := forall_mem_nil _

theorem reports_nil : Reports [] := forall_mem_nil _

theorem NoFlip.append (h : NoFlip calls) (hnew : NoFlip new) : NoFlip (calls ++ new) :=
  forall_mem_append.2 ⟨h, hnew⟩

theorem NoPass.append (h : NoPass calls) (hnew : NoPass new) : NoPass (calls ++ new) :=
  forall_mem_append.2 ⟨h, hnew⟩

theorem FlippedOnce.append (h : FlippedOnce cfg fd argument calls r answer after)
    (hnew : NoFlip new) : FlippedOnce cfg fd argument (calls ++ new) r answer (after ++ new) := by
  obtain ⟨before, current, rfl, hbefore, hafter, hrequested, hcurrent⟩ := h
  exact ⟨before, current, by simp, hbefore, hafter.append hnew, hrequested, hcurrent⟩

variable {n : Nat}

theorem Verified.append (h : Verified fd r n calls) (new : List Event) :
    Verified fd r n (calls ++ new) := by
  obtain ⟨i, hi, v, hget, hshows⟩ := h
  refine ⟨i, hi, v, ?_, hshows⟩
  rw [List.filter_append, List.getElem?_append_left (List.getElem?_eq_some_iff.1 hget).1, hget]

theorem Unverified.append (h : Unverified fd r n calls) (hnew : Reports new) :
    Unverified fd r n (calls ++ new) where
  attempts := by rw [filter_append, hnew.filter_gets, append_nil, h.attempts]
  unseen v hv := by
    rcases mem_append.1 hv with hv | hv
    · exact h.unseen v hv
    · exact absurd (hnew _ hv) (by simp [Io.kernel])

end Calls

theorem sameModeTiming_iff {left right : ModeInfo} :
    sameModeTiming left right = true ↔ left = right := by
  obtain ⟨⟩ := left
  obtain ⟨⟩ := right
  simp [sameModeTiming, and_assoc]

theorem showsRequested_iff {requested verified : DrmCrtc} :
    showsRequested requested verified = true ↔ Shows requested verified := by
  simp only [showsRequested, Bool.and_eq_true, beq_iff_eq, sameModeTiming_iff]
  exact ⟨fun ⟨⟨hfb, hmode⟩, htiming⟩ => ⟨hfb, hmode, htiming⟩,
    fun h => ⟨⟨h.framebuffer, h.mode⟩, h.timing⟩⟩

/-! ## Waiting for the flip -/

/-- Calls that neither flip nor pass a request. -/
def Watching (calls : List Event) : Prop := NoPass calls ∧ NoFlip calls

variable {calls : List Event}

theorem Watching.append (h : Watching calls) (hnew : Watching new) : Watching (calls ++ new) :=
  ⟨h.1.append hnew.1, h.2.append hnew.2⟩

theorem Reports.watching (h : Reports new) : Watching new :=
  ⟨h.noPass, h.noFlip⟩

theorem watching_nil : Watching [] := ⟨noPass_nil, noFlip_nil⟩

/-- What `n` attempts to see the framebuffer found out. -/
def Awaited (fd : Int) (r : DrmCrtc) (n : Nat) (verified : Bool) (calls : List Event) : Prop :=
  (verified = true → Verified fd r n calls) ∧ (verified = false → Unverified fd r n calls)

theorem filter_gets_attempt (fd : Int) (crtc : UInt32) (answer : Except Int DrmCrtc)
    (errno : Unit × Int) (calls : List Event) :
    filter Event.gets (⟨.getCrtc fd crtc, answer⟩ :: ⟨.usleep 25000, errno⟩ :: calls) =
      ⟨.getCrtc fd crtc, answer⟩ :: calls.filter Event.gets := rfl

variable {r : DrmCrtc}

theorem Awaited.cons {fd : Int} {verified : Bool}
    {answer : Except Int DrmCrtc} {errno : Unit × Int} (h : Awaited fd r n verified calls)
    (hanswer : ∀ v, answer = .ok v → ¬Shows r v) :
    Awaited fd r (n + 1) verified
      (⟨.getCrtc fd r.crtcId, answer⟩ :: ⟨.usleep 25000, errno⟩ :: calls) := by
  refine ⟨fun hv => ?_, fun hv => ?_⟩
  · obtain ⟨i, hi, v, hget, hshows⟩ := h.1 hv
    exact ⟨i + 1, by omega, v, by rw [filter_gets_attempt, getElem?_cons_succ, hget], hshows⟩
  · have hun := h.2 hv
    refine ⟨by rw [filter_gets_attempt, length_cons, hun.attempts], fun v hmem => ?_⟩
    rcases mem_cons.1 hmem with heq | hmem
    · injection heq with _ heq
      exact hanswer v heq.symm
    · rcases mem_cons.1 hmem with heq | hmem
      · cases heq
      · exact hun.unseen v hmem

theorem since_self (h : P []) : Since s P s :=
  ⟨[], (append_nil _).symm, h⟩

theorem Since.of_later {e : List Event} (hlog : t.log = s.log ++ e)
    {u : Sys ω} (h : Since t P u) : Since s (fun calls => ∃ new, calls = e ++ new ∧ P new) u := by
  obtain ⟨new, hu, hnew⟩ := h
  exact ⟨e ++ new, by rw [hu, hlog, append_assoc], new, rfl, hnew⟩

theorem Since.mono {P' : List Event → Prop} (h : Since s P t) (hP : ∀ calls, P calls → P' calls) :
    Since s P' t :=
  let ⟨calls, hlog, hcalls⟩ := h
  ⟨calls, hlog, hP calls hcalls⟩

theorem watching_get (fd : Int) (crtc : UInt32) (answer : Except Int DrmCrtc) :
    Watching [⟨.getCrtc fd crtc, answer⟩] := by
  constructor <;> intro e he <;> obtain rfl := mem_singleton.1 he <;> rfl

theorem reports_singleton (he : e.1.kernel = false) : Reports [e] := by
  intro e' he'
  obtain rfl := mem_singleton.1 he'
  exact he

theorem watching_attempt (fd : Int) (crtc : UInt32) (answer : Except Int DrmCrtc)
    (errno : Unit × Int) : Watching [⟨.getCrtc fd crtc, answer⟩, ⟨.usleep 25000, errno⟩] :=
  (watching_get fd crtc answer).append (reports_singleton rfl).watching

/-- An attempt that does not show the request, and the attempts after it. -/
theorem wp_awaitFlip_again {fd : Int} (answer : Except Int DrmCrtc)
    (hanswer : ∀ v, answer = .ok v → ¬Shows r v)
    (hlog : t.log = s.log ++ [⟨.getCrtc fd r.crtcId, answer⟩])
    (ih : ∀ u : Sys ω, wp (sysHandler env) (awaitFlip fd r n)
      (fun verified => Since u fun calls => Watching calls ∧ Awaited fd r n verified calls)
      u (Since u Watching)) :
    wp (sysHandler env) (do library (call (.usleep 25000)); awaitFlip fd r n)
      (fun verified => Since s fun calls => Watching calls ∧ Awaited fd r (n + 1) verified calls)
      t (Since s Watching) := by
  simp only [wp_bind, wp_library]
  refine wp_call (.usleep 25000) ⟨_, hlog, watching_get fd r.crtcId answer⟩ fun errno w _ => ?_
  have hlog' : t.log ++ [⟨.usleep 25000, errno⟩] =
      s.log ++ [⟨.getCrtc fd r.crtcId, answer⟩, ⟨.usleep 25000, errno⟩] := by
    rw [hlog, append_assoc]
    rfl
  have hattempt := watching_attempt fd r.crtcId answer errno
  refine wp_mono (ih _) (fun verified u hu => (Since.of_later hlog' hu).mono ?_)
    fun u hu => (Since.of_later hlog' hu).mono ?_
  · rintro _ ⟨new, rfl, hwatching, hawaited⟩
    exact ⟨hattempt.append hwatching, hawaited.cons hanswer⟩
  · rintro _ ⟨new, rfl, hwatching⟩
    exact hattempt.append hwatching

theorem wp_awaitFlip (fd : Int) (r : DrmCrtc) (n : Nat) (s : Sys ω) :
    wp (sysHandler env) (awaitFlip fd r n)
      (fun verified => Since s fun calls => Watching calls ∧ Awaited fd r n verified calls)
      s (Since s Watching) := by
  induction n generalizing s with
  | zero =>
    exact since_self ⟨watching_nil, nofun, fun _ => ⟨rfl, fun _ hv => by cases hv⟩⟩
  | succ n ih =>
    simp only [awaitFlip, wp_bind]
    refine wp_call (.getCrtc fd r.crtcId) (since_self watching_nil)
      fun (answer : Except Int DrmCrtc) w _ => ?_
    cases answer with
    | error errno =>
      rw [wp_bind, wp_setErrno]
      refine wp_awaitFlip_again (.error errno) (fun v hv => ?_) ?_ ih
      · cases hv
      · rfl
    | ok v =>
      rw [wp_ite]
      split
      case isTrue h =>
        refine ⟨_, rfl, watching_get fd r.crtcId _, fun _ => ?_, nofun⟩
        exact ⟨0, by omega, v, rfl, showsRequested_iff.1 h⟩
      case isFalse h =>
        refine wp_awaitFlip_again (.ok v) (fun v' hv' hshows => h ?_) ?_ ih
        · obtain rfl := Except.ok.inj hv'
          exact showsRequested_iff.2 hshows
        · rfl

/-! ## The attempt to flip -/

variable {before : List Event}

section Attempt

variable (cfg : Config) (fd : Int) (argument : UInt64)

/-- The calls of an attempt at any point of it. -/
def Attempting (calls : List Event) : Prop :=
  NoPass calls ∧ (NoFlip calls ∨ ∃ r answer after, FlippedOnce cfg fd argument calls r answer after)

/-- The calls of an attempt with the result of `try_same_mode_pageflip`. -/
inductive Attempted (calls : List Event) : Int → Prop where
  | unflipped : NoFlip calls → Attempted calls 0
  | refused {r : DrmCrtc} {error : Int} {after : List Event} :
    FlippedOnce cfg fd argument calls r (.error error) after → Attempted calls 0
  | verified {r : DrmCrtc} {after : List Event} :
    FlippedOnce cfg fd argument calls r (.ok ()) after → Verified fd r 20 after → Attempted calls 1
  | unverified {r : DrmCrtc} {after : List Event} :
    FlippedOnce cfg fd argument calls r (.ok ()) after → Unverified fd r 20 after →
    Attempted calls (-1)

/-- The end of an attempt. -/
def AttemptEnded (s : Sys ω) (result : Int) (t : Sys ω) : Prop :=
  Since s (fun calls => NoPass calls ∧ Attempted cfg fd argument calls result) t ∧
    (result = -1 → t.vars.errno = eio)

variable {cfg fd argument}

theorem Attempting.append (h : Attempting cfg fd argument calls)
    (hnew : Watching new) : Attempting cfg fd argument (calls ++ new) := by
  refine ⟨h.1.append hnew.1, h.2.imp (fun hno => hno.append hnew.2) ?_⟩
  rintro ⟨r, answer, after, hflipped⟩
  exact ⟨r, answer, after ++ new, hflipped.append hnew.2⟩

theorem Watching.attempting (h : Watching calls) : Attempting cfg fd argument calls :=
  ⟨h.1, .inl h.2⟩

variable {p : TracerProg Unit}

theorem wp_attempt_report (hp : p.Uses Reporting)
    (hP : ∀ calls new, P calls → Reports new → P (calls ++ new))
    (hattempting : ∀ calls, P calls → Attempting cfg fd argument calls) (ht : Since s P t) :
    wp (sysHandler env) p (fun _ => Since s P) t (Since s (Attempting cfg fd argument)) :=
  wp_mono (wp_reports hp hP ht) (fun _ _ h => h) fun _ h => h.mono hattempting

theorem wp_reject (hp : p.Uses Reporting) (ht : Since s Watching t) :
    wp (sysHandler env) (do p; pure 0) (AttemptEnded cfg fd argument s)
      t (Since s (Attempting cfg fd argument)) := by
  refine wp_seq (wp_attempt_report hp (fun _ _ h hnew => h.append hnew.watching)
    (fun _ h => h.attempting) ht) fun _ u hu => ?_
  exact ⟨hu.mono fun _ h => ⟨h.1, .unflipped h.2⟩, fun h => absurd h (by decide)⟩

/-- The calls of an attempt after its flip, with a property of those that follow it. -/
def Flipping (cfg : Config) (fd : Int) (argument : UInt64) (r : DrmCrtc) (answer : Except Int Unit)
    (P : List Event → Prop) (calls : List Event) : Prop :=
  NoPass calls ∧ ∃ after, FlippedOnce cfg fd argument calls r answer after ∧ P after

section Flipping

variable {r : DrmCrtc} {answer : Except Int Unit} {P P' : List Event → Prop} {calls new : List Event}

theorem Flipping.attempting (h : Flipping cfg fd argument r answer P calls) :
    Attempting cfg fd argument calls :=
  let ⟨hpass, after, hflipped, _⟩ := h
  ⟨hpass, .inr ⟨r, answer, after, hflipped⟩⟩

theorem Flipping.append (h : Flipping cfg fd argument r answer P calls) (hnew : Watching new)
    (hP : ∀ after, P after → P' (after ++ new)) :
    Flipping cfg fd argument r answer P' (calls ++ new) :=
  let ⟨hpass, after, hflipped, hafter⟩ := h
  ⟨hpass.append hnew.1, after ++ new, hflipped.append hnew.2, hP after hafter⟩

theorem Flipping.mono (h : Flipping cfg fd argument r answer P calls)
    (hP : ∀ after, P after → P' after) : Flipping cfg fd argument r answer P' calls :=
  let ⟨hpass, after, hflipped, hafter⟩ := h
  ⟨hpass, after, hflipped, hP after hafter⟩

theorem flipping_flip {current : DrmCrtc} (hbefore : Watching before)
    (hrequested : Requested cfg argument before r) (hcurrent : OnlyFramebuffer r current) :
    Flipping cfg fd argument r answer (· = []) (before ++ ⟨.getCrtc fd r.crtcId, .ok current⟩ ::
      [⟨.pageFlip fd r.crtcId r.fbId, answer⟩]) := by
  refine ⟨hbefore.1.append ?_, [], ⟨before, current, rfl, hbefore.2, noFlip_nil, hrequested, hcurrent⟩,
    rfl⟩
  exact forall_mem_cons.2 ⟨rfl, forall_mem_cons.2 ⟨rfl, noPass_nil⟩⟩

theorem wp_flipping_report (hp : p.Uses Reporting)
    (hP : ∀ after new, P after → Reports new → P (after ++ new))
    (ht : Since s (Flipping cfg fd argument r answer P) t) :
    wp (sysHandler env) p (fun _ => Since s (Flipping cfg fd argument r answer P))
      t (Since s (Attempting cfg fd argument)) :=
  wp_attempt_report hp (fun _ _ h hnew => h.append hnew.watching fun _ hafter => hP _ _ hafter hnew)
    (fun _ h => h.attempting) ht

theorem wp_flipping_await (ht : Since s (Flipping cfg fd argument r answer (· = [])) t) :
    wp (sysHandler env) (awaitFlip fd r 20)
      (fun verified => Since s (Flipping cfg fd argument r answer (Awaited fd r 20 verified)))
      t (Since s (Attempting cfg fd argument)) := by
  obtain ⟨calls, hlog, hcalls⟩ := ht
  refine wp_mono (wp_awaitFlip fd r 20 t) (fun verified u hu => (hu.of_later hlog).mono ?_)
    fun u hu => (hu.of_later hlog).mono ?_
  · rintro _ ⟨new, rfl, hwatching, hawaited⟩
    refine hcalls.append hwatching ?_
    rintro _ rfl
    exact hawaited
  · rintro _ ⟨new, rfl, hwatching⟩
    exact hcalls.attempting.append hwatching

end Flipping

theorem wp_flipSameMode {r current : DrmCrtc} (sequence : UInt32)
    (hlog : t.log = s.log ++ (before ++ [⟨.getCrtc fd r.crtcId, .ok current⟩]))
    (hbefore : Watching before) (hrequested : Requested cfg argument before r)
    (hcurrent : OnlyFramebuffer r current) :
    wp (sysHandler env) (flipSameMode cfg fd sequence r current) (AttemptEnded cfg fd argument s)
      t (Since s (Attempting cfg fd argument)) := by
  have hwatching : Watching (before ++ [⟨.getCrtc fd r.crtcId, .ok current⟩]) :=
    hbefore.append (watching_get fd r.crtcId _)
  simp only [flipSameMode, wp_bind]
  refine wp_call (.pageFlip fd r.crtcId r.fbId) ⟨_, hlog, hwatching.attempting⟩
    fun (answer : Except Int Unit) w _ => ?_
  have hlog' : t.log ++ [⟨.pageFlip fd r.crtcId r.fbId, answer⟩] = s.log ++ (before ++
      ⟨.getCrtc fd r.crtcId, .ok current⟩ :: [⟨.pageFlip fd r.crtcId r.fbId, answer⟩]) := by
    rw [hlog]
    simp
  have hflip : Flipping cfg fd argument r answer (· = []) _ :=
    flipping_flip hbefore hrequested hcurrent
  cases answer with
  | error errno =>
    simp only [wp_bind, wp_setErrno]
    refine wp_post (wp_flipping_report (P := fun _ => True) (reporting_emitReject _ _ _ _ _ _)
      (fun _ _ _ _ => trivial) ⟨_, hlog', hflip.mono fun _ _ => trivial⟩) fun _ u hu => ?_
    refine ⟨hu.mono fun _ h => ⟨h.1, ?_⟩, fun h => absurd h (by decide)⟩
    obtain ⟨_, after, hflipped, _⟩ := h
    exact .refused hflipped
  | ok _ =>
    refine wp_seq (wp_flipping_await ⟨_, hlog', hflip⟩) fun verified u hu => ?_
    cases verified with
    | true =>
      simp only [if_true, wp_bind]
      refine wp_post (wp_flipping_report (P := Verified fd r 20) (reporting_emitDetail _ _ _ _ _ _ _ _)
        (fun _ new h _ => h.append new) (hu.mono fun _ h => h.mono fun _ h => h.1 rfl))
        fun _ v hv => ?_
      refine ⟨hv.mono fun _ h => ⟨h.1, ?_⟩, fun h => absurd h (by decide)⟩
      obtain ⟨_, after, hflipped, hverified⟩ := h
      exact .verified hflipped hverified
    | false =>
      simp only [Bool.false_eq_true, if_false, wp_bind]
      refine wp_post (wp_flipping_report (P := Unverified fd r 20) (reporting_emitReject _ _ _ _ _ _)
        (fun _ _ h hnew => h.append hnew) (hu.mono fun _ h => h.mono fun _ h => h.2 rfl))
        fun _ v hv => ?_
      refine ⟨hv.mono fun _ h => ⟨h.1, ?_⟩, fun _ => rfl⟩
      obtain ⟨_, after, hflipped, hunverified⟩ := h
      exact .unverified hflipped hunverified

theorem wp_flipCurrent (sequence : UInt32)
    (hlog : t.log = s.log ++ before) (hbefore : Watching before)
    (hrequested : Requested cfg argument before r) :
    wp (sysHandler env) (flipCurrent cfg fd sequence r) (AttemptEnded cfg fd argument s)
      t (Since s (Attempting cfg fd argument)) := by
  simp only [flipCurrent, wp_bind]
  refine wp_call (.getCrtc fd r.crtcId) ⟨_, hlog, hbefore.attempting⟩
    fun (answer : Except Int DrmCrtc) w _ => ?_
  have hlog' : t.log ++ [⟨.getCrtc fd r.crtcId, answer⟩] =
      s.log ++ (before ++ [⟨.getCrtc fd r.crtcId, answer⟩]) := by
    rw [hlog, append_assoc]
  have hgot := hbefore.append (watching_get fd r.crtcId answer)
  cases answer with
  | error errno =>
    rw [wp_bind, wp_setErrno]
    exact wp_reject (reporting_emitReject _ _ _ _ _ _) ⟨_, hlog', hgot⟩
  | ok current =>
    dsimp only
    rw [wp_ite]
    split
    case isTrue => exact wp_reject (reporting_emitReject _ _ _ _ _ _) ⟨_, hlog', hgot⟩
    case isFalse hplace =>
      rw [wp_ite]
      split
      case isTrue =>
        refine wp_seq (wp_attempt_report (reporting_emitDetail _ _ _ _ _ _ _ _)
          (fun _ _ h hnew => h.append hnew.watching) (fun _ h => h.attempting) ⟨_, hlog', hgot⟩)
          fun _ u hu => ?_
        exact wp_reject (reporting_emitDetail _ _ _ _ _ _ _ _) hu
      case isFalse htiming =>
        simp only [Bool.not_eq_true, Bool.or_eq_false_iff, Bool.not_eq_false', bne_eq_false_iff_eq,
          beq_eq_false_iff_ne] at hplace htiming
        obtain ⟨⟨⟨hmode, hfb⟩, hx⟩, hy⟩ := hplace
        exact wp_flipSameMode sequence hlog' hbefore hrequested
          ⟨hmode, hfb, hx, hy, sameModeTiming_iff.1 htiming⟩

/-- The copy of the request, which may be refused. -/
theorem wp_copyCrtc {Q : Option DrmCrtc → Sys ω → Prop} (hH : H t)
    (hnone : ∀ u new, u.log = t.log ++ new → Reports new → Q none u)
    (hsome : ∀ u r errno, u.log = t.log ++ [⟨.copyCrtc argument, (some r, errno)⟩] → Q (some r) u) :
    wp (sysHandler env) (safeCopy argument (call (.copyCrtc argument))) Q t H := by
  refine wp_safeCopy (fun _ => hnone t [] (append_nil _).symm reports_nil)
    fun _ => wp_call (.copyCrtc argument) hH ?_
  rintro ⟨_ | r, errno⟩ w _
  · exact hnone _ _ rfl (reports_singleton rfl)
  · exact hsome _ r errno rfl

theorem wp_copyU32 {source : UInt64} {Q : Option (Fin n → UInt32) → Sys ω → Prop}
    (hH : H t) (hnone : ∀ u new, u.log = t.log ++ new → Reports new → Q none u)
    (hsome : ∀ u xs errno, u.log = t.log ++ [⟨.copyU32 source n, (some xs, errno)⟩] →
      Q (some xs) u) :
    wp (sysHandler env) (safeCopy source (call (.copyU32 source n))) Q t H := by
  refine wp_safeCopy (fun _ => hnone t [] (append_nil _).symm reports_nil)
    fun _ => wp_call (.copyU32 source n) hH ?_
  rintro ⟨_ | xs, errno⟩ w _
  · exact hnone _ _ rfl (reports_singleton rfl)
  · exact hsome _ xs errno rfl

theorem wp_flipConnector (sequence : UInt32) {errno : Int}
    (hlog : t.log = s.log ++ before) (hbefore : Watching before)
    (hcopied : ⟨.copyCrtc argument, (some r, errno)⟩ ∈ before) (hcrtc : r.crtcId = cfg.expectedCrtc)
    (hsingle : r.countConnectors = 1) (hfb : r.fbId ≠ 0) (hmode : r.modeValid = true) :
    wp (sysHandler env) (flipConnector cfg fd sequence r) (AttemptEnded cfg fd argument s)
      t (Since s (Attempting cfg fd argument)) := by
  simp only [flipConnector, wp_bind]
  refine wp_copyU32 ⟨_, hlog, hbefore.attempting⟩ (fun u new hu hnew => ?_)
    fun u connectors errno' hu => ?_
  · rw [wp_ite, if_pos (by rfl)]
    exact wp_reject (reporting_emitReject _ _ _ _ _ _)
      ⟨_, by rw [hu, hlog, append_assoc], hbefore.append hnew.watching⟩
  · have hwatching := hbefore.append (reports_singleton (e := ⟨.copyU32 r.setConnectors 1,
      (some connectors, errno')⟩) rfl).watching
    have hlog' : u.log = s.log ++ (before ++ [⟨.copyU32 r.setConnectors 1,
        (some connectors, errno')⟩]) := by
      rw [hu, hlog, append_assoc]
    rw [wp_ite]
    split
    case isTrue => exact wp_reject (reporting_emitReject _ _ _ _ _ _) ⟨_, hlog', hwatching⟩
    case isFalse h =>
      have hconnector : connectors 0 = cfg.expectedConnector := by
        simpa [firstConnector] using h
      refine wp_flipCurrent sequence hlog' hwatching ⟨⟨errno, by simp [hcopied]⟩, hcrtc, hsingle,
        ⟨connectors, errno', by simp, hconnector⟩, hfb, hmode⟩

theorem wp_trySameModePageflip (sequence : UInt32) (s : Sys ω) :
    wp (sysHandler env) (trySameModePageflip cfg fd argument sequence)
      (AttemptEnded cfg fd argument s) s (Since s (Attempting cfg fd argument)) := by
  have hstart : Attempting cfg fd argument [] := watching_nil.attempting
  rw [trySameModePageflip, wp_ite]
  split
  case isTrue =>
    exact ⟨since_self ⟨noPass_nil, .unflipped noFlip_nil⟩, fun h => absurd h (by decide)⟩
  case isFalse =>
    rw [wp_bind]
    refine wp_copyCrtc (since_self hstart) (fun u new hu hnew => ?_) fun u r errno hu => ?_
    · exact wp_reject (reporting_emitReject _ _ _ _ _ _) ⟨new, hu, hnew.watching⟩
    · have hwatching : Watching [⟨.copyCrtc argument, (some r, errno)⟩] :=
        (reports_singleton rfl).watching
      dsimp only
      rw [wp_ite]
      split
      case isTrue => exact wp_reject (reporting_emitReject _ _ _ _ _ _) ⟨_, hu, hwatching⟩
      case isFalse h =>
        simp only [Bool.not_eq_true, Bool.or_eq_false_iff, Bool.not_eq_false', bne_eq_false_iff_eq,
          beq_eq_false_iff_ne] at h
        obtain ⟨⟨⟨hcrtc, hfb⟩, hsingle⟩, hmode⟩ := h
        exact wp_flipConnector sequence hu hwatching mem_cons_self hcrtc hsingle hfb hmode

end Attempt

/-! ## The modeset -/

section SetCrtc

variable {cfg : Config} {fd : Int} {argument : UInt64} {calls new : List Event} {result errno : Int}

theorem Substituted.append {rejected : Int}
    (h : Substituted cfg fd argument rejected calls result errno) (hnew : Reports new) :
    Substituted cfg fd argument rejected (calls ++ new) result errno := by
  cases h with
  | unflipped hno => exact .unflipped (hno.append hnew.noFlip)
  | refused heq hflipped => exact .refused heq (hflipped.append hnew.noFlip)
  | verified heq hflipped hverified =>
    exact .verified heq (hflipped.append hnew.noFlip) (hverified.append new)
  | unverified heq hflipped hunverified =>
    exact .unverified heq (hflipped.append hnew.noFlip) (hunverified.append hnew)

theorem SetCrtcAnswered.append (h : SetCrtcAnswered cfg fd argument calls result errno)
    (hnew : Reports new) : SetCrtcAnswered cfg fd argument (calls ++ new) result errno := by
  obtain ⟨before, answer, after, rfl, hbefore, hafter, hno, hanswer⟩ := h
  refine ⟨before, answer, after ++ new, by simp, hbefore, hafter.append hnew.noPass, hno, ?_⟩
  cases answer with
  | ok accepted => exact ⟨hanswer.1, hanswer.2.append hnew.noFlip⟩
  | error rejected => exact hanswer.append hnew

/-- Calls without a flip around a modeset. -/
theorem noFlip_around {after : List Event} {answer : Except Int Nat} (hbefore : NoFlip before)
    (hafter : NoFlip after) :
    NoFlip (before ++ ⟨.ioctl fd drmModeSetCrtc argument, answer⟩ :: after) :=
  hbefore.append (forall_mem_cons.2 ⟨rfl, hafter⟩)

theorem SetCrtcAnswered.justified (h : SetCrtcAnswered cfg fd argument calls result errno) :
    FlipJustified cfg fd argument calls := by
  obtain ⟨before, answer, after, rfl, -, -, hno, hanswer⟩ := h
  cases answer with
  | ok accepted => exact .inl (noFlip_around hno hanswer.2)
  | error rejected =>
    cases hanswer with
    | unflipped hno' => exact .inl (noFlip_around hno hno')
    | refused heq hflipped => exact .inr ⟨before, after, _, _, _, by rw [heq], hno, hflipped⟩
    | verified heq hflipped _ => exact .inr ⟨before, after, _, _, _, by rw [heq], hno, hflipped⟩
    | unverified heq hflipped _ => exact .inr ⟨before, after, _, _, _, by rw [heq], hno, hflipped⟩

/-- An attempt after a modeset that was rejected. -/
theorem Attempting.justified (h : Attempting cfg fd argument calls) (hno : NoFlip before) :
    FlipJustified cfg fd argument
      (before ++ ⟨.ioctl fd drmModeSetCrtc argument, .error einval⟩ :: calls) := by
  rcases h.2 with hcalls | ⟨r, answer, after, hflipped⟩
  · exact .inl (noFlip_around hno hcalls)
  · exact .inr ⟨before, calls, r, answer, after, rfl, hno, hflipped⟩

theorem Attempted.eq_neg_one {attempt : Int} (h : Attempted cfg fd argument calls attempt)
    (hneg : attempt < 0) : attempt = -1 := by
  cases h with
  | unverified => rfl
  | _ => exact absurd hneg (by decide)

theorem Attempted.substituted {attempt : Int} (h : Attempted cfg fd argument calls attempt) :
    Substituted cfg fd argument einval calls (if attempt > 0 then 0 else -1)
      (if attempt > 0 then 0 else if attempt < 0 then eio else einval) := by
  cases h with
  | unflipped hno => exact .unflipped hno
  | refused hflipped => exact .refused rfl hflipped
  | verified hflipped hverified => exact .verified rfl hflipped hverified
  | unverified hflipped hunverified => exact .unverified rfl hflipped hunverified

theorem wp_fallBack (sequence : UInt32) (rejected : Int)
    (hlog : t.log = s.log ++ (before ++ [⟨.ioctl fd drmModeSetCrtc argument, .error rejected⟩]))
    (hbefore : Watching before) :
    wp (sysHandler env) (fallBack cfg fd drmModeSetCrtc argument sequence (-1) rejected)
      (fun a => Since s fun calls => SetCrtcAnswered cfg fd argument calls a.1 a.2)
      t (Since s (FlipJustified cfg fd argument)) := by
  have hanswered : ∀ {after result errno}, NoPass after →
      Substituted cfg fd argument rejected after result errno →
      SetCrtcAnswered cfg fd argument (before ++
        [⟨.ioctl fd drmModeSetCrtc argument, .error rejected⟩] ++ after) result errno :=
    fun hafter h => ⟨before, .error rejected, _, by simp, hbefore.1, hafter, hbefore.2, h⟩
  rw [fallBack, wp_ite]
  split
  case isFalse =>
    have hunflipped := hanswered noPass_nil (.unflipped noFlip_nil)
    exact ⟨_, by simpa using hlog, hunflipped⟩
  case isTrue h =>
    obtain rfl : rejected = einval := by
      simp only [Bool.and_eq_true, beq_iff_eq] at h
      exact h.1.2
    rw [wp_bind]
    refine wp_mono (wp_trySameModePageflip sequence t) (fun attempt u hu => ?_) fun u hu =>
      (hu.of_later hlog).mono ?_
    · obtain ⟨⟨new, hu, hpass, hattempted⟩, herrno⟩ := hu
      have hlog' : u.log = s.log ++ (before ++
          [⟨.ioctl fd drmModeSetCrtc argument, .error einval⟩] ++ new) := by
        rw [hu, hlog, append_assoc]
      have hsubstituted := hanswered hpass hattempted.substituted
      simp only [wp_ite, wp_bind, wp_getThread, wp_pure]
      split
      case isTrue hpos => exact ⟨_, hlog', by simpa only [if_pos hpos] using hsubstituted⟩
      case isFalse hpos =>
        split
        case isTrue hneg =>
          have heio : u.vars.errno = eio := herrno (hattempted.eq_neg_one hneg)
          exact ⟨_, hlog', by simpa only [if_neg hpos, if_pos hneg, heio] using hsubstituted⟩
        case isFalse hneg =>
          exact ⟨_, hlog', by simpa only [if_neg hpos, if_neg hneg] using hsubstituted⟩
    · rintro _ ⟨new, rfl, hattempting⟩
      simpa using hattempting.justified hbefore.2

theorem wp_passSetCrtc (traced : Bool) (sequence : UInt32) (ht : Since s Watching t) :
    wp (sysHandler env) (passRequest cfg traced sequence fd drmModeSetCrtc argument)
      (fun result u => Since s (fun calls =>
        SetCrtcAnswered cfg fd argument calls result u.vars.errno) u)
      t (Since s (FlipJustified cfg fd argument)) := by
  obtain ⟨before, hlog, hbefore⟩ := ht
  -- what follows the substitution are reports
  have hreport : ∀ {u : Sys ω} {result errno : Int},
      Since s (fun calls => SetCrtcAnswered cfg fd argument calls result errno) u →
      wp (sysHandler env) (traceAfterCall traced sequence drmModeSetCrtc argument result errno)
        (fun _ v => Since s (fun calls => SetCrtcAnswered cfg fd argument calls result errno) v)
        u (Since s (FlipJustified cfg fd argument)) := fun hu =>
    wp_mono (wp_reports (reportingParts.traceAfterCall traced trivial drmModeSetCrtc argument _ _)
      (fun _ _ h hnew => h.append hnew) hu) (fun _ _ h => h) fun _ h => h.mono fun _ h => h.justified
  simp only [passRequest, kernelCall, wp_bind, wp_setErrno, wp_assign, wp_pure]
  refine wp_call (.ioctl fd drmModeSetCrtc argument) ⟨before, hlog, .inl hbefore.2⟩
    fun (answer : Except Int Nat) w _ => ?_
  have hlog' : t.log ++ [⟨.ioctl fd drmModeSetCrtc argument, answer⟩] =
      s.log ++ (before ++ [⟨.ioctl fd drmModeSetCrtc argument, answer⟩]) := by
    rw [hlog, append_assoc]
  cases answer with
  | ok accepted =>
    have hnonneg : ¬((accepted : Int) < 0) := by omega
    simp only [wp_pure, fallBack, hnonneg, decide_false, Bool.false_and, Bool.false_eq_true, if_false]
    refine hreport ⟨_, hlog', before, .ok accepted, [], rfl, hbefore.1, noPass_nil, hbefore.2, rfl,
      noFlip_nil⟩
  | error rejected =>
    simp only [wp_bind, wp_setErrno, wp_pure]
    refine wp_post (wp_fallBack sequence rejected hlog' hbefore) fun a u hu => ?_
    exact hreport hu

theorem wp_ioctl_setCrtc (s : Sys ω) : wp (sysHandler env) (ioctl cfg fd drmModeSetCrtc argument)
      (fun result u => Since s (fun calls =>
        SetCrtcAnswered cfg fd argument calls result u.vars.errno) u)
      s (Since s (FlipJustified cfg fd argument)) := by
  have hwatching : ∀ {α : Type} {p : TracerProg α} {u : Sys ω}, p.Uses Reporting →
      Since s Watching u → wp (sysHandler env) p (fun _ => Since s Watching)
        u (Since s (FlipJustified cfg fd argument)) := fun hp hu =>
    wp_mono (wp_reports hp (fun _ _ h hnew => h.append hnew.watching) hu) (fun _ _ h => h)
      fun _ h => h.mono fun _ h => .inl h.2
  simp only [ioctl, wp_bind, wp_getThread]
  rw [wp_ite]
  split
  case isTrue =>
    simp only [plainCall, wp_bind]
    refine wp_call (.ioctl fd drmModeSetCrtc argument) (since_self (.inl noFlip_nil))
      fun (answer : Except Int Nat) w _ => ?_
    cases answer with
    | ok accepted => exact ⟨_, rfl, [], .ok accepted, [], rfl, noPass_nil, noPass_nil, noFlip_nil,
        rfl, noFlip_nil⟩
    | error rejected =>
      exact ⟨_, rfl, [], .error rejected, [], rfl, noPass_nil, noPass_nil, noFlip_nil,
        .unflipped noFlip_nil⟩
  case isFalse =>
    simp only [wp_bind, wp_assign]
    refine wp_post (hwatching (reportingParts.shouldTraceRequest _) (since_self watching_nil))
      fun traced u hu => ?_
    refine wp_post (hwatching (numberingParts.traceBeforeCall traced _ argument) hu)
      fun sequence v hv => ?_
    have hkind : suppressedBy cfg drmModeSetCrtc argument = pure none := rfl
    rw [hkind, wp_pure]
    exact wp_passSetCrtc traced sequence hv

end SetCrtc

/-! ## The end of the process -/

/-- The thread cannot go on: the environment does not answer, or an exchange failed. -/
def Ended (env : Env ω) (t : Sys ω) : Prop := Unanswered env t.world ∨ ExchangeFailed t.log

theorem wp_call_ended (c : Io) {Q : c.Ans → Sys ω → Prop} (hc : ∀ code, c ≠ .exit code)
    (hQ : ∀ a w, Q a { s with log := s.log ++ [⟨c, a⟩], world := w }) :
    wp (sysHandler env) (call c) Q s (Ended env) := by
  cases henv : env c s.world with
  | none => exact wp_io c (.inl ⟨c, hc, henv⟩) fun a w _ => hQ a w
  | some r =>
    rw [call, wp_perform]
    simp only [processHandler, henv]
    exact hQ r.1 r.2

theorem wp_exit_ended {Q : α → Sys ω → Prop} (h : ExchangeFailed s.log) :
    wp (sysHandler env) (exit : TracerProg α) Q s (Ended env) := by
  rw [exit, wp_bind]
  exact wp_call (.exit 125) (.inr h) nofun

/-- After the whole exchange: the acknowledgement, or the calls of a failed exchange. -/
theorem wp_receiveAck_ended (record : TraceRecord) (errno errno' : Int)
    (hlog : s.log = before ++ [⟨.send record, (true, errno)⟩, ⟨.waitReadable, (true, errno')⟩]) :
    wp (sysHandler env) (receiveAck record)
      (fun ok t => ok = false → ExchangeFailed t.log) s (Ended env) := by
  have hrecv : ∀ a, s.log ++ [⟨.recv, a⟩] = before ++ [⟨.send record, (true, errno)⟩,
      ⟨.waitReadable, (true, errno')⟩, ⟨.recv, a⟩] := by
    intro a
    rw [hlog, append_assoc]
    rfl
  simp only [receiveAck, wp_bind, wp_library]
  refine wp_call_ended .recv nofun fun (a : Option TraceRecord × Int) w => ?_
  obtain ⟨received, errno''⟩ := a
  cases received with
  | none => exact fun _ => (hrecv _).symm ▸ .wrong nofun
  | some ack =>
    dsimp only
    rw [wp_ite]
    split
    case isTrue =>
      rw [wp_bind, onlyIf, wp_ite]
      split
      · exact wp_call_ended (.shared .storeSteady) nofun fun _ _ => nofun
      · exact nofun
    case isFalse h =>
      refine fun _ => (hrecv _).symm ▸ .wrong ?_
      rintro _ ⟨⟩
      simpa using h

theorem wp_exchangeOrExit_ended (record : TraceRecord) (s : Sys ω) :
    wp (sysHandler env) (exchangeOrExit record) (fun _ _ => True) s (Ended env) := by
  simp only [exchangeOrExit, wp_bind]
  refine wp_post (Q := fun ok t => ok = false → ExchangeFailed t.log) ?_ fun ok t ht => ?_
  · simp only [exchangeRecord, wp_bind, wp_library]
    refine wp_call_ended (.send record) nofun fun (a : Bool × Int) w => ?_
    obtain ⟨sent, errno⟩ := a
    cases sent with
    | false => exact fun _ => .unsent
    | true =>
      simp only [if_true, wp_bind, wp_library]
      refine wp_call_ended .waitReadable nofun fun (a : Bool × Int) w' => ?_
      obtain ⟨readable, errno'⟩ := a
      have hlog : (s.log ++ [⟨.send record, (true, errno)⟩]) ++ [⟨.waitReadable, (readable, errno')⟩] =
          s.log ++ [⟨.send record, (true, errno)⟩, ⟨.waitReadable, (readable, errno')⟩] := by
        rw [append_assoc]
        rfl
      cases readable with
      | false => exact fun _ => hlog ▸ .late
      | true => exact wp_receiveAck_ended record errno errno' hlog
  · cases ok with
    | true => trivial
    | false => exact wp_exit_ended (ht rfl)

theorem endedParts (env : Env ω) :
    InterposeParts (fun _ p => ∀ s, wp (sysHandler env) p (fun _ _ => True) s (Ended env)) where
  sequential :=
    { pure := fun _ _ => trivial
      bind := fun hp hf s => by
        exact wp_seq (hp s) fun a t _ => hf a t }
  getThread _ := trivial
  assign _ _ := trivial
  routine c hc s := wp_call_ended c (fun code h => by rw [h] at hc; cases hc) fun _ _ => trivial
  exchange record _ := wp_exchangeOrExit_ended record
  store value property propertyValue s := by
    rw [cacheProperty, wp_bind]
    exact wp_call_ended (.shared (.cacheStore value.objId property propertyValue)) nofun
      fun _ _ => trivial
  getCrtc fd crtc _ := wp_call_ended (.getCrtc fd crtc) nofun fun _ _ => trivial
  pageFlip fd crtc fb _ := wp_call_ended (.pageFlip fd crtc fb) nofun fun _ _ => trivial
  fetch _ := wp_call_ended (.shared .fetchAddSequence) nofun fun _ _ => trivial
  system fd request argument _ :=
    wp_call_ended (.ioctl fd request argument) nofun fun _ _ => trivial

/-! ## The substitution -/

/-- A modeset through the interposer, in every environment. A page flip is made at most once and only
    where it changes nothing but the framebuffer. The result is the kernel's own, or zero if the flip
    was seen on the screen, or a failure with the kernel's error or with `EIO`. The call does not
    return only if the environment does not answer or an exchange with the agent fails. -/
theorem setCrtc_substitution {cfg : Config} {fd : Int} {argument : UInt64} {r : Option Int}
    (hrun : (ioctl cfg fd drmModeSetCrtc argument).run (sysHandler env) s = (r, t)) :
    ∃ calls, t.log = s.log ++ calls ∧ FlipJustified cfg fd argument calls ∧
      (∀ result, r = some result → SetCrtcAnswered cfg fd argument calls result t.vars.errno) ∧
      (r = none → Unanswered env t.world ∨ ExchangeFailed t.log) := by
  cases r with
  | some result =>
    obtain ⟨calls, hlog, hanswered⟩ := wp_returned (wp_ioctl_setCrtc s) hrun
    refine ⟨calls, hlog, hanswered.justified, ?_, nofun⟩
    rintro _ ⟨⟩
    exact hanswered
  | none =>
    obtain ⟨calls, hlog, hjustified⟩ := wp_halted (wp_ioctl_setCrtc s) hrun
    refine ⟨calls, hlog, hjustified, nofun, fun _ => ?_⟩
    have hended := wp_halted ((endedParts env).ioctl cfg fd drmModeSetCrtc argument s) hrun
    exact hended

/-- A kernel with one CRTC that rejects modesets but flips, and an agent that acknowledges every
    record. -/
structure FlipBench where
  globals : Globals := {}
  record : TraceRecord := {}
  request : DrmCrtc
  connector : UInt32
  crtc : DrmCrtc

def flipBenchEnv : Env FlipBench
  | .shared op, w => some ((w.globals.step op).1, { w with globals := (w.globals.step op).2 })
  | .send record, w => some ((true, 0), { w with record := record })
  | .waitReadable, w => some ((true, 0), w)
  | .recv, w => some ((some { w.record with phase := traceAck, flags := 0 }, 0), w)
  | .copyCrtc _, w => some ((some w.request, 0), w)
  | .copyU32 _ _, w => some ((some fun _ => w.connector, 0), w)
  | .ioctl _ _ _, w => some (.error einval, w)
  | .getCrtc _ _, w => some (.ok w.crtc, w)
  | .pageFlip _ _ fb, w => some (.ok (), { w with crtc := { w.crtc with fbId := fb } })
  | _, _ => none

/-- A modeset from framebuffer 7 to framebuffer 8. -/
def flipBench : FlipBench :=
  { request := { crtcId := 3, fbId := 8, countConnectors := 1, setConnectors := 4096,
                 modeValid := true }
    connector := 5
    crtc := { crtcId := 3, fbId := 7, modeValid := true } }

def flipBenchConfig : Config :=
  { sameModePageflipFallback := true, expectedConnector := 5, expectedCrtc := 3 }

/-- The thread before that modeset. -/
def flipBenchStart : Sys FlipBench := { vars := {}, world := flipBench }

/-- The flip is made, seen, and reported as the result of the modeset. -/
theorem setCrtc_substitution_flipped : ∃ (t : Sys FlipBench) (calls : List Event),
    (ioctl flipBenchConfig 9 drmModeSetCrtc 8192).run (sysHandler flipBenchEnv) flipBenchStart =
      (some 0, t) ∧ t.log = calls ∧ calls.any Event.flips = true ∧
      SetCrtcAnswered flipBenchConfig 9 8192 calls 0 t.vars.errno := by
  have hreturned : ((ioctl flipBenchConfig 9 drmModeSetCrtc 8192).run (sysHandler flipBenchEnv)
      flipBenchStart).1 = some 0 := by
    decide +kernel
  have hflips : ((ioctl flipBenchConfig 9 drmModeSetCrtc 8192).run (sysHandler flipBenchEnv)
      flipBenchStart).2.log.any Event.flips = true := by
    decide +kernel
  obtain ⟨calls, hlog, -, hanswered, -⟩ := setCrtc_substitution (Prod.ext hreturned rfl)
  have hcalls := hlog.trans (nil_append calls)
  exact ⟨_, calls, Prod.ext hreturned rfl, hcalls, hcalls ▸ hflips, hanswered 0 rfl⟩

end HdmiLos.Tracer
