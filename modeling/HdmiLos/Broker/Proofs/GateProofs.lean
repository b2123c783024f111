import HdmiLos.Broker.Proofs.ArmingProofs
import HdmiLos.Broker.Proofs.RunProofs

/-!
# The gate of an automatic start

`AdvanceArmed` starts a session only after Android's preference was overridden while the display was
unplugged, and after three polls in a row that found the display settled. The parts of the main loop
are looked at one by one: what each can do to an armed request, and which overrides it issues. The
gate then follows by induction over a history.
-/

namespace HdmiLos

open Interaction Prog List

variable {ω α : Type} {env : Env ω} {n : Nat} {s t u : Sys ω}

/-! ## The observer of overrides -/

variable {k : Overrides}

namespace Overrides

theorem step_of_kind (k : Overrides) {e : Event} (h : e.1.kind ≠ .preference) :
    (k.step e).issued = k.issued ∧ (k.step e).journaled = false ∧
      (k.step e).latest = (composerMessage e).or k.latest := by
  obtain ⟨c, a⟩ := e
  cases c with
  | displayCommand command => exact absurd rfl h
  | writeAtomicText file text =>
    cases file with
    | modeJournal => exact absurd rfl h
    | modeConfig => exact ⟨rfl, rfl, rfl⟩
  | _ => exact ⟨rfl, rfl, rfl⟩

/-- Calls of other kinds issue nothing, and the latest message is the last one that they received. -/
theorem foldl_of_kind {calls : List Event} (h : ∀ e ∈ calls, e.1.kind ≠ .preference)
    (k : Overrides) (hk : k.journaled = false) :
    (calls.foldl step k).issued = k.issued ∧ (calls.foldl step k).journaled = false ∧
      (calls.foldl step k).latest = (composerMessages calls).getLast?.or k.latest := by
  induction calls generalizing k with
  | nil => exact ⟨rfl, hk, rfl⟩
  | cons e calls ih =>
    obtain ⟨hissued, hjournaled, hlatest⟩ := k.step_of_kind (h e mem_cons_self)
    obtain ⟨ihissued, ihjournaled, ihlatest⟩ :=
      ih (fun e' he' => h e' (mem_cons_of_mem e he')) (k.step e) hjournaled
    refine ⟨ihissued.trans hissued, ihjournaled, ?_⟩
    rw [foldl_cons, ihlatest, hlatest]
    cases hm : composerMessage e with
    | none => simp [composerMessages, hm]
    | some m =>
      simp only [composerMessages, filterMap_cons, hm, getLast?_cons]
      cases (calls.filterMap composerMessage).getLast? <;> rfl

variable {x : Option Message × Bool}

theorem mem_issued_step (hx : x ∈ k.issued) (e : Event) : x ∈ (k.step e).issued := by
  obtain ⟨c, a⟩ := e
  cases c with
  | displayCommand command =>
    simp only [step]
    split
    · exact mem_append_left _ hx
    · exact hx
  | writeAtomicText file text => cases file <;> exact hx
  | _ => exact hx

theorem mem_issued_foldl (calls : List Event)
    (hx : x ∈ k.issued) : x ∈ (calls.foldl step k).issued := by
  induction calls generalizing k with
  | nil => exact hx
  | cons e calls ih => exact ih (mem_issued_step hx e)

/-- Nothing was issued but behind an unplugged status, and no override is on its way. -/
structure Safe (k : Overrides) : Prop where
  journaled : k.journaled = false
  unplugged : ∀ x ∈ k.issued, Unplugged x

theorem safe_empty : Safe {} := ⟨rfl, fun _ hx => absurd hx not_mem_nil⟩

end Overrides

/-- The call writes the journal. -/
def Io.journals : Io → Bool
  | .writeAtomicText .modeJournal _ => true
  | _ => false

theorem Io.journals_of_kind {c : Io} (h : c.kind ≠ .preference) : c.journals = false := by
  cases c with
  | writeAtomicText file text =>
    cases file with
    | modeJournal => exact absurd rfl h
    | modeConfig => rfl
  | _ => rfl

theorem Overrides.Safe.step (h : k.Safe) {e : Event} (he : e.1.journals = false) :
    (k.step e).Safe := by
  obtain ⟨c, a⟩ := e
  cases c with
  | displayCommand command =>
    simp only [Overrides.step, h.journaled]
    exact h
  | writeAtomicText file text =>
    cases file with
    | modeJournal => cases he
    | modeConfig => exact ⟨rfl, h.unplugged⟩
  | _ => exact ⟨rfl, h.unplugged⟩

theorem Overrides.Safe.foldl {calls : List Event} (h : ∀ e ∈ calls, e.1.journals = false)
    (hk : k.Safe) : (calls.foldl Overrides.step k).Safe := by
  induction calls generalizing k with
  | nil => exact hk
  | cons e calls ih =>
    exact ih (fun e' he' => h e' (mem_cons_of_mem e he')) (hk.step (h e mem_cons_self))

/-! ## Overrides of a step -/

/-- From `s` to `t` nothing was issued but behind an unplugged status, and if `applied`, an override
    succeeded: to an observer with `G`. -/
structure Issued (G : Overrides → Prop) (applied : Bool) (s t : Sys ω) : Prop where
  log : s.log <+: t.log
  safe : ∀ k : Overrides, k.Safe → G k → ((callsSince s t).foldl Overrides.step k).Safe
  issued : applied = true → ∀ k : Overrides, k.Safe → G k →
    ∃ x ∈ ((callsSince s t).foldl Overrides.step k).issued, x.2 = true ∧ Unplugged x

/-- The same to every observer. -/
abbrev Overrode (applied : Bool) (s t : Sys ω) : Prop := Issued (fun _ => True) applied s t

variable {G : Overrides → Prop} {a : Bool}

theorem issued_of_journals (h : s.log <+: t.log)
    (hcalls : ∀ e ∈ callsSince s t, e.1.journals = false) : Issued G false s t :=
  ⟨h, fun _ hk _ => hk.foldl hcalls, nofun⟩

theorem Overrode.refl (s : Sys ω) : Overrode false s s :=
  issued_of_journals (prefix_refl _) (by simp [callsSince_self])

/-- First what leaves every observer safe and in `G`, then what is seen by those. -/
theorem Issued.trans {b : Bool} (h : Overrode a s t) (h' : Issued G b t u)
    (hG : ∀ k : Overrides, k.Safe → G ((callsSince s t).foldl Overrides.step k)) :
    Overrode (a || b) s u := by
  have hcalls := callsSince_trans h.log h'.log
  refine ⟨h.log.trans h'.log, fun k hk _ => ?_, fun hab k hk _ => ?_⟩
  · rw [hcalls, foldl_append]
    exact h'.safe _ (h.safe k hk trivial) (hG k hk)
  · rw [hcalls, foldl_append]
    cases a with
    | true =>
      obtain ⟨x, hx, happlied⟩ := h.issued rfl k hk trivial
      exact ⟨x, Overrides.mem_issued_foldl _ hx, happlied⟩
    | false => exact h'.issued hab _ (h.safe k hk trivial) (hG k hk)

theorem Issued.then (h : Overrode a s t) (h' : Overrode false t u) : Overrode a s u := by
  simpa using h.trans h' fun _ _ => trivial

theorem Issued.weaken (h : Overrode a s t) : Overrode false s t :=
  ⟨h.log, h.safe, nofun⟩

theorem Issued.vars (h : Overrode a s t) (b : Broker) : Overrode a s { t with vars := b } :=
  ⟨h.log, h.safe, h.issued⟩

/-- The footprint of the functions that do not write the journal. -/
def Journalless : Op → Prop
  | .io c => c.journals = false
  | _ => True

variable {p : BrokerProg α}

theorem journalless_within {τ : Type} {V : Broker → τ} {K : List IoKind}
    (hK : IoKind.preference ∉ K) (hp : p.Uses (Within V K)) : p.Uses Journalless := by
  refine uses_mono (fun op hop => ?_) hp
  cases op with
  | io c => exact Io.journals_of_kind fun hkind => hK (hkind ▸ hop)
  | _ => trivial

theorem wp_overrode (hp : p.Uses Journalless) :
    wp (sysHandler env) p (fun _ => Overrode false s) s := by
  refine wp_returns (wp_log_uses hp) fun _ t ht => ?_
  obtain ⟨new, hlog, hnew⟩ := ht
  refine issued_of_journals ⟨new, hlog.symm⟩ fun e he => hnew e ?_
  rwa [callsSince_of_log hlog] at he

theorem journalless_recoverPreferredMode : recoverPreferredMode.Uses Journalless := by
  refine uses_bind (uses_perform rfl) fun journal => ?_
  cases journal with
  | none => trivial
  | some journal =>
    dsimp only
    cases scanMode journal with
    | none => trivial
    | some m =>
      refine uses_bind (uses_perform rfl) fun r => uses_ite ?_ trivial
      exact uses_bind (uses_perform rfl) fun _ => trivial

theorem journalless_disarmFor (text fallback : String) :
    (disarmFor text fallback).Uses Journalless := by
  refine uses_bind (uses_bind (uses_perform trivial) fun _ => ?_) fun _ => uses_perform trivial
  exact uses_bind journalless_recoverPreferredMode fun _ => uses_perform trivial

/-- `ApplyPreferredMode`, seen by an observer whose latest message is an unplugged status. -/
abbrev Applies (applied : Bool) (s t : Sys ω) : Prop :=
  Issued (fun k => Unplugged (k.latest, true)) applied s t

/-- The observer after an override was issued. -/
def Overrides.issue (k : Overrides) (applied : Bool) : Overrides :=
  { k with issued := k.issued ++ [(k.latest, applied)] }

theorem Overrides.Safe.issue (hk : k.Safe) (hlatest : Unplugged (k.latest, true))
    (applied : Bool) : (k.issue applied).Safe := by
  refine ⟨hk.journaled, fun x hx => ?_⟩
  rcases mem_append.1 hx with hx | hx
  · exact hk.unplugged x hx
  · rw [mem_singleton.1 hx]
    exact hlatest

theorem applies_of_command (answer : Bool × Text) (text : Text) (command : DisplayCommand)
    (result : Bool × Text) {rest : List Event}
    (hlog : t.log = s.log ++ ⟨.displayCommand .getPreferred, answer⟩ ::
      ⟨.writeAtomicText .modeJournal text, true⟩ :: ⟨.displayCommand command, result⟩ :: rest)
    (hrest : ∀ e ∈ rest, e.1.journals = false) : Applies result.1 s t := by
  have hcalls : ∀ k : Overrides, k.Safe →
      (callsSince s t).foldl Overrides.step k = rest.foldl Overrides.step (k.issue result.1) := by
    intro k hk
    rw [callsSince_of_log hlog]
    simp [Overrides.step, Overrides.issue, hk.journaled]
  refine ⟨⟨_, hlog.symm⟩, fun k hk hlatest => ?_, fun happlied k hk hlatest => ?_⟩
  · rw [hcalls k hk]
    exact (hk.issue hlatest _).foldl hrest
  · rw [hcalls k hk]
    have hmem : (k.latest, result.1) ∈ (k.issue result.1).issued :=
      mem_append_right _ mem_cons_self
    exact ⟨_, Overrides.mem_issued_foldl rest hmem, happlied, hlatest⟩

theorem wp_applyPreferredMode_applies :
    wp (sysHandler env) applyPreferredMode (fun r t => Applies r.1 s t) s := by
  unfold applyPreferredMode
  rw [wp_bind]
  refine wp_call (.displayCommand .getPreferred) trivial fun (answer : Bool × Text) w _ => ?_
  obtain ⟨ok, previous⟩ := answer
  dsimp only
  cases (if ok then parseSavedMode previous else none) with
  | none => exact issued_of_journals (prefix_append _ _) (by simp [callsSince, Io.journals])
  | some old =>
    simp only [wp_bind]
    refine wp_call (.writeAtomicText .modeJournal (printMode old)) trivial
      fun (written : Bool) w _ => ?_
    cases written with
    | false =>
      refine ⟨by simp, fun k hk _ => ?_, (by rintro ⟨⟩)⟩
      refine ⟨?_, ?_⟩
      · simp [callsSince, Overrides.step, hk.journaled]
      · simpa [callsSince, Overrides.step, hk.journaled] using hk.unplugged
    | true =>
      simp only [if_true, overridePreferredMode, wp_bind, wp_getBroker]
      refine wp_call (.displayCommand (preferenceCommand s.vars.requestedMode)) trivial
        fun (result : Bool × Text) w _ => ?_
      obtain ⟨applied, output⟩ := result
      cases applied with
      | true =>
        have hnone : ∀ e ∈ ([] : List Event), e.1.journals = false := by simp
        exact applies_of_command (ok, previous) (printMode old)
          (preferenceCommand s.vars.requestedMode) (true, output) (by simp) hnone
      | false =>
        simp only [Bool.false_eq_true, if_false, wp_bind, wp_pure]
        refine wp_returns (wp_log_uses journalless_recoverPreferredMode) fun _ t ht => ?_
        obtain ⟨new, hlog, hnew⟩ := ht
        exact applies_of_command (ok, previous) (printMode old)
          (preferenceCommand s.vars.requestedMode) (false, output) (by simp [hlog]) hnew

/-! ## Requests and overrides -/

theorem kind_of_requesting {c : Io} (h : Requesting (.io c)) : c.kind ≠ .preference := by
  rcases h with hkind | ⟨fd, rfl⟩
  · simp [hkind]
  · simp [Io.kind]

variable {m : Message} {reply : Reply}

theorem Responds.overrode {opcode : UInt16} {applied : Bool} (hr : Responds opcode s reply m t)
    (hkind : ∀ e ∈ callsSince s t, e.1.kind ≠ .preference) (hconn : m.connected = false)
    (happly : Applies applied t u) : Overrode applied s u := by
  obtain ⟨events, hmessages, -⟩ := hr.messages
  have hasked : Overrode false s t :=
    issued_of_journals hr.log fun e he => Io.journals_of_kind (hkind e he)
  simpa using hasked.trans happly fun k hk => by
    refine ⟨m, ?_, hr.response, hconn⟩
    rw [(Overrides.foldl_of_kind hkind k hk.journaled).2.2, hmessages]
    simp

variable {new : List Event}

theorem kind_callsSince (hlog : t.log = s.log ++ new) (hnew : ∀ e ∈ new, Requesting (.io e.1)) :
    ∀ e ∈ callsSince s t, e.1.kind ≠ .preference := by
  rw [callsSince_of_log hlog]
  exact fun e he => kind_of_requesting (hnew e he)

theorem owner_progress (h : t.vars.owner = s.vars.owner) : t.vars.progress = s.vars.progress :=
  congrArg (fun v => v.2.2.2) h

theorem progress_eq {b b' : Broker} (h : b.progress = b'.progress) :
    b.preferenceApplied = b'.preferenceApplied ∧ b.replugRequired = b'.replugRequired ∧
      b.stableModeSamples = b'.stableModeSamples :=
  ⟨congrArg Prod.fst h, congrArg (fun v => v.2.1) h, congrArg (fun v => v.2.2) h⟩

/-- `Arm` behind its gates: the samples start at zero, and the preference counts as overridden only
    if it was overridden behind an unplugged status. -/
theorem wp_armOpen_overrode : wp (sysHandler env) (armOpen n)
      (fun _ t => Overrode t.vars.preferenceApplied s t ∧ t.vars.stableModeSamples = 0) s := by
  unfold armOpen
  rw [wp_bind, wp_update, wp_bind]
  refine wp_call _ trivial fun (now : Int) w _ => ?_
  rw [wp_bind, wp_update, wp_bind]
  refine wp_returns (wp_and (wp_composerRequest_responds n opStatus {} false 0)
    (wp_log_uses (requesting_composerRequest opStatus {} false 0)))
    fun reply u hu => ?_
  obtain ⟨hu, new, hlog, hnew⟩ := hu
  have hasked : u.vars.preferenceApplied = false ∧ u.vars.stableModeSamples = 0 := by
    rcases hu with ⟨m, hm⟩ | hf
    · exact (progress_eq (congrArg (fun v => v.1.2.2.2) hm.asked)).imp_right And.right
    · exact (progress_eq (congrArg (fun v => v.1.2.2.2) hf.asked)).imp_right And.right
  have hclock : ∀ {b : Broker}, Overrode false s
      { s with vars := b, log := s.log ++ [⟨.monotonicMs, now⟩], world := w } := fun {b} =>
    issued_of_journals (prefix_append _ _) (by simp [callsSince, Io.journals])
  have hwaits := (hclock.then (issued_of_journals ⟨new, hlog.symm⟩ fun e he =>
    Io.journals_of_kind (kind_callsSince hlog hnew e he))).vars
  rw [wp_bind, wp_getBroker, wp_ite]
  split
  · simp only [armWaiting, wp_bind, wp_update, wp_pure, hasked]
    exact ⟨hwaits _, trivial⟩
  · rename_i hok
    rw [wp_ite]
    split
    · simp only [armWaiting, wp_bind, wp_update, wp_pure, hasked]
      exact ⟨hwaits _, trivial⟩
    · rename_i hflag
      rw [wp_bind, wp_update, wp_bind]
      refine wp_returns (wp_and wp_applyPreferredMode_applies (wp_files uses_applyPreferredMode))
        fun r v hv => ?_
      obtain ⟨happly, hfiles⟩ := hv
      obtain ⟨hpref, -, hsamples⟩ := progress_eq (owner_progress hfiles.owner)
      have hover : Overrode r.1 s v := by
        rcases hu with ⟨m, hm⟩ | hf
        · have hconn : m.connected = false := by
            rw [hm.knows.flags] at hflag
            exact Bool.not_eq_true _ ▸ hflag
          have h := Responds.overrode hm (kind_callsSince hlog hnew) hconn
            ⟨happly.log, happly.safe, happly.issued⟩
          simpa using hclock.trans h fun _ _ => trivial
        · simp [hf.reply] at hok
      obtain ⟨applied, failure⟩ := r
      cases applied with
      | true =>
        simp only [if_true, armWaiting, wp_bind, wp_update, wp_pure]
        exact ⟨hover.vars _, hsamples.trans hasked.2⟩
      | false =>
        simp only [Bool.false_eq_true, if_false, wp_bind, wp_update, wp_pure]
        rw [hpref.trans hasked.1]
        exact ⟨hover.vars _, hsamples.trans hasked.2⟩

/-! ## Parts that leave an armed request alone -/

/-- From `s` to `t` an armed request was left alone, dropped or armed anew, or its samples start at
    zero; and its preference was overridden before or since. -/
structure Keeping (s t : Sys ω) : Prop where
  overrode : Overrode false s t
  progress : t.vars.armed = true →
    (s.vars.armed = true ∧ t.vars.progress = s.vars.progress) ∨ t.vars.stableModeSamples = 0
  applied : t.vars.armed = true → t.vars.preferenceApplied = true →
    (s.vars.armed = true ∧ s.vars.preferenceApplied = true) ∨ Overrode true s t

theorem Keeping.refl (s : Sys ω) : Keeping s s :=
  ⟨Overrode.refl s, fun h => .inl ⟨h, rfl⟩, fun h h' => .inl ⟨h, h'⟩⟩

/-- A step that issues nothing and drops the request or leaves it alone. -/
theorem Keeping.then (h : Keeping s t) (hover : Overrode false t u)
    (hkept : u.vars.armed = true → t.vars.armed = true ∧ u.vars.progress = t.vars.progress) :
    Keeping s u := by
  refine ⟨h.overrode.then hover, fun ha => ?_, fun ha hp => ?_⟩
  · obtain ⟨ha', hprogress⟩ := hkept ha
    rcases h.progress ha' with ⟨hs, hp⟩ | hzero
    · exact .inl ⟨hs, hprogress.trans hp⟩
    · exact .inr ((congrArg (fun v => v.2.2) hprogress).trans hzero)
  · obtain ⟨ha', hprogress⟩ := hkept ha
    rcases h.applied ha' ((congrArg Prod.fst hprogress).symm.trans hp) with hs | hover'
    · exact .inl hs
    · exact .inr (hover'.then hover)

theorem wp_noPreference (hp : p.Uses NoPreference) :
    wp (sysHandler env) p (fun _ t => Overrode false s t ∧ t.vars.standing = s.vars.standing)
      s := by
  have hstanding : wp (sysHandler env) p (fun _ t => t.vars.standing = s.vars.standing)
      s (fun t => t.vars.standing = s.vars.standing) :=
    wp_process_invariant (I := fun t : Sys ω => t.vars.standing = s.vars.standing)
      (fun t f hf h => (hf t.vars).trans h) (fun _ _ h => h) (fun _ _ _ _ _ h _ => h) hp rfl
  exact wp_returns (wp_and (wp_overrode (journalless_within (by simp) hp)) hstanding) fun _ _ h => h

theorem keeping_noPreference (hp : p.Uses NoPreference) :
    Restores (sysHandler env) (Keeping s) α p := by
  refine fun t ht => wp_post (wp_noPreference hp) fun _ u hu => ?_
  refine ht.then hu.1 fun ha => ⟨(congrArg Prod.fst hu.2).symm.trans ha, ?_⟩
  exact congrArg (fun v => v.2.2) hu.2

theorem noPreference_plain (hp : p.Uses Plain) : p.Uses NoPreference :=
  uses_mono (fun _ => Within.mono (fun _ _ h => congrArg Prod.snd h) (by simp)) hp

theorem keepingParts (s : Sys ω) : LoopParts n (Restores (sysHandler env) (Keeping s)) where
  toCompositional := restores_compositional _ _
  plain hp := keeping_noPreference (noPreference_plain hp)
  assign hf t ht := ht.then ((Overrode.refl t).vars _) (hf t.vars).2
  recover t ht := by
    refine wp_returns (wp_and (wp_overrode journalless_recoverPreferredMode)
      (wp_files uses_recoverPreferredMode)) fun _ u hu => ?_
    exact ht.then hu.1 fun ha => ⟨(owner_armed hu.2.owner).symm.trans ha, owner_progress hu.2.owner⟩
  request _ _ _ _ := keeping_noPreference (noPreference_calm (calm_composerRequest _ _ _ _))
  wait _ _ _ := keeping_noPreference (noPreference_calm (calm_waitAgent _ _ _))
  start mode := keeping_noPreference (noPreference_start n mode)
  armOpen t ht := by
    refine wp_post wp_armOpen_overrode fun _ u hu => ?_
    refine ⟨ht.overrode.then hu.1.weaken, fun _ => .inr hu.2, fun _ hp => .inr ?_⟩
    simpa [hp] using ht.overrode.trans hu.1 fun _ _ => trivial

theorem keeping_part {p : Part} (hp : p ≠ .armed) (revents : List Revents) :
    wp (sysHandler env) (p.prog n revents) (fun _ => Keeping s) s := by
  have hparts : LoopParts n (Restores (sysHandler env) (Keeping s)) := keepingParts s
  have hear : ∀ fd, Restores (sysHandler env) (Keeping s) ComposerHotplug
      (handleComposerReadable fd) := fun fd =>
    keeping_noPreference (noPreference_calm (calm_composing (composing_handleComposerReadable fd)))
  have hpreserve : Restores (sysHandler env) (Keeping s) Unit preserveArmAcrossDisconnect :=
    fun t ht => ⟨ht.overrode.vars _, fun _ => .inr rfl, fun ha hp =>
      (ht.applied ha hp).imp id fun h => h.vars _⟩
  cases p with
  | client => exact hparts.runClient _ s (Keeping.refl s)
  | composer => exact hparts.runComposer hear hpreserve _ s (Keeping.refl s)
  | agent => exact hparts.runAgent _ s (Keeping.refl s)
  | volumes => exact hparts.runVolumes _ _ s (Keeping.refl s)
  | heartbeat => exact hparts.runHeartbeat s (Keeping.refl s)
  | deadline => exact hparts.runDeadline s (Keeping.refl s)
  | armed => exact absurd rfl hp

theorem wp_part_released (p : Part) (revents : List Revents) (hs : s.vars.active = true) :
    wp (sysHandler env) (p.prog n revents)
      (fun _ t => t.vars.active = false → t.vars.armed = false) s := by
  have hends : ∀ {q : BrokerProg Unit}, wp (sysHandler env) q (fun _ => Ends s) s →
      wp (sysHandler env) q (fun _ t => t.vars.active = false → t.vars.armed = false) s := by
    refine fun hq => wp_post hq fun _ t ht hactive => ?_
    rcases ht with ht | ht
    · exact ht.armed
    · exact absurd ((ht.active hs).symm.trans hactive) nofun
  cases p with
  | client =>
    refine wp_post (wp_runClient_active n _ hs) fun _ t ht hactive => ?_
    rcases ht with ht | ht | ht
    · exact ht.armed
    · exact absurd (((owner_active ht.owner).trans hs).symm.trans hactive) nofun
    · exact absurd (((owner_active ht.1.owner).trans hs).symm.trans hactive) nofun
  | composer => exact hends (wp_runComposer_active n _ hs)
  | agent => exact hends (wp_runAgent_active n _ hs)
  | volumes => exact hends (wp_runVolumes_active n _ _ hs)
  | heartbeat => exact hends (wp_runHeartbeat_active n hs)
  | deadline => exact hends (wp_runDeadline_active n hs)
  | armed => exact hends (wp_runArmed_active n hs)

/-! ## The composer's part -/

theorem wp_handleComposerReadable_connected (fd : Fd) :
    wp (sysHandler env) (handleComposerReadable fd) (fun r t => r = .connected →
      ∀ m ∈ composerMessages (callsSince s t), m.connected = true) s := by
  simp only [handleComposerReadable, wp_bind]
  refine wp_post (wp_recvWithFd fd) fun x u hu => ?_
  obtain ⟨r, passed⟩ := x
  refine wp_post (hu.closeIfOpen passed) fun _ v hv => ?_
  obtain ⟨hlog, hmessages, -, -⟩ := hv.calls (prefix_refl s.log)
  rw [wp_ite]
  split
  · rintro ⟨⟩
  · simp only [wp_bind, wp_update, wp_ite]
    split
    · rename_i hconn
      refine wp_call _ trivial fun _ w _ _ m hm => ?_
      have hcalls : composerMessages (callsSince s { v with
          vars := v.vars.noteHotplug r.message, world := w,
          log := v.log ++ [⟨.logTransition .displayConnected, ()⟩] }) =
          composerMessages (callsSince s v) := by
        rw [show callsSince s { v with
          vars := v.vars.noteHotplug r.message, world := w,
          log := v.log ++ [⟨.logTransition .displayConnected, ()⟩] } = _ from
            callsSince_snoc hlog _ w, composerMessages_append]
        simp [composerMessages, composerMessage]
      rw [hcalls, hmessages, callsSince_self] at hm
      split at hm
      · rw [mem_singleton.1 hm]
        exact hconn
      · cases hm
    · exact wp_call _ trivial fun _ _ _ => (by rintro ⟨⟩)

/-- The composer's part takes the samples of an armed request back if it consumes an unplug. -/
theorem wp_runComposer_noUnplug (revents : Revents) (hs : s.vars.active = false) :
    wp (sysHandler env) (runComposer n revents) (fun _ t => t.vars.armed = true →
      t.vars.stableModeSamples = 0 ∨
        ∀ m ∈ composerMessages (callsSince s t), m.connected = true) s := by
  simp only [runComposer, wp_bind, wp_getBroker]
  cases s.vars.composerFd with
  | none =>
    intro _
    right
    rw [callsSince_self]
    rintro _ ⟨⟩
  | some fd =>
    simp only [wp_ite, wp_bind, wp_pure]
    split
    · refine wp_post wp_closeComposer fun _ t ht => ?_
      obtain ⟨howner, -, -, seg, hlog, hseg⟩ := ht
      simp only [releaseIfActive, wp_bind, wp_getBroker, (owner_active howner).trans hs]
      intro _
      right
      rw [callsSince_of_log hlog, composerMessages_of_kind hseg]
      rintro _ ⟨⟩
    · split
      · refine wp_returns (wp_and (wp_handleComposerReadable_connected fd)
          (wp_handleComposerReadable fd)) fun hotplug t ht => ?_
        obtain ⟨hconn, hsteady, -⟩ := ht
        simp only [runHotplug, wp_bind, wp_getBroker, (owner_active hsteady.owner).trans hs]
        cases hotplug with
        | connected => exact fun _ => .inr (hconn rfl)
        | invalid =>
          simp only [Bool.false_eq_true, if_false, wp_ite]
          split
          · simp only [disarm, setDetail, wp_bind, wp_update]
            refine wp_returns (wp_files uses_recoverPreferredMode) fun _ u hu ha => ?_
            exact absurd ((owner_armed hu.owner).symm.trans ha) (by rintro ⟨⟩)
          · rename_i harmed
            exact fun ha => absurd ha harmed
        | disconnected =>
          simp only [Bool.false_eq_true, if_false, wp_ite]
          split
          · exact fun _ => .inl rfl
          · rename_i harmed
            exact fun ha => absurd ha harmed
      · intro _
        right
        rw [callsSince_self]
        rintro _ ⟨⟩

/-! ## `AdvanceArmed` -/

/-- What `AdvanceArmed` does to the samples of a request that stays armed: they start again, it did not
    poll, it polled while the request was not ready, or it took one more sample. -/
def Did.Advances (d : Did ω) : Prop :=
  d.after.vars.stableModeSamples = 0 ∨
    (d.polls = false ∧ d.after.vars.progress = d.before.vars.progress) ∨
    (¬d.before.vars.Ready ∧ d.after.vars.progress = d.before.vars.progress) ∨
    (d.Sample ∧ d.before.vars.Ready ∧ d.after.vars.progress =
      (d.before.vars.preferenceApplied, d.before.vars.replugRequired,
        d.before.vars.stableModeSamples + 1))

/-- What `AdvanceArmed` does. -/
structure Did.Advanced (d : Did ω) : Prop where
  overrode : Overrode false d.before d.after
  applied : d.after.vars.armed = true → d.after.vars.preferenceApplied = true →
    d.before.vars.preferenceApplied = true ∨ Overrode true d.before d.after
  starts : d.startsSession = true →
    d.Sample ∧ d.before.vars.Ready ∧ 2 ≤ d.before.vars.stableModeSamples
  waits : d.after.vars.armed = true → d.Advances

variable {d : Did ω}

theorem startsSession_of_calls (h : ∀ e ∈ d.calls, e.1 ≠ .access .compatibleOk) :
    d.startsSession ≠ true := by
  simp only [Did.startsSession, ne_eq, Bool.and_eq_true, any_eq_true]
  rintro ⟨-, ⟨c, a⟩, he, hmatch⟩
  have hc := h _ he
  cases c with
  | access marker =>
    cases marker with
    | compatibleOk => exact hc rfl
    | diagnosticOnly => cases hmatch
  | _ => cases hmatch

theorem Responds.sample (hr : Responds opStatus s reply m u) (hut : u.log <+: t.log)
    (revents : List Revents) (hmatch : u.vars.requestedModeMatches = true)
    (hlease : hasFlag u.vars.composerFlags flagLeaseReady = true)
    (hagent : u.vars.agentFd.isSome = true) : Did.Sample ⟨.armed, revents, s, t⟩ := by
  have howner : u.vars.owner = s.vars.owner := congrArg Prod.fst hr.asked
  have hmode : u.vars.requestedMode = s.vars.requestedMode := congrArg Prod.snd hr.asked
  simp only [Broker.requestedModeMatches, Bool.and_eq_true, Bool.or_eq_true, beq_iff_eq,
    decide_eq_true_eq] at hmatch
  refine ⟨?_, m, ?_, ?_, ?_, ?_, ?_⟩
  · obtain ⟨e, he, hkind⟩ := hr.sent
    have hmem : e ∈ callsSince s t := mem_callsSince hr.log hut he
    simp only [Did.polls, Did.calls, Bool.and_eq_true, any_eq_true]
    exact ⟨rfl, e, hmem, by simp [hkind]⟩
  · rw [Did.calls, callsSince_trans hr.log hut]
    exact hr.answer rfl _
  · rw [← hmatch.1.1, hr.knows.flags]
    rfl
  · rw [← hr.knows.flags]
    exact hlease
  · rw [← hmode]
    rcases hmatch.2 with hnative | ⟨⟨hwidth, hheight⟩, hrefresh⟩
    · exact .inl hnative
    · rw [hr.knows.width] at hwidth
      rw [hr.knows.height] at hheight
      rw [hr.knows.refresh] at hrefresh
      exact .inr ⟨hwidth, hheight, hrefresh⟩
  · have hfd : u.vars.agentFd = s.vars.agentFd := congrArg (fun v => v.2.2.1) howner
    exact hfd ▸ hagent

theorem wp_advanceUnplugged_overrode (hr : Responds opStatus s reply m u)
    (hkind : ∀ e ∈ callsSince s u, e.1.kind ≠ .preference) (hconn : m.connected = false) :
    wp (sysHandler env) advanceUnplugged (fun _ t => Overrode false s t ∧
      (t.vars.armed = true → t.vars.stableModeSamples = 0 ∧
        (u.vars.preferenceApplied = true ∨ Overrode true s t))) u := by
  have hasked : Overrode false s u :=
    issued_of_journals hr.log fun e he => Io.journals_of_kind (hkind e he)
  simp only [advanceUnplugged, ensurePreference, wp_bind, wp_update, wp_getBroker, wp_ite, wp_pure]
  split
  · rename_i hpref
    exact ⟨hasked.vars _, fun _ => ⟨trivial, .inl hpref⟩⟩
  · refine wp_returns (wp_and wp_applyPreferredMode_applies (wp_files uses_applyPreferredMode))
      fun r v hv => ?_
    obtain ⟨happly, hfiles⟩ := hv
    have hover : Overrode r.1 s v :=
      hr.overrode hkind hconn ⟨happly.log, happly.safe, happly.issued⟩
    obtain ⟨applied, failure⟩ := r
    cases applied with
    | true =>
      refine ⟨hover.weaken.vars _, fun _ => ⟨?_, .inr (hover.vars _)⟩⟩
      exact congrArg (fun v => v.2.2) (owner_progress hfiles.owner)
    | false =>
      refine wp_returns (wp_and (wp_overrode (journalless_disarmFor _ _))
        (wp_disarmFor_armed _ _)) fun _ t ht => ?_
      exact ⟨hover.then ht.1, fun ha => absurd (ht.2.symm.trans ha) (by rintro ⟨⟩)⟩

theorem unstarted_of_poll {clock : Int} (rest : List Event)
    (hlog : t.log = s.log ++ (⟨.monotonicMs, clock⟩ :: new ++ rest))
    (hnew : ∀ e ∈ new, Requesting (.io e.1)) (hrest : ∀ e ∈ rest, e.1.kind = .preference)
    (revents : List Revents) : Did.startsSession ⟨.armed, revents, s, t⟩ ≠ true := by
  refine startsSession_of_calls fun e he haccess => ?_
  rw [Did.calls, callsSince_of_log hlog, mem_append, mem_cons] at he
  rcases he with (rfl | he) | he
  · cases haccess
  · rcases hnew e he with hkind | ⟨fd, hclose⟩
    · rw [haccess] at hkind
      cases hkind
    · rw [haccess] at hclose
      cases hclose
  · have hkind := hrest e he
    rw [haccess] at hkind
    cases hkind

theorem wp_advancePlugged_advanced {clock : Int} (now : Int) (revents : List Revents)
    (hr : Responds opStatus s reply m u) (hlog : u.log = s.log ++ ⟨.monotonicMs, clock⟩ :: new)
    (hnew : ∀ e ∈ new, Requesting (.io e.1)) (hover : Overrode false s u) :
    wp (sysHandler env) (advancePlugged n now)
      (fun _ t => Did.Advanced ⟨.armed, revents, s, t⟩) u := by
  have howner : u.vars.owner = s.vars.owner := congrArg Prod.fst hr.asked
  have hprogress := owner_progress howner
  obtain ⟨hpref, hreplug, hsamples⟩ := progress_eq hprogress
  -- the polls that start nothing and keep the flags of the request
  have hwaits : ∀ b : Broker, b.preferenceApplied = u.vars.preferenceApplied →
      Did.Advances (⟨.armed, revents, s, { u with vars := b }⟩ : Did ω) →
      Did.Advanced (⟨.armed, revents, s, { u with vars := b }⟩ : Did ω) := by
    refine fun b hb hadvances => ⟨hover.vars b, fun _ hp => .inl (hpref ▸ hb ▸ hp),
      fun hstart => absurd hstart ?_, fun _ => hadvances⟩
    exact unstarted_of_poll [] (by simpa using hlog) hnew (forall_mem_nil _) revents
  simp only [advancePlugged, advanceWaiting, setDetail, wp_bind, wp_getBroker, wp_ite, wp_update,
    wp_pure]
  split
  · rename_i hnot
    refine hwaits _ rfl (.inr (.inr (.inl ⟨fun hready => ?_, hprogress⟩)))
    rw [hpref, hreplug, hready.1, hready.2] at hnot
    cases hnot
  · rename_i hready
    have hready : s.vars.Ready := by
      simp only [Bool.or_eq_true, Bool.not_eq_true', not_or, Bool.not_eq_true,
        Bool.not_eq_false] at hready
      exact ⟨hpref ▸ hready.2, hreplug ▸ hready.1⟩
    split
    · exact hwaits _ rfl (.inl rfl)
    · rename_i hmatch
      split
      · exact hwaits _ rfl (.inl rfl)
      · rename_i hlease
        split
        · exact hwaits _ rfl (.inl rfl)
        · rename_i hagent
          have hsample : ∀ {t : Sys ω}, u.log <+: t.log →
              Did.Sample (⟨.armed, revents, s, t⟩ : Did ω) := fun hut =>
            hr.sample hut revents (by simpa using hmatch) (by simpa using hlease)
              (by simpa [Option.isSome_iff_ne_none] using hagent)
          have hone : ∀ b : Broker, b.progress = (u.vars.preferenceApplied,
              u.vars.replugRequired, u.vars.stableModeSamples + 1) → b.progress =
              (s.vars.preferenceApplied, s.vars.replugRequired, s.vars.stableModeSamples + 1) :=
            fun b hb => by rw [hb, hpref, hreplug, hsamples]
          split
          · exact hwaits _ rfl (.inr (.inr (.inr ⟨hsample (prefix_refl _), hready, hone _ rfl⟩)))
          · rename_i hthird
            have hthird : 2 ≤ s.vars.stableModeSamples := by
              simp only [kModeStableSamples, hsamples] at hthird
              omega
            refine wp_post (wp_noPreference (noPreference_start n probeXorgLegacy)) fun r v hv => ?_
            have hover' : Overrode false s v := (hover.vars _).then hv.1
            have hpref' : v.vars.progress = _ := congrArg (fun x => x.2.2) hv.2
            split
            · refine wp_returns (wp_and (wp_overrode (journalless_disarmFor _ _))
                (wp_disarmFor_armed _ _)) fun _ t ht => ?_
              have hnone : t.vars.armed ≠ true := fun ha =>
                absurd (ht.2.symm.trans ha) Bool.false_ne_true
              exact ⟨hover'.then ht.1, fun ha => absurd ha hnone,
                fun _ => ⟨hsample (hv.1.log.trans ht.1.log), hready, hthird⟩,
                fun ha => absurd ha hnone⟩
            · exact ⟨hover', fun _ hp => .inl (hpref ▸ (congrArg Prod.fst hpref').symm.trans hp),
                fun _ => ⟨hsample hv.1.log, hready, hthird⟩,
                fun _ => .inr (.inr (.inr ⟨hsample hv.1.log, hready, hone _ hpref'⟩))⟩

theorem preferring_advanceUnplugged :
    advanceUnplugged.Uses (Within (fun _ => ()) [.preference]) := by
  have : Preferring (Within (fun _ => ()) [.preference]) := preferring_within (by simp)
  have hdisarm : ∀ text fallback : String,
      (disarmFor text fallback).Uses (Within (fun _ => ()) [.preference]) := fun _ _ =>
    uses_bind (uses_bind (uses_update fun _ => rfl) fun _ =>
      uses_bind (uses_recoverPreferredMode) fun _ => uses_update fun _ => rfl)
      fun _ => uses_update fun _ => rfl
  refine uses_bind (uses_update fun _ => rfl) fun _ => ?_
  refine uses_bind (uses_bind uses_getBroker fun _ => uses_ite trivial
    (uses_applyPreferredMode)) fun r => ?_
  exact uses_ite (uses_update fun _ => rfl) (hdisarm _ _)

/-- What a call of `AdvanceArmed` does. -/
theorem wp_advanceArmed_advanced (revents : List Revents) :
    wp (sysHandler env) (advanceArmed n) (fun _ t => Did.Advanced ⟨.armed, revents, s, t⟩) s := by
  refine wp_advanceArmed_polls (fun t hvars hcalls hlog => ?_) fun now reply u hu hgrown => ?_
  · obtain ⟨now, hcalls⟩ := hcalls
    refine ⟨issued_of_journals hlog (by simp [hcalls, Io.journals]), fun _ hp => ?_,
      fun hstart => ?_, fun _ => .inr (.inl ⟨?_, congrArg Broker.progress hvars⟩)⟩
    · exact .inl (congrArg Broker.preferenceApplied hvars ▸ hp)
    · exact absurd hstart (startsSession_of_calls (by simp [Did.calls, hcalls]))
    · simp [Did.polls, Did.calls, hcalls, Io.kind]
  · obtain ⟨clock, new, hlog, hnew⟩ := hgrown
    have hkind : ∀ e ∈ callsSince s u, e.1.kind ≠ .preference := by
      rw [callsSince_of_log hlog]
      intro e he
      rcases mem_cons.1 he with rfl | he
      · simp [Io.kind]
      · exact kind_of_requesting (hnew e he)
    have hover : Overrode false s u := issued_of_journals ⟨_, hlog.symm⟩ fun e he =>
      Io.journals_of_kind (hkind e he)
    have hpref : u.vars.preferenceApplied = s.vars.preferenceApplied := by
      rcases hu with ⟨m, hm⟩ | hf
      · exact congrArg (fun v => v.1.2.2.2.1) hm.asked
      · exact congrArg (fun v => v.1.2.2.2.1) hf.asked
    -- what is left of the poll starts nothing
    have hunstarted : ∀ {t : Sys ω} (rest : List Event), t.log = u.log ++ rest →
        (∀ e ∈ rest, e.1.kind = .preference) →
        Did.startsSession (⟨.armed, revents, s, t⟩ : Did ω) ≠ true := fun rest ht hrest =>
      unstarted_of_poll rest (by rw [ht, hlog, append_assoc]) hnew hrest revents
    rw [wp_ite]
    split
    · exact ⟨hover.vars _, fun _ hp => .inl (hpref ▸ hp),
        fun hstart => absurd hstart (hunstarted [] (by simp) (by simp)), fun _ => .inl rfl⟩
    · rename_i hok
      rcases hu with ⟨m, hm⟩ | hf
      · rw [wp_bind, wp_getBroker, wp_ite]
        split
        · exact wp_advancePlugged_advanced now revents hm hlog hnew hover
        · rename_i hflag
          have hconn : m.connected = false := by
            rw [hm.knows.flags] at hflag
            exact Bool.not_eq_true _ ▸ hflag
          refine wp_returns (wp_and (wp_advanceUnplugged_overrode hm hkind hconn)
            (wp_log_uses preferring_advanceUnplugged)) fun _ t ht => ?_
          obtain ⟨⟨hover', harmed⟩, rest, hrest, hkinds⟩ := ht
          have hkinds : ∀ e ∈ rest, e.1.kind = .preference := fun e he =>
            mem_singleton.1 (hkinds e he)
          exact ⟨hover', fun ha _ => (harmed ha).2.imp (fun h => hpref ▸ h) id,
            fun hstart => absurd hstart (hunstarted rest hrest hkinds),
            fun ha => .inl (harmed ha).1⟩
      · simp [hf.reply] at hok

/-! ## Every part -/

/-- What a part of an iteration does to an armed request. -/
structure Did.Lawful (d : Did ω) : Prop where
  overrode : Overrode false d.before d.after
  applied : d.after.vars.armed = true → d.after.vars.preferenceApplied = true →
    (d.before.vars.armed = true ∧ d.before.vars.preferenceApplied = true) ∨
      Overrode true d.before d.after
  starts : d.startsSession = true → d.before.vars.armed = true ∧ d.before.vars.active = false ∧
    d.Sample ∧ d.before.vars.Ready ∧ 2 ≤ d.before.vars.stableModeSamples
  waits : d.after.vars.armed = true → d.after.vars.active = false →
    d.before.vars.active = false ∧ (d.after.vars.stableModeSamples = 0 ∨
      (d.before.vars.armed = true ∧ (d.part = .composer → d.NoUnplug) ∧ d.Advances))

/-- A part that ends without a session began without one. -/
theorem Did.Ran.inactive (h : d.Ran env n) (harmed : d.after.vars.armed = true)
    (hactive : d.after.vars.active = false) : d.before.vars.active = false := by
  by_contra hs
  rw [Bool.not_eq_false] at hs
  have hreleased := wp_returned (wp_part_released d.part d.revents hs) h hactive
  exact absurd (hreleased.symm.trans harmed) nofun

theorem lawful_armed (h : d.Ran env n) (hpart : d.part = .armed) : d.Lawful := by
  obtain ⟨part, revents, s, t⟩ := d
  subst hpart
  by_cases hs : s.vars.armed = true ∧ s.vars.active = false
  · obtain ⟨harmed, hactive⟩ := hs
    have hrun : wp (sysHandler env) (runArmed n)
        (fun _ t => Did.Advanced ⟨.armed, revents, s, t⟩) s := by
      simp only [runArmed, wp_bind, wp_getBroker, harmed, hactive]
      exact wp_advanceArmed_advanced revents
    have hadvanced := wp_returned hrun h
    exact ⟨hadvanced.overrode,
      fun ha hp => (hadvanced.applied ha hp).imp (fun hpref => ⟨harmed, hpref⟩) id,
      fun hstart => ⟨harmed, hactive, hadvanced.starts hstart⟩,
      fun ha _ => ⟨hactive, .inr ⟨harmed, (by rintro ⟨⟩), hadvanced.waits ha⟩⟩⟩
  · have hidle : wp (sysHandler env) (runArmed n) (fun _ t => t = s) s := by
      have hcond : (s.vars.armed && !s.vars.active) = false := by
        simpa [Bool.and_eq_true, Bool.not_eq_true'] using hs
      simp only [runArmed, wp_bind, wp_getBroker, hcond]
      rfl
    obtain rfl : t = s := wp_returned hidle h
    refine ⟨Overrode.refl t, fun ha hp => .inl ⟨ha, hp⟩, fun hstart => ?_,
      fun ha hactive => absurd ⟨ha, hactive⟩ hs⟩
    simp [Did.startsSession, Did.calls, callsSince_self] at hstart

/-- Every part that ran is lawful. -/
theorem Did.Ran.lawful (h : d.Ran env n) : d.Lawful := by
  by_cases hpart : d.part = .armed
  · exact lawful_armed h hpart
  · have hkeeping := wp_returned (keeping_part hpart d.revents) h
    have hbeq : (d.part == Part.armed) = false := by simpa using hpart
    refine ⟨hkeeping.overrode, hkeeping.applied, fun hstart => ?_, fun ha hactive => ?_⟩
    · simp [Did.startsSession, hbeq] at hstart
    · have hinactive := h.inactive ha hactive
      refine ⟨hinactive, ?_⟩
      rcases hkeeping.progress ha with ⟨harmed, hprogress⟩ | hzero
      · by_cases hcomposer : d.part = .composer
        · have hran := h
          rw [Did.Ran, hcomposer] at hran
          rcases wp_returned (wp_runComposer_noUnplug _ hinactive) hran ha with hzero | hconn
          · exact .inl hzero
          · refine .inr ⟨harmed, fun _ m hm _ => hconn m ?_, .inr (.inl ⟨?_, hprogress⟩)⟩
            · rwa [Did.consumed, hcomposer, if_neg (by rintro ⟨⟩)] at hm
            · simp [Did.polls, hbeq]
        · exact .inr ⟨harmed, fun hc => absurd hc hcomposer,
            .inr (.inl ⟨by simp [Did.polls, hbeq], hprogress⟩)⟩
      · exact .inl hzero

/-! ## Histories -/

variable {hist : List (Did ω)} {k : Nat}

theorem Sampled.pred (h : Sampled (k + 1) hist) : Sampled k hist := by
  induction k generalizing hist with
  | zero => trivial
  | succ k ih =>
    obtain ⟨later, d, older, hsplit, hlater, hsample, hunplug, holder⟩ := h
    exact ⟨later, d, older, hsplit, hlater, hsample, fun _ => hunplug (by simp), ih holder⟩

theorem Sampled.mono {j : Nat} (h : Sampled k hist) (hjk : j ≤ k) : Sampled j hist := by
  induction k with
  | zero => exact Nat.le_zero.1 hjk ▸ h
  | succ k ih =>
    rcases Nat.lt_or_eq_of_le hjk with hlt | rfl
    · exact ih h.pred (Nat.le_of_lt_succ hlt)
    · exact h

theorem Sampled.idle (h : Sampled k hist) (hpolls : d.polls = false) (hunplug : d.NoUnplug) :
    Sampled k (d :: hist) := by
  cases k with
  | zero => trivial
  | succ k =>
    obtain ⟨later, d', older, rfl, hlater, hrest⟩ := h
    refine ⟨d :: later, d', older, rfl, fun x hx => ?_, hrest⟩
    rcases mem_cons.1 hx with rfl | hx
    · exact ⟨hpolls, hunplug⟩
    · exact hlater x hx

theorem Sampled.sample (h : Sampled k hist) (hsample : d.Sample) (hunplug : d.NoUnplug) :
    Sampled (k + 1) (d :: hist) :=
  ⟨[], d, hist, rfl, fun _ hx => absurd hx not_mem_nil, hsample, fun _ => hunplug, h⟩

/-- A successful override behind an unplugged status in one of the parts. -/
def AppliedIn (hist : List (Did ω)) : Prop :=
  ∃ d ∈ hist, ∃ x ∈ overrides d.calls, x.2 = true ∧ Unplugged x

theorem Issued.appliedIn (h : Overrode true d.before d.after) (hd : d ∈ hist) : AppliedIn hist :=
  ⟨d, hd, h.issued rfl {} Overrides.safe_empty trivial⟩

theorem AppliedIn.mono {hist' : List (Did ω)} (h : AppliedIn hist) (hsub : hist ⊆ hist') :
    AppliedIn hist' := by
  obtain ⟨d, hd, hx⟩ := h
  exact ⟨d, hsub hd, hx⟩

/-- What is known of an armed request: the part that armed it, and since then the overrides and the
    samples that its fields stand for. -/
structure Waiting (b : Broker) (since : List (Did ω)) (arming : Did ω) : Prop where
  arms : arming.arms
  armed : ∀ d ∈ since, d.before.vars.armed = true
  applied : b.preferenceApplied = true → AppliedIn (since ++ [arming])
  ready : 0 < b.stableModeSamples → b.Ready
  sampled : Sampled b.stableModeSamples since

variable {since : List (Did ω)}

theorem Did.Advances.sampled (h : d.Advances)
    (hunplug : d.NoUnplug) (hready : 0 < d.before.vars.stableModeSamples → d.before.vars.Ready)
    (hsampled : Sampled d.before.vars.stableModeSamples since) :
    (0 < d.after.vars.stableModeSamples → d.after.vars.Ready) ∧
      Sampled d.after.vars.stableModeSamples (d :: since) := by
  rcases h with hzero | ⟨hpolls, hprogress⟩ | ⟨hnot, hprogress⟩ | ⟨hsample, hbefore, hprogress⟩
  · rw [hzero]
    exact ⟨fun h => absurd h (by simp), trivial⟩
  · obtain ⟨hpref, hreplug, hcount⟩ := progress_eq hprogress
    rw [hcount]
    exact ⟨fun h => ⟨hpref.trans (hready h).1, hreplug.trans (hready h).2⟩,
      hsampled.idle hpolls hunplug⟩
  · have hcount := (progress_eq hprogress).2.2
    have hzero : d.before.vars.stableModeSamples = 0 := by
      by_contra hne
      exact hnot (hready (Nat.pos_of_ne_zero hne))
    rw [hcount, hzero]
    exact ⟨fun h => absurd h (by simp), trivial⟩
  · have hcount : d.after.vars.stableModeSamples = d.before.vars.stableModeSamples + 1 :=
      congrArg (fun v => v.2.2) hprogress
    have hpref : d.after.vars.preferenceApplied = d.before.vars.preferenceApplied :=
      congrArg Prod.fst hprogress
    have hreplug : d.after.vars.replugRequired = d.before.vars.replugRequired :=
      congrArg (fun v => v.2.1) hprogress
    rw [hcount]
    exact ⟨fun _ => ⟨hpref.trans hbefore.1, hreplug.trans hbefore.2⟩,
      hsampled.sample hsample hunplug⟩

variable {arming : Did ω}

theorem Waiting.part (h : Waiting d.before.vars since arming) (hd : d.Lawful) (hheard : d.Heard)
    (harmed : d.after.vars.armed = true) (hactive : d.after.vars.active = false)
    (hbefore : d.before.vars.armed = true) : Waiting d.after.vars (d :: since) arming := by
  obtain ⟨hinactive, hwaits⟩ := hd.waits harmed hactive
  have hsamples : (0 < d.after.vars.stableModeSamples → d.after.vars.Ready) ∧
      Sampled d.after.vars.stableModeSamples (d :: since) := by
    rcases hwaits with hzero | ⟨-, hcomposer, hadvances⟩
    · rw [hzero]
      exact ⟨fun h => absurd h (by simp), trivial⟩
    · refine hadvances.sampled ?_ h.ready h.sampled
      by_cases hpart : d.part = .composer
      · exact hcomposer hpart
      · exact hheard hbefore hinactive hpart
  refine ⟨h.arms, ?_, fun hp => ?_, hsamples.1, hsamples.2⟩
  · intro x hx
    rcases mem_cons.1 hx with rfl | hx
    · exact hbefore
    · exact h.armed x hx
  · rcases hd.applied harmed hp with ⟨-, hpref⟩ | hover
    · exact (h.applied hpref).mono (subset_cons_self _ _)
    · exact hover.appliedIn mem_cons_self

theorem waiting_of_arms (hd : d.Lawful) (harms : d.arms)
    (hactive : d.after.vars.active = false) : Waiting d.after.vars [] d := by
  obtain ⟨hbefore, harmed⟩ := harms
  have hzero : d.after.vars.stableModeSamples = 0 := by
    rcases (hd.waits harmed hactive).2 with hzero | ⟨hb, -⟩
    · exact hzero
    · exact absurd (hbefore.symm.trans hb) nofun
  refine ⟨⟨hbefore, harmed⟩, fun _ hx => absurd hx not_mem_nil, fun hp => ?_,
    by simp [hzero], ?_⟩
  · rcases hd.applied harmed hp with ⟨hb, -⟩ | hover
    · exact absurd (hbefore.symm.trans hb) nofun
    · exact hover.appliedIn mem_cons_self
  · rw [hzero]
    trivial

theorem Waiting.gated {older : List (Did ω)} (h : Waiting d.before.vars since arming)
    (hd : d.Lawful) (hheard : d.Heard) (hlawful : ∀ x ∈ since ++ arming :: older, x.Lawful)
    (hstart : d.startsSession = true) : Gated (d :: (since ++ arming :: older)) := by
  obtain ⟨harmed, hactive, hsample, hready, hcount⟩ := hd.starts hstart
  have hpart : d.part ≠ .composer := by
    intro hc
    simp [Did.startsSession, hc] at hstart
  have hsafe : ∀ x : Did ω, x.Lawful → ∀ y ∈ overrides x.calls, Unplugged y := fun x hx =>
    (hx.overrode.safe {} Overrides.safe_empty trivial).unplugged
  refine ⟨d :: since, arming, older, rfl, h.arms, ?_, ?_, ?_, ?_⟩
  · intro x hx
    rcases mem_cons.1 hx with rfl | hx
    · exact harmed
    · exact h.armed x hx
  · exact (h.applied hready.1).mono (subset_cons_self _ _)
  · intro x hx
    refine hsafe x ?_
    rcases mem_cons.1 hx with rfl | hx
    · exact hd
    · refine hlawful x ?_
      rcases mem_append.1 hx with hx | hx
      · exact mem_append_left _ hx
      · exact mem_append_right _ (mem_singleton.1 hx ▸ mem_cons_self)
  · exact (h.sampled.mono hcount).sample hsample (hheard harmed hactive hpart)

variable {revents : List Revents}

theorem History.lawful {todo : List Part}
    (h : History env n revents todo hist s) : ∀ d ∈ hist, d.Lawful :=
  fun d hd => (h.ran d hd).lawful

theorem armed_of_startup {w : ω}
    (h : runStartup.run (sysHandler env) (Sys.initial w) = (some true, s)) :
    s.vars.armed = false := by
  have huses : runStartup.Uses (Within Broker.owner [.quiet, .config, .preference]) := by
    have hfiles : ∀ {α : Type} {p : BrokerProg α}, p.Uses Files →
        p.Uses (Within Broker.owner [.quiet, .config, .preference]) := fun hp =>
      uses_mono (fun _ => Within.mono (fun _ _ => vital_owner) (by simp)) hp
    refine uses_bind (hfiles (uses_files uses_loadConfiguredMode)) fun _ => ?_
    refine uses_bind (hfiles uses_recoverPreferredMode) fun _ => ?_
    refine uses_bind (uses_call (by simp [Io.kind])) fun ok => uses_bind (uses_opened ok) fun _ => ?_
    exact uses_bind (uses_update fun _ => rfl) fun _ => trivial
  have howner : wp (sysHandler env) runStartup
      (fun _ t => t.vars.owner = (Sys.initial w).vars.owner)
      (Sys.initial w) (fun t => t.vars.owner = (Sys.initial w).vars.owner) :=
    wp_process_invariant (I := fun t : Sys ω => t.vars.owner = (Sys.initial w).vars.owner)
      (fun t f hf ht => (hf t.vars).trans ht) (fun _ _ h => h) (fun _ _ _ _ _ h _ => h) huses rfl
  exact owner_armed (wp_returned howner h)

theorem owner_of_poll {entered : Sys ω} {answer : PollAnswer}
    (htest : stopRequested.run (sysHandler env) s = (some false, entered))
    (hpoll : runPoll.run (sysHandler env) entered = (some answer, t)) :
    t.vars.owner = s.vars.owner := by
  have hentered := wp_returned (wp_quiet (uses_quietCall rfl)) htest
  have hpolled := wp_returned (wp_quiet uses_runPoll) hpoll
  exact hpolled.owner.trans hentered.owner

theorem Waiting.owner {b b' : Broker} (h : Waiting b since arming) (howner : b'.owner = b.owner) :
    Waiting b' since arming := by
  obtain ⟨hpref, hreplug, hcount⟩ := progress_eq (congrArg (fun v => v.2.2.2) howner)
  refine ⟨h.arms, h.armed, fun hp => h.applied (hpref ▸ hp), fun hpos => ?_, hcount ▸ h.sampled⟩
  have hready := h.ready (hcount ▸ hpos)
  exact ⟨hpref.trans hready.1, hreplug.trans hready.2⟩

/-- While a request is armed and no session is active, the history says what its fields stand for. -/
theorem History.waiting {todo : List Part}
    (h : History env n revents todo hist s) (hheard : ∀ d ∈ hist, d.Heard)
    (harmed : s.vars.armed = true) (hactive : s.vars.active = false) :
    ∃ since arming older, hist = since ++ arming :: older ∧ Waiting s.vars since arming := by
  induction h with
  | start hstart => exact absurd ((armed_of_startup hstart).symm.trans harmed) nofun
  | interrupted _ htest hpoll ih | poll _ htest hpoll ih =>
    have howner := owner_of_poll htest hpoll
    obtain ⟨since, arming, older, hsplit, hw⟩ := ih hheard ((owner_armed howner).symm.trans harmed)
      ((owner_active howner).symm.trans hactive)
    exact ⟨since, arming, older, hsplit, hw.owner howner⟩
  | @part revents p todo hist s t h hrun ih =>
    have hran : Did.Ran env n ⟨p, revents, s, t⟩ := hrun
    have hlawful := hran.lawful
    cases hbefore : s.vars.armed with
    | false =>
      exact ⟨[], _, hist, rfl, waiting_of_arms hlawful ⟨hbefore, harmed⟩ hactive⟩
    | true =>
      have hinactive := (hlawful.waits harmed hactive).1
      obtain ⟨since, arming, older, rfl, hw⟩ :=
        ih (fun d hd => hheard d (mem_cons_of_mem _ hd)) hbefore hinactive
      exact ⟨_ :: since, arming, older, rfl,
        Waiting.part hw hlawful (hheard _ mem_cons_self) harmed hactive hbefore⟩

/-- In every history in which only the composer's part of an iteration consumes an unplug while a
    request waits, every start that `AdvanceArmed` issues passes the gate. -/
theorem automatic_start_gated {revents : List Revents} {todo : List Part}
    {hist newer older : List (Did ω)} {d : Did ω} (h : History env n revents todo hist s)
    (hheard : ∀ x ∈ hist, x.Heard) (hsplit : hist = newer ++ d :: older)
    (hstart : d.startsSession = true) : Gated (d :: older) := by
  induction h generalizing newer with
  | start _ => exact absurd hsplit (by simp)
  | interrupted _ _ _ ih | poll _ _ _ ih => exact ih hheard hsplit
  | @part revents p todo hist s t h hrun ih =>
    cases newer with
    | nil =>
      obtain ⟨rfl, rfl⟩ := List.cons.inj hsplit
      have hran : Did.Ran env n ⟨p, revents, s, t⟩ := hrun
      have hlawful := hran.lawful
      obtain ⟨harmed, hactive, -⟩ := hlawful.starts hstart
      obtain ⟨since, arming, older, rfl, hw⟩ :=
        h.waiting (fun x hx => hheard x (mem_cons_of_mem _ hx)) harmed hactive
      exact Waiting.gated hw hlawful (hheard _ mem_cons_self) h.lawful hstart
    | cons x newer =>
      exact ih (fun y hy => hheard y (mem_cons_of_mem _ hy)) (List.cons.inj hsplit).2

/-- No part since the third latest poll consumed an unplug. -/
def unplugFree : Nat → List (Did ω) → Bool
  | 0, _ => true
  | _ + 1, [] => true
  | k + 1, d :: older =>
    if d.polls then (k == 0 || decide d.NoUnplug) && unplugFree k older
    else decide d.NoUnplug && unplugFree (k + 1) older

theorem Sampled.unplugFree (h : Sampled k since) (older : List (Did ω)) :
    unplugFree k (since ++ older) = true := by
  induction k generalizing since with
  | zero => simp [HdmiLos.unplugFree]
  | succ k ih =>
    obtain ⟨later, d, rest, rfl, hlater, hsample, hunplug, hrest⟩ := h
    induction later with
    | nil =>
      have hlast : (k == 0 || decide d.NoUnplug) = true := by
        cases k with
        | zero => rfl
        | succ k => simpa using hunplug (by simp)
      simp [HdmiLos.unplugFree, hsample.1, hlast, ih hrest]
    | cons x later ihlater =>
      obtain ⟨hpolls, hno⟩ := hlater x mem_cons_self
      have htail := ihlater fun y hy => hlater y (mem_cons_of_mem x hy)
      simpa [HdmiLos.unplugFree, hpolls, hno] using htail

/-- The composer reports the display as settled in the configured mode. -/
def reportsSettled : ComposerScript :=
  .reply { composerScriptMessage opResponse (flagConnected ||| flagLeaseReady ||| flagActiveMode)
    with activeWidth := 1920, activeHeight := 1080, activeRefreshMillihz := 60000 } false

/-- Nothing is readable in an iteration. -/
def nothingReadable : List Revents := [{}, {}, {}, {}, {}]

/-- An agent registers and a client arms a request while the display is unplugged. Two polls find the
    display settled, a client's status request finds `messages`, and so does the third poll. The agent
    then refuses the session. -/
def settledScript (messages : List ComposerScript) : Int × Bench :=
  (1, { polls := [clientReadable, clientReadable, nothingReadable, nothingReadable, clientReadable,
          replyReadable]
        streams := [streamScriptMessage opAgentRegister 0, streamScriptMessage opArm 0,
          streamScriptMessage opStatus 0, streamScriptMessage opAgentFailed 0]
        composer := [reports 0, reports 0, reports 0, reportsSettled, reportsSettled] ++ messages ++
          [reportsSettled] })

/-- The latest part started a session. -/
def startsLatest (hist : List (Did ω)) : Bool := hist.head?.any Did.startsSession

theorem startsLatest_cases (h : startsLatest hist = true) :
    ∃ d older, hist = d :: older ∧ d.startsSession = true := by
  cases hist with
  | nil => cases h
  | cons d older => exact ⟨d, older, rfl, h⟩

/-- Three polls find the display settled, and nothing else happens. -/
theorem automatic_start_gated_settled :
    ∃ (revents : List Revents) (hist older : List (Did (Int × Bench))) (s : Sys (Int × Bench))
      (d : Did (Int × Bench)), History armingEnv 8 revents [] hist s ∧ (∀ x ∈ hist, x.Heard) ∧
      hist = [] ++ d :: older ∧ d.startsSession = true ∧ Gated (d :: older) := by
  obtain ⟨revents, hist, s, h, hcheck⟩ := exists_history armingEnv 8
    (settledScript [reportsSettled]) 5
    (fun hist => startsLatest hist && hist.all fun d => decide d.Heard) (by decide +kernel)
  rw [Bool.and_eq_true] at hcheck
  obtain ⟨d, older, hlatest, hstart⟩ := startsLatest_cases hcheck.1
  have hsplit : hist = [] ++ d :: older := hlatest
  have hheard : ∀ x ∈ hist, x.Heard := fun x hx =>
    of_decide_eq_true (all_eq_true.1 hcheck.2 x hx)
  exact ⟨revents, hist, older, s, d, h, hheard, hsplit, hstart,
    automatic_start_gated h hheard hsplit hstart⟩

/-- A client's status request consumes an unplug between the second and the third sample, and the
    session is started all the same. -/
theorem automatic_start_after_unplug :
    ∃ (revents : List Revents) (hist older : List (Did (Int × Bench))) (s : Sys (Int × Bench))
      (d : Did (Int × Bench)), History armingEnv 8 revents [] hist s ∧ hist = d :: older ∧
      d.startsSession = true ∧ ¬Gated (d :: older) := by
  obtain ⟨revents, hist, s, h, hcheck⟩ := exists_history armingEnv 8
    (settledScript [unplugEvent, reportsSettled]) 5
    (fun hist => startsLatest hist && !unplugFree 3 hist) (by decide +kernel)
  rw [Bool.and_eq_true] at hcheck
  obtain ⟨d, older, rfl, hstart⟩ := startsLatest_cases hcheck.1
  refine ⟨revents, _, older, s, d, h, rfl, hstart, fun hgated => ?_⟩
  obtain ⟨since, arming, rest, hsplit, -, -, -, -, hsampled⟩ := hgated
  have hfree := hsampled.unplugFree (arming :: rest)
  rw [← hsplit] at hfree
  simp [hfree] at hcheck

end HdmiLos
