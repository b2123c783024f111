import HdmiLos.Broker.Bench
import HdmiLos.Broker.Proofs.ExchangeProofs
import HdmiLos.Broker.Proofs.HistoryProofs
import HdmiLos.Broker.Proofs.PartsProofs

/-!
# An armed request and the unplug it waits for

`AdvanceArmed` acts on the status that it polls. A status that reports the display as unplugged makes
it override Android's preference, unless an unplug event is still pending then: `ComposerRequest`
reports failure for a request that was answered.
-/

namespace HdmiLos

open Interaction Prog List

variable {ω α : Type} {env : Env ω} {n : Nat} {s t u : Sys ω}

/-! ## One poll -/

/-- What came before a request without talking to the composer belongs to it. -/
theorem Beside.responds {opcode : UInt16} {reply : Reply} {m : Message} (h : Stays s t)
    (hpending : t.vars.composerDisconnectPending = s.vars.composerDisconnectPending)
    (hr : Responds opcode t reply m u) : Responds opcode s reply m u := by
  obtain ⟨seg, hlog, hseg⟩ := h.log
  have hcalls := callsSince_trans h.grows hr.log
  rw [callsSince_of_log hlog] at hcalls
  have hmessages : composerMessages (callsSince s u) = composerMessages (callsSince t u) := by
    rw [hcalls, composerMessages_append, composerMessages_of_kind hseg, nil_append]
  refine ⟨h.grows.trans hr.log, hr.asked.trans h.kept, hr.knows, hr.reply, ?_, hr.response, ?_,
    fun hop later => ?_, ?_⟩
  · rw [hmessages]
    exact hr.messages
  · rw [hmessages, ← hpending]
    exact hr.pending
  · rw [hcalls, append_assoc, statusAnswer_of_kind hseg]
    exact hr.answer hop later
  · obtain ⟨e, he, hk⟩ := hr.sent
    exact ⟨e, hcalls ▸ mem_append_right _ he, hk⟩

theorem Beside.fails {opcode : UInt16} {reply : Reply} (h : Stays s t)
    (hf : Fails opcode t reply u) : Fails opcode s reply u := by
  obtain ⟨seg, hlog, hseg⟩ := h.log
  have hcalls := callsSince_trans h.grows hf.log
  rw [callsSince_of_log hlog] at hcalls
  refine ⟨h.grows.trans hf.log, hf.asked.trans h.kept, hf.reply, fun hop => ?_, ?_⟩
  · rw [hcalls, statusAnswer_of_kind hseg]
    exact hf.answer hop
  · obtain ⟨e, he, hk⟩ := hf.sent
    exact ⟨e, hcalls ▸ mem_append_right _ he, hk⟩

/-- `AdvanceArmed` reads the clock and does nothing, or polls the composer and goes on with the
    outcome. -/
theorem wp_advanceArmed_polls {Q : Unit → Sys ω → Prop}
    (hidle : ∀ t, t.vars = s.vars → (∃ now : Int, callsSince s t = [⟨.monotonicMs, now⟩]) →
      s.log <+: t.log → Q () t)
    (hpoll : ∀ (now : Int) (reply : Reply) (u : Sys ω),
      (∃ m, Responds opStatus s reply m u) ∨ Fails opStatus s reply u →
      (∃ (clock : Int) (new : List Event), u.log = s.log ++ ⟨.monotonicMs, clock⟩ :: new ∧
        ∀ e ∈ new, Requesting (.io e.1)) →
      wp (sysHandler env)
        (if !reply.ok then advanceWaiting "armed; waiting for the patched composer service"
        else do
          let b ← getBroker
          if hasFlag b.composerFlags flagConnected then advancePlugged n now else advanceUnplugged)
        Q u) :
    wp (sysHandler env) (advanceArmed n) Q s := by
  unfold advanceArmed
  rw [wp_bind]
  refine wp_call _ trivial fun (now : Int) w _ => ?_
  rw [wp_bind, wp_getBroker, wp_ite]
  split
  · exact hidle _ rfl ⟨now, callsSince_of_log rfl⟩ (prefix_append _ _)
  · rw [wp_bind, wp_update, wp_bind]
    refine wp_returns (wp_and (wp_composerRequest_responds n opStatus {} false 0)
      (wp_log_uses (requesting_composerRequest opStatus {} false 0)))
      fun reply u hu => ?_
    obtain ⟨hu, hgrown⟩ := hu
    -- the clock and the time of the next poll come before the request
    have hstays : Stays s { s with
        log := s.log ++ [⟨.monotonicMs, now⟩], world := w,
        vars := { s.vars with nextModePollMs := now + kModePollMs } } :=
      ⟨rfl, [⟨.monotonicMs, now⟩], rfl, by simp [Io.kind]⟩
    refine hpoll now reply u ?_ ?_
    · rcases hu with ⟨m, hm⟩ | hf
      · exact .inl ⟨m, hstays.responds rfl hm⟩
      · exact .inr (hstays.fails hf)
    · obtain ⟨new, hlog, hnew⟩ := hgrown
      exact ⟨now, new, by simpa using hlog, hnew⟩

/-! ## The unplugged status -/

theorem wp_disarmFor_armed (text fallback : String) :
    wp (sysHandler env) (disarmFor text fallback) (fun _ t => t.vars.armed = false) s := by
  simp only [disarmFor, disarm, setDetail, wp_bind, wp_update]
  refine wp_returns (wp_files uses_recoverPreferredMode) fun _ t ht => ?_
  exact congrArg (fun v => v.2.1) ht.owner

/-- `ApplyPreferredMode` reports a failure only if one of its steps failed. -/
theorem wp_applyPreferredMode_failed :
    wp (sysHandler env) applyPreferredMode (fun r t => r.1 = false → ApplyFailed (callsSince s t))
      s := by
  have hfailed : ∀ {seg : List Event} {t : Sys ω} (e : Event), t.log = s.log ++ seg → e ∈ seg →
      failsApply e = true → ApplyFailed (callsSince s t) := by
    intro seg t e hlog hmem he
    rw [callsSince_of_log hlog]
    exact ⟨e, hmem, he⟩
  rw [applyPreferredMode, wp_bind]
  refine wp_call _ trivial fun (answer : Bool × Text) w _ => ?_
  obtain ⟨ok, output⟩ := answer
  cases hsaved : (if ok then parseSavedMode output else none) with
  | none =>
    simp only [hsaved]
    refine fun _ => hfailed ⟨.displayCommand .getPreferred, ok, output⟩ rfl mem_cons_self ?_
    cases ok with
    | false => rfl
    | true => simpa [failsApply, DisplayCommand.succeeded] using hsaved
  | some old =>
    simp only [hsaved]
    rw [wp_bind]
    refine wp_call _ trivial fun (written : Bool) w _ => ?_
    cases written with
    | false =>
      exact fun _ => hfailed ⟨.writeAtomicText .modeJournal (printMode old), false⟩
        (append_assoc ..) (by simp) rfl
    | true =>
      rw [if_pos rfl, overridePreferredMode, wp_bind, wp_getBroker, wp_bind]
      refine wp_call _ trivial fun (answer : Bool × Text) w _ => ?_
      obtain ⟨applied, output⟩ := answer
      cases applied with
      | true => exact nofun
      | false =>
        show wp _ (recoverPreferredMode >>= _) _ _ _
        rw [wp_bind]
        refine wp_returns (wp_log_extends _) fun _ t ht _ => ?_
        obtain ⟨new, hnew⟩ := ht
        simp only [append_assoc] at hnew
        exact hfailed ⟨.displayCommand (preferenceCommand s.vars.requestedMode), false, output⟩
          hnew.symm (by simp) (by simp [failsApply, DisplayCommand.succeeded])

/-- A status without the connected flag gives the request what it needs, or disarms it because the
    preference could not be overridden. -/
theorem wp_advanceUnplugged_ready : wp (sysHandler env) advanceUnplugged (fun _ t =>
      (t.vars.armed = false ∧ ApplyFailed (callsSince s t)) ∨ t.vars.Ready) s := by
  simp only [advanceUnplugged, ensurePreference, wp_bind, wp_update, wp_getBroker, wp_ite]
  split
  · exact .inr ⟨rfl, rfl⟩
  · refine wp_returns (wp_and wp_applyPreferredMode_failed (wp_log_extends _)) fun r t ht => ?_
    obtain ⟨hfailed, hgrows⟩ := ht
    obtain ⟨applied, failure⟩ := r
    cases applied with
    | true => exact .inr ⟨rfl, rfl⟩
    | false =>
      refine wp_returns (wp_and (wp_disarmFor_armed _ _) (wp_log_extends _)) fun _ u hu =>
        .inl ⟨hu.1, ?_⟩
      obtain ⟨e, he, hfails⟩ := hfailed rfl
      refine ⟨e, ?_, hfails⟩
      rw [callsSince_trans (s := s) hgrows hu.2]
      exact mem_append_left _ he

theorem uses_advanceUnplugged :
    advanceUnplugged.Uses (Within (fun _ => ()) [.quiet, .preference]) := by
  have : Preferring (Within (fun _ => ()) [.quiet, .preference]) := preferring_within (by simp)
  have hdetail : ∀ text, (setDetail text).Uses (Within (fun _ => ()) [.quiet, .preference]) :=
    fun text => uses_update fun _ => rfl
  refine uses_bind (uses_update fun _ => rfl) fun _ => uses_bind
    (uses_bind uses_getBroker fun _ => uses_ite trivial uses_applyPreferredMode) fun r =>
    uses_ite (uses_update fun _ => rfl) (uses_bind (uses_bind (uses_update fun _ => rfl) fun _ =>
      uses_bind uses_recoverPreferredMode fun _ => hdetail _) fun _ => hdetail _)

/-- `AdvanceArmed` acts on the status exactly if no unplug is pending behind it. -/
theorem wp_advanceArmed_ready {m : Message} (hconn : m.connected = false)
    (harmed : s.vars.armed = true) :
    wp (sysHandler env) (advanceArmed n) (fun _ t => statusAnswer (callsSince s t) = some m →
      ((t.vars.armed = false ∧ ApplyFailed (callsSince s t)) ∨ t.vars.Ready ↔
        unplugAfter s.vars.composerDisconnectPending (composerMessages (callsSince s t)) = false ∨
          s.vars.Ready)) s := by
  refine wp_advanceArmed_polls (fun t _ hcalls _ hanswer => ?_) fun now reply u hu _ => ?_
  · obtain ⟨now, hcalls⟩ := hcalls
    rw [hcalls] at hanswer
    exact absurd hanswer nofun
  · rcases hu with ⟨m', hm'⟩ | hf
    · rw [wp_ite]
      split
      · -- the reply is reported as failed only while an unplug is pending, and nothing is done
        rename_i hok
        intro _
        have howner : u.vars.owner = s.vars.owner := congrArg Prod.fst hm'.asked
        have hprogress : u.vars.progress = s.vars.progress := congrArg (fun v => v.2.2.2) howner
        have hpending : u.vars.composerDisconnectPending = true := by
          simpa [hm'.reply] using hok
        have harmed' : u.vars.armed = true := (congrArg (fun v => v.2.1) howner).trans harmed
        have hready : u.vars.Ready ↔ s.vars.Ready := by
          unfold Broker.Ready
          rw [show u.vars.preferenceApplied =
            s.vars.preferenceApplied from congrArg Prod.fst hprogress,
            show u.vars.replugRequired = s.vars.replugRequired from congrArg (·.2.1) hprogress]
        rw [hm'.pending] at hpending
        show (u.vars.armed = false ∧ _) ∨ u.vars.Ready ↔
          unplugAfter _ (composerMessages (callsSince s u)) = false ∨ _
        simp [harmed', hready, hpending]
      · rename_i hok
        have hsettled : u.vars.composerDisconnectPending = false := by
          simpa [hm'.reply] using hok
        rw [hm'.pending] at hsettled
        rw [wp_bind, wp_getBroker, wp_ite]
        split
        · rename_i hflag
          refine wp_returns (wp_log_extends _) fun _ t ht hanswer => ?_
          rw [callsSince_trans hm'.log ht, hm'.answer rfl] at hanswer
          have hm : m' = m := Option.some.inj hanswer
          rw [hm'.knows.flags, hm] at hflag
          exact absurd (hflag.symm.trans hconn) nofun
        · refine wp_returns (wp_and wp_advanceUnplugged_ready (wp_log_uses uses_advanceUnplugged))
            fun _ t ht _ => ?_
          obtain ⟨hdone, new, hlog, hnew⟩ := ht
          have hgrows : u.log <+: t.log := ⟨new, hlog.symm⟩
          have hcalls : callsSince s t = callsSince s u ++ callsSince u t :=
            callsSince_trans hm'.log hgrows
          have hkind : ∀ e ∈ callsSince u t, e.1.kind ≠ .composer := fun e he => by
            rw [callsSince_of_log hlog] at he
            have hkind : e.1.kind = .quiet ∨ e.1.kind =
              .preference := by simpa [Within] using hnew e he
            rcases hkind with h | h <;> rw [h] <;> decide
          rw [hcalls, composerMessages_append, composerMessages_of_kind hkind, append_nil]
          refine iff_of_true (hdone.imp_left ?_) (.inl hsettled)
          rintro ⟨hdisarmed, e, he, hfails⟩
          exact ⟨hdisarmed, e, mem_append_right _ he, hfails⟩
    · simp only [hf.reply, Bool.not_false, if_true]
      intro hanswer
      exact absurd ((hf.answer rfl).symm.trans hanswer) nofun

/-- In every history, a poll of an armed request that is answered by a status without the connected
    flag leaves the request with Android's preference overridden and no replug asked for, or disarms
    it because the override failed, exactly if no unplug is pending then or the request already was
    in that state. -/
theorem armed_unplug_heard {revents : List Revents} {todo : List Part} {hist : List (Did ω)}
    {d : Did ω} {m : Message} (h : History env n revents todo hist s) (hd : d ∈ hist)
    (hpart : d.part = .armed) (harmed : d.before.vars.armed = true)
    (hactive : d.before.vars.active = false) (hanswer : statusAnswer d.calls = some m)
    (hconn : m.connected = false) :
    (d.after.vars.armed = false ∧ ApplyFailed d.calls) ∨ d.after.vars.Ready ↔
      d.Settled ∨ d.before.vars.Ready := by
  have hran := h.ran d hd
  rw [Did.Ran, hpart] at hran
  have hadvance : wp (sysHandler env) (runArmed n) (fun _ t =>
      statusAnswer (callsSince d.before t) = some m →
      ((t.vars.armed = false ∧ ApplyFailed (callsSince d.before t)) ∨ t.vars.Ready ↔
        unplugAfter d.before.vars.composerDisconnectPending
          (composerMessages (callsSince d.before t)) = false ∨ d.before.vars.Ready)) d.before := by
    simp only [runArmed, wp_bind, wp_getBroker, harmed, hactive]
    exact wp_advanceArmed_ready hconn harmed
  exact wp_returned hadvance hran hanswer

/-- The scripted environment with a clock that moves on by one poll at every reading, and an Android
    whose preference can be read. -/
def armingEnv : Env (Int × Bench)
  | .monotonicMs, (now, w) => some (now, (now + kModePollMs, w))
  | .displayCommand .getPreferred, x =>
    some ((true, "User preferred display mode: null".toList), x)
  | call, (now, w) =>
    match benchEnv call w with
    | some (a, w) => some (a, (now, w))
    | none => none

/-- The composer reports a status with the given flags. -/
def reports (flags : UInt32) : ComposerScript :=
  .reply (composerScriptMessage opResponse flags) false

/-- A client arms a request while the display is plugged in, and the poll that follows finds
    `messages`. -/
def unplugScript (messages : List ComposerScript) : Int × Bench :=
  (1, { polls := [clientReadable], streams := [streamScriptMessage opArm 0]
        composer := reports flagConnected :: reports flagConnected :: messages })

/-- The latest part polled for an armed request that asks for a replug, and got a status without the
    connected flag. -/
def pollsUnplugged : List (Did ω) → Bool
  | [] => false
  | d :: _ => d.part == .armed && d.before.vars.armed && !d.before.vars.active &&
    d.before.vars.replugRequired && (statusAnswer d.calls).any fun m => !m.connected

theorem pollsUnplugged_cases {hist : List (Did ω)} (h : pollsUnplugged hist = true) :
    ∃ d older m, hist = d :: older ∧ d.part = .armed ∧ d.before.vars.armed = true ∧
      d.before.vars.active = false ∧ statusAnswer d.calls = some m ∧ m.connected = false := by
  cases hist with
  | nil => cases h
  | cons d older =>
    simp only [pollsUnplugged, Bool.and_eq_true, beq_iff_eq, Bool.not_eq_true'] at h
    obtain ⟨⟨⟨⟨hpart, harmed⟩, hactive⟩, -⟩, hanswer⟩ := h
    obtain ⟨m, hm, hconn⟩ := (Option.any_eq_true _ _).1 hanswer
    exact ⟨d, older, m, rfl, hpart, harmed, hactive, hm, by simpa using hconn⟩

/-- The poll finds only the status. -/
theorem armed_unplug_heard_polled :
    ∃ (revents : List Revents) (hist : List (Did (Int × Bench))) (s : Sys (Int × Bench))
      (d : Did (Int × Bench)), History armingEnv 8 revents [] hist s ∧ d ∈ hist ∧
      d.part = .armed ∧ d.Settled ∧
      ((d.after.vars.armed = false ∧ ApplyFailed d.calls) ∨ d.after.vars.Ready) := by
  obtain ⟨revents, hist, s, h, hcheck⟩ := exists_history armingEnv 8 (unplugScript [reports 0]) 1
    (fun hist => pollsUnplugged hist && hist.all fun d => decide d.Settled) (by decide +kernel)
  rw [Bool.and_eq_true] at hcheck
  obtain ⟨d, older, m, rfl, hpart, harmed, hactive, hanswer, hconn⟩ := pollsUnplugged_cases hcheck.1
  have hsettled : d.Settled := of_decide_eq_true (all_eq_true.1 hcheck.2 d mem_cons_self)
  exact ⟨revents, _, s, d, h, mem_cons_self, hpart, hsettled,
    (armed_unplug_heard h mem_cons_self hpart harmed hactive hanswer hconn).2 (.inl hsettled)⟩

/-- The poll finds the unplug event and then the status: the request still asks for a replug. -/
theorem pending_unplug_missed :
    ∃ (revents : List Revents) (hist : List (Did (Int × Bench))) (s : Sys (Int × Bench))
      (d : Did (Int × Bench)) (m : Message), History armingEnv 8 revents [] hist s ∧ d ∈ hist ∧
      d.part = .armed ∧ d.before.vars.armed = true ∧ d.before.vars.active = false ∧
      statusAnswer d.calls = some m ∧ m.connected = false ∧
      d.after.vars.armed = true ∧ ¬d.after.vars.Ready := by
  obtain ⟨revents, hist, s, h, hcheck⟩ := exists_history armingEnv 8
    (unplugScript [unplugEvent, reports 0]) 1 (fun hist => pollsUnplugged hist &&
      (hist.head?.any fun d => d.after.vars.armed && d.after.vars.replugRequired))
    (by decide +kernel)
  rw [Bool.and_eq_true] at hcheck
  obtain ⟨d, older, m, rfl, hpart, harmed, hactive, hanswer, hconn⟩ := pollsUnplugged_cases hcheck.1
  have hafter : d.after.vars.armed = true ∧ d.after.vars.replugRequired = true := by
    simpa using hcheck.2
  exact ⟨revents, _, s, d, m, h, mem_cons_self, hpart, harmed, hactive, hanswer, hconn,
    hafter.1, fun hready => absurd (hafter.2.symm.trans hready.2) nofun⟩

end HdmiLos
