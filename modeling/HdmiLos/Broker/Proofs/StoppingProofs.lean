import HdmiLos.Broker.Bench
import HdmiLos.Broker.Proofs.CalmProofs
import HdmiLos.Broker.Proofs.HistoryProofs
import HdmiLos.Broker.Stopping
import Mathlib.Data.List.Basic

/-!
# What ends a wait for the agent

Every way out of `WaitAgent` shows in the calls: the last one settles the request, some call cuts the
wait short, or the last one reads the clock and a timer is due. `Release` sends its request to the
composer after such a wait.
-/

namespace HdmiLos

open Interaction Prog List

variable {ω α : Type} {env : Env ω} {n : Nat} {agent : Fd} {b : Broker} {s t u v : Sys ω}

/-! ## The ends of a wait -/

/-- `AGENT_STOP` is written. -/
def Event.writesStop : Event → Bool
  | ⟨.writeFull _ m, _⟩ => m.opcode == opAgentStop
  | _ => false

/-- The event neither settles the request with this id nor writes one. -/
def Event.Idle (agent : Fd) (id : UInt32) (e : Event) : Prop :=
  Event.settlesStop agent id e = false ∧ Event.writesStop e = false

/-- The calls of a wait that has ended, for a `Release` that was called with the variables `b`. -/
inductive WaitEnded (agent : Fd) (b : Broker) : List Event → Prop where
  | settled {earlier : List Event} {e : Event}
      (huncut : ∀ x ∈ earlier ++ [e], Event.cutsWait b.nextRequestId x = false)
      (hsettles : Event.settlesStop agent b.nextRequestId e = true) :
      WaitEnded agent b (earlier ++ [e])
  | cut {calls : List Event} (hidle : ∀ x ∈ calls, Event.Idle agent b.nextRequestId x)
      (hcut : ∃ x ∈ calls, Event.cutsWait b.nextRequestId x = true) : WaitEnded agent b calls
  | timedOut {earlier : List Event} {now : Int}
      (hidle : ∀ x ∈ earlier ++ [⟨.monotonicMs, now⟩], Event.Idle agent b.nextRequestId x)
      (hdue : Elapsed kAgentStopMs (earlier ++ [⟨.monotonicMs, now⟩]) ∨ b.Due now) :
      WaitEnded agent b (earlier ++ [⟨.monotonicMs, now⟩])

theorem elapsed_cons {ms : Int} {e : Event} {calls : List Event}
    (he : ∀ now, e ≠ ⟨.monotonicMs, now⟩) : Elapsed ms (e :: calls) ↔ Elapsed ms calls := by
  constructor
  · rintro ⟨start, later, hle, hsub⟩
    exact ⟨start, later, hle, hsub.of_cons_of_ne fun h => he start h.symm⟩
  · rintro ⟨start, later, hle, hsub⟩
    exact ⟨start, later, hle, hsub.cons e⟩

/-- Two readings, the later one at the end. -/
theorem Elapsed.last {ms start now : Int} {calls : List Event}
    (hstart : ⟨.monotonicMs, start⟩ ∈ calls) (hle : start + ms ≤ now) :
    Elapsed ms (calls ++ [⟨.monotonicMs, now⟩]) :=
  ⟨start, now, hle, (singleton_sublist.2 hstart).append (Sublist.refl [_])⟩

theorem Elapsed.append {ms : Int} {calls : List Event} (h : Elapsed ms calls) (more : List Event) :
    Elapsed ms (calls ++ more) := by
  obtain ⟨start, later, hle, hsub⟩ := h
  exact ⟨start, later, hle, hsub.trans (sublist_append_left calls more)⟩

/-! ## Steps of a wait -/

/-- A wait for the agent: the variables at the call of `Release`, the state in which the wait began,
    and the time it read first. -/
structure Wait (ω : Type) where
  agent : Fd
  vars : Broker
  begun : Sys ω
  start : Int

namespace Wait

variable {W : Wait ω} {cut ended : Bool}

def calls (W : Wait ω) (t : Sys ω) : List Event := callsSince W.begun t

/-- The wait goes on in `t`: nothing has settled the request. -/
structure Waiting (W : Wait ω) (t : Sys ω) : Prop where
  log : W.begun.log <+: t.log
  agentFd : t.vars.agentFd = some W.agent
  deadlineMs : t.vars.deadlineMs = W.vars.deadlineMs
  -- the timer of the volume keys stands still, runs since before the wait or was started in it
  timer : t.vars.volumes.bothSince = 0 ∨ t.vars.volumes.bothSince = W.vars.volumes.bothSince ∨
    ⟨.monotonicMs, t.vars.volumes.bothSince⟩ ∈ W.calls t
  started : ⟨.monotonicMs, W.start⟩ ∈ W.calls t
  idle : ∀ e ∈ W.calls t, Event.Idle W.agent W.vars.nextRequestId e

/-- The wait was cut short. -/
def Cut (W : Wait ω) (t : Sys ω) : Prop :=
  ∃ e ∈ W.calls t, Event.cutsWait W.vars.nextRequestId e = true

/-- A part of the wait from `t` to `u`, and whether one of its calls cuts the wait short. -/
structure Step (W : Wait ω) (t : Sys ω) (cut : Bool) (u : Sys ω) : Prop where
  waiting : W.Waiting u
  cut_iff : W.Cut u ↔ W.Cut t ∨ cut = true

/-- A part of the wait, and whether it ends the wait. -/
def Goes (W : Wait ω) (t : Sys ω) : Bool → Sys ω → Prop
  | true, u => WaitEnded W.agent W.vars (W.calls u)
  | false, u => W.Step t false u

theorem Waiting.refl (h : W.Waiting t) : W.Step t false t := ⟨h, by simp⟩

theorem Step.trans {cut' : Bool} (h : W.Step t cut u) (h' : W.Step u cut' v) :
    W.Step t (cut || cut') v :=
  ⟨h'.waiting, by rw [h'.cut_iff, h.cut_iff, Bool.or_eq_true, or_assoc]⟩

theorem Step.uncut (h : W.Step t false u) (hcut : ¬W.Cut t) : ¬W.Cut u :=
  fun hcut' => hcut ((h.cut_iff.1 hcut').resolve_right Bool.false_ne_true)

theorem Step.goes (h : W.Step t cut u) : W.Goes t cut u := by
  cases cut with
  | true => exact .cut h.waiting.idle (h.cut_iff.2 (.inr rfl))
  | false => exact h

theorem Goes.after (h : W.Step t false u) (h' : W.Goes u ended v) : W.Goes t ended v := by
  cases ended with
  | true => exact h'
  | false => exact h.trans h'

theorem Waiting.calls_snoc (h : W.Waiting t) (e : Event) (w : ω) :
    W.calls { t with log := t.log ++ [e], world := w } = W.calls t ++ [e] :=
  callsSince_snoc h.log e w

/-- One more call of the wait. -/
theorem Step.call (h : W.Step t cut u) (e : Event) (w : ω)
    (he : Event.Idle W.agent W.vars.nextRequestId e) :
    W.Step t (cut || Event.cutsWait W.vars.nextRequestId e)
      { u with log := u.log ++ [e], world := w } := by
  have hcalls := h.waiting.calls_snoc e w
  have hkept : ∀ x ∈ W.calls u, x ∈ W.calls { u with log := u.log ++ [e], world := w } :=
    fun x hx => hcalls ▸ mem_append_left _ hx
  refine ⟨{ log := h.waiting.log.trans (prefix_append _ _)
            agentFd := h.waiting.agentFd
            deadlineMs := h.waiting.deadlineMs
            timer := h.waiting.timer.imp_right fun ht => ht.imp_right (hkept _)
            started := hkept _ h.waiting.started
            idle := ?_ }, ?_⟩
  · rw [hcalls, forall_mem_append, forall_mem_singleton]
    exact ⟨h.waiting.idle, he⟩
  · have hcut := h.cut_iff
    simp only [Cut] at hcut ⊢
    simp only [hcalls, mem_append, mem_singleton, or_and_right, exists_or,
      exists_eq_left, hcut, Bool.or_eq_true, or_assoc]

/-- Assignments that leave alone what the wait goes by. -/
theorem Step.congr (h : W.Step t cut u) (hlog : v.log = u.log)
    (hagent : v.vars.agentFd = u.vars.agentFd) (hdeadline : v.vars.deadlineMs = u.vars.deadlineMs)
    (htimer : v.vars.volumes.bothSince = u.vars.volumes.bothSince) : W.Step t cut v := by
  have hcalls : W.calls v = W.calls u := by simp only [calls, callsSince, hlog]
  obtain ⟨⟨hlog', hagent', hdeadline', htimer', hstarted, hidle⟩, hcut⟩ := h
  refine ⟨⟨hlog ▸ hlog', hagent.trans hagent', hdeadline.trans hdeadline', ?_,
    hcalls ▸ hstarted, hcalls ▸ hidle⟩, ?_⟩
  · rw [htimer, hcalls]
    exact htimer'
  · simp only [Cut, hcalls]
    exact hcut

section Steps

variable (h : W.Waiting t)

include h

/-- The clock is read, and a timer is due. -/
theorem Waiting.timedOut {now : Int} (w : ω)
    (hdue : Elapsed kAgentStopMs (W.calls t ++ [⟨.monotonicMs, now⟩]) ∨ W.vars.Due now) :
    WaitEnded W.agent W.vars
      (W.calls { t with log := t.log ++ [⟨.monotonicMs, now⟩], world := w }) := by
  have hidle := (h.refl.call ⟨.monotonicMs, now⟩ w ⟨rfl, rfl⟩).waiting.idle
  rw [h.calls_snoc] at hidle ⊢
  exact .timedOut hidle hdue

/-- The time for the agent has elapsed since the start of the wait. -/
theorem Waiting.elapsed {now : Int} (hle : W.start + kAgentStopMs ≤ now) :
    Elapsed kAgentStopMs (W.calls t ++ [⟨.monotonicMs, now⟩]) :=
  .last h.started hle

/-! ## The volume keys -/

theorem wp_volumesReadOne (fd : Fd) (key : Nat) (pressed : Bool) :
    wp (sysHandler env) (volumesReadOne n (some fd) key pressed)
      (fun r u => W.Step t (!r.1) u ∧ u.vars = t.vars) t := by
  refine wp_loop _ (fun _ u => W.Step t false u ∧ u.vars = t.vars) (fun _ _ _ => trivial) ?_ n
    pressed ⟨h.refl, rfl⟩
  rintro pressed u ⟨hu, hvars⟩
  rw [wp_bind]
  refine wp_call (.readEvents fd) trivial fun (a : InputRead) w _ => ?_
  have hcall := hu.call ⟨.readEvents fd, a⟩ w ⟨rfl, rfl⟩
  cases a with
  | events batch => exact ⟨hcall, hvars⟩
  | endOfFile => exact ⟨hcall, hvars⟩
  | again => exact ⟨hcall, hvars⟩
  | failed => exact ⟨hcall, hvars⟩

theorem wp_volumesRead (ready : Bool) {fd : VolumeGuard → Option Fd} (key : Nat)
    (pressed : VolumeGuard → Bool) {set : Bool → VolumeGuard → VolumeGuard}
    (hopen : ready = true → (fd t.vars.volumes).isSome = true)
    (hset : ∀ p v, (set p v).bothSince = v.bothSince ∧ (set p v).up = v.up) :
    wp (sysHandler env) (volumesRead n ready fd key pressed set)
      (fun ok u => W.Step t (!ok) u ∧ u.vars.volumes.up = t.vars.volumes.up) t := by
  unfold volumesRead
  rw [wp_ite]
  split
  case isTrue hready =>
    obtain ⟨fd', hfd⟩ := Option.isSome_iff_exists.1 (hopen hready)
    simp only [wp_bind, wp_getBroker, hfd]
    refine wp_post (wp_volumesReadOne h fd' key _) ?_
    rintro ⟨ok, p⟩ u ⟨hu, hvars⟩
    refine ⟨hu.congr rfl rfl rfl (hset p _).1, ?_⟩
    rw [← hvars]
    exact (hset p _).2
  case isFalse => exact ⟨h.refl, rfl⟩

/-- A chord that began in the wait outlasts the time for the agent. -/
theorem wp_volumesChord : wp (sysHandler env) volumesChord (fun held u => W.Goes t held u) t := by
  simp only [volumesChord, wp_bind, monotonicMs]
  refine wp_call .monotonicMs trivial fun (now : Int) w _ => ?_
  have hread := h.refl.call ⟨.monotonicMs, now⟩ w ⟨rfl, rfl⟩
  have hcalls := h.calls_snoc ⟨.monotonicMs, now⟩ w
  have hset : ∀ since : Int, since = 0 ∨ since = W.vars.volumes.bothSince ∨
      ⟨.monotonicMs, since⟩ ∈ W.calls t ++ [⟨.monotonicMs, now⟩] →
      W.Step t false { t with
        vars := { t.vars with volumes := { t.vars.volumes with bothSince := since } }
        log := t.log ++ [⟨.monotonicMs, now⟩], world := w } := fun since hsince =>
    ⟨⟨hread.waiting.log, h.agentFd, h.deadlineMs, hcalls ▸ hsince, hread.waiting.started,
      hread.waiting.idle⟩, hread.cut_iff⟩
  simp only [wp_getBroker]
  rw [wp_ite]
  split
  case isFalse => exact hset 0 (.inl rfl)
  case isTrue =>
    show W.Goes t (decide _) _
    have htimer := h.timer
    by_cases hzero : t.vars.volumes.bothSince = 0
    · simp only [hzero, if_true, Int.sub_self]
      exact hset now (.inr (.inr (by simp)))
    · simp only [hzero, if_false]
      rcases hdue : decide (now - t.vars.volumes.bothSince ≥ kChordHoldMs) with _ | _
      · exact hset _ (htimer.imp_right fun h => h.imp_right (mem_append_left _))
      · have hheld : t.vars.volumes.bothSince + kChordHoldMs ≤ now := by
          have := of_decide_eq_true hdue
          omega
        refine h.timedOut w ?_
        rcases htimer.resolve_left hzero with hbefore | hin
        · exact .inr (.inr (hbefore ▸ ⟨hzero, hheld⟩))
        · refine .inl (.last hin ?_)
          simp only [kChordHoldMs, kAgentStopMs] at hheld ⊢
          omega

theorem wp_volumesUpdate {down up : Revents} (hdown : down.error = false)
    (hup : up.error = false) (hd : down.input = true → t.vars.volumes.down.isSome = true)
    (hu : up.input = true → t.vars.volumes.up.isSome = true) :
    wp (sysHandler env) (volumesUpdate n down up) (fun escaped u => W.Goes t escaped u) t := by
  simp only [volumesUpdate, hdown, hup, Bool.or_self, Bool.false_eq_true, if_false, wp_bind]
  refine wp_post (wp_volumesRead h _ _ _ hd fun _ _ => ⟨rfl, rfl⟩) fun ok u ⟨hread, hsame⟩ => ?_
  cases ok with
  | false => exact hread.goes
  | true =>
    simp only [if_true, wp_bind]
    refine wp_post (wp_volumesRead hread.waiting _ _ _ (hsame ▸ hu) fun _ _ => ⟨rfl, rfl⟩)
      fun ok v ⟨hread', _⟩ => ?_
    cases ok with
    | false => exact (hread.trans hread').goes
    | true =>
      refine wp_post (wp_volumesChord hread'.waiting) fun held x hx => ?_
      exact .after (hread.trans hread') hx

/-! ## The other peers -/

omit h in
theorem Step.wp_closeIfOpen (h : W.Step t cut u) (fd : Option Fd) :
    wp (sysHandler env) (closeIfOpen fd) (fun _ v => W.Step t cut v) u := by
  cases fd with
  | none => exact h
  | some fd =>
    refine wp_call (.close fd) trivial fun a w _ => ?_
    rw [← Bool.or_false cut]
    exact h.call ⟨.close fd, a⟩ w ⟨rfl, rfl⟩

omit h in
theorem Step.wp_logTransition (h : W.Step t cut u) (transition : Transition) :
    wp (sysHandler env) (logTransition transition) (fun _ v => W.Step t cut v) u := by
  refine wp_call (.logTransition transition) trivial fun a w _ => ?_
  rw [← Bool.or_false cut]
  exact h.call ⟨.logTransition transition, a⟩ w ⟨rfl, rfl⟩

/-- A packet that is not a connected hotplug event cuts the wait short. -/
theorem wp_recvWithFd (fd : Fd) :
    wp (sysHandler env) (recvWithFd fd) (fun r u => W.Step t (!(r.1.ok && r.1.message.isPlug)) u)
      t := by
  simp only [recvWithFd, wp_bind]
  refine wp_call (.recvWithFd fd) trivial fun (r : Received) w _ => ?_
  have hcall := h.refl.call ⟨.recvWithFd fd, r⟩ w ⟨rfl, rfl⟩
  rw [wp_opened]
  split
  · exact hcall.congr rfl rfl rfl rfl
  · exact hcall

theorem wp_handleComposerReadable (fd : Fd) :
    wp (sysHandler env) (handleComposerReadable fd) (fun r u => W.Step t (r != .connected) u)
      t := by
  simp only [handleComposerReadable, wp_bind]
  refine wp_post (wp_recvWithFd h fd) fun r u hu => ?_
  refine wp_post (hu.wp_closeIfOpen r.2) fun _ v hv => ?_
  rw [wp_ite]
  split
  case isTrue hinvalid =>
    have hplug : (r.1.ok && r.1.message.isPlug) = false := by
      revert hinvalid
      simp only [Message.isPlug]
      cases r.1.ok <;> cases r.1.message.validComposer <;> cases r.1.message.isHotplug <;> simp
    rw [hplug] at hv
    exact hv
  case isFalse hvalid =>
    simp only [Bool.or_eq_true, not_or, Bool.not_eq_true, Bool.not_eq_false'] at hvalid
    obtain ⟨⟨hok, hcomposer⟩, hhotplug⟩ := hvalid
    simp only [Message.isPlug, hok, hcomposer, hhotplug, Bool.true_and] at hv
    have hnoted := hv.congr (v := { v with vars := v.vars.noteHotplug r.1.message }) rfl rfl rfl rfl
    rw [wp_bind, wp_update, wp_ite]
    split
    case isTrue hconnected =>
      rw [hconnected] at hnoted
      exact wp_seq (hnoted.wp_logTransition _) fun _ x hx => hx
    case isFalse hconnected =>
      rw [Bool.not_eq_true] at hconnected
      rw [hconnected] at hnoted
      exact wp_seq (hnoted.wp_logTransition _) fun _ x hx => hx

theorem wp_waitAgentComposer (fd : Option Fd) {revents : Revents}
    (herror : revents.error = false) :
    wp (sysHandler env) (waitAgentComposer fd revents) (fun go u => W.Step t (!go) u) t := by
  cases fd with
  | none => exact h.refl
  | some fd =>
    simp only [waitAgentComposer, herror, Bool.false_eq_true, if_false]
    rw [wp_ite]
    split
    case isFalse => exact h.refl
    case isTrue =>
      refine wp_seq (wp_handleComposerReadable h fd) fun r u hu => ?_
      cases r with
      | connected => exact hu
      | invalid => exact hu.congr rfl rfl rfl rfl
      | disconnected => exact hu.congr rfl rfl rfl rfl

theorem wp_deadlineReached :
    wp (sysHandler env) deadlineReached (fun reached u => W.Goes t reached u) t := by
  simp only [deadlineReached, wp_bind, wp_getBroker]
  rw [wp_ite]
  split
  case isFalse => exact h.refl
  case isTrue hdeadline =>
    simp only [wp_bind, monotonicMs]
    refine wp_call .monotonicMs trivial fun (now : Int) w _ => ?_
    show W.Goes t (decide _) _
    rcases hreached : decide (now ≥ t.vars.deadlineMs) with _ | _
    · exact h.refl.call ⟨.monotonicMs, now⟩ w ⟨rfl, rfl⟩
    · exact h.timedOut w (.inr (.inl (h.deadlineMs ▸ ⟨hdeadline, of_decide_eq_true hreached⟩)))

theorem wp_waitAgentRemaining :
    wp (sysHandler env) (waitAgentRemaining (W.start + kAgentStopMs))
      (fun remaining u => W.Goes t (decide (remaining ≤ 0)) u ∧ u.vars = t.vars) t := by
  simp only [waitAgentRemaining, wp_bind, monotonicMs]
  refine wp_call .monotonicMs trivial fun (now : Int) w _ => ?_
  have hread := h.refl.call ⟨.monotonicMs, now⟩ w ⟨rfl, rfl⟩
  simp only [wp_getBroker]
  rw [wp_ite]
  split
  case isFalse =>
    refine ⟨?_, rfl⟩
    rcases hle : decide (min 100 (W.start + kAgentStopMs - now) ≤ 0) with _ | _
    · exact hread
    · have := of_decide_eq_true hle
      exact h.timedOut w (.inl (h.elapsed (by omega)))
  case isTrue hdeadline =>
    simp only [wp_bind]
    refine wp_call .monotonicMs trivial fun (later : Int) w' _ => ?_
    refine ⟨?_, rfl⟩
    show W.Goes t (decide (min (min 100 _) (t.vars.deadlineMs - later) ≤ 0)) _
    rcases hle : decide (min (min 100 (W.start + kAgentStopMs - now))
      (t.vars.deadlineMs - later) ≤ 0) with _ | _
    · exact hread.call ⟨.monotonicMs, later⟩ w' ⟨rfl, rfl⟩
    · have hle' := of_decide_eq_true hle
      refine hread.waiting.timedOut w' ?_
      by_cases hstop : W.start + kAgentStopMs ≤ now
      · refine .inl (Elapsed.append ?_ _)
        rw [h.calls_snoc]
        exact h.elapsed hstop
      · refine .inr (.inl (h.deadlineMs ▸ ⟨hdeadline, ?_⟩))
        omega

/-! ## The agent -/

/-- The request is settled in a wait that nothing has cut short. -/
theorem Waiting.settled {e : Event} (hcut : ¬W.Cut t) (w : ω)
    (hsettles : Event.settlesStop W.agent W.vars.nextRequestId e = true)
    (huncut : Event.cutsWait W.vars.nextRequestId e = false) :
    WaitEnded W.agent W.vars (W.calls { t with log := t.log ++ [e], world := w }) := by
  rw [h.calls_snoc]
  refine .settled ?_ hsettles
  rw [forall_mem_append, forall_mem_singleton]
  exact ⟨fun x hx => Bool.eq_false_iff.2 fun hx' => hcut ⟨x, hx, hx'⟩, huncut⟩

/-- The acknowledgement of a progress record; the agent's connection may fail here. -/
theorem wp_handleAgentEvent (hcut : ¬W.Cut t) {m : Message}
    (hprogress : (m.opcode == opAgentProgress) = true) :
    wp (sysHandler env) (handleAgentEvent W.agent m) (fun ok u => W.Goes t (!ok) u) t := by
  simp only [handleAgentEvent, hprogress, if_true, wp_bind]
  refine wp_post (h.refl.wp_logTransition _) fun _ u hu => ?_
  simp only [wp_makeMessage, writeFull]
  refine wp_call (.writeFull W.agent _) trivial fun (ok : Bool) w _ => ?_
  have hu := hu.congr (v := { u with
    vars := { u.vars with nextRequestId := u.vars.nextRequestId + 1 } }) rfl rfl rfl rfl
  cases ok with
  | true =>
    refine hu.call ⟨.writeFull W.agent _, true⟩ w ⟨?_, rfl⟩
    simp only [Event.settlesStop, Bool.not_true, Bool.and_false]
  | false =>
    refine hu.waiting.settled (hu.uncut hcut) w ?_ rfl
    simp [Event.settlesStop]

theorem wp_waitAgentRead (hcut : ¬W.Cut t) :
    wp (sysHandler env) (waitAgentRead W.agent opAgentReady) (fun r u => W.Goes t r.isRight u)
      t := by
  simp only [waitAgentRead, readFull, wp_bind]
  refine wp_call (.readFull W.agent) trivial fun (r : Received) w _ => ?_
  rw [wp_ite]
  split
  case isTrue hinvalid =>
    refine h.settled hcut w ?_ ?_
    · simp only [Event.settlesStop, beq_self_eq_true, Bool.true_and, hinvalid, Bool.true_or]
    · revert hinvalid
      simp only [Event.cutsWait]
      cases r.ok <;> cases r.message.valid <;> simp
  case isFalse hvalid =>
    simp only [Bool.or_eq_true, not_or, Bool.not_eq_true, Bool.not_eq_false'] at hvalid
    have hcall := h.refl.call ⟨.readFull W.agent, r⟩ w
    simp only [Event.Idle, Event.settlesStop, Event.cutsWait, Event.writesStop, hvalid.1, hvalid.2,
      beq_self_eq_true, Bool.not_true, Bool.true_and, Bool.false_or, and_true] at hcall
    rw [wp_ite]
    split
    case isTrue hprogress =>
      have hopcode := eq_of_beq hprogress
      rw [hopcode] at hcall
      have hstep := hcall rfl
      refine wp_seq (wp_handleAgentEvent hstep.waiting (hstep.uncut hcut) hprogress) fun ok u hu => ?_
      cases ok with
      | true => exact .after hstep hu
      | false => exact hu
    case isFalse =>
      rw [wp_ite]
      split
      case isFalse hother =>
        simp only [Bool.or_eq_true, not_or, Bool.not_eq_true] at hother
        rw [hother.1, hother.2] at hcall
        exact hcall rfl
      case isTrue hended =>
        by_cases hready : r.message.opcode = opAgentReady ∧
            r.message.requestId ≠ W.vars.nextRequestId
        · -- a reply to another request ends the wait too
          rw [bne, hready.1, beq_eq_false_iff_ne.2 hready.2] at hcall
          exact (hcall rfl).goes
        · refine h.settled hcut w ?_ ?_
          · simp only [Bool.or_eq_true, beq_iff_eq] at hended
            rcases hended with hopcode | hopcode
            · simp [Event.settlesStop, hopcode, not_not.1 fun h => hready ⟨hopcode, h⟩]
            · simp [Event.settlesStop, hopcode]
          · simp only [Event.cutsWait, Bool.and_eq_false_iff, beq_eq_false_iff_ne,
              bne_eq_false_iff_eq]
            by_cases hopcode : r.message.opcode = opAgentReady
            · exact .inr (not_not.1 fun h => hready ⟨hopcode, h⟩)
            · exact .inl (.inr hopcode)

/-! ## The wait -/

/-- What a round does with the readiness that its poll reported. -/
theorem wp_waitAgentReady {fds : List (Option Fd)} {timeoutMs : Int} (raw : List Revents)
    (m : Message) (hcut : ¬W.Cut t) (w : ω)
    (hfds : fds = [t.vars.agentFd, t.vars.volumes.down, t.vars.volumes.up, t.vars.composerFd]) :
    wp (sysHandler env) (waitAgentReady n opAgentReady (maskRevents fds raw) m)
      (fun r u => W.Goes t r.isRight u)
      { t with log := t.log ++ [⟨.poll fds timeoutMs, .ready raw⟩], world := w } := by
  have hopen : ∀ i, ((maskRevents fds raw).getD i {}).input = true ∨
      ((maskRevents fds raw).getD i {}).error = true → (fds.getD i none).isSome = true := by
    intro i hi
    by_contra hnone
    rw [maskRevents_getD, if_neg hnone] at hi
    simp at hi
  have hagent : fds.getD 0 none = some W.agent := by
    rw [hfds, ← h.agentFd]
    rfl
  simp only [waitAgentReady, wp_bind, wp_getBroker]
  rw [wp_ite]
  split
  case isTrue herror =>
    refine h.settled hcut w ?_ ?_
    · simp only [Event.settlesStop, herror, hagent, beq_self_eq_true, Bool.and_self]
    · simp only [Event.cutsWait, herror, Bool.not_true, Bool.false_and]
  case isFalse herror =>
    rw [Bool.not_eq_true] at herror
    have hpoll := h.refl.call ⟨.poll fds timeoutMs, .ready raw⟩ w
      ⟨by simp only [Event.settlesStop, herror, Bool.and_false], rfl⟩
    simp only [Event.cutsWait, herror, Bool.not_false, Bool.true_and, Bool.false_or, any_cons,
      any_nil, Bool.or_false] at hpoll
    rw [wp_bind]
    by_cases hlost : ((maskRevents fds raw).getD 1 {}).error = true ∨
        ((maskRevents fds raw).getD 2 {}).error = true
    · simp only [volumesUpdate, Bool.or_eq_true, hlost, if_true, wp_pure]
      refine .cut hpoll.waiting.idle (hpoll.cut_iff.2 (.inr ?_))
      rcases hlost with hlost | hlost
      · rw [hlost, Bool.true_or]
      · rw [hlost, Bool.true_or, Bool.or_true]
    simp only [not_or, Bool.not_eq_true] at hlost
    rw [hlost.1, hlost.2, Bool.false_or, Bool.false_or] at hpoll
    refine wp_post (wp_volumesUpdate hpoll.waiting hlost.1 hlost.2
      (fun h => by simpa [hfds] using hopen 1 (.inl h))
      (fun h => by simpa [hfds] using hopen 2 (.inl h))) fun escaped u hu => ?_
    cases escaped with
    | true => exact hu
    | false =>
      simp only [Bool.false_eq_true, if_false, wp_bind]
      by_cases hcomposer : ((maskRevents fds raw).getD 3 {}).error = true
      · obtain ⟨fd, hfd⟩ := Option.isSome_iff_exists.1 (hopen 3 (.inr hcomposer))
        have hfd : t.vars.composerFd = some fd := by simpa [hfds] using hfd
        simp only [hfd, waitAgentComposer, hcomposer, if_true, wp_pure]
        exact .cut hu.waiting.idle (hu.cut_iff.2 (.inl (hpoll.cut_iff.2 (.inr hcomposer))))
      rw [Bool.not_eq_true] at hcomposer
      rw [hcomposer] at hpoll
      have hu := hpoll.trans hu
      refine wp_post (wp_waitAgentComposer hu.waiting _ hcomposer) fun go v hv => ?_
      cases go with
      | false => exact (hu.trans hv).goes
      | true =>
        simp only [Bool.not_true, Bool.false_eq_true, if_false, wp_bind]
        have hv := hu.trans hv
        refine wp_post (wp_deadlineReached hv.waiting) fun reached x hx => ?_
        cases reached with
        | true => exact hx
        | false =>
          have hx := hv.trans hx
          rw [if_neg Bool.false_ne_true, h.agentFd]
          cases ((maskRevents fds raw).getD 0 {}).input with
          | false => exact hx
          | true =>
            refine wp_post (wp_waitAgentRead hx.waiting (hx.uncut hcut)) fun r y hy => ?_
            exact .after hx hy

end Steps

theorem wp_waitAgentRound (h : W.Waiting t) (hcut : ¬W.Cut t) (m : Message) :
    wp (sysHandler env) (waitAgentRound n opAgentReady (W.start + kAgentStopMs) m)
      (fun r u => W.Goes t r.isRight u) t := by
  simp only [waitAgentRound, wp_bind, monotonicMs]
  refine wp_call .monotonicMs trivial fun (now : Int) w _ => ?_
  rw [wp_ite]
  split
  case isTrue hstop => exact h.timedOut w (.inl (h.elapsed hstop))
  case isFalse =>
    have hread := h.refl.call ⟨.monotonicMs, now⟩ w ⟨rfl, rfl⟩
    simp only [wp_bind, wp_getBroker]
    refine wp_post (wp_waitAgentRemaining hread.waiting) fun remaining u ⟨hu, hvars⟩ => ?_
    rw [wp_ite]
    split
    case isTrue hle =>
      rw [decide_eq_true hle] at hu
      exact hu
    case isFalse hle =>
      rw [decide_eq_false hle] at hu
      have hu := hread.trans hu
      simp only [pollFds, wp_bind]
      refine wp_call (.poll _ remaining) trivial fun (a : PollAnswer) w' _ => ?_
      cases a with
      | interrupted => exact hu.call ⟨.poll _ remaining, .interrupted⟩ w' ⟨rfl, rfl⟩
      | failed => exact (hu.call ⟨.poll _ remaining, .failed⟩ w' ⟨rfl, rfl⟩).goes
      | ready raw =>
        rw [wp_pure]
        refine wp_post (wp_waitAgentReady hu.waiting raw m (hu.uncut hcut) w' ?_) fun r v hv => ?_
        · rw [hvars]
        · exact .after hu hv

end Wait

/-- `WaitAgent` returns only with calls that end a wait. -/
theorem wp_waitAgent_ended (hagent : s.vars.agentFd = some agent)
    (hdeadline : s.vars.deadlineMs = b.deadlineMs) (hvolumes : s.vars.volumes = b.volumes)
    (m : Message) :
    wp (sysHandler env) (waitAgent n opAgentReady kAgentStopMs m)
      (fun _ t => WaitEnded agent b (callsSince s t)) s := by
  simp only [waitAgent, wp_bind, monotonicMs]
  refine wp_call .monotonicMs trivial fun (start : Int) w _ => ?_
  let W : Wait ω := ⟨agent, b, s, start⟩
  have hcalls : W.calls { s with log := s.log ++ [⟨.monotonicMs, start⟩], world := w } =
      [⟨.monotonicMs, start⟩] := callsSince_of_log rfl
  have hwaiting : W.Waiting { s with log := s.log ++ [⟨.monotonicMs, start⟩], world := w } :=
    { log := prefix_append _ _
      agentFd := hagent
      deadlineMs := hdeadline
      timer := .inr (.inl (by rw [hvolumes]))
      started := by rw [hcalls]; exact mem_singleton_self _
      idle := by rw [hcalls, forall_mem_singleton]; exact ⟨rfl, rfl⟩ }
  have huncut : ¬W.Cut { s with log := s.log ++ [⟨.monotonicMs, start⟩], world := w } := by
    rintro ⟨e, he, hcut⟩
    rw [hcalls, mem_singleton] at he
    cases he
    cases hcut
  refine wp_loop _ (fun _ t => W.Waiting t ∧ ¬W.Cut t) (fun _ _ _ => trivial) ?_ n m
    ⟨hwaiting, huncut⟩
  rintro m t ⟨ht, hcut⟩
  refine wp_post (Wait.wp_waitAgentRound ht hcut m) fun r u hu => ?_
  cases r with
  | inl m' => exact ⟨hu.waiting, hu.uncut hcut⟩
  | inr r => exact hu

/-! ## What `Release` has done when the wait is over -/

/-- The calls of `Release` up to the end of its wait. -/
def Waited (agent : Fd) (b : Broker) (calls : List Event) : Prop :=
  ∃ stop written since,
    calls = ⟨.logTransition .restoreBegin, ()⟩ :: ⟨.writeFull agent stop, written⟩ :: since ∧
      stop.opcode = opAgentStop ∧ stop.requestId = b.nextRequestId ∧
      (written = false ∧ since = [] ∨ written = true ∧ WaitEnded agent b since)

theorem wp_releaseAgent_waited (hagent : s.vars.agentFd = some agent) :
    wp (sysHandler env) (do logTransition .restoreBegin; releaseAgent n : BrokerProg Unit)
      (fun _ t => Waited agent s.vars (callsSince s t)) s := by
  simp only [wp_bind, logTransition]
  refine wp_call (.logTransition .restoreBegin) trivial fun (_ : Unit) w _ => ?_
  simp only [releaseAgent, wp_bind, wp_getBroker, hagent, wp_makeMessage]
  refine wp_call (.writeFull agent _) trivial fun (written : Bool) w' _ => ?_
  cases written with
  | false => exact ⟨_, false, [], callsSince_of_log (append_assoc _ _ _), rfl, rfl, .inl ⟨rfl, rfl⟩⟩
  | true =>
    simp only [if_true, wp_bind]
    refine wp_mono (wp_and (wp_waitAgent_ended (b := s.vars) (show _ = some agent by rfl) (by rfl)
      (by rfl) {}) (wp_log_extends _)) (fun r t ⟨hended, hlog⟩ => ?_) fun _ _ => trivial
    obtain ⟨since, hsince⟩ := hlog
    rw [callsSince_of_log hsince.symm] at hended
    exact ⟨_, true, since, callsSince_of_log (hsince.symm.trans
      ((append_assoc _ _ _).trans (append_assoc _ _ _))), rfl, rfl, .inr ⟨rfl, hended⟩⟩

/-- Where nothing settles the request that was written, only the time does. -/
theorem stopSettled_of_idle {stop : Message} {since : List Event}
    (hopcode : stop.opcode = opAgentStop)
    (hidle : ∀ x ∈ since, Event.Idle agent stop.requestId x) :
    StopSettled agent (⟨.logTransition .restoreBegin, ()⟩ :: ⟨.writeFull agent stop, true⟩ :: since) ↔
      Elapsed kAgentStopMs since := by
  constructor
  · rintro ⟨before, stop', written, since', hcalls, hopcode', hreason⟩
    rcases before with _ | ⟨x, _ | ⟨y, before⟩⟩
    · cases hcalls
    · obtain ⟨-, hrest⟩ := List.cons.inj hcalls
      cases hrest
      rcases hreason with hunwritten | ⟨e, he, hsettles⟩ | helapsed
      · cases hunwritten
      · exact absurd ((hidle e he).1.symm.trans hsettles) Bool.false_ne_true
      · exact helapsed
    · -- a second request is not idle
      have hmem : (⟨.writeFull agent stop', written⟩ : Event) ∈ since := by
        rw [(List.cons.inj (List.cons.inj hcalls).2).2]
        exact mem_append_right _ mem_cons_self
      have hsecond := (hidle _ hmem).2
      simp [Event.writesStop, hopcode'] at hsecond
  · exact fun helapsed => ⟨[_], stop, true, since, rfl, hopcode, .inr (.inr helapsed)⟩

/-- The request was settled exactly if the wait was not cut short. -/
theorem Waited.stopSettled_iff {calls : List Event} (h : Waited agent b calls) :
    StopSettled agent calls ↔ ¬CutShort b calls := by
  obtain ⟨stop, written, since, rfl, hopcode, hid, hend⟩ := h
  have helapsed : Elapsed kAgentStopMs (⟨.logTransition .restoreBegin, ()⟩ ::
      ⟨.writeFull agent stop, written⟩ :: since) ↔ Elapsed kAgentStopMs since :=
    (elapsed_cons fun _ h => by cases h).trans (elapsed_cons fun _ h => by cases h)
  have hcuts : (∃ e ∈ ⟨.logTransition .restoreBegin, ()⟩ :: ⟨.writeFull agent stop, written⟩ :: since,
      Event.cutsWait b.nextRequestId e = true) ↔
      ∃ e ∈ since, Event.cutsWait b.nextRequestId e = true := by
    rw [exists_mem_cons_iff, exists_mem_cons_iff]
    exact (or_iff_right Bool.false_ne_true).trans (or_iff_right Bool.false_ne_true)
  rw [CutShort, helapsed, hcuts]
  rcases hend with ⟨rfl, rfl⟩ | ⟨rfl, hended⟩
  · refine iff_of_true ⟨[_], stop, false, [], rfl, hopcode, .inl rfl⟩ ?_
    rintro ⟨-, ⟨e, he, -⟩ | ⟨earlier, now, hlast, -⟩⟩
    · cases he
    · simpa using congrArg List.getLast? hlast
  · cases hended with
    | @settled earlier e huncut hsettles =>
      refine iff_of_true ⟨[_], stop, true, _, rfl, hopcode,
        .inr (.inl ⟨e, by simp, hid ▸ hsettles⟩)⟩ ?_
      rintro ⟨-, ⟨x, hx, hcut⟩ | ⟨earlier', now, hlast, -⟩⟩
      · exact absurd ((huncut x hx).symm.trans hcut) Bool.false_ne_true
      · obtain rfl : e = ⟨.monotonicMs, now⟩ := by
          simpa [getLast?_cons] using congrArg List.getLast? hlast
        cases hsettles
    | cut hidle hcut =>
      rw [stopSettled_of_idle hopcode (hid ▸ hidle)]
      constructor
      · exact fun h h' => h'.1 h
      · exact fun h => not_not.1 fun h' => h ⟨h', .inl hcut⟩
    | @timedOut earlier now hidle hdue =>
      rw [stopSettled_of_idle hopcode (hid ▸ hidle)]
      constructor
      · exact fun h h' => h'.1 h
      · intro h
        exact hdue.elim id fun hdue => not_not.1 fun h' =>
          h ⟨h', .inr ⟨_ :: _ :: earlier, now, rfl, hdue⟩⟩

/-! ## The request to the composer -/

/-- The footprint of what sends no request to the composer. -/
def Mute : Op → Prop
  | .io (.sendWithFd _ _ none) => False
  | _ => True

theorem mute_of_kind {c : Io} (hc : c.kind ≠ .composer) : Mute (.io c) := by
  cases c with
  | sendWithFd fd m passed =>
    cases passed with
    | none => exact absurd rfl hc
    | some _ => trivial
  | _ => trivial

theorem mute_quiet {p : BrokerProg α} (hp : p.Uses Quiet) : p.Uses Mute := by
  refine uses_mono (fun op hop => ?_) hp
  cases op with
  | io c => exact mute_of_kind (by rw [mem_singleton.1 hop]; decide)
  | _ => trivial

theorem mute_update (f : Broker → Broker) : (update f).Uses Mute := uses_perform trivial

instance : Streaming Mute where
  get := trivial
  modify _ := trivial
  io hc _ := mute_of_kind (by rw [hc]; decide)
  stream hc := mute_of_kind (by rw [hc]; decide)

instance : Hearing Mute where
  get := trivial
  fresh := trivial
  modify _ := trivial
  connect := trivial
  recv _ := trivial
  close _ := trivial

instance : Preferring Mute where
  get := trivial
  preference hc := mute_of_kind (by rw [hc]; decide)

theorem mute_releaseAgent : (releaseAgent n).Uses Mute := by
  refine uses_bind ordinary_get fun b => ?_
  cases b.agentFd with
  | none => trivial
  | some agent =>
    refine uses_bind (uses_makeMessage _) fun stop => ?_
    refine uses_bind (uses_perform trivial) fun _ => uses_ite (uses_bind ?_ fun _ => trivial) trivial
    exact uses_waitAgent n _ _ _

theorem sendsRelease_of_mute {e : Event} (h : Mute (.io e.1)) : Event.sendsRelease e = false := by
  obtain ⟨c, a⟩ := e
  cases c with
  | sendWithFd fd m passed =>
    cases passed with
    | none => exact h.elim
    | some _ => rfl
  | _ => rfl

/-- At most one request for the release was sent since `s`, and it came after calls with `P`. -/
def SentOnce (P : List Event → Prop) (s t : Sys ω) : Prop :=
  s.log <+: t.log ∧ ((∀ e ∈ callsSince s t, Event.sendsRelease e = false) ∨
    ∃ before e after, callsSince s t = before ++ e :: after ∧ P before ∧
      (∀ x ∈ before, Event.sendsRelease x = false) ∧ ∀ x ∈ after, Event.sendsRelease x = false)

variable {P : List Event → Prop}

theorem preserves_sentOnce {p : BrokerProg α} (hp : p.Uses Mute) :
    Preserves (sysHandler env) (SentOnce P s) α p := by
  rintro t ⟨hlog, hsent⟩
  have hgrown : ∀ u, Process.Grown Mute t u → SentOnce P s u := by
    rintro u ⟨new, hnew, hmute⟩
    have hlog' : t.log <+: u.log := ⟨new, hnew.symm⟩
    have hnew' : ∀ e ∈ new, Event.sendsRelease e = false :=
      fun e he => sendsRelease_of_mute (hmute e he)
    have hcalls := callsSince_trans hlog hlog'
    rw [callsSince_of_log hnew] at hcalls
    refine ⟨hlog.trans hlog', hsent.imp (fun hnone => ?_) ?_⟩
    · rw [hcalls]
      exact forall_mem_append.2 ⟨hnone, hnew'⟩
    · rintro ⟨before, e, after, hsplit, hP, hbefore, hafter⟩
      refine ⟨before, e, after ++ new, ?_, hP, hbefore, forall_mem_append.2 ⟨hafter, hnew'⟩⟩
      rw [hcalls, hsplit, append_assoc, cons_append]
  exact wp_mono (wp_log_uses hp) (fun _ u hu => hgrown u hu) fun u hu => hgrown u hu

theorem wp_releaseComposer_sentOnce (hP : P (callsSince s t)) (hlog : s.log <+: t.log)
    (hmute : ∀ e ∈ callsSince s t, Event.sendsRelease e = false) :
    wp (sysHandler env) (releaseComposer n true) (fun _ => SentOnce P s) t (SentOnce P s) := by
  have hunsent : SentOnce P s t := ⟨hlog, .inl hmute⟩
  simp only [releaseComposer, wp_bind, wp_getBroker, Bool.true_and, wp_ite]
  cases hfd : t.vars.composerFd with
  | none => exact hunsent
  | some fd =>
    simp only [Option.isSome_some, if_true, composerAsk, composerRequest, ensureComposer, wp_bind,
      wp_getBroker, hfd, wp_pure, wp_makeMessage]
    refine wp_call (.sendWithFd fd _ none) hunsent fun (sent : Bool) w _ => ?_
    refine preserves_sentOnce (p := if sent then Prog.loop (composerReceive fd _ false) n () else
      composerFailed none {}) ?_ _ ?_
    · exact uses_ite (uses_loop (uses_composerReceive fd _ false) n ()) (uses_composerFailed _ _)
    · exact ⟨hlog.trans (prefix_append _ _), .inr ⟨callsSince s t,
        ⟨.sendWithFd fd _ none, sent⟩, [], callsSince_snoc hlog _ w, hP, hmute, by simp⟩⟩

/-- `Release` sends the request at most once, when the wait for the agent is over. -/
theorem wp_release_sentOnce (hagent : s.vars.agentFd = some agent) (reason : String) :
    wp (sysHandler env) (release n reason true) (fun _ => SentOnce (Waited agent s.vars) s)
      s (SentOnce (Waited agent s.vars) s) := by
  have hself : SentOnce (Waited agent s.vars) s s :=
    ⟨prefix_refl _, .inl (by simp [callsSince_self])⟩
  have hmute : (do logTransition .restoreBegin; releaseAgent n : BrokerProg Unit).Uses Mute :=
    uses_bind (uses_logTransition rfl) fun _ => mute_releaseAgent
  have hwait : wp (sysHandler env) (do logTransition .restoreBegin; releaseAgent n : BrokerProg Unit)
      (fun _ u => Waited agent s.vars (callsSince s u) ∧ s.log <+: u.log ∧
        ∀ e ∈ callsSince s u, Event.sendsRelease e = false) s (SentOnce (Waited agent s.vars) s) := by
    refine wp_of_run (fun _ u hrun => ?_) fun u hrun =>
      wp_halted (preserves_sentOnce hmute s hself) hrun
    obtain ⟨new, hnew, hcalls⟩ := wp_returned (wp_log_uses hmute) hrun
    refine ⟨wp_returned (wp_releaseAgent_waited hagent) hrun, ⟨new, hnew.symm⟩, ?_⟩
    rw [callsSince_of_log hnew]
    exact fun e he => sendsRelease_of_mute (hcalls e he)
  rw [wp_bind] at hwait
  rw [release, wp_bind, wp_getBroker, wp_ite]
  split
  · exact hself
  · rw [wp_bind]
    refine wp_post hwait fun _ t ht => ?_
    rw [wp_bind]
    refine wp_post ht fun _ u ⟨hwaited, hlog, hcalls⟩ => ?_
    refine wp_seq (wp_releaseComposer_sentOnce hwaited hlog hcalls) fun _ v hv => ?_
    refine preserves_sentOnce (uses_bind (mute_update _) fun _ => ?_) v hv
    refine uses_bind (mute_quiet uses_cleanupGuards) fun _ => uses_bind ?_ fun _ => ?_
    · refine uses_bind ordinary_get fun _ => uses_ite ?_ trivial
      exact uses_bind (uses_perform trivial) fun _ =>
        uses_bind uses_recoverPreferredMode fun _ => trivial
    · exact uses_bind (uses_setDetail _) fun _ => uses_logTransition rfl

/-- `Release` asks the composer to resume Android after the agent has settled `AGENT_STOP` or the time
    for it has elapsed, except where its wait was cut short. -/
theorem release_after_stop {reason : String} {r : Option Unit} {before after : List Event}
    {e : Event} (hrun : (release n reason true).run (sysHandler env) s = (r, t))
    (hagent : s.vars.agentFd = some agent) (hcalls : callsSince s t = before ++ e :: after)
    (hrelease : Event.sendsRelease e = true) :
    StopSettled agent before ↔ ¬CutShort s.vars before := by
  have hsent : SentOnce (Waited agent s.vars) s t := by
    cases r with
    | some a => exact wp_returned (wp_release_sentOnce hagent reason) hrun
    | none => exact wp_halted (wp_release_sentOnce hagent reason) hrun
  rcases hsent.2 with hnone | ⟨before', e', after', hsplit, hwaited, hbefore, hafter⟩
  · have hfalse := hnone e (hcalls ▸ mem_append_right _ mem_cons_self)
    exact absurd (hfalse.symm.trans hrelease) (by simp)
  · have hnot : ∀ {calls : List Event}, (∀ x ∈ calls, Event.sendsRelease x = false) → e ∉ calls :=
      fun h he => absurd ((h e he).symm.trans hrelease) (by simp)
    have heq := (append_cons_inj_of_notMem (hnot hbefore) (hnot hafter)).1
      (hsplit.symm.trans hcalls)
    exact heq.1 ▸ hwaited.stopSettled_iff

/-! ## On the bench -/

theorem exists_first {β : Type} {p : β → Bool} {xs : List β} (h : xs.any p = true) :
    ∃ x after, xs = xs.takeWhile (fun x => !p x) ++ x :: after ∧ p x = true := by
  induction xs with
  | nil => simp at h
  | cons x xs ih =>
    cases hx : p x with
    | true => exact ⟨x, xs, by simp [hx], hx⟩
    | false =>
      obtain ⟨y, after, hxs, hy⟩ := ih (by simpa [hx] using h)
      exact ⟨y, after, by rw [takeWhile_cons_of_pos (by simp [hx]), cons_append, ← hxs], hy⟩

/-- No call cuts the wait short, and the last one settles the request. -/
theorem not_cutShort (agent : Fd) {calls : List Event}
    (huncut : calls.all (fun e => !Event.cutsWait b.nextRequestId e) = true)
    (hlast : calls.getLast?.any (Event.settlesStop agent b.nextRequestId) = true) :
    ¬CutShort b calls := by
  rintro ⟨-, ⟨e, he, hcut⟩ | ⟨earlier, now, rfl, -⟩⟩
  · simpa [hcut] using all_eq_true.1 huncut e he
  · rw [getLast?_append_of_ne_nil _ (by simp)] at hlast
    cases hlast

/-- A session whose agent replies to the `AGENT_STOP` that is written next. -/
def repliedScript : Bench :=
  { polls := [replyReadable]
    streams := [{ streamScriptMessage opAgentReady 0 with requestId := 10 }]
    composer := [granted false] }

/-- The agent replies, and nothing cuts the wait short. -/
theorem release_after_stop_replied : ∃ (t : Sys Bench) (before after : List Event) (e : Event),
      (release 8 "test of the volume keys" true).run (sysHandler benchEnv)
        (benchActive repliedScript) = (some (), t) ∧
      callsSince (benchActive repliedScript) t = before ++ e :: after ∧
      Event.sendsRelease e = true ∧ ¬CutShort (benchActive repliedScript).vars before ∧
      StopSettled 1 before := by
  have hreturned : ((release 8 "test of the volume keys" true).run (sysHandler benchEnv)
      (benchActive repliedScript)).1 = some () := by
    decide +kernel
  have hrun := run_after hreturned
  have hsends : (callsSince (benchActive repliedScript) (HdmiLos.after benchEnv
      (release 8 "test of the volume keys" true) (benchActive repliedScript))).any
        Event.sendsRelease = true := by
    decide +kernel
  obtain ⟨e, after, hcalls, hrelease⟩ := exists_first hsends
  have huncut : ¬CutShort (benchActive repliedScript).vars ((callsSince (benchActive repliedScript)
      (HdmiLos.after benchEnv (release 8 "test of the volume keys" true)
        (benchActive repliedScript))).takeWhile fun e => !Event.sendsRelease e) :=
    not_cutShort 1 (by decide +kernel) (by decide +kernel)
  exact ⟨_, _, after, e, hrun, hcalls, hrelease, huncut,
    (release_after_stop hrun (by decide +kernel) hcalls hrelease).2 huncut⟩

/-- The scripted environment with a clock that every poll moves on by twenty seconds. -/
def slowEnv : Env (Int × Bench)
  | .monotonicMs, (now, w) => some (now, (now, w))
  | .poll fds timeoutMs, (now, w) =>
    (benchEnv (.poll fds timeoutMs) w).map fun (a, w) => (a, (now + 20000, w))
  | call, (now, w) => (benchEnv call w).map fun (a, w) => (a, (now, w))

/-- A session in which nothing happens until its deadline. -/
def idleScript : Int × Bench :=
  (1, takeoverScript { polls := [[]], composer := [granted false] })

/-- Nothing was heard of the agent, and the clock stands at `now`. -/
def Event.still (now : Int) : Event → Bool
  | ⟨.readFull _, _⟩ => false
  | ⟨.poll _ _, _⟩ => false
  | ⟨.writeFull _ _, written⟩ => written
  | ⟨.monotonicMs, t⟩ => t == now
  | _ => true

theorem not_stopSettled {now : Int} {calls : List Event}
    (h : ∀ e ∈ calls, Event.still now e = true) : ¬StopSettled agent calls := by
  rintro ⟨before, stop, written, since, rfl, -, hreason⟩
  have hsince : ∀ e ∈ since, Event.still now e = true :=
    fun e he => h e (mem_append_right _ (mem_cons_of_mem _ he))
  rcases hreason with rfl | ⟨e, he, hsettles⟩ | ⟨start, later, hle, hsub⟩
  · exact absurd (h _ (mem_append_right _ mem_cons_self)) (by simp [Event.still])
  · have hstill := hsince e he
    obtain ⟨c, a⟩ := e
    cases c with
    | readFull fd => exact absurd hstill (by simp [Event.still])
    | poll fds timeoutMs => exact absurd hstill (by simp [Event.still])
    | writeFull fd m =>
      have hwritten : a = true := hstill
      exact absurd hsettles (by simp [Event.settlesStop, hwritten])
    | _ => exact absurd hsettles (by simp [Event.settlesStop])
  · have hstart : start = now := eq_of_beq (hsince ⟨.monotonicMs, start⟩ (hsub.subset (by simp)))
    have hlater : later = now := eq_of_beq (hsince ⟨.monotonicMs, later⟩ (hsub.subset (by simp)))
    simp only [kAgentStopMs] at hle
    omega

/-- The deadline that ends the session also ends the wait for the agent at once. -/
def releasesAtOnce (d : Did (Int × Bench)) : Bool :=
  let u := after slowEnv deadlineReached d.before
  let calls := callsSince u d.after
  d.part == .deadline && d.before.vars.active &&
    ((deadlineReached.run (sysHandler slowEnv) d.before).1 == some true) &&
    u.vars.agentFd == some 1 && calls.any Event.sendsRelease &&
    (calls.takeWhile fun e => !Event.sendsRelease e).all (Event.still 100001)

/-- After sixty seconds `Release` writes `AGENT_STOP` and asks the composer to resume Android in the
    same moment. -/
theorem release_at_deadline :
    ∃ (revents : List Revents) (hist : List (Did (Int × Bench))) (s u : Sys (Int × Bench))
      (d : Did (Int × Bench)) (before after : List Event) (e : Event),
      History slowEnv 8 revents [] hist s ∧ d ∈ hist ∧ d.part = .deadline ∧
      deadlineReached.run (sysHandler slowEnv) d.before = (some true, u) ∧
      (release 8 "mandatory 60 second timeout" true).run (sysHandler slowEnv) u =
        (some (), d.after) ∧
      u.vars.agentFd = some 1 ∧ callsSince u d.after = before ++ e :: after ∧
      Event.sendsRelease e = true ∧ ¬StopSettled 1 before := by
  obtain ⟨revents, hist, s, h, hcheck⟩ := exists_history slowEnv 8 idleScript 3
    (fun hist => hist.any releasesAtOnce) (by decide +kernel)
  obtain ⟨d, hd, hd'⟩ := any_eq_true.1 hcheck
  simp only [releasesAtOnce, Bool.and_eq_true, beq_iff_eq] at hd'
  obtain ⟨⟨⟨⟨⟨hpart, hactive⟩, hreached⟩, hagent⟩, hany⟩, hall⟩ := hd'
  obtain ⟨e, after, hcalls, hrelease⟩ := exists_first hany
  have hrun := run_after hreached
  have hran := h.ran d hd
  simp only [Did.Ran, hpart, Part.prog, runDeadline] at hran
  obtain ⟨b, v, hget, hran⟩ := run_bind_some hran
  cases hget
  rw [if_pos hactive] at hran
  obtain ⟨reached, w, hreach, hran⟩ := run_bind_some hran
  obtain ⟨hvalue, rfl⟩ := Prod.mk.inj (hreach.symm.trans hrun)
  cases hvalue
  exact ⟨revents, hist, s, _, d, _, after, e, h, hd, hpart, hrun, hran, hagent, hcalls, hrelease,
    not_stopSettled (all_eq_true.1 hall)⟩

end HdmiLos
