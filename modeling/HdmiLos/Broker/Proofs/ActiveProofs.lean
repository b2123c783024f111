import HdmiLos.Broker.Proofs.SessionProofs
import Mathlib.Data.List.Induction

/-!
# An iteration of the main loop while a session is active

Each part of an iteration either ends the session or holds it: the owner and the composer
connection stay, and no unplug has been consumed without an answer. The client's part is the
exception, because `AcceptClient` ignores the result of its own request to the composer.
-/

namespace HdmiLos

open Interaction Prog

variable {ω α : Type} {env : Env ω} {s t u : Sys ω}

/-! ## Steps that hold the session -/

theorem unplugAfter_false_iff (messages : List Message) :
    unplugAfter false messages = true ↔ UnplugConsumed messages := by
  refine ⟨?_, fun h => h.unplugAfter false⟩
  induction messages using List.reverseRecOn with
  | nil => simp [unplugAfter]
  | append_singleton ms m ih =>
    rw [unplugAfter_append]
    simp only [unplugAfter, List.foldl_cons, List.foldl_nil, Bool.and_eq_true, Bool.or_eq_true,
      Bool.not_eq_eq_eq_not, Bool.not_true]
    rintro ⟨hconn, hplug | hbefore⟩
    · exact ⟨ms, m, [], rfl, hplug, hconn, by simp⟩
    · obtain ⟨before, event, after, rfl, hplug, hevent, hafter⟩ := ih hbefore
      refine ⟨before, event, after ++ [m], by simp, hplug, hevent, ?_⟩
      intro m' hm'
      rcases List.mem_append.1 hm' with hm' | hm'
      · exact hafter m' hm'
      · rw [List.mem_singleton.1 hm']
        exact hconn

/-- The step holds an active session. -/
structure Holds (s t : Sys ω) : Prop where
  keeps : Keeps s t
  owner : t.vars.owner = s.vars.owner
  connection : ∀ c, s.vars.composerFd = some c → t.vars.composerFd = some c
  plugged : ∃ seg, t.log = s.log ++ seg ∧ unplugAfter false (composerMessages seg) = false

theorem Holds.trans (h : Holds s t) (h' : Holds t u) : Holds s u := by
  refine ⟨h.keeps.trans h'.keeps, h'.owner.trans h.owner,
    fun c hc => h'.connection c (h.connection c hc), ?_⟩
  obtain ⟨seg, hl, hu⟩ := h.plugged
  obtain ⟨seg', hl', hu'⟩ := h'.plugged
  refine ⟨seg ++ seg', by rw [hl', hl, List.append_assoc], ?_⟩
  rw [composerMessages_append, unplugAfter_append, hu, hu']

theorem Beside.holds (h : Apart s t) : Holds s t := by
  obtain ⟨hv, seg, hl, hk⟩ := h
  have h : Apart s t := ⟨hv, seg, hl, hk⟩
  refine ⟨h.keeps, h.owner, fun c hc => h.composerFd.trans hc, seg, hl, ?_⟩
  rw [composerMessages_of_kind hk]
  rfl

theorem Holds.active (h : Holds s t) (hs : s.vars.active = true) : t.vars.active = true :=
  (owner_active h.owner).trans hs

/-- The step ends the session or holds it. -/
def Ends (s t : Sys ω) : Prop := Released s t ∨ Holds s t

theorem Released.after (h : Keeps s t) (h' : Released t u) : Released s u :=
  ⟨h.trans h'.keeps, h'.active, h'.armed⟩

theorem Released.keep (h : Released s t) (hk : Keeps t u)
    (ho : u.vars.owner = t.vars.owner) : Released s u :=
  ⟨h.keeps.trans hk, (owner_active ho).trans h.active, (owner_armed ho).trans h.armed⟩

theorem Released.apart (h : Released s t) (h' : Apart t u) : Released s u :=
  h.keep h'.keeps h'.owner

theorem Ends.trans (h : Holds s t) (h' : Ends t u) : Ends s u := by
  rcases h' with h' | h'
  · exact Or.inl (Released.after h.keeps h')
  · exact Or.inr (h.trans h')

theorem wp_holds_quiet {p : BrokerProg α} (hp : p.Uses Quiet) :
    wp (sysHandler env) p (fun _ => Holds s) s :=
  wp_returns (wp_quiet hp) fun _ _ h => h.holds

theorem wp_ends_release (n : Nat) (reason : String) (tell : Bool) (h : Keeps s t)
    (ht : t.vars.active = true) :
    wp (sysHandler env) (release n reason tell) (fun _ => Ends s) t :=
  wp_post (wp_release n reason tell ht) fun _ _ hr => Or.inl (hr.after h)

theorem wp_ends_releaseIfActive (n : Nat) (reason : String) (tell : Bool) (h : Keeps s t)
    (ht : t.vars.active = true) :
    wp (sysHandler env) (releaseIfActive n reason tell) (fun _ => Ends s) t := by
  simp only [releaseIfActive, wp_bind, wp_getBroker, ht, if_true]
  exact wp_ends_release n reason tell h ht

/-! ## The parts of an iteration -/

/-- The composer's part of an iteration with a session. -/
theorem wp_runComposer_active (n : Nat) (revents : Revents) (hs : s.vars.active = true) :
    wp (sysHandler env) (runComposer n revents) (fun _ => Ends s) s := by
  simp only [runComposer, wp_bind, wp_getBroker]
  cases s.vars.composerFd with
  | none => exact Or.inr (Beside.refl s).holds
  | some fd =>
    simp only [wp_ite, wp_bind, wp_pure]
    split
    · refine wp_post wp_closeComposer fun _ t ht => ?_
      exact wp_ends_releaseIfActive n _ _ ht.keeps ((owner_active ht.1).trans hs)
    · split
      · refine wp_post (wp_handleComposerReadable fd) fun hotplug t ⟨ht, hconn⟩ => ?_
        have hactive : t.vars.active = true := (owner_active ht.owner).trans hs
        simp only [runHotplug, wp_bind, wp_getBroker, hactive]
        cases hotplug with
        | invalid => exact wp_ends_release n _ _ ht.keeps hactive
        | disconnected => exact wp_ends_release n _ _ ht.keeps hactive
        | connected =>
          obtain ⟨seg, hl, hu⟩ := hconn rfl
          exact Or.inr ⟨ht.keeps, ht.owner, fun c hc => ht.composerFd.trans hc, seg, hl, hu false⟩
      · exact Or.inr (Beside.refl s).holds

theorem wp_runAgent_active (n : Nat) (revents : Revents) (hs : s.vars.active = true) :
    wp (sysHandler env) (runAgent n revents) (fun _ => Ends s) s := by
  simp only [runAgent, wp_bind, wp_getBroker]
  cases s.vars.agentFd with
  | none => exact Or.inr (Beside.refl s).holds
  | some fd =>
    simp only [wp_ite, wp_bind, wp_pure, wp_update]
    split
    · refine wp_post (wp_steady_quiet (uses_quietCall rfl)) fun _ t ht => ?_
      exact wp_ends_releaseIfActive n _ _ ht.keeps ((owner_active ht.owner).trans hs)
    · split
      · refine wp_returns (wp_streams (uses_runAgentEvent fd)) fun ok t ht => ?_
        cases ok with
        | true => exact Or.inr ht.holds
        | false => exact wp_ends_releaseIfActive n _ _ ht.keeps ((owner_active ht.owner).trans hs)
      · exact Or.inr (Beside.refl s).holds

theorem wp_runVolumes_active (n : Nat) (down up : Revents) (hs : s.vars.active = true) :
    wp (sysHandler env) (runVolumes n down up) (fun _ => Ends s) s := by
  simp only [runVolumes, wp_bind, wp_getBroker, hs, if_true]
  refine wp_returns (wp_quiet (uses_volumesUpdate n down up)) fun escaped t ht => ?_
  cases escaped with
  | true => exact wp_ends_release n _ _ ht.keeps ((owner_active ht.owner).trans hs)
  | false => exact Or.inr ht.holds

theorem uses_armHeartbeat : armHeartbeat.Uses Quiet :=
  uses_bind uses_monotonicMs fun _ => uses_update fun _ => rfl

/-- A renewed watchdog holds the session: the request came back on the same connection, and
    whatever unplug was consumed on the way was followed by a connected message. -/
theorem Exchanged.holds {reply : Reply} {seg : List Event} (h : Exchanged false s reply t seg)
    (hok : reply.ok = true) : Holds s t := by
  obtain ⟨fd, hfd, hsame⟩ := h.connection hok
  refine ⟨h.keeps, h.owner, fun c hc => by rw [hfd, hsame c hc], seg, h.log, ?_⟩
  refine Bool.eq_false_iff.2 fun hun => ?_
  have hpend := h.pending (unplugAfter_mono _ (by simp) hun)
  rw [h.settled hok] at hpend
  exact absurd hpend (by simp)

theorem wp_runHeartbeat_active (n : Nat) (hs : s.vars.active = true) :
    wp (sysHandler env) (runHeartbeat n) (fun _ => Ends s) s := by
  simp only [runHeartbeat, wp_bind, wp_getBroker, hs, Bool.true_and]
  rw [wp_ite]
  split
  · refine wp_seq (wp_holds_quiet uses_monotonicMs) fun now t ht => ?_
    rw [wp_ite]
    split
    · refine wp_seq (wp_composerRequest n opPing {} false flagContinuous) fun reply u hu => ?_
      obtain ⟨seg, hu⟩ := hu
      rw [show createRequest opPing flagContinuous = false from rfl] at hu
      rw [wp_ite]
      split
      · rename_i hrenewed
        have hok : reply.ok = true := by
          simp only [Reply.renewed, Bool.and_eq_true] at hrenewed
          exact hrenewed.1.1.1
        refine wp_post (wp_holds_quiet uses_armHeartbeat) fun _ v hv => ?_
        exact Or.inr ((ht.trans (hu.holds hok)).trans hv)
      · refine wp_ends_release n _ _ (ht.keeps.trans hu.keeps) ?_
        rw [owner_active hu.owner, ht.active hs]
    · exact Or.inr ht
  · exact Or.inr (Beside.refl s).holds

theorem wp_runDeadline_active (n : Nat) (hs : s.vars.active = true) :
    wp (sysHandler env) (runDeadline n) (fun _ => Ends s) s := by
  simp only [runDeadline, wp_bind, wp_getBroker, hs, if_true]
  refine wp_post (wp_holds_quiet uses_deadlineReached) fun late t ht => ?_
  cases late with
  | true => exact wp_ends_release n _ _ ht.keeps (ht.active hs)
  | false => exact Or.inr ht

theorem wp_runArmed_active (n : Nat) (hs : s.vars.active = true) :
    wp (sysHandler env) (runArmed n) (fun _ => Ends s) s := by
  simp only [runArmed, wp_bind, wp_getBroker, hs, Bool.not_true, Bool.and_false]
  exact Or.inr (Beside.refl s).holds

/-! ## The parts after the session has ended -/

theorem wp_over_releaseIfActive (n : Nat) (reason : String) (tell : Bool) (h : Released s t) :
    wp (sysHandler env) (releaseIfActive n reason tell) (fun _ => Released s) t := by
  simp only [releaseIfActive, wp_bind, wp_getBroker, h.active]
  exact h

theorem wp_runComposer_over (n : Nat) (revents : Revents) (h : Released s t) :
    wp (sysHandler env) (runComposer n revents) (fun _ => Released s) t := by
  simp only [runComposer, wp_bind, wp_getBroker]
  cases t.vars.composerFd with
  | none => exact h
  | some fd =>
    simp only [wp_ite, wp_bind, wp_pure]
    split
    · refine wp_post wp_closeComposer fun _ u hu => ?_
      exact wp_over_releaseIfActive n _ _ (h.keep hu.keeps hu.1)
    · split
      · refine wp_post (wp_handleComposerReadable fd) fun hotplug u ⟨hu, _⟩ => ?_
        have hu := h.keep hu.keeps hu.owner
        simp only [runHotplug, wp_bind, wp_getBroker, hu.active, hu.armed]
        cases hotplug <;> exact hu
      · exact h

theorem wp_runAgent_over (n : Nat) (revents : Revents) (h : Released s t) :
    wp (sysHandler env) (runAgent n revents) (fun _ => Released s) t := by
  simp only [runAgent, wp_bind, wp_getBroker]
  cases t.vars.agentFd with
  | none => exact h
  | some fd =>
    simp only [wp_ite, wp_bind, wp_pure, wp_update]
    split
    · refine wp_post (wp_steady_quiet (uses_quietCall rfl)) fun _ u hu => ?_
      have hu := h.keep hu.keeps hu.owner
      exact wp_over_releaseIfActive n _ _ ⟨hu.keeps, hu.active, hu.armed⟩
    · split
      · refine wp_post (wp_steady_streams (uses_runAgentEvent fd)) fun ok u hu => ?_
        have hu := h.keep hu.keeps hu.owner
        cases ok with
        | true => exact hu
        | false => exact wp_over_releaseIfActive n _ _ hu
      · exact h

theorem wp_over_guarded (c : Broker → Bool) (p : Broker → BrokerProg Unit)
    (hc : c t.vars = false) (h : Released s t) :
    wp (sysHandler env) (do let b ← getBroker; if c b then p b else pure ())
      (fun _ => Released s) t := by
  simp only [wp_bind, wp_getBroker, hc]
  exact h

/-! ## The whole iteration -/

theorem wp_ends_bind {p : BrokerProg Unit} {f : Unit → BrokerProg α} {Q : α → Sys ω → Prop}
    (hactive : ∀ {t : Sys ω}, t.vars.active = true → wp (sysHandler env) p (fun _ => Ends t) t)
    (hover : ∀ {t : Sys ω}, Released s t → wp (sysHandler env) p (fun _ => Released s) t)
    (hs : s.vars.active = true) (h : Ends s t)
    (hf : ∀ u, Ends s u → wp (sysHandler env) (f ()) Q u) :
    wp (sysHandler env) (p >>= f) Q t := by
  rw [wp_bind]
  rcases h with h | h
  · exact wp_post (hover h) fun _ u hu => hf u (Or.inl hu)
  · exact wp_post (hactive (h.active hs)) fun _ u hu => hf u (Ends.trans h hu)

/-- What an iteration does after its client ends an active session or holds it. -/
theorem wp_runPeers_active (n : Nat) (revents : List Revents) (hs : s.vars.active = true) :
    wp (sysHandler env) (runPeers n revents) (fun _ => Ends s) s := by
  unfold runPeers
  refine wp_ends_bind (fun ht => wp_runComposer_active n _ ht)
    (fun ht => wp_runComposer_over n _ ht) hs (Or.inr (Beside.refl s).holds) fun t ht => ?_
  refine wp_ends_bind (fun ht => wp_runAgent_active n _ ht)
    (fun ht => wp_runAgent_over n _ ht) hs ht fun t ht => ?_
  refine wp_ends_bind (fun ht => wp_runVolumes_active n _ _ ht)
    (fun ht => wp_over_guarded Broker.active _ ht.active ht) hs ht fun t ht => ?_
  refine wp_ends_bind (fun ht => wp_runHeartbeat_active n ht)
    (fun ht => wp_over_guarded (fun b => b.active && b.sessionContinuous) _
      (by rw [ht.active]; rfl) ht) hs ht fun t ht => ?_
  refine wp_ends_bind (fun ht => wp_runDeadline_active n ht)
    (fun ht => wp_over_guarded Broker.active _ ht.active ht) hs ht fun t ht => ?_
  rcases ht with ht | ht
  · exact wp_post (wp_over_guarded (fun b => b.armed && !b.active) _ (by rw [ht.armed]; rfl) ht)
      fun _ _ h => Or.inl h
  · exact wp_post (wp_runArmed_active n (ht.active hs)) fun _ _ h => Ends.trans ht h

end HdmiLos
