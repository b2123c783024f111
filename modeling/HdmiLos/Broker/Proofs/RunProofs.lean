import HdmiLos.Broker.Bench
import HdmiLos.Broker.Proofs.ClientProofs

/-!
# Active sessions in the main loop

Two properties of every iteration of the main loop: an unplug that the broker consumes ends the
session, and an active session holds the composer connection on which its lease was granted. Both
fail in one place, where `AcceptClient` ignores the result of the status request it makes for a
client.
-/

namespace HdmiLos

open Interaction Prog List

variable {ω : Type} {env : Env ω} {n : Nat} {s t : Sys ω}

/-! ## Iterations -/

theorem uses_runPoll : runPoll.Uses Quiet :=
  uses_bind uses_getBroker fun _ => uses_pollFds _ _

section Parts

variable (it : Iteration env n s t)

include it

theorem Iteration.polled_apart : Apart s it.polled := by
  have htest : Apart s it.entered := wp_returned (wp_quiet (uses_quietCall rfl)) it.runs_test
  have hpoll : Apart it.entered it.polled := wp_returned (wp_quiet uses_runPoll) it.runs_poll
  exact htest.trans hpoll

theorem Iteration.ends (hs : it.served.vars.active = true) : Ends it.served t :=
  wp_returned (wp_runPeers_active n it.revents hs) it.runs_peers

theorem Iteration.stays_released (h : Released s it.served) : Released s t := by
  refine wp_returned (Q := fun _ => Released s) (H := fun _ => True) ?_ it.runs_peers
  unfold runPeers
  simp only [wp_bind]
  refine wp_post (wp_runComposer_over n _ h) fun _ _ h => ?_
  refine wp_post (wp_runAgent_over n _ h) fun _ _ h => ?_
  refine wp_post (wp_over_guarded Broker.active _ h.active h) fun _ _ h => ?_
  refine wp_post (wp_over_guarded (fun b => b.active && b.sessionContinuous) _
    (by rw [h.active]; rfl) h) fun _ _ h => ?_
  refine wp_post (wp_over_guarded Broker.active _ h.active h) fun _ _ h => ?_
  exact wp_over_guarded (fun b => b.armed && !b.active) _ (by rw [h.armed]; rfl) h

theorem Iteration.serves (hs : s.vars.active = true) :
    Served it.polled it.served (¬EndsSession it.clientCalls) := by
  have hpolled : it.polled.vars.active = true :=
    (owner_active it.polled_apart.owner).trans hs
  have hserved := wp_returned (wp_runClient_active n _ hpolled) it.runs_client
  refine hserved.imp ?_
  rintro ⟨calls, hl, hend⟩
  rw [Iteration.clientCalls, hl, drop_left]
  exact hend

theorem Iteration.calls_eq {seg₁ seg₂ seg₃ : List Event}
    (h₁ : it.polled.log = s.log ++ seg₁) (h₂ : it.served.log = it.polled.log ++ seg₂)
    (h₃ : t.log = it.served.log ++ seg₃) :
    it.calls = seg₁ ++ seg₂ ++ seg₃ ∧ it.clientCalls = seg₂ := by
  constructor
  · rw [Iteration.calls, h₃, h₂, h₁, append_assoc, append_assoc, drop_left, append_assoc]
  · rw [Iteration.clientCalls, h₂, drop_left]

/-- An iteration that leaves the session active: the client's part at most asked the composer, and
    the rest held the session. -/
theorem Iteration.active_cases (hs : s.vars.active = true)
    (ht : t.vars.active = true) :
    Holds it.served t ∧ it.served.vars.active = true ∧
      (Apart it.polled it.served ∨ (Asked it.polled it.served ∧ ¬EndsSession it.clientCalls)) := by
  have hpolled : it.polled.vars.active = true :=
    (owner_active it.polled_apart.owner).trans hs
  have hover : ¬Released it.polled it.served := by
    intro h
    have hend := it.stays_released (Released.after it.polled_apart.keeps h)
    rw [hend.active] at ht
    exact absurd ht (by simp)
  have hserved := it.serves hs
  have hcases := hserved.resolve_left hover
  have hactive : it.served.vars.active = true := by
    rcases hcases with h | h
    · exact (owner_active h.owner).trans hpolled
    · exact (owner_active h.1.owner).trans hpolled
  refine ⟨?_, hactive, hcases⟩
  rcases it.ends hactive with h | h
  · rw [h.active] at ht
    exact absurd ht (by simp)
  · exact h

/-! ## Unplugs -/

/-- An iteration from an active session that consumed an unplug ends the session, unless a client's
    status request swallowed it. -/
theorem Iteration.unplug_ends (hs : s.vars.active = true)
    (hheard : it.UnplugHeard) (hunplug : UnplugConsumed (composerMessages it.calls)) :
    t.vars.active = false := by
  refine Bool.eq_false_iff.2 fun ht => ?_
  obtain ⟨hholds, -, hclient⟩ := it.active_cases hs ht
  obtain ⟨-, seg₁, hl₁, hk₁⟩ := it.polled_apart
  obtain ⟨seg₃, hl₃, hu₃⟩ := hholds.plugged
  -- nothing the client's part consumed leaves an unplug behind
  obtain ⟨seg₂, hl₂, hu₂⟩ : ∃ seg₂, it.served.log = it.polled.log ++ seg₂ ∧
      unplugAfter false (composerMessages seg₂) = false := by
    rcases hclient with ⟨-, seg₂, hl₂, hk₂⟩ | ⟨hasked, hend⟩
    · exact ⟨seg₂, hl₂, by rw [composerMessages_of_kind hk₂]; rfl⟩
    · obtain ⟨seg₂, hl₂⟩ := hasked.extends
      refine ⟨seg₂, hl₂, Bool.eq_false_iff.2 fun hun => hend (hheard ?_)⟩
      rw [(it.calls_eq hl₁ hl₂ hl₃).2]
      exact (unplugAfter_false_iff _).1 hun
  have hafter := (unplugAfter_false_iff _).2 hunplug
  rw [(it.calls_eq hl₁ hl₂ hl₃).1, composerMessages_append, composerMessages_append,
    composerMessages_of_kind hk₁, unplugAfter_append, nil_append, hu₂, hu₃] at hafter
  exact absurd hafter (by simp)

end Parts

/-- In every run of the broker in which no client swallows an unplug, every iteration that begins
    with an active session and consumes an unplug ends without one. -/
theorem consumed_unplug_ends_session {rounds : List (Round env n)} (hrun : Run env n rounds s)
    (hheard : ∀ r ∈ rounds, r.before.vars.active = true → r.iteration.UnplugHeard) :
    ∀ r ∈ rounds, r.before.vars.active = true →
      UnplugConsumed (composerMessages r.iteration.calls) → r.after.vars.active = false := by
  induction hrun with
  | start _ => simp
  | interrupted _ _ _ ih => exact ih hheard
  | iteration it _ ih =>
    intro r hr hactive hunplug
    rcases mem_cons.1 hr with rfl | hr
    · exact it.unplug_ends hactive (hheard _ hr hactive) hunplug
    · exact ih (fun r' hr' => hheard r' (by simp [hr'])) r hr hactive hunplug

/-- The composer's event arrives in the main loop, and the agent confirms that it stopped. -/
def heardScript : Bench :=
  { polls := [composerReadable, replyReadable]
    streams := [streamScriptMessage opAgentReady 0]
    composer := [unplugEvent, .reply (composerScriptMessage opResponse 0) false] }

/-- A client asks for the status while the composer's event is on its way. -/
def swallowScript : Bench :=
  { polls := [clientReadable]
    streams := [streamScriptMessage opStatus 0]
    composer := [unplugEvent, .reply (composerScriptMessage opResponse 0) false] }

theorem consumed_unplug_ends_session_heard :
    ∃ (rounds : List (Round benchEnv 8)) (s : Sys Bench), Run benchEnv 8 rounds s ∧
      (∀ r ∈ rounds, r.before.vars.active = true → r.iteration.UnplugHeard) ∧
      ∃ r ∈ rounds, r.before.vars.active = true ∧
        UnplugConsumed (composerMessages r.iteration.calls) ∧ r.after.vars.active = false := by
  obtain ⟨r, rounds, hrun, hcheck⟩ := exists_takeover heardScript composerReadable
    (fun r rounds => r.before.vars.active && unplugAfter false (composerMessages r.iteration.calls) &&
      (r :: rounds).all fun r => !unplugAfter false (composerMessages r.iteration.clientCalls))
    (by decide +kernel)
  simp only [Bool.and_eq_true] at hcheck
  have hheard : ∀ r' ∈ r :: rounds, r'.before.vars.active = true → r'.iteration.UnplugHeard := by
    intro r' hr' _ hun
    simpa [(unplugAfter_false_iff _).2 hun] using all_eq_true.1 hcheck.2 r' hr'
  have hunplug := (unplugAfter_false_iff _).1 hcheck.1.2
  exact ⟨_, _, hrun, hheard, r, mem_cons_self, hcheck.1.1, hunplug,
    consumed_unplug_ends_session hrun hheard r mem_cons_self hcheck.1.1 hunplug⟩

/-- A session outlives an unplug that the broker consumed while it served a status request. -/
theorem client_swallows_unplug :
    ∃ (rounds : List (Round benchEnv 8)) (s : Sys Bench), Run benchEnv 8 rounds s ∧
      ∃ r ∈ rounds, r.before.vars.active = true ∧
        UnplugConsumed (composerMessages r.iteration.calls) ∧ r.after.vars.active = true := by
  obtain ⟨r, rounds, hrun, hcheck⟩ := exists_takeover swallowScript clientReadable
    (fun r _ => r.before.vars.active && unplugAfter false (composerMessages r.iteration.calls) &&
      r.after.vars.active) (by decide +kernel)
  simp only [Bool.and_eq_true] at hcheck
  exact ⟨_, _, hrun, r, mem_cons_self, hcheck.1.1, (unplugAfter_false_iff _).1 hcheck.1.2, hcheck.2⟩

end HdmiLos
