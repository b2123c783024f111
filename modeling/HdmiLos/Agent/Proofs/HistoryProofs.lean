import HdmiLos.Agent.History
import HdmiLos.Interaction.Proofs.MachineProofs

/-!
# Every run of the agent has a history
-/

namespace HdmiLos.Agent

open Interaction Prog

variable {ω : Type} {env : Handler Io Io.Ans ω} {n : Nat} {registration : Message}
  {s₀ s t u : AgentSys ω} {hs : List Handled}

/-- The state of a run is one of the history's, wherever the run is cut off. -/
abbrev Covered (env : Handler Io Io.Ans ω) (n : Nat) (registration : Message)
    (s₀ t : AgentSys ω) : Prop :=
  ∃ xs, During env n registration s₀ xs t

theorem Reach.covered (h : Reach env n registration s₀ hs s) : Covered env n registration s₀ s :=
  ⟨_, .between h⟩

theorem wp_idle {p : AgentProg Unit} (h : Reach env n registration s₀ hs s)
    (hp : Idle n registration p) :
    wp (processHandler env) p (fun _ t => Reach env n registration s₀ hs t)
      s (Covered env n registration s₀) := by
  refine wp_of_run ?_ ?_
  · exact fun _ t ht => h.idle hp ht
  · exact fun t ht => ⟨_, .idle h hp ht⟩

theorem wp_call_idle {c : Io} {Q : c.Ans → AgentSys ω → Prop}
    (h : Reach env n registration s₀ hs s) (hc : Idle n registration (do let _ ← call c))
    (hQ : ∀ a t, Reach env n registration s₀ hs t → Q a t) :
    wp (processHandler env) (call c) Q s (Covered env n registration s₀) := by
  refine wp_io c h.covered fun a w hw => hQ a _ (h.idle hc ?_)
  have hcall : (call c).run (processHandler env) s =
      (some a, { s with log := s.log ++ [⟨c, a⟩], world := w }) := run_io hw
  rw [run_bind, hcall]
  rfl

/-- A reply is the last call of what serves a request. -/
theorem wp_serveRequest (request : Message) (lease : Option Fd) :
    wp (processHandler env) (serveRequest n request lease)
      (fun _ t => ∃ reply sent, t.log.getLast? = some ⟨.writeBroker reply, sent⟩) u := by
  have hlast : ∀ (m : Message) (s : AgentSys ω), wp (processHandler env) (do let _ ← writeBroker m)
        (fun _ t => ∃ reply sent, t.log.getLast? = some ⟨.writeBroker reply, sent⟩) s := by
    intro m s
    rw [wp_bind]
    refine wp_io _ trivial fun sent w _ => ⟨m, sent, ?_⟩
    exact List.getLast?_concat
  have hbehind : ∀ {α : Type} (p : AgentProg α) (f : α → AgentProg Unit) (s : AgentSys ω),
      (∀ a t, wp (processHandler env) (f a)
        (fun _ t => ∃ reply sent, t.log.getLast? = some ⟨.writeBroker reply, sent⟩) t) →
      wp (processHandler env) (p >>= f)
        (fun _ t => ∃ reply sent, t.log.getLast? = some ⟨.writeBroker reply, sent⟩) s := by
    intro α p f s hf
    rw [wp_bind]
    exact wp_of_run (fun a t _ => hf a t) (fun _ _ => trivial)
  unfold serveRequest
  split
  · exact hbehind _ _ _ fun ok _ => hbehind _ _ _ fun _ _ => hbehind _ _ _ fun _ _ => hlast _ _
  split
  · exact hbehind _ _ _ fun ok _ => hbehind _ _ _ fun _ _ => hbehind _ _ _ fun _ _ => hlast _ _
  split
  · exact hbehind _ _ _ fun ok _ => hbehind _ _ _ fun _ _ => hbehind _ _ _ fun _ _ => hlast _ _
  · exact hbehind _ _ _ fun ok _ => hlast _ _

theorem Reach.served {request : Message} {lease : Option Fd} (h : Reach env n registration s₀ hs s)
    (hu : (recvMessage .request).run (processHandler env) s = (some (true, request, lease), u))
    (ht : (serveRequest n request lease).run (processHandler env) u = (some (), t)) :
    ∃ reply, Reach env n registration s₀ (hs ++ [⟨⟨true, request, lease, u.vars⟩, reply⟩]) t := by
  obtain ⟨reply, sent, hreply⟩ := wp_returned (wp_serveRequest request lease) ht
  exact ⟨some reply, h.handled hu ht hreply⟩

theorem wp_readRequest (h : Reach env n registration s₀ hs s) :
    wp (processHandler env) (readRequest n)
      (fun _ t => ∃ hs, Reach env n registration s₀ hs t) s (Covered env n registration s₀) := by
  unfold readRequest
  rw [wp_bind]
  refine wp_of_run ?_ ?_
  · rintro ⟨ok, request, lease⟩ u hu
    cases ok with
    | false => exact ⟨_, h.refused hu⟩
    | true =>
      show wp (processHandler env) (do serveRequest n request lease; pure (Sum.inl ())) _ u _
      rw [wp_bind]
      refine wp_of_run ?_ ?_
      · intro _ t ht
        obtain ⟨reply, h'⟩ := h.served hu ht
        exact ⟨_, h'⟩
      · exact fun t ht => ⟨_, .serving h hu ht⟩
  · exact fun t ht => ⟨_, .receiving h ht⟩

/-- A round of the main loop stays within the histories. -/
theorem wp_agentRound (h : Reach env n registration s₀ hs s) :
    wp (processHandler env) (agentRound n registration ())
      (fun _ t => ∃ hs, Reach env n registration s₀ hs t) s (Covered env n registration s₀) := by
  unfold agentRound
  rw [wp_bind]
  refine wp_call_idle h .stopRequested fun stopping t h => ?_
  cases stopping with
  | true => exact ⟨_, h⟩
  | false =>
    show wp (processHandler env) (getAgent >>= _) _ t _
    rw [wp_bind]
    show wp (processHandler env) (call (.pollPeers t.vars.trace) >>= _) _ t _
    rw [wp_bind]
    refine wp_call_idle h (.pollPeers _) fun polled t h => ?_
    cases polled with
    | interrupted => exact ⟨_, h⟩
    | failed => exact ⟨_, h⟩
    | ready revents =>
      show wp (processHandler env) (agentReady n registration _ _) _ t _
      unfold agentReady
      split
      · exact ⟨_, h⟩
      refine wp_seq (wp_idle h .reapXorg) fun _ t h => ?_
      refine wp_seq (wp_idle h (.relayPolled _)) fun _ t h => ?_
      refine wp_seq (wp_idle h .reportScanout) fun _ t h => ?_
      split
      · exact wp_readRequest h
      · exact ⟨_, h⟩

/-- The loop of `run_agent` and its end go through states of the history only. -/
theorem covered_run (s₀ : AgentSys ω) : wp (processHandler env) (do
        Prog.loop (agentRound n registration) n ()
        cleanupSession n)
      (fun _ t => Covered env n registration s₀ t) s₀ (Covered env n registration s₀) := by
  rw [wp_bind]
  refine wp_loop (agentRound n registration)
    (fun _ t => ∃ hs, Reach env n registration s₀ hs t) ?_ ?_ n () ⟨[], .start⟩
  · rintro _ t ⟨hs, h⟩
    exact h.covered
  · rintro _ t ⟨hs, h⟩
    refine wp_post (wp_agentRound h) ?_
    rintro (_ | _) u ⟨hs, h⟩
    · exact ⟨hs, h⟩
    · exact wp_post (wp_idle h .ending) fun _ _ h => h.covered

/-- A run only appends to the log. -/
theorem log_of_run {α : Type} {p : AgentProg α} {r : Option α}
    (hr : p.run (processHandler env) s = (r, t)) : s.log <+: t.log := by
  have h : wp (processHandler env) p _ s _ := wp_log_extends p
  unfold wp at h
  rw [hr] at h
  cases r with
  | none => exact h
  | some a => exact h

theorem Reach.log (h : Reach env n registration s₀ hs s) : s₀.log <+: s.log := by
  induction h with
  | start => exact List.prefix_refl _
  | idle _ _ ht ih => exact ih.trans (log_of_run ht)
  | handled _ hu ht _ ih => exact (ih.trans (log_of_run hu)).trans (log_of_run ht)
  | refused _ hu ih => exact ih.trans (log_of_run hu)

/-! ## Monitors along a history -/

section Monitored

variable {μ α : Type} {M : Monitor Io.Ans μ} {m₀ : μ} {p : AgentProg α}
  {Q : α → Agent → μ → Nat → Prop}

theorem newCalls_self : newCalls s₀ s₀ = [] := List.drop_length

theorem newCalls_append (h : s₀.log <+: s.log) {new : List (Answered Io.Ans)}
    (hnew : t.log = s.log ++ new) : newCalls s₀ t = newCalls s₀ s ++ new := by
  unfold newCalls
  rw [hnew, List.drop_append_of_le_length h.length_le]

/-- Something that the agent has done since the loop was entered. -/
theorem monitored_returned {a : α} (h : s₀.log <+: s.log) (hs : M.Admits m₀ (newCalls s₀ s))
    (hp : p.Meets M Q s.vars (M.after m₀ (newCalls s₀ s)) s.nextFd)
    (hr : p.run (processHandler env) s = (some a, t)) :
    M.Admits m₀ (newCalls s₀ t) ∧ Q a t.vars (M.after m₀ (newCalls s₀ t)) t.nextFd := by
  obtain ⟨new, hlog, hnew, hQ⟩ := wp_returned (wp_meets hp) hr
  rw [newCalls_append h hlog, after_append]
  exact ⟨admits_append hs hnew, hQ⟩

theorem monitored_halted (h : s₀.log <+: s.log) (hs : M.Admits m₀ (newCalls s₀ s))
    (hp : p.Meets M Q s.vars (M.after m₀ (newCalls s₀ s)) s.nextFd)
    (hr : p.run (processHandler env) s = (none, t)) : M.Admits m₀ (newCalls s₀ t) := by
  obtain ⟨new, hlog, hnew⟩ := wp_halted (wp_meets hp) hr
  rw [newCalls_append h hlog]
  exact admits_append hs hnew

end Monitored

end HdmiLos.Agent
