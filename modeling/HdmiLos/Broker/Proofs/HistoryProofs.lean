import HdmiLos.Broker.History
import HdmiLos.Interaction.Proofs.ProgProofs

/-!
# Histories and runs

What a history records did happen, and every run of the main loop has a history.
-/

namespace HdmiLos

open Interaction Prog

variable {ω : Type} {env : Env ω} {n : Nat} {revents : List Revents} {todo : List Part}
  {hist : List (Did ω)} {s t : Sys ω}

/-- The part `d` was carried out in the given environment. -/
def Did.Ran (env : Env ω) (n : Nat) (d : Did ω) : Prop :=
  (d.part.prog n d.revents).run (sysHandler env) d.before = (some (), d.after)

/-- All that was done is a run of its part. -/
theorem History.ran (h : History env n revents todo hist s) : ∀ d ∈ hist, d.Ran env n := by
  induction h with
  | start _ => exact fun d hd => absurd hd List.not_mem_nil
  | interrupted _ _ _ ih => exact ih
  | poll _ _ _ ih => exact ih
  | part _ hrun ih =>
    intro d hd
    rcases List.mem_cons.1 hd with rfl | hd
    · exact hrun
    · exact ih d hd

/-! ## The history of a run -/

/-- The parts `todo` of an iteration, one after the other. -/
def runParts (n : Nat) (revents : List Revents) : List Part → BrokerProg Unit
  | [] => pure ()
  | p :: todo => do
    p.prog n revents
    runParts n revents todo

/-- What an iteration does after `AcceptClient` are its parts in their order. -/
theorem runPeers_parts (revents : List Revents) (s : Sys ω) :
    (runPeers n revents).run (sysHandler env) s =
      (runParts n revents Part.peers).run (sysHandler env) s := by
  simp only [runPeers, runParts, Part.peers, Part.prog, run_bind]
  rcases (runComposer n (revents.getD 1 {})).run (sysHandler env) s with ⟨_ | _, s₁⟩
  · rfl
  · simp only
    rcases (runAgent n (revents.getD 2 {})).run (sysHandler env) s₁ with ⟨_ | _, s₂⟩
    · rfl
    · simp only
      rcases (runVolumes n (revents.getD 3 {}) (revents.getD 4 {})).run (sysHandler env) s₂
        with ⟨_ | _, s₃⟩
      · rfl
      · simp only
        rcases (runHeartbeat n).run (sysHandler env) s₃ with ⟨_ | _, s₄⟩
        · rfl
        · simp only
          rcases (runDeadline n).run (sysHandler env) s₄ with ⟨_ | _, s₅⟩
          · rfl
          · simp only
            rcases (runArmed n).run (sysHandler env) s₅ with ⟨_ | _, s₆⟩
            · rfl
            · rfl

theorem History.parts (h : History env n revents todo hist s)
    (hrun : (runParts n revents todo).run (sysHandler env) s = (some (), t)) :
    ∃ hist', History env n revents [] hist' t := by
  induction todo generalizing hist s with
  | nil =>
    cases hrun
    exact ⟨hist, h⟩
  | cons p todo ih =>
    obtain ⟨a, u, hp, hrest⟩ := run_bind_some hrun
    exact ih (h.part hp) hrest

/-- Every state that a run reaches between two iterations has a history. -/
theorem Run.history {rounds : List (Round env n)} (h : Run env n rounds s) :
    ∃ revents hist, History env n revents [] hist s := by
  induction h with
  | start hstart => exact ⟨[], [], .start hstart⟩
  | interrupted _ htest hpoll ih =>
    obtain ⟨revents, hist, h⟩ := ih
    exact ⟨revents, hist, h.interrupted htest hpoll⟩
  | iteration it _ ih =>
    obtain ⟨revents, hist, h⟩ := ih
    have hpolled := h.poll it.runs_test it.runs_poll
    have hserved := hpolled.part it.runs_client
    obtain ⟨hist', h'⟩ := hserved.parts ((runPeers_parts _ _).symm.trans it.runs_peers)
    exact ⟨it.revents, hist', h'⟩

end HdmiLos
