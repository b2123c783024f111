import HdmiLos.Interaction.Machine
import HdmiLos.Interaction.Proofs.ProgProofs

/-!
# Rules for processes

The weakest preconditions of the operations of a process in its environment, and the rules of
`Obeys`: it is compositional, and it says of the pending call what the monitor says.
-/

namespace Interaction.Prog

open List

variable {V C ω μ α β : Type} {A : C → Type}

/-! ## Processes in an environment -/

variable {p : Machine V A α}

section Environment

variable {env : Handler C A ω} {H : Process V A ω → Prop} {s : Process V A ω}

theorem run_io {c : C} {a : A c} {w : ω} (h : env c s.world = some (a, w)) :
    (perform (Act.io c) : Machine V A (A c)).run (processHandler env) s =
      (some a, { s with log := s.log ++ [⟨c, a⟩], world := w }) := by
  simp only [perform, run, processHandler, h]

/-- A call of the environment: any answer, or the end. -/
theorem wp_io (c : C) {Q : A c → Process V A ω → Prop} (hH : H s)
    (hQ : ∀ a w, env c s.world = some (a, w) →
      Q a { s with log := s.log ++ [⟨c, a⟩], world := w }) :
    wp (processHandler env) (perform (Act.io c) : Machine V A (A c)) Q s H := by
  cases hw : env c s.world with
  | none =>
    simp only [wp, perform, run, processHandler, hw]
    exact hH
  | some r =>
    simp only [wp, perform, run, processHandler, hw]
    exact hQ r.1 r.2 hw

theorem wp_io_answered {c : C} {Q : A c → Process V A ω → Prop} {a : A c} {w : ω}
    (h : env c s.world = some (a, w))
    (hQ : Q a { s with log := s.log ++ [⟨c, a⟩], world := w }) :
    wp (processHandler env) (perform (Act.io c) : Machine V A (A c)) Q s H := by
  rw [wp, run_io h]
  exact hQ

variable {P : Act V C → Prop}

/-- A property that the assignments and the calls of a program keep is kept by every run of it. -/
theorem wp_process_invariant {I : Process V A ω → Prop}
    (hmodify : ∀ s f, P (.modify f) → I s → I { s with vars := f s.vars })
    (hfresh : ∀ s, P .fresh → I s → I { s with nextFd := s.nextFd + 1 })
    (hio : ∀ s c a w, P (.io c) → I s → env c s.world = some (a, w) →
      I { s with log := s.log ++ [⟨c, a⟩], world := w })
    (hp : p.Uses P) (hs : I s) : wp (processHandler env) p (fun _ => I) s I := by
  refine wp_invariant ?_ hp hs
  intro op t a t' hop ht hstep
  cases op with
  | get =>
    obtain ⟨-, rfl⟩ := by simpa [processHandler] using hstep
    exact ht
  | modify f =>
    obtain rfl : { t with vars := f t.vars } = t' := by simpa [processHandler] using hstep
    exact hmodify t f hop ht
  | fresh =>
    obtain ⟨-, rfl⟩ := by simpa [processHandler] using hstep
    exact hfresh t hop ht
  | io c =>
    simp only [processHandler] at hstep
    cases hw : env c t.world with
    | none => simp [hw] at hstep
    | some r =>
      obtain ⟨rfl, rfl⟩ : r.1 = a ∧ { t with log := t.log ++ [⟨c, r.1⟩], world := r.2 } = t' := by
        simpa [hw] using hstep
      exact hio t c r.1 r.2 hop ht hw

/-- A process does not read its log. -/
theorem run_log (env : Handler C A ω) (p : Machine V A α) (s : Process V A ω)
    (log : List (Answered A)) :
    ∃ log', p.run (processHandler env) { s with log := log } = ((p.run (processHandler env) s).1,
        { (p.run (processHandler env) s).2 with log := log' }) := by
  induction p generalizing s log with
  | ret a => exact ⟨log, rfl⟩
  | stop => exact ⟨log, rfl⟩
  | call op k ih =>
    cases op with
    | get => exact ih s.vars s log
    | modify f => exact ih () { s with vars := f s.vars } log
    | fresh => exact ih s.nextFd { s with nextFd := s.nextFd + 1 } log
    | io c =>
      cases hw : env c s.world with
      | none =>
        simp only [run, processHandler, hw]
        exact ⟨log, rfl⟩
      | some r =>
        simp only [run, processHandler, hw]
        exact ih r.1 { s with log := s.log ++ [⟨c, r.1⟩], world := r.2 } (log ++ [⟨c, r.1⟩])

/-- What holds of a run with another log holds but for the log. -/
theorem wp_log {Q : α → Process V A ω → Prop} (log : List (Answered A))
    (h : wp (processHandler env) p Q { s with log := log } H) :
    wp (processHandler env) p (fun a t => ∃ log', Q a { t with log := log' })
      s (fun t => ∃ log', H { t with log := log' }) := by
  obtain ⟨log', hrun⟩ := run_log env p s log
  simp only [wp, hrun] at h
  simp only [wp]
  rcases hr : p.run (processHandler env) s with ⟨_ | a, t⟩
  · rw [hr] at h
    exact ⟨log', h⟩
  · rw [hr] at h
    exact ⟨log', h⟩

theorem wp_log_extends (p : Machine V A α) :
    wp (processHandler env) p (fun _ t => s.log <+: t.log) s (fun t => s.log <+: t.log) :=
  wp_process_invariant (I := fun t => s.log <+: t.log) (fun _ _ _ h => h) (fun _ _ h => h)
    (fun _ _ _ _ _ h _ => h.trans (prefix_append _ _)) (uses_true p) (prefix_refl _)

/-- A call of a longer log is its last one or a call of the log before. -/
theorem split_snoc {α : Type} {log before after : List α} {x y : α}
    (h : log ++ [x] = before ++ y :: after) :
    (after = [] ∧ before = log ∧ y = x) ∨
      ∃ after', after = after' ++ [x] ∧ log = before ++ y :: after' := by
  rcases eq_nil_or_concat after with rfl | ⟨after', z, rfl⟩
  · obtain ⟨rfl, hx⟩ := append_inj' h rfl
    exact .inl ⟨rfl, rfl, (List.cons.inj hx).1.symm⟩
  · rw [concat_eq_append, ← cons_append, ← append_assoc] at h
    obtain ⟨hlog, hx⟩ := append_inj' h rfl
    rw [concat_eq_append, (List.cons.inj hx).1]
    exact .inr ⟨after', rfl, hlog⟩

/-- The log has grown by calls of the program. -/
def Process.Grown (P : Act V C → Prop) (s t : Process V A ω) : Prop :=
  ∃ new : List (Answered A), t.log = s.log ++ new ∧ ∀ x ∈ new, P (.io x.1)

/-- The calls that a run adds to the log are those that the program uses. -/
theorem wp_log_uses (hp : p.Uses P) :
    wp (processHandler env) p (fun _ t => Process.Grown P s t) s (Process.Grown P s) := by
  refine wp_process_invariant (I := Process.Grown P s) (fun _ _ _ h => h) (fun _ _ h => h) ?_ hp
    ⟨[], by simp, by simp⟩
  rintro t c a w hc ⟨new, hnew, hall⟩ -
  refine ⟨new ++ [⟨c, a⟩], ?_, fun x hx => ?_⟩
  · show t.log ++ [⟨c, a⟩] = _
    rw [hnew, append_assoc]
  · rcases mem_append.1 hx with hx | hx
    · exact hall x hx
    · rw [mem_singleton.1 hx]
      exact hc

end Environment

/-! ## Processes next to others -/

variable {f : α → Machine V A β} {env : Handler C A ω}

section Monitors

variable {M : Monitor A μ} {v : V} {m : μ} {Q : α → V → μ → Prop}

theorem obeys_mono {Q' : α → V → μ → Prop} (hp : p.Obeys M Q v m)
    (hQ : ∀ a v' m', Q a v' m' → Q' a v' m') : p.Obeys M Q' v m := by
  induction p generalizing v m with
  | ret a => exact hQ a v m hp
  | stop => trivial
  | call op k ih =>
    cases op with
    | get => exact ih v hp
    | modify f => exact ih () hp
    | fresh => exact fun fd => ih fd (hp fd)
    | io c => exact ⟨hp.1, fun a => ih a (hp.2 a)⟩

theorem obeys_bind {Q : β → V → μ → Prop}
    (hp : p.Obeys M (fun a v' m' => (f a).Obeys M Q v' m') v m) : (p >>= f).Obeys M Q v m := by
  show (p.bind f).Obeys M Q v m
  induction p generalizing v m with
  | ret a => exact hp
  | stop => trivial
  | call op k ih =>
    cases op with
    | get => exact ih v hp
    | modify f => exact ih () hp
    | fresh => exact fun fd => ih fd (hp fd)
    | io c => exact ⟨hp.1, fun a => ih a (hp.2 a)⟩

theorem obeys_ite {c : Prop} [Decidable c] {q : Machine V A α}
    (hp : c → p.Obeys M Q v m) (hq : ¬c → q.Obeys M Q v m) : (if c then p else q).Obeys M Q v m := by
  split
  · rename_i h
    exact hp h
  · rename_i h
    exact hq h

variable {body : β → Machine V A (β ⊕ α)}

/-- A loop obeys the monitor if its body does and comes back to the same states. -/
theorem obeys_loop (I : μ → Prop)
    (hbody : ∀ b v m, I m → (body b).Obeys M
      (fun r v' m' => Sum.elim (fun _ => I m') (fun a => Q a v' m') r) v m)
    (fuel : Nat) (b : β) (hm : I m) : (loop body fuel b).Obeys M Q v m := by
  induction fuel generalizing b v m with
  | zero => trivial
  | succ fuel ih =>
    refine obeys_bind (obeys_mono (hbody b v m hm) ?_)
    rintro (b' | a) v' m' h
    · exact ih b' h
    · exact h

/-- A program whose operations are in order where `I` holds and keep it. -/
theorem obeys_invariant {I : V → μ → Prop} (hp : p.Uses (Monitor.Keeps M I))
    (hm : I v m) : p.Obeys M (fun _ v' m' => I v' m') v m := by
  induction p generalizing v m with
  | ret a => exact hm
  | stop => trivial
  | call op k ih =>
    cases op with
    | get => exact ih v (hp.2 v) hm
    | modify f => exact ih () (hp.2 ()) (hp.1 v m hm)
    | fresh => exact fun fd => ih fd (hp.2 fd) hm
    | io c => exact ⟨(hp.1 v m hm).1, fun a => ih a (hp.2 a) ((hp.1 v m hm).2 a)⟩

/-- A program with neutral calls obeys the monitor and leaves the conversation as it is. -/
theorem obeys_neutral (hp : p.Uses (Monitor.Neutral M m)) :
    p.Obeys M (fun _ _ m' => m' = m) v m := by
  refine obeys_invariant (I := fun _ m' => m' = m) (uses_mono (fun op hop => ?_) hp) rfl
  cases op with
  | modify f => exact fun _ _ h => h
  | io c => rintro _ _ rfl; exact hop
  | _ => trivial

/-- The pending call is in order, and the program obeys the monitor from its answer on. -/
theorem obeys_pending {n : Nat} {x : Pending V A α}
    (hp : p.Obeys M Q v m) (hx : p.pending v n = some x) :
    M.allows m x.call ∧ ∀ a, (x.resume a).Obeys M Q x.vars (M.next m x.call a) := by
  induction p generalizing v n with
  | ret a => cases hx
  | stop => cases hx
  | call op k ih =>
    cases op with
    | get => exact ih v hp hx
    | modify f => exact ih () hp hx
    | fresh => exact ih n (hp n) hx
    | io c =>
      cases hx
      exact hp

/-- A program that obeys the monitor and makes no more calls ends as it should. -/
theorem obeys_returned {n : Nat} {a : α} {v' : V}
    (hp : p.Obeys M Q v m) (hr : p.returned v n = some (a, v')) : Q a v' m := by
  induction p generalizing v n with
  | ret b =>
    cases hr
    exact hp
  | stop => cases hr
  | call op k ih =>
    cases op with
    | get => exact ih v hp hr
    | modify f => exact ih () hp hr
    | fresh => exact ih n (hp n) hr
    | io c => cases hr

end Monitors

/-! ## Processes with counted names -/

section Counted

variable {M : Monitor A μ} {v : V} {m : μ} {n : Nat}

theorem after_append (m : μ) (calls more : List (Answered A)) :
    M.after m (calls ++ more) = M.after (M.after m calls) more :=
  foldl_append

theorem admits_append {calls more : List (Answered A)} (h : M.Admits m calls)
    (hmore : M.Admits (M.after m calls) more) : M.Admits m (calls ++ more) := by
  induction calls generalizing m with
  | nil => exact hmore
  | cons x calls ih => exact ⟨h.1, ih h.2 hmore⟩

/-- Each call is allowed after those before it. -/
theorem admits_split {before after : List (Answered A)} {x : Answered A}
    (h : M.Admits m (before ++ x :: after)) : M.allows (M.after m before) x.1 := by
  induction before generalizing m with
  | nil => exact h.1
  | cons y before ih => exact ih h.2

/-- What the calls in order keep holds at every point of a conversation. -/
theorem admits_invariant {I : μ → Prop} (hI : ∀ m c a, I m → M.allows m c → I (M.next m c a))
    {calls : List (Answered A)} (h : M.Admits m calls) (hm : I m) :
    ∀ before, before <+: calls → I (M.after m before) := by
  induction calls generalizing m with
  | nil =>
    intro before hbefore
    rw [prefix_nil.1 hbefore]
    exact hm
  | cons x calls ih =>
    intro before hbefore
    cases before with
    | nil => exact hm
    | cons y before =>
      obtain ⟨rfl, hrest⟩ := cons_prefix_cons.1 hbefore
      exact ih h.2 (hI m y.1 y.2 hm h.1) before hrest

variable {Q : α → V → μ → Nat → Prop}

theorem meets_mono {Q' : α → V → μ → Nat → Prop} (hp : p.Meets M Q v m n)
    (hQ : ∀ a v' m' n', Q a v' m' n' → Q' a v' m' n') : p.Meets M Q' v m n := by
  induction p generalizing v m n with
  | ret a => exact hQ a v m n hp
  | stop => trivial
  | call op k ih =>
    cases op with
    | get => exact ih v hp
    | modify f => exact ih () hp
    | fresh => exact ih n hp
    | io c => exact ⟨hp.1, fun a => ih a (hp.2 a)⟩

theorem meets_bind {Q : β → V → μ → Nat → Prop}
    (hp : p.Meets M (fun a v' m' n' => (f a).Meets M Q v' m' n') v m n) :
    (p >>= f).Meets M Q v m n := by
  show (p.bind f).Meets M Q v m n
  induction p generalizing v m n with
  | ret a => exact hp
  | stop => trivial
  | call op k ih =>
    cases op with
    | get => exact ih v hp
    | modify f => exact ih () hp
    | fresh => exact ih n hp
    | io c => exact ⟨hp.1, fun a => ih a (hp.2 a)⟩

theorem meets_seq {Q' : β → V → μ → Nat → Prop} (hp : p.Meets M Q v m n)
    (hf : ∀ a v' m' n', Q a v' m' n' → (f a).Meets M Q' v' m' n') : (p >>= f).Meets M Q' v m n :=
  meets_bind (meets_mono hp hf)

theorem meets_io {c : C} {f : A c → Machine V A α}
    (hc : M.allows m c) (hf : ∀ a, (f a).Meets M Q v (M.next m c a) n) :
    ((perform (Act.io c) : Machine V A (A c)) >>= f).Meets M Q v m n :=
  ⟨hc, hf⟩

theorem meets_modify {g : V → V} {f : Unit → Machine V A α} (hf : (f ()).Meets M Q (g v) m n) :
    ((perform (Act.modify g) : Machine V A Unit) >>= f).Meets M Q v m n :=
  hf

theorem meets_get {f : V → Machine V A α} (hf : (f v).Meets M Q v m n) :
    ((perform Act.get : Machine V A V) >>= f).Meets M Q v m n :=
  hf

theorem meets_fresh {f : Nat → Machine V A α} (hf : (f n).Meets M Q v m (n + 1)) :
    ((perform Act.fresh : Machine V A Nat) >>= f).Meets M Q v m n :=
  hf

theorem meets_ite {c : Prop} [Decidable c] {q : Machine V A α}
    (hp : c → p.Meets M Q v m n) (hq : ¬c → q.Meets M Q v m n) :
    (if c then p else q).Meets M Q v m n := by
  by_cases h : c
  · rw [if_pos h]
    exact hp h
  · rw [if_neg h]
    exact hq h

/-- A loop whose body comes back to the same states. -/
theorem meets_loop (I : V → μ → Nat → Prop)
    (hbody : ∀ b v m n, I v m n → (body b).Meets M
      (fun r v' m' n' => Sum.elim (fun _ => I v' m' n') (fun a => Q a v' m' n') r) v m n)
    (fuel : Nat) (b : β) (hm : I v m n) : (loop body fuel b).Meets M Q v m n := by
  induction fuel generalizing b v m n with
  | zero => trivial
  | succ fuel ih =>
    refine meets_bind (meets_mono (hbody b v m n hm) ?_)
    rintro (b' | a) v' m' n' h
    · exact ih b' h
    · exact h

/-- A program whose operations are in order where `I` holds and keep it. -/
theorem meets_invariant {I : V → μ → Nat → Prop}
    (hmodify : ∀ f v m n, P (.modify f) → I v m n → I (f v) m n)
    (hfresh : ∀ v m n, P .fresh → I v m n → I v m (n + 1))
    (hio : ∀ c v m n, P (.io c) → I v m n → M.allows m c ∧ ∀ a, I v (M.next m c a) n)
    (hp : p.Uses P) (hm : I v m n) : p.Meets M (fun _ => I) v m n := by
  induction p generalizing v m n with
  | ret a => exact hm
  | stop => trivial
  | call op k ih =>
    cases op with
    | get => exact ih v (hp.2 v) hm
    | modify f => exact ih () (hp.2 ()) (hmodify f v m n hp.1 hm)
    | fresh => exact ih n (hp.2 n) (hfresh v m n hp.1 hm)
    | io c =>
      obtain ⟨hallows, hnext⟩ := hio c v m n hp.1 hm
      exact ⟨hallows, fun a => ih a (hp.2 a) (hnext a)⟩

variable {s : Process V A ω}

/-- In a run, wherever it is cut off, the new calls of the log are in order. -/
theorem wp_meets (hp : p.Meets M Q s.vars m s.nextFd) :
    wp (processHandler env) p (fun a t => ∃ new, t.log = s.log ++ new ∧ M.Admits m new ∧
        Q a t.vars (M.after m new) t.nextFd)
      s (fun t => ∃ new, t.log = s.log ++ new ∧ M.Admits m new) := by
  induction p generalizing s m with
  | ret a => exact ⟨[], (append_nil _).symm, trivial, hp⟩
  | stop => exact ⟨[], (append_nil _).symm, trivial⟩
  | call op k ih =>
    cases op with
    | get => exact ih s.vars hp
    | modify f => exact ih () (s := { s with vars := f s.vars }) hp
    | fresh => exact ih s.nextFd (s := { s with nextFd := s.nextFd + 1 }) hp
    | io c =>
      show wp (processHandler env) (perform (Act.io c) >>= k) _ s _
      rw [wp_bind]
      refine wp_io c ⟨[], (append_nil _).symm, trivial⟩ fun a w _ => ?_
      refine wp_mono (ih a (hp.2 a)) ?_ ?_
      · rintro b t ⟨new, hlog, hnew, hQ⟩
        exact ⟨⟨c, a⟩ :: new, by rw [hlog, append_assoc]; rfl, ⟨hp.1, hnew⟩, hQ⟩
      · rintro t ⟨new, hlog, hnew⟩
        exact ⟨⟨c, a⟩ :: new, by rw [hlog, append_assoc]; rfl, hp.1, hnew⟩

variable {Q : α → V → μ → Prop}

theorem meets_of_obeys (hp : p.Obeys M Q v m) : p.Meets M (fun a v' m' _ => Q a v' m') v m n := by
  induction p generalizing v m n with
  | ret a => exact hp
  | stop => trivial
  | call op k ih =>
    cases op with
    | get => exact ih v hp
    | modify f => exact ih () hp
    | fresh => exact ih n (hp n)
    | io c => exact ⟨hp.1, fun a => ih a (hp.2 a)⟩

/-- In a run the conversation is the one that the new calls of the log make. -/
theorem wp_obeys (hp : p.Obeys M Q s.vars m) :
    wp (processHandler env) p
      (fun a t => ∃ new, t.log = s.log ++ new ∧ Q a t.vars (M.after m new)) s :=
  wp_mono (wp_meets (meets_of_obeys hp)) (fun _ _ ⟨new, hlog, _, hQ⟩ => ⟨new, hlog, hQ⟩)
    fun _ _ => trivial

end Counted

/-! ## Returned values -/

/-- Only the end of a program says what it returns. -/
theorem told_after {Q : β → Prop} (p : Machine V A α)
    (hf : ∀ a, (f a).Told Q) : (p >>= f).Told Q := by
  show (p.bind f).Told Q
  induction p with
  | ret a => exact hf a
  | stop => trivial
  | call op k ih =>
    cases op with
    | get => exact fun v => ih v
    | modify g => exact ih ()
    | fresh => exact fun n => ih n
    | io c => exact fun a => ih a

theorem wp_told {P : α → Prop} (hp : p.Told P) : wp (processHandler env) p (fun a _ => P a) s := by
  induction p generalizing s with
  | ret a => exact hp
  | stop => trivial
  | call op k ih =>
    cases op with
    | get => exact ih s.vars (hp s.vars)
    | modify g => exact ih () (s := { s with vars := g s.vars }) hp
    | fresh => exact ih s.nextFd (s := { s with nextFd := s.nextFd + 1 }) (hp _)
    | io c =>
      show wp (processHandler env) (perform (Act.io c) >>= k) _ s _
      rw [wp_bind]
      exact wp_io c trivial fun a w _ => ih a (hp a)

end Interaction.Prog
