import HdmiLos.Interaction.Prog

/-!
# Rules for interaction programs

`wp` is compositional: every construct of the `do` notation has an equation, so a program is
reasoned about by rewriting and by the specification lemmas of the programs it calls. The invariant
rules at the end carry a property of the handler's state over a whole program from what single
operations do to it.
-/

namespace Interaction.Prog

variable {Op : Type} {Ans : Op → Type} {σ α β : Type} {h : Handler Op Ans σ} {p : Prog Op Ans α}
  {Q Q' : α → σ → Prop} {H H' : σ → Prop} {s : σ}

theorem run_bind (p : Prog Op Ans α) (f : α → Prog Op Ans β) (s : σ) :
    (p >>= f).run h s = match p.run h s with
      | (some a, s') => (f a).run h s'
      | (none, s') => (none, s') := by
  show (p.bind f).run h s = _
  induction p generalizing s with
  | ret a => rfl
  | stop => rfl
  | call op k ih =>
    simp only [bind, run]
    cases h op s with
    | none => rfl
    | some r => exact ih r.1 r.2

variable {f : α → Prog Op Ans β} {t : σ}

/-- A composition that returned went through a state in between. -/
theorem run_bind_some {b : β} (hr : (p >>= f).run h s = (some b, t)) :
    ∃ a u, p.run h s = (some a, u) ∧ (f a).run h u = (some b, t) := by
  rw [run_bind] at hr
  rcases hp : p.run h s with ⟨_ | a, u⟩
  · rw [hp] at hr
    cases hr
  · rw [hp] at hr
    exact ⟨a, u, rfl, hr⟩

theorem bind_bind {γ : Type} (p : Prog Op Ans α) (f : α → Prog Op Ans β) (g : β → Prog Op Ans γ) :
    p >>= f >>= g = p >>= fun a => f a >>= g := by
  show (p.bind f).bind g = p.bind fun a => (f a).bind g
  induction p with
  | ret a => rfl
  | stop => rfl
  | call op k ih => exact congrArg (call op) (funext ih)

/-! ## Weakest preconditions -/

@[simp] theorem wp_pure (a : α) : wp h (pure a) Q s H = Q a s := rfl

@[simp] theorem wp_bind (p : Prog Op Ans α) (f : α → Prog Op Ans β) (Q : β → σ → Prop) :
    wp h (p >>= f) Q s H = wp h p (fun a t => wp h (f a) Q t H) s H := by
  simp only [wp, run_bind]
  rcases p.run h s with ⟨_ | a, s'⟩ <;> rfl

theorem wp_perform (op : Op) (Q : Ans op → σ → Prop) : wp h (perform op) Q s H = match h op s with
      | some (a, s') => Q a s'
      | none => H s := by
  simp only [wp, perform, run]
  rcases h op s with _ | ⟨a, s'⟩ <;> rfl

@[simp] theorem wp_ite (c : Prop) [Decidable c] (p q : Prog Op Ans α) :
    wp h (if c then p else q) Q s H = if c then wp h p Q s H else wp h q Q s H := by
  split <;> rfl

theorem wp_mono (hp : wp h p Q s H) (hQ : ∀ a t, Q a t → Q' a t) (hH : ∀ t, H t → H' t) :
    wp h p Q' s H' := by
  revert hp
  simp only [wp]
  rcases p.run h s with ⟨_ | a, t⟩
  · exact hH t
  · exact hQ a t

/-- The consequence rule with the same condition on runs that are cut off. -/
theorem wp_post (hp : wp h p Q s H) (hQ : ∀ a t, Q a t → Q' a t) : wp h p Q' s H :=
  wp_mono hp hQ fun _ => id

/-- Sequencing: the second program takes over from what the first one ends in. -/
theorem wp_seq {Q' : β → σ → Prop} (hp : wp h p Q s H) (hf : ∀ a t, Q a t → wp h (f a) Q' t H) :
    wp h (p >>= f) Q' s H := by
  rw [wp_bind]
  exact wp_post hp hf

/-- The consequence rule where nothing is asked of runs that are cut off. -/
theorem wp_returns (hp : wp h p Q s H) (hQ : ∀ a t, Q a t → Q' a t) : wp h p Q' s :=
  wp_mono hp hQ fun _ _ => trivial

theorem wp_and (hp : wp h p Q s H) (hp' : wp h p Q' s H') :
    wp h p (fun a t => Q a t ∧ Q' a t) s (fun t => H t ∧ H' t) := by
  revert hp hp'
  simp only [wp]
  rcases p.run h s with ⟨_ | a, t⟩ <;> exact fun x y => ⟨x, y⟩

theorem wp_returned (hp : wp h p Q s H) {a : α} (hr : p.run h s = (some a, t)) : Q a t := by
  simpa only [wp, hr] using hp

theorem wp_halted (hp : wp h p Q s H) (hr : p.run h s = (none, t)) : H t := by
  simpa only [wp, hr] using hp

/-- `wp` from what the runs do. -/
theorem wp_of_run (hr : ∀ a t, p.run h s = (some a, t) → Q a t)
    (hn : ∀ t, p.run h s = (none, t) → H t) : wp h p Q s H := by
  simp only [wp]
  rcases hp : p.run h s with ⟨_ | a, t⟩
  · exact hn t hp
  · exact hr a t hp

/-- A loop keeps `I` as long as its body does, and then ends in `Q`. -/
theorem wp_loop (body : β → Prog Op Ans (β ⊕ α)) (I : β → σ → Prop) (hI : ∀ b t, I b t → H t)
    (hbody : ∀ b t, I b t → wp h (body b)
      (fun r t' => Sum.elim (fun b' => I b' t') (fun a => Q a t') r) t H)
    (fuel : Nat) (b : β) (hb : I b s) : wp h (loop body fuel b) Q s H := by
  induction fuel generalizing b s with
  | zero => exact hI b s hb
  | succ fuel ih =>
    simp only [loop, wp_bind]
    refine wp_post (hbody b s hb) ?_
    rintro (b' | a) t ht
    · exact ih b' ht
    · exact ht

/-! ## Invariants of the handler's state -/

variable {P : Op → Prop}

theorem uses_perform {op : Op} (hop : P op) : (perform op : Prog Op Ans (Ans op)).Uses P :=
  ⟨hop, fun _ => trivial⟩

theorem uses_bind (hp : p.Uses P) (hf : ∀ a, (f a).Uses P) : (p >>= f).Uses P := by
  show (p.bind f).Uses P
  induction p with
  | ret a => exact hf a
  | stop => trivial
  | call op k ih => exact ⟨hp.1, fun a => ih a (hp.2 a)⟩

theorem uses_ite {c : Prop} [Decidable c] {p q : Prog Op Ans α} (hp : p.Uses P) (hq : q.Uses P) :
    (if c then p else q).Uses P := by
  split
  · exact hp
  · exact hq

variable {body : β → Prog Op Ans (β ⊕ α)}

theorem uses_loop (hbody : ∀ b, (body b).Uses P) (fuel : Nat)
    (b : β) : (loop body fuel b).Uses P := by
  induction fuel generalizing b with
  | zero => trivial
  | succ fuel ih =>
    refine uses_bind (hbody b) ?_
    rintro (b' | a)
    · exact ih b'
    · trivial

theorem uses_true (p : Prog Op Ans α) : p.Uses fun _ => True := by
  induction p with
  | ret a => trivial
  | stop => trivial
  | call op k ih => exact ⟨trivial, ih⟩

theorem uses_mono {P' : Op → Prop} (h : ∀ op, P op → P' op) (hp : p.Uses P) : p.Uses P' := by
  induction p with
  | ret a => trivial
  | stop => trivial
  | call op k ih => exact ⟨h op hp.1, fun a => ih a (hp.2 a)⟩

/-- A property that the program's operations keep is kept by every run of the program. -/
theorem wp_invariant {I : σ → Prop} (hop : ∀ op t a t', P op → I t → h op t = some (a, t') → I t')
    (hp : p.Uses P) (hs : I s) : wp h p (fun _ => I) s I := by
  induction p generalizing s with
  | ret a => exact hs
  | stop => exact hs
  | call op k ih =>
    simp only [wp, run]
    cases hr : h op s with
    | none => exact hs
    | some r => exact ih r.1 (hp.2 r.1) (hop op s r.1 r.2 hp.1 hs hr)

/-! ## Properties closed under composition -/

/-- A property of programs that the constructs of the `do` notation keep. What holds of the parts
    of a program then holds of the program. -/
structure Compositional (S : (α : Type) → Prog Op Ans α → Prop) : Prop where
  pure : ∀ {α : Type} (a : α), S α (pure a)
  stop : ∀ {α : Type}, S α stop
  bind : ∀ {α β : Type} {p : Prog Op Ans α} {f : α → Prog Op Ans β}, S α p →
    (∀ a, S β (f a)) → S β (p >>= f)

section Compositional

variable {S : (α : Type) → Prog Op Ans α → Prop}

theorem Compositional.ite (_hS : Compositional S) {c : Prop} [Decidable c] {p q : Prog Op Ans α}
    (hp : S α p) (hq : S α q) : S α (if c then p else q) := by
  split
  · exact hp
  · exact hq

theorem Compositional.loop (hS : Compositional S)
    (hbody : ∀ b, S (β ⊕ α) (body b)) (fuel : Nat) (b : β) : S α (loop body fuel b) := by
  induction fuel generalizing b with
  | zero => exact hS.stop
  | succ fuel ih =>
    refine hS.bind (hbody b) ?_
    rintro (b' | a)
    · exact ih b'
    · exact hS.pure a

end Compositional

/-- The same for programs that never stop by themselves. -/
structure Sequential (S : (α : Type) → Prog Op Ans α → Prop) : Prop where
  pure : ∀ {α : Type} (a : α), S α (pure a)
  bind : ∀ {α β : Type} {p : Prog Op Ans α} {f : α → Prog Op Ans β}, S α p →
    (∀ a, S β (f a)) → S β (p >>= f)

theorem Compositional.sequential {S : (α : Type) → Prog Op Ans α → Prop} (hS : Compositional S) :
    Sequential S where
  pure := hS.pure
  bind := hS.bind

theorem uses_compositional (P : Op → Prop) :
    Compositional (fun α (p : Prog Op Ans α) => p.Uses P) where
  pure _ := trivial
  stop := trivial
  bind hp hf := uses_bind hp hf

/-- Every run of the program from a state with `I` stays in `I`. -/
def Preserves (h : Handler Op Ans σ) (I : σ → Prop) (α : Type) (p : Prog Op Ans α) : Prop :=
  ∀ s, I s → wp h p (fun _ => I) s I

theorem preserves_compositional (h : Handler Op Ans σ) (I : σ → Prop) :
    Compositional (Preserves h I) where
  pure _ _ hs := hs
  stop _ hs := hs
  bind hp hf s hs := by
    rw [wp_bind]
    exact wp_post (hp s hs) fun a t ht => hf a t ht

/-- Every run of the program from a state with `I` that returns does so in a state with `I`. -/
def Restores (h : Handler Op Ans σ) (I : σ → Prop) (α : Type) (p : Prog Op Ans α) : Prop :=
  ∀ s, I s → wp h p (fun _ => I) s

theorem restores_compositional (h : Handler Op Ans σ) (I : σ → Prop) :
    Compositional (Restores h I) where
  pure _ _ hs := hs
  stop _ _ := trivial
  bind hp hf s hs := by
    rw [wp_bind]
    exact wp_post (hp s hs) fun a t ht => hf a t ht

/-- Every run of the program that returns does so in a state that `R` relates to the first. -/
def Follows (h : Handler Op Ans σ) (R : σ → σ → Prop) (α : Type) (p : Prog Op Ans α) : Prop :=
  ∀ s, wp h p (fun _ => R s) s

theorem follows_compositional {h : Handler Op Ans σ} {R : σ → σ → Prop} (hrefl : ∀ s, R s s)
    (htrans : ∀ {s t u}, R s t → R t u → R s u) : Compositional (Follows h R) where
  pure _ s := hrefl s
  stop _ := trivial
  bind hp hf s := wp_seq (hp s) fun a t ht => wp_post (hf a t) fun _ _ hu => htrans ht hu

end Interaction.Prog
