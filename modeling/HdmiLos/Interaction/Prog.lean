import Mathlib.Logic.Basic

/-!
# Interaction programs

A program is a finite tree of operations: it returns a value, it stops, or it issues an operation
and goes on with the answer. Nothing is said about who answers. A `Handler` gives the answers from
a state of its own, and running a program under it is a fold over the tree. A handler may refuse to
answer, which models a crash, a blocked call or a process that was killed: the run then ends with
the state the handler last left.

Unbounded loops of the source are programs with a fuel argument that stop when it is used up. A run
that terminates does so for every large enough fuel, so a statement over all fuels loses no run.
-/

namespace Interaction

variable {Op : Type} {Ans : Op → Type} {σ α β : Type}

/-- A program over the operations `Op`, where `op` is answered by a value of `Ans op`. -/
inductive Prog (Op : Type) (Ans : Op → Type) (α : Type) : Type where
  | ret (a : α) : Prog Op Ans α
  | stop : Prog Op Ans α
  | call (op : Op) (k : Ans op → Prog Op Ans α) : Prog Op Ans α

namespace Prog

/-- Sequential composition: the second program takes over at every leaf of the first. -/
def bind : Prog Op Ans α → (α → Prog Op Ans β) → Prog Op Ans β
  | ret a, f => f a
  | stop, _ => stop
  | call op k, f => call op fun a => (k a).bind f

instance : Monad (Prog Op Ans) where
  pure := ret
  bind := bind

/-- The program that issues one operation and returns its answer. -/
def perform (op : Op) : Prog Op Ans (Ans op) :=
  call op ret

/-- `loop fuel body b` runs `body` on `b`, goes round again with the value of `Sum.inl` and
    returns the value of `Sum.inr`. It stops when the fuel is used up. -/
def loop (body : β → Prog Op Ans (β ⊕ α)) : Nat → β → Prog Op Ans α
  | 0, _ => stop
  | fuel + 1, b => do
    match ← body b with
    | Sum.inl b' => loop body fuel b'
    | Sum.inr a => pure a

end Prog

/-- A handler answers an operation from its state, or refuses. -/
def Handler (Op : Type) (Ans : Op → Type) (σ : Type) : Type :=
  (op : Op) → σ → Option (Ans op × σ)

namespace Prog

/-- The run of a program under a handler: its value, if it returned, and the last state. -/
def run (h : Handler Op Ans σ) : Prog Op Ans α → σ → Option α × σ
  | ret a, s => (some a, s)
  | stop, s => (none, s)
  | call op k, s =>
    match h op s with
    | some (a, s') => (k a).run h s'
    | none => (none, s)

/-- Every run from `s` that returns `a` in state `s'` has `Q a s'`, and every run that ends
    without returning, wherever it is cut off, leaves a state with `H`, if one is given. -/
def wp (h : Handler Op Ans σ) (p : Prog Op Ans α) (Q : α → σ → Prop) (s : σ)
    (H : σ → Prop := fun _ => True) : Prop :=
  match p.run h s with
  | (some a, s') => Q a s'
  | (none, s') => H s'

/-- All operations a program can issue, whatever the answers, satisfy `P`. -/
def Uses (P : Op → Prop) : Prog Op Ans α → Prop
  | ret _ => True
  | stop => True
  | call op k => P op ∧ ∀ a, (k a).Uses P

end Prog

end Interaction
