import HdmiLos.Interaction.Prog

/-!
# Processes

A process has variables and makes calls to its environment. Its code is an interaction program over
four kinds of operations: reading the variables, assigning them, naming a new descriptor, and a
call. The environment is a handler for the calls alone; a `Process` is a state of the process in its
environment, with the calls it has made so far.

A process that runs next to others is a program from which only the next call is taken at a time,
`Prog.pending`. A `Monitor` says which calls are in order at a point of a conversation and how the
conversation goes on after an answer; a program that obeys it does so whatever the answers are.
-/

namespace Interaction

variable {V C ω μ α : Type} {A : C → Type}

/-- The operations of a process with variables `V` and calls `C`. -/
inductive Act (V C : Type) where
  | get
  | modify (f : V → V)
  | fresh
  | io (call : C)

abbrev Act.Ans (A : C → Type) : Act V C → Type
  | get => V
  | modify _ => Unit
  | fresh => Nat
  | io call => A call

/-- The code of a process. -/
abbrev Machine (V : Type) (A : C → Type) := Prog (Act V C) (Act.Ans A)

/-! ## A process in its environment -/

/-- A call with its answer. -/
abbrev Answered (A : C → Type) := (call : C) × A call

/-- A process in an environment with the state `world`. -/
structure Process (V : Type) (A : C → Type) (ω : Type) where
  vars : V
  log : List (Answered A) := []
  nextFd : Nat := 0
  world : ω

/-- The meaning of the operations in the environment `env`. -/
def processHandler (env : Handler C A ω) : Handler (Act V C) (Act.Ans A) (Process V A ω)
  | .get, s => some (s.vars, s)
  | .modify f, s => some ((), { s with vars := f s.vars })
  | .fresh, s => some (s.nextFd, { s with nextFd := s.nextFd + 1 })
  | .io call, s =>
    match env call s.world with
    | some (a, w) => some (a, { s with log := s.log ++ [⟨call, a⟩], world := w })
    | none => none

/-! ## A process next to others -/

/-- A process that waits for the answer to a call. -/
structure Pending (V : Type) (A : C → Type) (α : Type) where
  vars : V
  nextFd : Nat
  call : C
  resume : A call → Machine V A α

/-- Run a program up to its next call; nothing if it has ended. -/
def Prog.pending : Machine V A α → V → Nat → Option (Pending V A α)
  | ret _, _, _ => none
  | stop, _, _ => none
  | call .get k, v, n => (k v).pending v n
  | call (.modify f) k, v, n => (k ()).pending (f v) n
  | call .fresh k, v, n => (k n).pending v (n + 1)
  | call (.io c) k, v, n => some ⟨v, n, c, k⟩

/-- The result of a program that makes no more calls, and the variables it leaves. -/
def Prog.returned : Machine V A α → V → Nat → Option (α × V)
  | ret a, v, _ => some (a, v)
  | stop, _, _ => none
  | call .get k, v, n => (k v).returned v n
  | call (.modify f) k, v, n => (k ()).returned (f v) n
  | call .fresh k, v, n => (k n).returned v (n + 1)
  | call (.io _) _, _, _ => none

/-- The calls that are in order in a state of a conversation, and its next state. -/
structure Monitor (A : C → Type) (μ : Type) where
  allows : μ → C → Prop
  next : μ → (call : C) → A call → μ

/-- The calls that are in order in the state `m` and leave the conversation there. -/
def Monitor.Neutral (M : Monitor A μ) (m : μ) : Act V C → Prop
  | .io c => M.allows m c ∧ ∀ a, M.next m c a = m
  | _ => True

/-- The operations that are in order where `I` holds of the variables and the conversation, and that
    keep it. -/
def Monitor.Keeps (M : Monitor A μ) (I : V → μ → Prop) : Act V C → Prop
  | .modify f => ∀ v m, I v m → I (f v) m
  | .io c => ∀ v m, I v m → M.allows m c ∧ ∀ a, I v (M.next m c a)
  | _ => True

/-- The conversation after some more calls. -/
def Monitor.after (M : Monitor A μ) (m : μ) (calls : List (Answered A)) : μ :=
  calls.foldl (fun m x => M.next m x.1 x.2) m

/-- Each of the calls is in order at its point of the conversation. -/
def Monitor.Admits (M : Monitor A μ) : μ → List (Answered A) → Prop
  | _, [] => True
  | m, x :: calls => M.allows m x.1 ∧ M.Admits (M.next m x.1 x.2) calls

/-- Whatever the answers, the program makes only calls that are in order, and ends in `Q`. -/
def Prog.Obeys (M : Monitor A μ) (Q : α → V → μ → Prop) : Machine V A α → V → μ → Prop
  | ret a, v, m => Q a v m
  | stop, _, _ => True
  | call .get k, v, m => (k v).Obeys M Q v m
  | call (.modify f) k, v, m => (k ()).Obeys M Q (f v) m
  | call .fresh k, v, m => ∀ fd, (k fd).Obeys M Q v m
  | call (.io c) k, v, m => M.allows m c ∧ ∀ a, (k a).Obeys M Q v (M.next m c a)

/-- The same for a program whose new names are counted on from `n`. -/
def Prog.Meets (M : Monitor A μ) (Q : α → V → μ → Nat → Prop) :
    Machine V A α → V → μ → Nat → Prop
  | ret a, v, m, n => Q a v m n
  | stop, _, _, _ => True
  | call .get k, v, m, n => (k v).Meets M Q v m n
  | call (.modify f) k, v, m, n => (k ()).Meets M Q (f v) m n
  | call .fresh k, v, m, n => (k n).Meets M Q v m (n + 1)
  | call (.io c) k, v, m, n => M.allows m c ∧ ∀ a, (k a).Meets M Q v (M.next m c a) n

/-- Whatever the answers, the program returns a value with `P`. -/
def Prog.Told (P : α → Prop) : Machine V A α → Prop
  | ret a => P a
  | stop => True
  | call .get k => ∀ v, (k v).Told P
  | call (.modify _) k => (k ()).Told P
  | call .fresh k => ∀ n, (k n).Told P
  | call (.io _) k => ∀ a, (k a).Told P

end Interaction
