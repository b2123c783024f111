import HdmiLos.Tracer.Interpose
import Mathlib.Logic.Function.Basic

/-!
# The threads of Xorg

Any number of threads run the interposer's functions, each of them a program from which one call at
a time is taken. They share the interposer's variables and the trace socket; what a step does on the
socket is its label, and the other end of the socket decides which steps are possible. The answers
to all other calls are open.
-/

namespace HdmiLos.Tracer

open Interaction

/-- The functions of the interposer that Xorg enters. -/
inductive Entry where
  | ioctl (fd : Int) (request argument : UInt64)
  | getProperty (fd : Int) (id : UInt32)
  | load

/-- What a thread runs. -/
def Entry.code (cfg : Config) : Entry → TracerProg Unit
  | ioctl fd request argument => do
    let _ ← Tracer.ioctl cfg fd request argument
  | getProperty fd id => do
    let _ ← drmModeGetPropertyHook cfg fd id
  | load => traceInitialize cfg

/-- A thread: the function it entered last, what it has still to do of it, and the calls it has made
    since. -/
structure Task where
  entry : Option Entry := none
  vars : Thread := {}
  code : TracerProg Unit := pure ()
  log : List Event := []

/-- The next call of the thread. -/
def Task.pending (t : Task) : Option (Pending Thread Io.Ans Unit) := t.code.pending t.vars 0

/-- Xorg, which has ended once a thread called `_exit`. -/
structure Xorg where
  globals : Globals := {}
  tasks : Nat → Task := fun _ => {}
  exited : Bool := false

/-- What a step does on the trace socket. -/
inductive Label where
  | internal
  | send (record : TraceRecord)
  | poll (readable : Bool)
  | receive (record : TraceRecord)
  | fail
  | exit
  deriving DecidableEq

/-- The label of a call. -/
def Label.of : Event → Label
  | ⟨.send record, (sent, _)⟩ => if sent then .send record else .fail
  | ⟨.waitReadable, (readable, _)⟩ => .poll readable
  | ⟨.recv, (some record, _)⟩ => .receive record
  | ⟨.recv, (none, _)⟩ => .fail
  | _ => .internal

namespace Xorg

def setTask (x : Xorg) (i : Nat) (t : Task) : Xorg :=
  { x with tasks := Function.update x.tasks i t }

/-- The thread `i` goes on after the answer to its call. -/
def resume (x : Xorg) (i : Nat) (vars : Thread) (e : Event) (code : TracerProg Unit) : Xorg :=
  x.setTask i { x.tasks i with vars := vars, code := code, log := (x.tasks i).log ++ [e] }

/-- The call of the thread `i` is answered: by the shared variables, or by `oracle`, if it has an
    answer. -/
def answer (x : Xorg) (i : Nat) (vars : Thread) (oracle : (c : Io) → Option c.Ans) :
    (c : Io) → (c.Ans → TracerProg Unit) → Option (Label × Xorg)
  | .shared op, k =>
    let (a, globals) := x.globals.step op
    some (.internal, { x with globals := globals }.resume i vars ⟨.shared op, a⟩ (k a))
  | .exit _, _ => some (.exit, { x with exited := true })
  | c, k => (oracle c).map fun a => (Label.of ⟨c, a⟩, x.resume i vars ⟨c, a⟩ (k a))

/-- One step of the thread `i`: up to its next call, and the answer to it. -/
def act (x : Xorg) (i : Nat) (oracle : (c : Io) → Option c.Ans) : Option (Label × Xorg) :=
  if x.exited then none
  else match (x.tasks i).pending with
    | none => none
    | some p => x.answer i p.vars oracle p.call p.resume

/-- The thread `i`, which has returned, enters a function. -/
def enter (cfg : Config) (x : Xorg) (i : Nat) (entry : Entry) : Option Xorg :=
  if x.exited then none
  else match (x.tasks i).code.returned (x.tasks i).vars 0 with
    | none => none
    | some (_, vars) =>
      some (x.setTask i { entry := some entry, vars := vars, code := entry.code cfg })

end Xorg

/-! ## Exchanges of a thread -/

/-- The state of a thread in an exchange. -/
inductive Phase where
  | idle
  | sent (record : TraceRecord)
  | readable (record : TraceRecord)
  | failed
  deriving DecidableEq

/-- The calls of a thread in each state of an exchange, and the next state. -/
def exchangeMonitor : Monitor Io.Ans Phase where
  allows
    | .idle, .waitReadable => False
    | .idle, .recv => False
    | .idle, .exit _ => False
    | .idle, _ => True
    | .sent _, c => c = .waitReadable
    | .readable _, c => c = .recv
    | .failed, c => c = .exit 125
  next
    | .idle, .send record, (sent, _) => if sent then .sent record else .failed
    | .sent record, .waitReadable, (readable, _) => if readable then .readable record else .failed
    | .readable record, .recv, (some ack, _) => if acknowledges record ack then .idle else .failed
    | .readable _, .recv, (none, _) => .failed
    | phase, _, _ => phase

end HdmiLos.Tracer
