import HdmiLos.Tracer.Threads
import Mathlib.Logic.Relation

/-!
# A trace socket with a perfect agent

The threads of Xorg with an agent that acknowledges every record once, in order and in time. Nothing
is lost on the socket, and a thread is not kept waiting beyond its timeout. Which of the waiting
threads gets an acknowledgement is left to the scheduler.
-/

namespace HdmiLos.Tracer

open Interaction

/-- Xorg, the records on their way to the agent and the acknowledgements on their way back. -/
structure TraceLine where
  xorg : Xorg := {}
  toAgent : List TraceRecord := []
  fromAgent : List TraceRecord := []

/-- The acknowledgement of a record. -/
def acknowledgement (record : TraceRecord) (flags : UInt32) : TraceRecord :=
  { magic := traceMagic, version := traceVersion, phase := traceAck, sequence := record.sequence,
    flags := flags }

/-- A move of the scheduler: a thread enters a function or makes its next call, or the agent
    acknowledges the next record. -/
inductive LineMove where
  | enter (i : Nat) (entry : Entry)
  | act (i : Nat) (oracle : (c : Io) → Option c.Ans)
  | acknowledge (flags : UInt32)

namespace TraceLine

/-- The socket after a step of Xorg with the given label, if the step is possible. -/
def follow (l : TraceLine) (x : Xorg) : Label → Option TraceLine
  | .internal => some { l with xorg := x }
  | .send record => some { l with xorg := x, toAgent := l.toAgent ++ [record] }
  | .poll readable => if readable && !l.fromAgent.isEmpty then some { l with xorg := x } else none
  | .receive record =>
    match l.fromAgent with
    | [] => none
    | ack :: rest => if ack = record then some { l with xorg := x, fromAgent := rest } else none
  | .fail => none
  | .exit => some { l with xorg := x }

/-- A move, if it is possible. -/
def move (cfg : Config) (l : TraceLine) : LineMove → Option TraceLine
  | .enter i entry => (l.xorg.enter cfg i entry).map fun x => { l with xorg := x }
  | .act i oracle => (l.xorg.act i oracle).bind fun (label, x) => l.follow x label
  | .acknowledge flags =>
    match l.toAgent with
    | [] => none
    | record :: rest => some { l with toAgent := rest
                                      fromAgent := l.fromAgent ++ [acknowledgement record flags] }

/-- A move that is in order. -/
def Step (cfg : Config) (P : TraceLine → LineMove → Prop) (l l' : TraceLine) : Prop :=
  ∃ m, P l m ∧ l.move cfg m = some l'

/-- What is reached by moves that are in order from an idle process with an empty socket. -/
def Reachable (cfg : Config) (P : TraceLine → LineMove → Prop) : TraceLine → Prop :=
  Relation.ReflTransGen (Step cfg P) {}

end TraceLine

/-! ## One exchange at a time -/

/-- Where a thread is in its exchanges, from the calls it made. -/
def phaseOf (log : List Event) : Phase :=
  log.foldl (fun phase e => exchangeMonitor.next phase e.1 e.2) .idle

/-- No thread sends a record while another one is between sending a record and receiving the
    answer. -/
def Alone (l : TraceLine) : LineMove → Prop
  | .act i oracle => ∀ record x, l.xorg.act i oracle = some (.send record, x) →
      ∀ j, j ≠ i → phaseOf (l.xorg.tasks j).log = .idle
  | _ => True

/-- The next call of the thread is `_exit`. -/
def Task.Exiting (t : Task) : Prop := ∃ p code, t.pending = some p ∧ p.call = .exit code

end HdmiLos.Tracer
