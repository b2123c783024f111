import HdmiLos.Agent.Descriptors

/-!
# The agent's children

Every process that the agent starts is its child until it has waited for it. The children are counted
from the calls, and compared with the three that the agent keeps in its globals.
-/

namespace HdmiLos.Agent

open Interaction

/-- The children that have not been waited for. -/
abbrev Children := List (Child × Pid)

def Child.isXorg : Child → Bool
  | .xorg _ => true
  | _ => false

def Child.isBridge : Child → Bool
  | .bridge => true
  | _ => false

/-- A child that was waited for is gone. -/
def Children.reap (children : Children) (pid : Pid) : Children := children.filter (·.2 != pid)

/-- One call. `waitpid` fails, if it was not interrupted, only for what is no child. -/
def Children.note (children : Children) : (c : Io) → c.Ans → Children
  | .fork child pid, started => if started then (child, pid) :: children else children
  | .waitpid pid, _ => children.reap pid
  | .waitNoHang pid, .exited _ => children.reap pid
  | .waitNoHang pid, .failed => children.reap pid
  | _, _ => children

/-- The children that the calls leave. -/
def childrenAfter (calls : List (Answered Io.Ans)) : Children :=
  calls.foldl (fun children x => children.note x.1 x.2) []

/-- At most one of them is Xorg, and at most one the input bridge. -/
structure Children.Single (children : Children) : Prop where
  xorg : children.countP (·.1.isXorg) ≤ 1
  bridge : children.countP (·.1.isBridge) ≤ 1

/-- The child is the one in `g_bridge`, `g_xorg` or `g_session`. -/
def Recorded (a : Agent) : Child × Pid → Prop
  | (.bridge, pid) => a.bridge = some pid
  | (.xorg _, pid) => a.xorg = some pid
  | (.session, pid) => a.session = some pid
  | _ => False

/-! ## The requests -/

/-- A prepare, start or stop request. -/
def Asked.served (x : Asked) : Bool := x.valid && x.request.isAgentRequest

/-- The last request that was served. -/
def lastServed (hs : List Handled) : Option Handled := (hs.filter (·.served)).getLast?

/-- The reply reports success. -/
def Handled.succeeded (h : Handled) : Bool :=
  match h.reply with
  | some reply => reply.opcode == opAgentReady && reply.status == statusOk
  | none => false

/-- What is to hold of the runs from `s₀` whose messages are as in `P`, and for the descriptors also
    as in `Q`. -/
structure Disciplined {ω : Type} (P Q : List Asked → Prop) (env : Handler Io Io.Ans ω) (n : Nat)
    (registration : Message) (s₀ : AgentSys ω) : Prop where
  /-- `start_xorg` is entered only right after a prepare request that succeeded. -/
  entered : ∀ hs s request lease u, Reach env n registration s₀ hs s →
    (recvMessage .request).run (processHandler env) s = (some (true, request, lease), u) →
    P (hs.map (·.toAsked) ++ [⟨true, request, lease, u.vars⟩]) →
    Asked.entersXorg ⟨true, request, lease, u.vars⟩ = true →
    ∃ h, lastServed hs = some h ∧ h.request.opcode = opAgentPrepare ∧ h.succeeded = true
  /-- There are never two of a kind. -/
  single : ∀ xs t, During env n registration s₀ xs t → P xs →
    ∀ calls, calls <+: newCalls s₀ t → (childrenAfter calls).Single
  /-- A child is in the globals or has been waited for. -/
  recorded : ∀ hs s, Reach env n registration s₀ hs s → P (hs.map (·.toAsked)) →
    ∀ x ∈ childrenAfter (newCalls s₀ s), Recorded s.vars x
  /-- A stop request and a failure leave no child and nothing in the globals. -/
  stopped : ∀ hs s h, Reach env n registration s₀ hs s → P (hs.map (·.toAsked)) →
    lastServed hs = some h → h.request.opcode = opAgentStop ∨ h.succeeded = false →
    childrenAfter (newCalls s₀ s) = [] ∧ s.vars.trace = none ∧ s.vars.verifyLease = none
  /-- They leave no trace socket and no duplicate of a lease open. -/
  closed : ∀ hs s h, Reach env n registration s₀ hs s → P (hs.map (·.toAsked)) →
    Q (hs.map (·.toAsked)) → lastServed hs = some h →
    h.request.opcode = opAgentStop ∨ h.succeeded = false →
    (ledgerAfter s₀.nextFd (newCalls s₀ s)).sockets = [] ∧
      (ledgerAfter s₀.nextFd (newCalls s₀ s)).copies = []

/-- Two start requests have a prepare or a stop request between them. -/
def Alternating (xs : List Asked) : Prop :=
  ∀ earlier x y later, xs.filter (·.served) = earlier ++ x :: y :: later →
    x.request.opcode = opAgentStart → y.request.opcode ≠ opAgentStart

end HdmiLos.Agent
