import HdmiLos.Agent.History

/-!
# The agent's descriptors

A descriptor that comes with a message is the agent's to close. Which descriptors are open is read
off the calls, where each new descriptor and each new process takes the next name.
-/

namespace HdmiLos.Agent

open Interaction

/-- The descriptors, from the calls so far. -/
structure Ledger where
  next : Nat
  /-- Those that came with a message. -/
  passed : List Fd := []
  /-- Those of them that are open. -/
  leases : List Fd := []
  /-- The agent's ends of trace sockets that are open. -/
  sockets : List Fd := []
  /-- The duplicates of a lease that are open. -/
  copies : List Fd := []
  closed : List Fd := []

namespace Ledger

def isOpen (l : Ledger) (fd : Fd) : Prop := fd ∈ l.leases ∨ fd ∈ l.sockets ∨ fd ∈ l.copies

def close (l : Ledger) (fd : Fd) : Ledger :=
  if fd ∈ l.leases then { l with leases := l.leases.erase fd, closed := fd :: l.closed }
  else if fd ∈ l.sockets then { l with sockets := l.sockets.erase fd, closed := fd :: l.closed }
  else { l with copies := l.copies.erase fd, closed := fd :: l.closed }

/-- What a call does to the descriptors. -/
def note (l : Ledger) : (c : Io) → c.Ans → Ledger
  | .recvBroker _, received =>
    if received.ok && received.passed then
      { l with next := l.next + 1, passed := l.next :: l.passed, leases := l.next :: l.leases }
    else l
  | .socketpair, made =>
    if made then { l with next := l.next + 1, sockets := l.next :: l.sockets } else l
  | .dup _ _, made =>
    { l with next := l.next + 1, copies := if made then l.next :: l.copies else l.copies }
  | .fork _ _, _ => { l with next := l.next + 1 }
  | .close fd, _ => l.close fd
  | _, _ => l

end Ledger

/-- The ledger after the calls. -/
def ledgerAfter (next : Nat) (calls : List (Answered Io.Ans)) : Ledger :=
  calls.foldl (fun l x => l.note x.1 x.2) { next := next }

/-- What is to hold of the runs from `s₀` whose messages are as in `P`. -/
structure LinearlyOwned {ω : Type} (P : List Asked → Prop) (env : Handler Io Io.Ans ω) (n : Nat)
    (registration : Message) (s₀ : AgentSys ω) : Prop where
  /-- Only what is open is closed. -/
  closes : ∀ xs t, During env n registration s₀ xs t → P xs → ∀ before fd after,
    newCalls s₀ t = before ++ ⟨.close fd, ()⟩ :: after → (ledgerAfter s₀.nextFd before).isOpen fd
  /-- There are never two duplicates of a lease. -/
  copies : ∀ xs t, During env n registration s₀ xs t → P xs →
    ∀ calls, calls <+: newCalls s₀ t → (ledgerAfter s₀.nextFd calls).copies.length ≤ 1
  /-- Between two messages each descriptor that came with one has been closed once, and the agent
      has those in `g_trace` and `g_verify_lease` only. -/
  balanced : ∀ hs s, Reach env n registration s₀ hs s → P (hs.map (·.toAsked)) →
    let l := ledgerAfter s₀.nextFd (newCalls s₀ s)
    (∀ fd ∈ l.passed, l.closed.count fd = 1) ∧ l.leases = [] ∧
      l.sockets = s.vars.trace.toList ∧ l.copies = s.vars.verifyLease.toList

/-- A message with a descriptor is valid, no prepare request, and if it is a start request it names
    the prepared mode. When a session is prepared or started, none is open. -/
structure Asked.Proper (x : Asked) : Prop where
  lease : x.lease.isSome = true → x.valid = true ∧ x.request.opcode ≠ opAgentPrepare ∧
    (x.request.opcode = opAgentStart → x.entersXorg = true)
  idle : x.valid = true → x.request.opcode = opAgentPrepare ∨ x.entersXorg = true →
    x.before.trace = none ∧ x.before.verifyLease = none

def AllProper (xs : List Asked) : Prop := ∀ x ∈ xs, x.Proper

end HdmiLos.Agent
