import HdmiLos.Broker.History

/-!
# The end of Xorg before the end of a session

`Release` writes `AGENT_STOP`, waits in `WaitAgent` and then asks the composer to resume Android. The
observers here tell the ends of that wait apart: those that concern the agent, and those that were
made for the start of a session.
-/

namespace HdmiLos

open Interaction

/-! ## What the agent did -/

/-- The agent is done with the `AGENT_STOP` that has this id: it replied, reported a failure, or its
    connection failed. -/
def Event.settlesStop (agent : Fd) (id : UInt32) : Event → Bool
  | ⟨.readFull fd, r⟩ => fd == agent && (!r.ok || !r.message.valid ||
      r.message.opcode == opAgentFailed ||
      (r.message.opcode == opAgentReady && r.message.requestId == id))
  | ⟨.writeFull fd _, ok⟩ => fd == agent && !ok
  | ⟨.poll fds _, .ready revents⟩ =>
    fds.getD 0 none == some agent && ((maskRevents fds revents).getD 0 {}).error
  | _ => false

/-- The clock was read twice with the given time between the readings. -/
def Elapsed (ms : Int) (calls : List Event) : Prop :=
  ∃ start later : Int, start + ms ≤ later ∧
    List.Sublist [⟨.monotonicMs, start⟩, ⟨.monotonicMs, later⟩] calls

/-- `AGENT_STOP` was written, and since then the agent has settled it or the time for it has
    elapsed. -/
def StopSettled (agent : Fd) (calls : List Event) : Prop :=
  ∃ before stop written since, calls = before ++ ⟨.writeFull agent stop, written⟩ :: since ∧
    stop.opcode = opAgentStop ∧ (written = false ∨
      (∃ e ∈ since, Event.settlesStop agent stop.requestId e = true) ∨ Elapsed kAgentStopMs since)

/-! ## What cuts the wait short -/

/-- `WaitAgent` returns after this event, whatever the agent does: the poll failed, a volume device
    or the composer is lost, the composer sent something else than a connected hotplug event, or a
    reply to another request came in. -/
def Event.cutsWait (id : UInt32) : Event → Bool
  | ⟨.poll _ _, .failed⟩ => true
  | ⟨.poll fds _, .ready revents⟩ =>
    !((maskRevents fds revents).getD 0 {}).error &&
      [1, 2, 3].any fun i => ((maskRevents fds revents).getD i {}).error
  | ⟨.readEvents _, .endOfFile⟩ => true
  | ⟨.readEvents _, .failed⟩ => true
  | ⟨.recvWithFd _, r⟩ => !(r.ok && r.message.isPlug)
  | ⟨.readFull _, r⟩ => r.ok && r.message.valid && r.message.opcode == opAgentReady &&
      r.message.requestId != id
  | _ => false

/-- At this time the deadline of the session has passed, or the timer of the volume keys has run for
    three seconds. -/
def Broker.Due (b : Broker) (now : Int) : Prop :=
  0 < b.deadlineMs ∧ b.deadlineMs ≤ now ∨
    b.volumes.bothSince ≠ 0 ∧ b.volumes.bothSince + kChordHoldMs ≤ now

/-- The calls of a `Release` that was called with the variables `b` end with a wait that was cut
    short: before the time for the agent had elapsed, there was an event that ends a wait for other
    reasons, or a timer of the session was due at the last of the calls. -/
def CutShort (b : Broker) (calls : List Event) : Prop :=
  ¬Elapsed kAgentStopMs calls ∧ ((∃ e ∈ calls, Event.cutsWait b.nextRequestId e = true) ∨
    ∃ earlier now, calls = earlier ++ [⟨.monotonicMs, now⟩] ∧ b.Due now)

/-- The request to the composer to resume Android. -/
def Event.sendsRelease : Event → Bool
  | ⟨.sendWithFd _ m none, _⟩ => m.opcode == opRelease
  | _ => false

end HdmiLos
