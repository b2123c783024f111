import HdmiLos.Composer.Server

/-!
# The mailbox of the hotplug notifications

`NotifyHotplug` runs in the thread of the uevents. It leaves its notification in two variables and
wakes the server, whose thread takes the one and then loads the other. A notification is one step;
between any two calls of the server any number of them arrive.
-/

namespace HdmiLos.Composer

open Interaction

/-- What other threads do to the server: `NotifyHotplug` and `Stop`. -/
inductive Notice where
  | notify (connected : Bool)
  | stop
  deriving DecidableEq, Repr

/-- The notices in the order of their arrival. `none` is the server's consumption. -/
abbrev History := List (Option Notice)

/-- `running_`, `hotplug_pending_` and `hotplug_connected_` of a server that has been started. -/
structure Mailbox where
  running : Bool := true
  hotplugPending : Bool := false
  hotplugConnected : Bool := false
  deriving DecidableEq, Repr

/-- The wake-up pipe is open while the server runs. -/
def Mailbox.notifyHotplug (box : Mailbox) (connected : Bool) : Mailbox :=
  if box.running then { box with hotplugConnected := connected, hotplugPending := true } else box

/-- A notice, or the thread's look. -/
def Mailbox.step (box : Mailbox) : Option Notice → Mailbox
  | some (.notify connected) => box.notifyHotplug connected
  | some .stop => { box with running := false }
  | none => { box with hotplugPending := false }

/-- The mailbox after a history. -/
def mailboxAfter (history : History) : Mailbox :=
  history.foldl Mailbox.step {}

/-- The calls that read the mailbox. -/
def ServerCall.mail (box : Mailbox) : (c : ServerCall) → Option c.Ans
  | running => some box.running
  | takeHotplug => some box.hotplugPending
  | hotplugConnected => some box.hotplugConnected
  | _ => none

/-- What a call adds to the history: the consumption, and what arrives before the next call. -/
def ServerCall.adds (c : ServerCall) (arrived : List Notice) : History :=
  match c with
  | takeHotplug => none :: arrived.map some
  | _ => arrived.map some

variable {ω : Type} {env : Env ω}

theorem mail_of_controller {c : ServerCall} {p : SessionProg c.Ans} (h : c.controller = some p)
    (box : Mailbox) : c.mail box = none := by
  cases c with
  | running => cases h
  | takeHotplug => cases h
  | hotplugConnected => cases h
  | _ => rfl

/-- The composer around the server, with a mailbox and the notices that arrive. -/
def Host.withMailbox (host : Host env) (arrive : ServerCall → host.World × History → List Notice) :
    Host env where
  World := host.World × History
  answer c w :=
    match c.mail (mailboxAfter w.2) with
    | some a => some (a, (w.1, w.2 ++ c.adds (arrive c w)))
    | none => (host.answer c w.1).map fun x => (x.1, (x.2, w.2 ++ c.adds (arrive c w)))
  session w := host.session w.1
  outside c w a w' hc hw := by
    split at hw
    · cases hw
      exact Relation.ReflTransGen.refl
    · obtain ⟨x, hx, h⟩ := Option.map_eq_some_iff.1 hw
      cases h
      exact host.outside c w.1 x.1 x.2 hc hx
  inside c p w a w' hc hw := by
    rw [mail_of_controller hc] at hw
    obtain ⟨x, hx, h⟩ := Option.map_eq_some_iff.1 hw
    cases h
    exact host.inside c p w.1 x.1 x.2 hc hx

/-- The notices that have not been consumed have an unplug that reached a running server. -/
def UnplugPending (history : History) : Prop :=
  ∃ before since, history = before ++ some (.notify false) :: since ∧ some .stop ∉ before ∧
    none ∉ since

/-- The notices that have not been consumed have an unplug that reached a running server, and no
    plug has been notified since. -/
def UnplugLast (history : History) : Prop :=
  ∃ before since, history = before ++ some (.notify false) :: since ∧ some .stop ∉ before ∧
    none ∉ since ∧ some (.notify true) ∉ since

/-- The notices that have arrived. -/
def Host.history {host : Host env} {arrive : ServerCall → host.World × History → List Notice}
    (s : (host.withMailbox arrive).Sys) : History :=
  s.world.2

/-- The broker has been sent an event without `CONNECTED`. The backstop is set unless the event says
    that the session is Android's. -/
def UnplugHandled (client : Option Fd) (calls : List (Answered ServerCall.Ans))
    (server : Server) : Prop :=
  ∃ event : Message, (⟨.status hotplugEvent, event⟩ : Answered ServerCall.Ans) ∈ calls ∧
    (∀ fd, client = some fd → ∃ (message : Message) (sent : Bool),
      (⟨.send fd message none, sent⟩ : Answered ServerCall.Ans) ∈ calls ∧
      message = { event with flags := message.flags } ∧ message.connected = false) ∧
    (event.state ≠ stateAndroid → ∃ now : Nat,
      (⟨.bootTimeMs .disconnected, now⟩ : Answered ServerCall.Ans) ∈ calls ∧
      server.deadlineMs = now + 5000 ∧ server.continuousLease = false)

end HdmiLos.Composer
