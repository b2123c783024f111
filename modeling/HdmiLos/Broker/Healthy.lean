import HdmiLos.Broker.History

/-!
# A healthy composer

The messages of the composer wait in the socket until the broker receives them. A healthy composer
answers every request, and all that it sends besides are hotplug events that report the display as
connected. A receive on an empty socket blocks; whether it times out or gets a later event is left
open.
-/

namespace HdmiLos

open Interaction

variable {ω : Type}

/-- The message answers the request. -/
def Message.answers (m request : Message) : Bool :=
  m.validComposer && !m.isHotplug && m.requestId == request.requestId

/-- Nothing but connected hotplug events. -/
def Plugs (messages : List Message) : Prop := ∀ m ∈ messages, m.isPlug = true

/-- The environment has a healthy composer: `queue` are the messages in the socket, and `starved` counts
    the receives on an empty socket. The two polls are those of `Run` and of `WaitAgent`. -/
structure Healthy (env : Env ω) (queue : ω → List Message) (starved : ω → Nat) : Prop where
  listen : ∀ {w w' ok}, env .listenAbstract w = some (ok, w') → Plugs (queue w')
  other : ∀ {c : Io} {a w w'}, c.kind ≠ .composer → env c w = some (a, w') →
    starved w' = starved w ∧ ∃ events, Plugs events ∧ queue w' = queue w ++ events
  connect : ∀ {w w' ok}, env .connectComposer w = some (ok, w') →
    starved w' = starved w ∧ Plugs (queue w')
  send : ∀ {fd request w w' ok}, env (.sendWithFd fd request none) w = some (ok, w') →
    ok = true ∧ starved w' = starved w ∧ ∃ before response after, Plugs before ∧
      response.answers request = true ∧ Plugs after ∧
      queue w' = queue w ++ before ++ response :: after
  receive : ∀ {fd w w' r m rest}, env (.recvWithFd fd) w = some (r, w') → queue w = m :: rest →
    r.ok = true ∧ r.message = m ∧ starved w' = starved w ∧
      ∃ events, Plugs events ∧ queue w' = rest ++ events
  starve : ∀ {fd w w' r}, env (.recvWithFd fd) w = some (r, w') → queue w = [] →
    starved w' = starved w + 1 ∧ Plugs (queue w')
  pollRun : ∀ {listen composer agent down up timeout w w' revents},
    env (.poll [listen, composer, agent, down, up] timeout) w = some (.ready revents, w') →
    (revents.getD 1 {}).error = false ∧ ((revents.getD 1 {}).input = true → queue w' ≠ [])
  pollWait : ∀ {agent down up composer timeout w w' revents},
    env (.poll [agent, down, up, composer] timeout) w = some (.ready revents, w') →
    (revents.getD 3 {}).error = false ∧ ((revents.getD 3 {}).input = true → queue w' ≠ [])

namespace Did

/-- The composer's part of an iteration called `HandleComposerReadable`, with this result. -/
def Hears (env : Env ω) (d : Did ω) (hotplug : ComposerHotplug) : Prop :=
  d.part = .composer ∧ (d.revents.getD 1 {}).error = false ∧
    (d.revents.getD 1 {}).input = true ∧ ∃ fd t, d.before.vars.composerFd = some fd ∧
      (handleComposerReadable fd).run (sysHandler env) d.before = (some hotplug, t)

instance (env : Env ω) (d : Did ω) (hotplug : ComposerHotplug) :
    Decidable (d.Hears env hotplug) :=
  decidable_of_iff (d.part = .composer ∧ (d.revents.getD 1 {}).error = false ∧
    (d.revents.getD 1 {}).input = true ∧ d.before.vars.composerFd.any (fun fd =>
      ((handleComposerReadable fd).run (sysHandler env) d.before).1 == some hotplug) = true) (by
    refine and_congr_right fun _ => and_congr_right fun _ => and_congr_right fun _ => ?_
    rw [Option.any_eq_true]
    constructor
    · rintro ⟨fd, hfd, h⟩
      exact ⟨fd, _, hfd, Prod.ext (beq_iff_eq.1 h) rfl⟩
    · rintro ⟨fd, t, hfd, h⟩
      exact ⟨fd, hfd, beq_iff_eq.2 (congrArg Prod.fst h)⟩)

/-- A client that is served in an iteration whose poll reported the composer as readable does not make
    the broker talk to the composer. -/
def Undrained (d : Did ω) : Prop :=
  d.part = .client → (d.revents.getD 1 {}).input = true → ∀ e ∈ d.calls, e.1.kind ≠ .composer

instance (d : Did ω) : Decidable d.Undrained :=
  inferInstanceAs (Decidable (_ → _ → ∀ e ∈ d.calls, e.1.kind ≠ .composer))

end Did

end HdmiLos
