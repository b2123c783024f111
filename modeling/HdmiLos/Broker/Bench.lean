import HdmiLos.Broker.History

/-!
# A scripted environment

An environment in which every call succeeds, the clock stands still, and what arrives on the sockets
is read from lists. Concrete runs of the broker are evaluated in it.
-/

namespace HdmiLos

open Interaction

/-- What the composer sends next: an event as it is, or a response to the request that was sent
    last, possibly with a descriptor. -/
inductive ComposerScript where
  | event (message : Message)
  | reply (message : Message) (passed : Bool)

/-- What is still to come from the peers. -/
structure Bench where
  polls : List (List Revents) := []
  streams : List Message := []
  composer : List ComposerScript := []
  lastRequest : UInt32 := 0

/-- A message of the composer's protocol. -/
def composerScriptMessage (opcode : UInt16) (flags : UInt32) : Message :=
  { magic := hdmiLosMagic, version := hdmiLosVersion, opcode := opcode, flags := flags }

/-- A message of the broker's protocol. -/
def streamScriptMessage (opcode : UInt16) (flags : UInt32) : Message :=
  { magic := hdmiLosMagic, version := hdmiLosBrokerVersion, opcode := opcode, flags := flags }

/-- The next message of the script. -/
def Bench.receive (w : Bench) : Option (Received × Bench) :=
  match w.composer with
  | [] => none
  | .event m :: rest => some ({ ok := true, message := m }, { w with composer := rest })
  | .reply m passed :: rest =>
    some ({ ok := true, message := { m with requestId := w.lastRequest }, passed := passed },
      { w with composer := rest })

/-- The calls as the script answers them. -/
def benchEnv : Env Bench
  | .stopRequested, w => some (false, w)
  | .monotonicMs, w => some (1, w)
  | .poll _ _, w =>
    match w.polls with
    | [] => none
    | revents :: rest => some (.ready revents, { w with polls := rest })
  | .listenAbstract, w => some (true, w)
  | .acceptClient _, w => some (true, w)
  | .connectComposer, w => some (true, w)
  | .peerUid _, w => some (some 0, w)
  | .readFull _, w =>
    match w.streams with
    | [] => none
    | m :: rest => some ({ ok := true, message := m }, { w with streams := rest })
  | .writeFull _ _, w => some (true, w)
  | .sendWithFd _ m _, w => some (true, { w with lastRequest := m.requestId })
  | .recvWithFd _, w => w.receive
  | .close _, w => some ((), w)
  | .access .compatibleOk, w => some (true, w)
  | .access .diagnosticOnly, w => some (false, w)
  | .recoveryDumpProperty, w => some (none, w)
  | .wakeLock _, w => some (true, w)
  | .findVolumeDevice _ _, w => some (true, w)
  | .grab _ _, w => some (true, w)
  | .readEvents _, w => some (.again, w)
  | .displayCommand _, w => some ((true, []), w)
  | .writeAtomicText _ _, w => some (true, w)
  | .readText _, w => some (none, w)
  | .unlink _, w => some (true, w)
  | .packagesList, w => some (none, w)
  | .logTransition _, w => some ((), w)

/-- The scripted environment without the marker of a compatible build. -/
def closedEnv : Env Bench
  | .access .compatibleOk, w => some (false, w)
  | c, w => benchEnv c w

variable {ω : Type}

/-- The state in which a program ends. -/
def after (env : Env ω) {α : Type} (p : BrokerProg α) (s : Sys ω) : Sys ω :=
  (p.run (sysHandler env) s).2

variable {env : Env ω}

theorem run_after {α : Type} {p : BrokerProg α} {s : Sys ω} {a : α}
    (h : (p.run (sysHandler env) s).1 = some a) :
    p.run (sysHandler env) s = (some a, after env p s) :=
  Prod.ext h rfl

/-- The state after an iteration. -/
def afterIteration (env : Env ω) (n : Nat) (revents : List Revents) (s : Sys ω) : Sys ω :=
  after env (runPeers n revents)
    (after env (runClient n (revents.getD 0 {})) (after env runPoll (after env stopRequested s)))

/-- The iteration with the given readiness goes through to its end. -/
def goesThrough (env : Env ω) (n : Nat) (revents : List Revents) (s : Sys ω) : Bool :=
  let entered := after env stopRequested s
  let polled := after env runPoll entered
  let served := after env (runClient n (revents.getD 0 {})) polled
  decide ((stopRequested.run (sysHandler env) s).1 = some false) &&
    decide ((runPoll.run (sysHandler env) entered).1 = some (.ready revents)) &&
    ((runClient n (revents.getD 0 {})).run (sysHandler env) polled).1.isSome &&
    ((runPeers n revents).run (sysHandler env) served).1.isSome

/-- An iteration from its evaluation. -/
def evaluated (env : Env ω) (n : Nat) (revents : List Revents) (s : Sys ω)
    (h : goesThrough env n revents s = true) : Round env n where
  before := s
  after := afterIteration env n revents s
  iteration :=
    { entered := after env stopRequested s
      polled := after env runPoll (after env stopRequested s)
      served := after env (runClient n (revents.getD 0 {}))
        (after env runPoll (after env stopRequested s))
      revents := revents
      runs_test := by
        simp only [goesThrough, Bool.and_eq_true, decide_eq_true_eq] at h
        exact Prod.ext h.1.1.1 rfl
      runs_poll := by
        simp only [goesThrough, Bool.and_eq_true, decide_eq_true_eq] at h
        exact Prod.ext h.1.1.2 rfl
      runs_client := by
        simp only [goesThrough, Bool.and_eq_true, decide_eq_true_eq] at h
        exact Prod.ext (Option.eq_some_of_isSome h.1.2) rfl
      runs_peers := by
        simp only [goesThrough, Bool.and_eq_true, decide_eq_true_eq] at h
        exact Prod.ext (Option.eq_some_of_isSome h.2) rfl }

/-- A start that was evaluated, and one more iteration of a run. -/
theorem Run.started (env : Env ω) (n : Nat) (w : ω)
    (h : (runStartup.run (sysHandler env) (Sys.initial w)).1 = some true) :
    Run env n [] (after env runStartup (Sys.initial w)) :=
  .start (run_after h)

variable {n : Nat}

theorem Run.evaluated {rounds : List (Round env n)} {s : Sys ω} (hrun : Run env n rounds s)
    (revents : List Revents) (h : goesThrough env n revents s = true) :
    Run env n (HdmiLos.evaluated env n revents s h :: rounds) (afterIteration env n revents s) :=
  .iteration _ hrun

/-! ## Histories -/

/-- The history after the parts `todo`, if all of them return. -/
def didParts (env : Env ω) (n : Nat) (revents : List Revents) :
    List Part → List (Did ω) × Sys ω → Option (List (Did ω) × Sys ω)
  | [], x => some x
  | p :: todo, (hist, s) =>
    match (p.prog n revents).run (sysHandler env) s with
    | (some _, t) => didParts env n revents todo (⟨p, revents, s, t⟩ :: hist, t)
    | (none, _) => none

/-- A round and what was done in it. -/
def didRound (env : Env ω) (n : Nat) (x : List (Did ω) × Sys ω) :
    Option (List (Did ω) × Sys ω) :=
  match stopRequested.run (sysHandler env) x.2 with
  | (some false, entered) =>
    match runPoll.run (sysHandler env) entered with
    | (some (.ready revents), t) => didParts env n revents (.client :: Part.peers) (x.1, t)
    | _ => none
  | _ => none

/-- Rounds from the start. -/
def didRounds (env : Env ω) (n : Nat) (w : ω) : Nat → Option (List (Did ω) × Sys ω)
  | 0 =>
    match runStartup.run (sysHandler env) (Sys.initial w) with
    | (some true, s) => some ([], s)
    | _ => none
  | rounds + 1 => (didRounds env n w rounds).bind (didRound env n)

theorem History.didParts {revents : List Revents} {todo : List Part} {x y : List (Did ω) × Sys ω}
    (hx : History env n revents todo x.1 x.2) (h : HdmiLos.didParts env n revents todo x = some y) :
    History env n revents [] y.1 y.2 := by
  induction todo generalizing x with
  | nil =>
    cases h
    exact hx
  | cons p todo ih =>
    obtain ⟨hist, s⟩ := x
    simp only [HdmiLos.didParts] at h
    split at h
    · rename_i t hrun
      exact ih (hx.part hrun) h
    · cases h

theorem History.didRounds {w : ω} {rounds : Nat} {x : List (Did ω) × Sys ω}
    (h : HdmiLos.didRounds env n w rounds = some x) :
    ∃ revents, History env n revents [] x.1 x.2 := by
  induction rounds generalizing x with
  | zero =>
    simp only [HdmiLos.didRounds] at h
    split at h
    · rename_i s hs
      cases h
      exact ⟨[], .start hs⟩
    · cases h
  | succ rounds ih =>
    obtain ⟨y, hy, hround⟩ := Option.bind_eq_some_iff.1 h
    obtain ⟨revents, hist⟩ := ih hy
    simp only [didRound] at hround
    split at hround
    · rename_i entered htest
      split at hround
      · rename_i revents' t hpoll
        exact ⟨revents', (hist.poll htest hpoll).didParts hround⟩
      · cases hround
    · cases hround

/-- A history that was evaluated, with what was evaluated of it. -/
theorem exists_history (env : Env ω) (n : Nat) (w : ω) (rounds : Nat)
    (check : List (Did ω) → Bool)
    (h : (didRounds env n w rounds).any (fun x => check x.1) = true) :
    ∃ revents hist s, History env n revents [] hist s ∧ check hist = true := by
  obtain ⟨⟨hist, s⟩, hx, hcheck⟩ := (Option.any_eq_true _ _).1 h
  obtain ⟨revents, hhist⟩ := History.didRounds hx
  exact ⟨revents, hist, s, hhist, hcheck⟩

/-! ## A scripted takeover -/

def clientReadable : List Revents := [{ input := true }, {}, {}, {}, {}]
def composerReadable : List Revents := [{}, { input := true }, {}, {}, {}]

def replyReadable : List Revents := [{ input := true }, {}, {}, {}]

/-- The composer grants what it is asked for. -/
def granted (passed : Bool) : ComposerScript :=
  .reply (composerScriptMessage opResponse flagConnected) passed

/-- HDMI is unplugged. -/
def unplugEvent : ComposerScript := .event (composerScriptMessage opHotplug 0)

/-- An agent registers and root starts a session; then `rest` comes. -/
def takeoverScript (rest : Bench) : Bench :=
  { polls := [clientReadable, clientReadable, replyReadable, replyReadable] ++ rest.polls
    streams := [streamScriptMessage opAgentRegister 0, streamScriptMessage opProbe probeXorgLegacy,
      streamScriptMessage opAgentReady 0, streamScriptMessage opAgentReady 0] ++ rest.streams
    composer := [granted false, granted false, granted false, granted true] ++ rest.composer }

/-- The broker after its start, after the registration and after the takeover. -/
def benchStarted (rest : Bench) : Sys Bench :=
  after benchEnv runStartup (Sys.initial (takeoverScript rest))
/-- An agent has registered. -/
def benchRegistered (rest : Bench) : Sys Bench :=
  afterIteration benchEnv 8 clientReadable (benchStarted rest)
/-- A session is active. -/
def benchActive (rest : Bench) : Sys Bench :=
  afterIteration benchEnv 8 clientReadable (benchRegistered rest)

/-- The rounds of a takeover and of one more iteration, which comes first, if all go through. -/
def takeoverRounds (rest : Bench) (revents : List Revents) :
    Option (Round benchEnv 8 × List (Round benchEnv 8)) :=
  if h : (runStartup.run (sysHandler benchEnv) (Sys.initial (takeoverScript rest))).1 = some true ∧
      goesThrough benchEnv 8 clientReadable (benchStarted rest) = true ∧
      goesThrough benchEnv 8 clientReadable (benchRegistered rest) = true ∧
      goesThrough benchEnv 8 revents (benchActive rest) = true then
    some (evaluated benchEnv 8 revents (benchActive rest) h.2.2.2,
      [evaluated benchEnv 8 clientReadable (benchRegistered rest) h.2.2.1,
        evaluated benchEnv 8 clientReadable (benchStarted rest) h.2.1])
  else none

/-- A takeover that was evaluated, with what was evaluated of it. -/
theorem exists_takeover (rest : Bench) (revents : List Revents)
    (check : Round benchEnv 8 → List (Round benchEnv 8) → Bool)
    (h : (takeoverRounds rest revents).any (fun x => check x.1 x.2) = true) :
    ∃ r rounds, Run benchEnv 8 (r :: rounds) r.after ∧ check r rounds = true := by
  obtain ⟨⟨r, rounds⟩, hrounds, hcheck⟩ := (Option.any_eq_true _ _).1 h
  unfold takeoverRounds at hrounds
  split at hrounds
  · rename_i hthrough
    obtain ⟨rfl, rfl⟩ := Prod.mk.inj (Option.some.inj hrounds)
    exact ⟨_, _, (((Run.started benchEnv 8 _ hthrough.1).evaluated _ hthrough.2.1).evaluated _
      hthrough.2.2.1).evaluated _ hthrough.2.2.2, hcheck⟩
  · cases hrounds

end HdmiLos
