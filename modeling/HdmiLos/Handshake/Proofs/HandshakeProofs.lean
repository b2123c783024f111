import HdmiLos.Broker.Bench
import HdmiLos.Handshake.Proofs.StartProofs

/-!
# Whole runs of broker and agent

In every run in which each session is prepared on an idle connection, `Start` goes past a wait only
after the agent has replied to the very request that it waits for. A connection is not idle when the
broker gave up an earlier session before the agent did: the late replies are then taken for those to
the requests of the next one.
-/

namespace HdmiLos.Handshake

open Interaction Prog List

variable {ω : Type} {S : Surroundings ω} {s t : Sys (Pair ω)} {n : Nat} {x : Sent}

/-! ## `Start` -/

theorem Inv.assign (h : Inv s) {b : Broker} (hb : b.active = true → s.vars.active = true) :
    Inv { s with vars := b } :=
  ⟨h.sound, h.handed, h.agreed, fun hactive => h.started (hb hactive)⟩

theorem wp_startFailed (agent : Fd) (response : Message) (h : Inv s) :
    wp (sysHandler (pairEnv S)) (do
      sendAgentStop agent
      let reply ← composerRequest n opRelease response false 0
      cleanupGuards
      let text := "Xorg did not complete verified scanout within 15 seconds"
      if reply.message.opcode == opAgentFailed then
        pure (Sum.inl (errAgent, reply.message.failureDetail text))
      else pure (Sum.inl (errTimeout, text)) : BrokerProg (StepResult Unit))
      (fun r t => Inv t ∧ ∀ u, r = Sum.inr u → Started t.world.hist) s Inv := by
  simp only [wp_bind]
  refine wp_post (wp_inv_calm (calm_streams (uses_sendAgentStop agent)) h) fun _ t ht => ?_
  refine wp_post (wp_inv_calm (calm_composerRequest _ _ _ _) ht) fun reply t ht => ?_
  refine wp_post (wp_inv_calm (calm_quiet uses_cleanupGuards) ht) fun _ t ht => ?_
  rw [wp_ite]
  split
  · exact ⟨ht, fun _ h => by cases h⟩
  · exact ⟨ht, fun _ h => by cases h⟩

theorem wp_startWait (created : Message) (h : Inv s) (hx : Asked x s)
    (hstart : x.message.opcode = opAgentStart) (hlease : x.lease = true) :
    wp (sysHandler (pairEnv S)) (waitAgent n opAgentReady kAgentStartMs created)
      (fun r t => wp (sysHandler (pairEnv S)) (if r.1 then do
          logTransition (.takeover .agentStart .complete)
          pure (Sum.inr ())
        else do
          sendAgentStop x.fd
          let reply ← composerRequest n opRelease r.2 false 0
          cleanupGuards
          let text := "Xorg did not complete verified scanout within 15 seconds"
          if reply.message.opcode == opAgentFailed then
            pure (Sum.inl (errAgent, reply.message.failureDetail text))
          else pure (Sum.inl (errTimeout, text)) : BrokerProg (StepResult Unit))
        (fun r t => Inv t ∧ ∀ u, r = Sum.inr u → Started t.world.hist) t Inv) s Inv := by
  refine wp_post (wp_wait _ _ h hx) ?_
  rintro ⟨ready, response⟩ t ⟨ht, hready⟩
  cases ready with
  | false => exact wp_startFailed x.fd response ht
  | true =>
    have hwait : passedWait (.takeover .agentStart .complete) = some x.message.opcode := by
      rw [hstart]
      rfl
    simp only [if_true, wp_bind]
    refine wp_post (wp_passed hwait ht (hready rfl) (Or.inr hlease)) ?_
    rintro _ u ⟨hu, -, past, hpast⟩
    rw [hstart] at hpast
    exact ⟨hu, fun _ _ => ⟨past, [], hpast, by simp⟩⟩

/-- The last step of `Start` hands the lease over on an idle connection. -/
theorem wp_startAgent (probeMode : UInt32) (created : Message) (lease : Fd) (h : Inv s)
    (hx : Heard x s) (hprepare : x.message.opcode = opAgentPrepare) :
    wp (sysHandler (pairEnv S)) (startAgent n x.fd probeMode created lease)
      (fun r t => Inv t ∧ ∀ u, r = Sum.inr u → Started t.world.hist) s Inv := by
  unfold startAgent
  refine wp_seq (wp_heard (composing_quiet (uses_logTransition rfl)) h hx) fun _ t ht => ?_
  rw [wp_bind, wp_makeMessage, wp_bind]
  have hinv : Inv { t with vars := { t.vars with nextRequestId := t.vars.nextRequestId + 1 } } :=
    ht.1.assign id
  have hheard : Heard x { t with vars := { t.vars with nextRequestId := t.vars.nextRequestId + 1 } } :=
    ht.2.same ⟨rfl, rfl⟩
  refine wp_post (wp_sendLease _ lease rfl hinv hheard hprepare) fun sent t ht => ?_
  cases sent with
  | false =>
    simp only [wp_bind, Bool.not_false, if_true]
    refine wp_post (wp_inv_calm (calm_quiet (uses_quietCall rfl)) ht.1) fun _ t ht => ?_
    refine wp_post (wp_inv_calm (calm_composerRequest _ _ _ _) ht) fun _ t ht => ?_
    refine wp_post (wp_inv_calm (calm_quiet uses_cleanupGuards) ht) fun _ t ht => ?_
    exact ⟨ht, fun _ h => by cases h⟩
  | true =>
    obtain ⟨y, hfd, hmessage, hlease, hasked⟩ := ht.2 rfl
    have hstart : y.message.opcode = opAgentStart := by rw [hmessage]
    rw [wp_bind]
    have hclose := wp_and (wp_inv_calm (S := S)
      (calm_quiet (uses_quietCall (c := .close lease) rfl)) ht.1)
      (wp_asked (S := S) (composing_quiet (uses_quietCall (c := .close lease) rfl)) hasked)
    refine wp_mono hclose (fun _ t ht => ?_) fun _ ht => ht.1
    simp only [Bool.not_true, Bool.false_eq_true, if_false]
    rw [wp_bind, ← hfd]
    exact wp_startWait created ht.1 ht.2 hstart hlease

theorem wp_startActive (probeMode : UInt32) (h : Inv s) (hstarted : Started s.world.hist) :
    wp (sysHandler (pairEnv S)) (startActive probeMode) (fun _ => Inv) s Inv := by
  have hactive : Inv { s with vars := { s.vars with active := true } } :=
    ⟨h.sound, h.handed, h.agreed, fun _ => hstarted⟩
  have hbeat : ∀ continuous, (startHeartbeat continuous).Uses Quiet := fun _ =>
    uses_ite (uses_bind uses_monotonicMs fun _ => uses_update fun _ => rfl) trivial
  unfold startActive
  rw [wp_bind, wp_update, wp_bind, wp_getBroker]
  refine wp_seq (wp_inv_calm (calm_quiet (hbeat _)) hactive) fun _ t ht => ?_
  exact wp_seq (wp_inv_calm (calm_quiet (uses_setDetail _)) ht) fun _ t ht => ht

theorem wp_startGuarded {agent : Fd} (probeMode : UInt32) (h : Inv s) (hw : Waiting agent s) :
    wp (sysHandler (pairEnv S)) (startGuarded n agent probeMode) (fun _ => Inv) s Inv := by
  have hdeadline : ∀ continuous, (startDeadline continuous).Uses Quiet := fun _ =>
    uses_ite (uses_update fun _ => rfl)
      (uses_bind uses_monotonicMs fun _ => uses_update fun _ => rfl)
  have hinv : Inv { s with vars := { s.vars with sessionContinuous := s.vars.agentContinuous } } :=
    h.assign id
  unfold startGuarded
  rw [wp_bind, wp_update, wp_bind, wp_getBroker]
  refine wp_seq (wp_waiting (composing_quiet (hdeadline _)) hinv ⟨hw.active, hw.agentFd⟩)
    fun _ t ht => ?_
  refine wp_seq (wp_startPrepare probeMode ht.1 ht.2) fun prepared t ht => ?_
  cases prepared with
  | inl failure => exact ht.1
  | inr _ =>
    obtain ⟨x, rfl, hprepare, hheard⟩ := ht.2 () rfl
    refine wp_seq (wp_startAcquire (fun _ => rfl) _ _ _ ht.1 hheard) fun r t ht => ?_
    cases r with
    | inl failure => exact ht.1
    | inr reply =>
      refine wp_seq (wp_startAcquire (fun _ => rfl) _ _ _ ht.1 (ht.2 _ rfl)) fun r t ht => ?_
      cases r with
      | inl failure => exact ht.1
      | inr reply =>
        refine wp_seq (wp_startAcquire (fun _ => rfl) _ _ _ ht.1 (ht.2 _ rfl)) fun r t ht => ?_
        cases r with
        | inl failure => exact ht.1
        | inr created =>
          have hheard := ht.2 _ rfl
          obtain ⟨ok, message, leaseFd⟩ := created
          cases leaseFd with
          | none => exact ht.1
          | some lease =>
            refine wp_seq (wp_startAgent probeMode message lease ht.1 hheard hprepare) fun r t ht => ?_
            cases r with
            | inl failure => exact ht.1
            | inr u => exact wp_startActive probeMode ht.1 (ht.2 u rfl)

theorem wp_start_inv (probeMode : UInt32) (h : Inv s) :
    wp (sysHandler (pairEnv S)) (start n probeMode) (fun _ => Inv) s Inv := by
  unfold start
  rw [wp_bind, wp_getBroker, wp_ite]
  split
  · exact h
  · rename_i hactive
    rw [wp_ite]
    split
    · exact h
    · rw [wp_bind]
      have hinactive : s.vars.active = false := by simpa using hactive
      cases hagent : s.vars.agentFd with
      | none =>
        refine wp_post (wp_inv_calm (calm_quiet uses_closedGate) h) fun gate t ht => ?_
        cases gate with
        | some text => exact ht
        | none => exact ht
      | some agent =>
        refine wp_post (wp_waiting (composing_quiet uses_closedGate) h ⟨hinactive, hagent⟩)
          fun gate t ht => ?_
        cases gate with
        | some text => exact ht.1
        | none =>
          dsimp only
          refine wp_seq (wp_waiting (composing_quiet uses_acquireGuards) ht.1 ht.2)
            fun failed t ht => ?_
          cases failed with
          | some text => exact ht.1
          | none => exact wp_startGuarded probeMode ht.1 ht.2

/-! ## Runs -/

theorem handshakeParts (S : Surroundings ω) :
    BrokerParts (Preserves (sysHandler (pairEnv S)) Inv) where
  toCompositional := preserves_compositional _ _
  calm hp := preserves_inv (noHandover_calm hp)
  assign hf s hs := hs.assign (hf s.vars)
  recover := preserves_inv (noHandover_files uses_recoverPreferredMode)
  apply := preserves_inv (noHandover_files uses_applyPreferredMode)
  start _ mode _ hs := wp_start_inv mode hs

/-- In every state of a run of broker and agents in which each session was prepared on an idle
    connection, `Start` has gone past a wait only after the agent replied with `AGENT_READY` and `OK`
    to the very request that was sent, and an active session has gone past the wait for its
    `AGENT_START`. As a run can be cut off at every call, `s` is any state. -/
theorem start_agrees_with_agent (S : Surroundings ω) (n : Nat) (r : ω) {result : Option Int}
    (hrun : (run n).run (sysHandler (pairEnv S)) (Sys.initial { rest := r }) = (result, s))
    (hidle : IdleAtPrepare s.world.hist) :
    Agreed s.world.hist ∧ (s.vars.active = true → Started s.world.hist) := by
  have hinv : Inv s := by
    have hwp := (handshakeParts S).run (n := n) _ (inv_initial r)
    simp only [wp, hrun] at hwp
    cases result with
    | none => exact hwp
    | some status => exact hwp
  exact ⟨hinv.agreed hidle, hinv.started⟩

/-! ## A scripted broker and agent

The scripted environment of the broker, with one agent on the first connection. The agent's steps,
and the time that passes, are given for each `poll` of the broker.
-/

/-- What the agent finds: whether a process of its own is alive, whether one that it looks after has
    exited, and what Xorg reports next. -/
structure Scene where
  alive : Bool := true
  exited : Bool := true
  record : TraceRecord := { magic := traceMagic, version := traceVersion, phase := traceLoaded }

def sceneMode : ModeInfo := { clock := 148500, hdisplay := 1920, vdisplay := 1080 }

def sceneLines : List Text :=
  ["Screen 0: minimum 320 x 200, current 1920 x 1080".toList, "DP-1 connected".toList,
    "HDMI Mouse".toList, "HDMI Keyboard".toList]

/-- All calls of the agent succeed. -/
def Scene.oracle (scene : Scene) : (c : Agent.Io) → c.Ans
  | .stopRequested => false
  | .monotonicMs => (0 : Int)
  | .usleep _ => ()
  | .connectBroker => true
  | .pollPeers _ => .ready [{ input := true }]
  | .writeBroker _ => true
  | .recvBroker _ => { ok := true, message := {} }
  | .close _ => ()
  | .socketpair => true
  | .fork _ _ => true
  | .processAlive _ => scene.alive
  | .leadsGroup _ => true
  | .kill _ _ _ => ()
  | .waitpid _ => ()
  | .waitNoHang _ => if scene.exited then .exited (some 0) else .running
  | .pollTrace _ _ => .ready { input := true }
  | .recvTrace _ => some scene.record
  | .sendTrace _ _ => true
  | .traceGate => true
  | .getUser => true
  | .runtimeDirectory => true
  | .unlinkInputPaths => ()
  | .inputPaths => some ["MOUSE_EVENT=/dev/input/event5".toList,
      "KEYBOARD_EVENT=/dev/input/event6".toList]
  | .displayLock => true
  | .createAuthority => true
  | .randomCookie => true
  | .userRuntime => true
  | .getConnector _ _ _ => some { connected := true, counts := { modes := 1 }, modes := [sceneMode] }
  | .writeXorgConfig _ _ _ _ => true
  | .dup _ _ => true
  | .getCrtc _ _ => some { crtcId := 9, fbId := 5, modeValid := true, mode := sceneMode }
  | .readLines _ => some sceneLines

/-- The broker's script, whether the agent has connected, the time, and for each `poll` the steps of
    the agent before it and the milliseconds that pass in it. -/
structure Script where
  bench : Bench
  connected : Bool := false
  time : Int := 0
  turns : List (List Scene × Int) := []

/-- The first descriptor that the broker accepts. -/
def agentConnection : Fd := 1

/-- The steps of the agent before a call: those of the script before a `poll`, and as many as it
    takes to register when the connection is accepted. -/
def Script.scenes (x : Script) : Io → List Scene
  | .poll _ _ => (x.turns.headD ([], 0)).1
  | .peerUid _ => [{}, {}]
  | _ => []

/-- The scripted environment with a clock. -/
def scriptEnv : Env Script
  | .monotonicMs, x => some (x.time, x)
  | c, x =>
    match benchEnv c x.bench with
    | none => none
    | some (a, bench) =>
      match c with
      | .poll _ _ =>
        some (a, { x with bench := bench, time := x.time + (x.turns.headD ([], 0)).2,
                          turns := x.turns.tail })
      | .acceptClient _ => some (a, { x with bench := bench, connected := true })
      | _ => some (a, { x with bench := bench })

def scripted : Surroundings Script where
  env := scriptEnv
  moves c x := (x.scenes c).map fun scene => ⟨agentConnection, scene.oracle⟩
  -- the first peer is the agent
  joins x := if x.connected then none else some ⟨16, 77, {}⟩

/-- The state in which the broker's run with a script is cut off. -/
def scriptRun (n : Nat) (x : Script) : Sys (Pair Script) :=
  ((run n).run (sysHandler (pairEnv scripted)) (Sys.initial { rest := x })).2

/-- A message that stands for whatever the agent has sent. -/
def fromAgent : Message := {}

def rootProbe : Message := streamScriptMessage opProbe probeXorgLegacy

def steps (n : Nat) : List Scene := replicate n {}

/-- Nothing is readable in a wait for the agent. -/
def silence : List Revents := [{}, {}, {}, {}]

/-- An agent registers, and root asks for a session twice. The agent is late with its preparation of
    the first: it replies to the request, and to the stop request that followed it, when the broker
    has given up on it and is about to prepare the second. -/
def lateScript : Script where
  bench :=
    { polls := [clientReadable, clientReadable, replyReadable, silence, clientReadable,
        replyReadable, replyReadable]
      streams := [fromAgent, rootProbe, fromAgent, rootProbe, fromAgent, fromAgent]
      composer := [granted false, granted false, granted false, granted false, granted true] }
  turns := [([], 0), (steps 4, 0), (steps 40, 0), ([], 5000),
    (steps 30 ++ replicate 40 { alive := false }, 0), ([], 0), ([], 0)]

/-- Xorg's report of its first commit, in the given phase. -/
def commitRecord (phase : UInt16) : TraceRecord :=
  { magic := traceMagic, version := traceVersion, phase := phase, sequence := 1,
    request := drmModeSetCrtc, argument0 := 9, argument1 := 5, argument2 := 7, argument3 := 1,
    name := if phase == traceDetail then "SETCRTC_CONNECTOR" else "SETCRTC" }

/-- The composer grants a lease of connector 7 and CRTC 9. -/
def leased : ComposerScript :=
  .reply { composerScriptMessage opResponse flagConnected with connectorId := 7, crtcId := 9 } true

/-- Root asks for a session, which the agent prepares and starts. -/
def sessionTurns : List (List Scene × Int) :=
  [(steps 4, 0), (steps 40, 0), (steps 40, 0)] ++
    [traceBefore, traceDetail, traceAfter].map (fun phase =>
      (replicate 50 { record := commitRecord phase }, 0)) ++ [(steps 18, 0)]

/-- An agent registers, and there are two sessions; the first is stopped before the second. -/
def promptScript : Script where
  bench :=
    let polls := clientReadable :: replicate 6 replyReadable
    let streams := rootProbe :: replicate 6 fromAgent
    let composer := [granted false, granted false, granted false, leased]
    { polls := clientReadable :: polls ++ [clientReadable, replyReadable] ++ polls
      streams := fromAgent :: streams ++ [streamScriptMessage opDisarm 0, fromAgent] ++ streams
      composer := composer ++ [granted false, granted false] ++ composer }
  turns := ([], 0) :: sessionTurns ++
    [([], 0), (replicate 30 { alive := false, exited := false }, 0)] ++ sessionTurns

theorem scriptRun_run (n : Nat) (x : Script) : ∃ result,
    (run n).run (sysHandler (pairEnv scripted)) (Sys.initial { rest := x }) =
      (result, scriptRun n x) :=
  ⟨_, rfl⟩

/-- The request does not prepare a session, or the connection is idle. -/
def Happening.preparesIdle : Happening → Bool
  | .sent x => x.message.opcode != opAgentPrepare || x.idle
  | _ => true

theorem idleAtPrepare_of_all {hist : List Happening} (h : hist.all (·.preparesIdle) = true) :
    IdleAtPrepare hist := by
  intro x hx hprepare
  have hx' := all_eq_true.1 h _ hx
  simpa [Happening.preparesIdle, hprepare] using hx'

/-- The agent prepares and starts two sessions in time. -/
theorem start_agrees_with_agent_prompt : IdleAtPrepare (scriptRun 16 promptScript).world.hist ∧
      (scriptRun 16 promptScript).vars.active = true ∧
      (scriptRun 16 promptScript).world.hist.count (.passed opAgentStart) = 2 ∧
      Agreed (scriptRun 16 promptScript).world.hist ∧
      Started (scriptRun 16 promptScript).world.hist := by
  have hevaluated : ((scriptRun 16 promptScript).world.hist.all (·.preparesIdle) &&
      (scriptRun 16 promptScript).vars.active &&
      (scriptRun 16 promptScript).world.hist.count (.passed opAgentStart) == 2) = true := by
    decide +kernel
  simp only [Bool.and_eq_true, beq_iff_eq] at hevaluated
  obtain ⟨⟨hall, hactive⟩, htwice⟩ := hevaluated
  have hidle := idleAtPrepare_of_all hall
  obtain ⟨result, hrun⟩ := scriptRun_run 16 promptScript
  obtain ⟨hagreed, hstarted⟩ := start_agrees_with_agent scripted 16 promptScript hrun hidle
  exact ⟨hidle, hactive, htwice, hagreed, hstarted hactive⟩

/-- No reply to the request with this number. -/
def leavesOpen (serial : Nat) : Happening → Bool
  | .replied _ number _ => number != serial
  | _ => true

/-- Late replies to the prepare request and to the stop request of an earlier session make the
    broker take the display, while the agent has not even read the requests of the new one. -/
theorem late_replies_start_session : (scriptRun 16 lateScript).vars.active = true ∧
      ¬Agreed (scriptRun 16 lateScript).world.hist ∧
      ∃ x, .sent x ∈ (scriptRun 16 lateScript).world.hist ∧ x.message.opcode = opAgentStart ∧
        ∀ fd m, .replied fd x.serial m ∉ (scriptRun 16 lateScript).world.hist := by
  have hactive : (scriptRun 16 lateScript).vars.active = true := by decide +kernel
  have hpassed : (scriptRun 16 lateScript).world.hist.head? = some (.passed opAgentStart) := by
    decide +kernel
  have hlast : (lastExchange (scriptRun 16 lateScript).world.hist.tail).map
      (fun e => (e.1.serial, e.1.message.opcode, e.2.bind Taken.re)) =
        some (11, opAgentStart, some 4) := by decide +kernel
  have hreplied : (scriptRun 16 lateScript).world.hist.all (leavesOpen 11) = true := by
    decide +kernel
  generalize (scriptRun 16 lateScript).world.hist = hist at hpassed hlast hreplied ⊢
  obtain ⟨past, rfl⟩ : ∃ past, hist = .passed opAgentStart :: past := by
    cases hist with
    | nil => cases hpassed
    | cons e past => exact ⟨past, by rw [Option.some.inj hpassed]⟩
  obtain ⟨⟨x, y⟩, hx, hfields⟩ := Option.map_eq_some_iff.1 hlast
  simp only [Prod.mk.injEq] at hfields
  obtain ⟨hserial, hstart, hre⟩ := hfields
  refine ⟨hactive, fun hagreed => ?_, x, mem_cons_of_mem _ (lastExchange_mem hx), hstart, ?_⟩
  · obtain ⟨x', reply, hx', -⟩ := hagreed opAgentStart past (suffix_refl _)
    obtain ⟨rfl, rfl⟩ := Prod.mk.inj (Option.some.inj (hx.symm.trans hx'))
    -- the message that was taken replies to request 4, and the request is number 11
    have hserial' : some x.serial = some 4 := hre
    rw [hserial] at hserial'
    cases hserial'
  · intro fd m hmem
    have hne := all_eq_true.1 hreplied _ hmem
    simp [leavesOpen, hserial] at hne

end HdmiLos.Handshake
