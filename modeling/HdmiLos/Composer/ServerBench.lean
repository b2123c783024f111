import HdmiLos.Composer.Bench
import HdmiLos.Composer.Watchdog

/-!
# The lease server on the bench

The composer of the bench with its server: what `poll` reports in each iteration, and what is
received and sent then, is given by a script. No other thread uses the session.
-/

namespace HdmiLos.Composer

open Interaction List

/-- One iteration: its time, a hotplug notification, a new connection, a request, whether the client
    hangs up, and whether messages can be sent. -/
structure Input where
  time : Nat
  hotplug : Option Bool := none
  connects : Bool := false
  request : Option Message := none
  hangup : Bool := false
  sends : Bool := true

/-- A session and a script of inputs. -/
structure ServerWorld where
  session : Sys BenchWorld
  current : Input := { time := 0 }
  script : List Input

/-- Run a function of the session. -/
def ServerWorld.serve {α : Type} (env : Env BenchWorld) (w : ServerWorld) (p : SessionProg α) :
    Option (α × ServerWorld) :=
  match p.run (sysHandler env) w.session with
  | (some a, session) => some (a, { w with session := session })
  | (none, _) => none

/-- The answers of the bench. The thread blocks in `poll` at the end of the script. -/
def serverAnswer (env : Env BenchWorld) : Handler ServerCall ServerCall.Ans ServerWorld
  | .running, w => some (true, w)
  | .bootTimeMs .timeout, w =>
    match w.script with
    | input :: _ => some (input.time, w)
    | [] => none
  | .bootTimeMs _, w => some (w.current.time, w)
  | .poll _ _, w =>
    match w.script with
    | input :: script =>
      some ({ listen := input.connects, wake := input.hotplug.isSome,
              clientIn := input.request.isSome, clientHup := input.hangup },
        { w with current := input, script := script })
    | [] => none
  | .readWake, w => some ((), w)
  | .takeHotplug, w => some (w.current.hotplug.isSome, w)
  | .hotplugConnected, w => some (w.current.hotplug.getD true, w)
  | .accept, w => some (true, w)
  | .peerIsRoot _, w => some (true, w)
  | .recv _, w => some (w.current.request, w)
  | .send _ _ _, w => some (w.current.sends, w)
  | .shutdown _, w => some ((), w)
  | .close _, w => some ((), w)
  | .closeLease _, w => some ((), w)
  | .acquire phase response, w => w.serve env (acquireHdmiLease phase response)
  | .release reason, w => w.serve env (releaseHdmiLease reason)
  | .status response, w => w.serve env (getHdmiLeaseStatus response)
  | .processPendingHotplug, w => w.serve env processPendingHdmiHotplug

variable {env : Env BenchWorld} {w w' : ServerWorld}

theorem serve_run {α : Type} {p : SessionProg α} {a : α}
    (h : w.serve env p = some (a, w')) :
    p.run (sysHandler env) w.session = (some a, w'.session) := by
  unfold ServerWorld.serve at h
  split at h
  · rename_i b session hrun
    cases h
    exact hrun
  · cases h

theorem serverAnswer_outside {c : ServerCall} {a : c.Ans}
    (hc : c.controller = none) (hw : serverAnswer env c w = some (a, w')) :
    w'.session = w.session := by
  cases c with
  | acquire phase response => cases hc
  | release reason => cases hc
  | status response => cases hc
  | processPendingHotplug => cases hc
  | bootTimeMs site =>
    cases site with
    | timeout =>
      simp only [serverAnswer] at hw
      split at hw
      · cases hw
        rfl
      · cases hw
    | _ =>
      cases hw
      rfl
  | poll client timeout =>
    simp only [serverAnswer] at hw
    split at hw
    · cases hw
      rfl
    · cases hw
  | _ =>
    cases hw
    rfl

theorem serverAnswer_inside {c : ServerCall} {p : SessionProg c.Ans} {a : c.Ans}
    (hc : c.controller = some p) (hw : serverAnswer env c w = some (a, w')) :
    p.run (sysHandler env) w.session = (some a, w'.session) := by
  cases c with
  | acquire phase response =>
    cases hc
    exact serve_run hw
  | release reason =>
    cases hc
    exact serve_run hw
  | status response =>
    cases hc
    exact serve_run hw
  | processPendingHotplug =>
    cases hc
    exact serve_run hw
  | _ => cases hc

/-- The bench as a host. -/
def benchHost (env : Env BenchWorld) : Host env where
  World := ServerWorld
  answer := serverAnswer env
  session := ServerWorld.session
  outside c w a w' hc hw := by
    rw [serverAnswer_outside hc hw]
    exact Relation.ReflTransGen.refl
  inside c p w a w' hc hw :=
    ⟨w.session, w'.session, Relation.ReflTransGen.refl, serverAnswer_inside hc hw,
      Relation.ReflTransGen.refl⟩

/-- The server before its first iteration. -/
def serverStart (script : List Input) : ServerSys ServerWorld :=
  { vars := {}, world := { session := benchStart, script := script } }

/-- The state after `n` iterations that all pass the check. -/
def serverAfter (env : Env BenchWorld)
    (check : ServerSys ServerWorld → ServerSys ServerWorld → Bool) (script : List Input) :
    Nat → Option (ServerSys ServerWorld)
  | 0 => some (serverStart script)
  | n + 1 =>
    match serverAfter env check script n with
    | none => none
    | some s =>
      match serverIteration.run (serverHandler (serverAnswer env)) s with
      | (some true, t) => if check s t then some t else none
      | _ => none

theorem reaches_serverAfter {check : ServerSys ServerWorld → ServerSys ServerWorld → Bool}
    {script : List Input} {P : (benchHost env).Sys → (benchHost env).Sys → Prop}
    (hcheck : ∀ s t, check s t = true → P s t) {n : Nat} {s : (benchHost env).Sys}
    (h : serverAfter env check script n = some s) : (benchHost env).Reaches P s := by
  induction n generalizing s with
  | zero =>
    cases h
    exact .start rfl rfl benchStart_initial
  | succ n ih =>
    simp only [serverAfter] at h
    split at h
    · cases h
    · rename_i s' hs
      split at h
      · rename_i t ht
        split at h
        · rename_i hc
          cases h
          exact (ih hs).step ht (hcheck _ _ hc)
        · cases h
      · cases h

def benchRequest (opcode : UInt16) (flags : UInt32) : Message :=
  { magic := hdmiLosMagic, version := hdmiLosVersion, opcode := opcode, flags := flags }

/-- The broker connects and takes the display over, without the continuous policy. -/
def takeoverScript : List Input :=
  [{ time := 1000, connects := true },
   { time := 2000, request := some (benchRequest opAcquire acquirePrepare) },
   { time := 3000, request := some (benchRequest opAcquire acquirePause) },
   { time := 4000, request := some (benchRequest opAcquire acquireCreate) }]

/-- A script whose iterations pass the check leads to a state with whatever is evaluated of it. -/
theorem exists_reaches_of_check (env : Env BenchWorld)
    (check : ServerSys ServerWorld → ServerSys ServerWorld → Bool)
    {P : (benchHost env).Sys → (benchHost env).Sys → Prop}
    (hcheck : ∀ s t, check s t = true → P s t) (script : List Input) (n : Nat)
    (f : ServerSys ServerWorld → Bool) (h : (serverAfter env check script n).any f = true) :
    ∃ s : (benchHost env).Sys, (benchHost env).Reaches P s ∧ f s = true := by
  obtain ⟨s, hs, hf⟩ := (Option.any_eq_true _ _).1 h
  exact ⟨s, reaches_serverAfter hcheck hs, hf⟩

theorem exists_reaches (env : Env BenchWorld) (script : List Input) (n : Nat)
    (f : ServerSys ServerWorld → Bool)
    (h : (serverAfter env (fun _ _ => true) script n).any f = true) :
    ∃ s : (benchHost env).Sys, (benchHost env).Reaches (fun _ _ => True) s ∧ f s = true :=
  exists_reaches_of_check env (fun _ _ => true) (fun _ _ _ => trivial) script n f h

/-- The state after an iteration. -/
def nextIteration (env : Env BenchWorld) (s : ServerSys ServerWorld) :
    Option (ServerSys ServerWorld) :=
  match serverIteration.run (serverHandler (serverAnswer env)) s with
  | (some true, t) => some t
  | _ => none

theorem run_of_nextIteration {s t : (benchHost env).Sys} (h : nextIteration env s = some t) :
    serverIteration.run (serverHandler (benchHost env).answer) s = (some true, t) := by
  unfold nextIteration at h
  split at h
  · rename_i t' ht
    cases h
    exact ht
  · cases h

/-! ## Reading a log on the bench -/

/-- The calls between the phases of a bounded takeover, those since, and the time at which its lease
    was created, if its first request is at place `i` and its last acquire `j` places after the
    first one. -/
def takeoverAt (log : ServerLog) (i j : Nat) : Option (ServerLog × ServerLog × Nat) :=
  match log.drop i with
  | ⟨.recv _, some request⟩ :: ⟨.acquire first _, prepared⟩ :: rest =>
    match rest.drop j with
    | ⟨.acquire last _, created⟩ :: ⟨.bootTimeMs .acquired, t⟩ :: after =>
      if first = acquirePrepare ∧ last = acquireCreate ∧ policyOf request = some false ∧
          prepared.result = statusOk ∧ created.result = statusOk ∧
          (rest.take j ++ after).all (fun x => acquiredBy x != some acquirePrepare) = true then
        some (rest.take j, after, t)
      else none
    | _ => none
  | _ => none

variable {log : ServerLog}

theorem boundedTakeover_of_takeoverAt {between after : ServerLog} {i j t : Nat}
    (h : takeoverAt log i j = some (between, after, t)) : BoundedTakeover log between after t := by
  unfold takeoverAt at h
  split at h
  · rename_i fd request first prepare prepared rest hfirst
    split at h
    · rename_i last create created t' after' hlast
      split at h
      · rename_i hc
        obtain ⟨rfl, rfl, hpolicy, hprepared, hcreated, hall⟩ := hc
        cases h
        refine ⟨⟨log.take i, fd, request, prepare, prepared, create, created, ?_, hpolicy, hprepared,
          hcreated⟩, fun x hx => ?_⟩
        · have hsplit := take_append_drop i log
          rw [hfirst, ← take_append_drop j rest, hlast] at hsplit
          simpa using hsplit.symm
        · simpa using all_eq_true.1 hall x hx
      · cases h
    · cases h
  · cases h

/-- The time of the disconnect at place `i`, and the calls since. -/
def disconnectAt (log : ServerLog) (i : Nat) : Option (Nat × ServerLog) :=
  match log.drop i with
  | ⟨.bootTimeMs .disconnected, t⟩ :: after => some (t, after)
  | _ => none

theorem split_of_disconnectAt {after : ServerLog} {i t : Nat}
    (h : disconnectAt log i = some (t, after)) :
    log = log.take i ++ ⟨.bootTimeMs .disconnected, t⟩ :: after := by
  unfold disconnectAt at h
  split at h
  · rename_i t' after' hdrop
    cases h
    rw [← hdrop, take_append_drop]
  · cases h

/-- The connection that a call polls or receives from. -/
def pollsOn (fd : Fd) : Answered ServerCall.Ans → Bool
  | ⟨.poll client _, _⟩ => client == some fd
  | _ => false

/-- A request is read from the descriptor. -/
def receivesOn (fd : Fd) : Answered ServerCall.Ans → Bool
  | ⟨.recv client, _⟩ => client == fd
  | _ => false

theorem recv_of_receivesOn {fd : Fd} (h : log.any (receivesOn fd) = true) :
    ∃ received, (⟨.recv fd, received⟩ : Answered ServerCall.Ans) ∈ log := by
  obtain ⟨⟨c, a⟩, hx, hon⟩ := any_eq_true.1 h
  cases c with
  | recv client =>
    obtain rfl : client = fd := by simpa [receivesOn] using hon
    exact ⟨a, hx⟩
  | _ => cases hon

theorem not_poll_of_pollsOn {fd : Fd} (h : log.any (pollsOn fd) = false) (timeout : Nat)
    (ready : Readiness) : (⟨.poll (some fd) timeout, ready⟩ : Answered ServerCall.Ans) ∉ log := by
  intro hmem
  have htrue : log.any (pollsOn fd) = true :=
    any_eq_true.2 ⟨_, hmem, by simp [pollsOn]⟩
  rw [h] at htrue
  cases htrue

end HdmiLos.Composer
