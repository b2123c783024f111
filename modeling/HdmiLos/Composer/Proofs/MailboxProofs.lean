import HdmiLos.Composer.Mailbox
import HdmiLos.Composer.ServerBench
import HdmiLos.Composer.Proofs.IterationProofs

/-!
# Unplugs that reach the broker

The mailbox keeps one notification. An unplug is handled by the next consumption unless a plug is
notified before its value has been loaded. A server that ends leaves no takeover.
-/

namespace HdmiLos.Composer

open Interaction Prog List

variable {ω : Type} {env : Env ω} {host : Host env}

/-! ## What the mailbox holds -/

variable {box : Mailbox} {history : History}

theorem running_after (hrunning : box.running = true)
    (hstop : some .stop ∉ history) : (history.foldl Mailbox.step box).running = true := by
  induction history generalizing box with
  | nil => exact hrunning
  | cons x history ih =>
    refine ih ?_ (not_mem_of_not_mem_cons hstop)
    rcases x with _ | ⟨connected⟩ | _
    · exact hrunning
    · rw [Mailbox.step, Mailbox.notifyHotplug, if_pos hrunning]
      exact hrunning
    · exact absurd mem_cons_self hstop

theorem pending_after {since : History} (hpending : box.hotplugPending = true)
    (hnone : none ∉ since) : (since.foldl Mailbox.step box).hotplugPending = true := by
  induction since generalizing box with
  | nil => exact hpending
  | cons x since ih =>
    refine ih ?_ (not_mem_of_not_mem_cons hnone)
    rcases x with _ | ⟨connected⟩ | _
    · exact absurd mem_cons_self hnone
    · rw [Mailbox.step, Mailbox.notifyHotplug]
      split
      · rfl
      · exact hpending
    · exact hpending

theorem disconnected_after {since : History} (hconnected : box.hotplugConnected = false)
    (hplug : some (.notify true) ∉ since) :
    (since.foldl Mailbox.step box).hotplugConnected = false := by
  induction since generalizing box with
  | nil => exact hconnected
  | cons x since ih =>
    refine ih ?_ (not_mem_of_not_mem_cons hplug)
    rcases x with _ | ⟨_ | _⟩ | _
    · exact hconnected
    · rw [Mailbox.step, Mailbox.notifyHotplug]
      split
      · rfl
      · exact hconnected
    · exact absurd mem_cons_self hplug
    · exact hconnected

theorem UnplugLast.kept (h : UnplugLast history) :
    (mailboxAfter history).hotplugPending = true ∧
      (mailboxAfter history).hotplugConnected = false := by
  obtain ⟨before, since, rfl, hstop, hnone, hplug⟩ := h
  rw [mailboxAfter, foldl_append, foldl_cons]
  have hrunning : (before.foldl Mailbox.step {}).running = true := running_after rfl hstop
  rw [Mailbox.step, Mailbox.notifyHotplug, if_pos hrunning]
  exact ⟨pending_after rfl hnone, disconnected_after rfl hplug⟩

/-- The last of the notices decides: it is an unplug, or the mailbox says that there is a display. -/
theorem UnplugPending.last (h : UnplugPending history)
    (hstop : some .stop ∉ history) :
    UnplugLast history ∨ (mailboxAfter history).hotplugConnected = true := by
  obtain ⟨before, since, rfl, hbefore, hnone⟩ := h
  rcases eq_nil_or_concat since with rfl | ⟨since, x, rfl⟩
  · exact .inl ⟨before, [], rfl, hbefore, not_mem_nil, not_mem_nil⟩
  rw [concat_eq_append, ← cons_append, ← append_assoc] at *
  have hstop' := fun hmem => hstop (mem_append_left _ hmem)
  rcases x with _ | ⟨_ | _⟩ | _
  · exact absurd (mem_append_right _ mem_cons_self) hnone
  · exact .inl ⟨_, [], rfl, hstop', not_mem_nil, not_mem_nil⟩
  · have hrunning : (mailboxAfter (before ++ some (.notify false) :: since)).running = true :=
      running_after rfl hstop'
    rw [mailboxAfter, foldl_append, ← mailboxAfter, foldl_cons, foldl_nil, Mailbox.step,
      Mailbox.notifyHotplug, if_pos hrunning]
    exact .inr rfl
  · exact absurd (mem_append_right _ mem_cons_self) hstop

/-! ## Forwarding -/

theorem UnplugHandled.mono {client : Option Fd} {calls calls' : ServerLog} {server : Server}
    (h : UnplugHandled client calls server) (hsub : calls ⊆ calls') :
    UnplugHandled client calls' server := by
  obtain ⟨event, hevent, hsend, harm⟩ := h
  refine ⟨event, hsub hevent, fun fd hfd => ?_, fun hstate => ?_⟩
  · obtain ⟨message, sent, hmem, hmessage⟩ := hsend fd hfd
    exact ⟨message, sent, hsub hmem, hmessage⟩
  · obtain ⟨now, hmem, hnow⟩ := harm hstate
    exact ⟨now, hsub hmem, hnow⟩

/-- The calls that do not set the backstop. -/
def noBackstop : ServerCall → Bool
  | .bootTimeMs .disconnected => false
  | _ => true

theorem not_unplugHandled {client : Option Fd} {calls : ServerLog} {server : Server}
    (hstate : ∀ event : Message, (⟨.status hotplugEvent, event⟩ : Answered ServerCall.Ans) ∈ calls →
      event.state ≠ stateAndroid) (hcalls : ∀ x ∈ calls, noBackstop x.1 = true) :
    ¬UnplugHandled client calls server := by
  rintro ⟨event, hevent, -, harm⟩
  obtain ⟨now, hmem, -⟩ := harm (hstate event hevent)
  cases hcalls _ hmem

section Forwarding

variable {s : host.Sys}

theorem wp_sendHotplug_calls (event : Message) :
    wp (serverHandler host.answer) (sendHotplug event) (fun _ t => ∃ new, t.log = s.log ++ new ∧
      ∀ fd, s.vars.clientFd = some fd →
        ∃ sent : Bool, (⟨.send fd event none, sent⟩ : Answered ServerCall.Ans) ∈ new) s := by
  rw [sendHotplug, wp_bind, wp_getServer]
  cases hclient : s.vars.clientFd with
  | none =>
    exact ⟨[], by simp, fun fd h => by cases h⟩
  | some client =>
    dsimp only
    rw [wp_bind]
    refine wp_ask _ fun sent w hw => wp_returns (wp_log_extends _) ?_
    rintro _ t ⟨new, hnew⟩
    refine ⟨⟨.send client event none, sent⟩ :: new, ?_, fun fd h => ?_⟩
    · rw [← hnew, Host.called, append_assoc, singleton_append]
    · cases h
      exact ⟨sent, mem_cons_self⟩

theorem wp_notifyBroker_unplug : wp (serverHandler host.answer) (notifyBroker false)
      (fun _ t => ∃ new, t.log = s.log ++ new ∧ UnplugHandled s.vars.clientFd new t.vars) s := by
  rw [notifyBroker, wp_bind]
  refine wp_ask _ fun event w hw => ?_
  simp only [Bool.false_eq_true, if_false, true_and]
  refine wp_seq (wp_sendHotplug_calls _) ?_
  rintro _ u ⟨new, hu, hsend⟩
  have hmessage : ∀ calls : ServerLog, new ⊆ calls → ∀ fd, s.vars.clientFd = some fd →
      ∃ (message : Message) (sent : Bool),
        (⟨.send fd message none, sent⟩ : Answered ServerCall.Ans) ∈ calls ∧
        message = { event with flags := message.flags } ∧ message.connected = false := by
    intro calls hsub fd hfd
    obtain ⟨sent, hmem⟩ := hsend fd hfd
    refine ⟨_, sent, hsub hmem, rfl, ?_⟩
    simp [Message.connected, hasFlag, UInt32.and_assoc]
  rw [wp_ite]
  split
  · rw [armDeadline, wp_bind, wp_bind]
    refine wp_ask _ fun now w' hw' => ?_
    rw [wp_setServer, wp_setServer]
    refine ⟨⟨.status hotplugEvent, event⟩ :: (new ++ [⟨.bootTimeMs .disconnected, now⟩]), ?_, event,
      mem_cons_self, hmessage _ (fun x hx => by simp [hx]), fun _ => ⟨now, by simp, rfl, rfl⟩⟩
    show u.log ++ _ = _
    simp [hu, Host.called]
  · rename_i hstate
    refine ⟨⟨.status hotplugEvent, event⟩ :: new, ?_, event, mem_cons_self,
      hmessage _ (fun x hx => by simp [hx]), fun h => absurd h hstate⟩
    simp [hu, Host.called]

end Forwarding

/-! ## The consumption -/

section Consumption

variable {arrive : ServerCall → host.World × History → List Notice}
  {s t : (host.withMailbox arrive).Sys}

theorem history_called {c : ServerCall} {a : c.Ans} {w : (host.withMailbox arrive).World}
    (h : (host.withMailbox arrive).answer c s.world = some (a, w)) :
    Host.history (Host.called s c a w) = Host.history s ++ c.adds (arrive c s.world) := by
  dsimp only [Host.withMailbox] at h
  split at h
  · cases h
    rfl
  · obtain ⟨x, -, h⟩ := Option.map_eq_some_iff.1 h
    cases h
    rfl

/-- The calls that leave what has arrived in the mailbox. -/
def leavesMail : ServerCall → Bool
  | .takeHotplug => false
  | _ => true

theorem adds_of_leavesMail {c : ServerCall} (h : leavesMail c = true) (arrived : List Notice) :
    c.adds arrived = arrived.map some := by
  cases c with
  | takeHotplug => cases h
  | _ => rfl

theorem wp_history {α : Type} {p : ServerProg α} (hp : p.Uses (Calls leavesMail)) :
    wp (serverHandler (host.withMailbox arrive).answer) p
      (fun _ t => ∃ more : List Notice, Host.history t = Host.history s ++ more.map some) s := by
  refine wp_returns (wp_process_invariant (I := fun t => ∃ more : List Notice,
    Host.history t = Host.history s ++ more.map some) (fun _ _ _ h => h) (fun _ _ h => h) ?_ hp
    ⟨[], by simp⟩) fun _ _ h => h
  rintro t c a w hc ⟨more, hmore⟩ hw
  refine ⟨more ++ arrive c t.world, (history_called hw).trans ?_⟩
  rw [adds_of_leavesMail hc, map_append, ← append_assoc, ← hmore]

theorem wp_forward : wp (serverHandler (host.withMailbox arrive).answer) (do
      notifyBroker (← ask .hotplugConnected)
      pure true)
      (fun _ t => ∃ (after : List Notice) (new : ServerLog),
        Host.history t = Host.history s ++ after.map some ∧ t.log = s.log ++ new ∧
        ((mailboxAfter (Host.history s)).hotplugConnected = false →
          UnplugHandled s.vars.clientFd new t.vars) ∧
        ((mailboxAfter (Host.history s)).hotplugConnected = true →
          ∀ x ∈ new, noBackstop x.1 = true)) s := by
  rw [wp_bind]
  refine wp_ask _ fun connected w hw => ?_
  have hconnected : (mailboxAfter (Host.history s)).hotplugConnected = connected := by
    cases hw
    rfl
  have hloaded := history_called hw
  generalize hu : Host.called s _ connected w = u at *
  have hlog : u.log = s.log ++ [⟨.hotplugConnected, connected⟩] := by rw [← hu, Host.called]
  have hclient : u.vars.clientFd = s.vars.clientFd := by rw [← hu, Host.called]
  have hcalls : (notifyBroker connected).Uses (Calls leavesMail) :=
    calls_notifyBroker rfl (fun _ _ => rfl) (fun _ => rfl) (fun _ => rfl) rfl
  have hforwarded : wp (serverHandler (host.withMailbox arrive).answer) (notifyBroker connected)
      (fun _ t => ∃ new, t.log = u.log ++ new ∧
        (connected = false → UnplugHandled s.vars.clientFd new t.vars) ∧
        (connected = true → ∀ x ∈ new, noBackstop x.1 = true)) u := by
    cases hvalue : connected with
    | false =>
      refine wp_post wp_notifyBroker_unplug ?_
      rintro _ t ⟨new, hnew, hhandled⟩
      rw [hclient] at hhandled
      exact ⟨new, hnew, fun _ => hhandled, (absurd · Bool.false_ne_true)⟩
    | true =>
      refine wp_returns (wp_log_uses (P := Calls noBackstop) ?_) ?_
      · exact uses_bind (calls_ask rfl) fun event => uses_bind (calls_sendHotplug
          (fun _ _ => rfl) (fun _ => rfl) fun _ => rfl) fun _ => trivial
      · rintro _ t ⟨new, hnew, hcalls⟩
        exact ⟨new, hnew, (absurd ·.symm Bool.false_ne_true), fun _ => hcalls⟩
  refine wp_seq (wp_returns (wp_and (wp_history hcalls) hforwarded) fun _ _ h => h) ?_
  rintro _ t ⟨⟨more, hmore⟩, new, hnew, hhandled, hplugged⟩
  refine ⟨arrive .hotplugConnected s.world ++ more, ⟨.hotplugConnected, connected⟩ :: new, ?_, ?_,
    fun h => ?_, fun h => forall_mem_cons.2 ⟨rfl, hplugged (hconnected.symm.trans h)⟩⟩
  · rw [hmore, hloaded, map_append, ← append_assoc]
    rfl
  · rw [hnew, hlog, append_assoc, singleton_append]
  · exact (hhandled (hconnected.symm.trans h)).mono (subset_cons_self _ _)

/-- What a wake-up does that has taken `pending` and loads the value of the box. -/
structure Consumed (pending : Bool) (box : Mailbox) (client : Option Fd) (calls : ServerLog)
    (server : Server) : Prop where
  unplug : pending = true → box.hotplugConnected = false → UnplugHandled client calls server
  plug : box.hotplugConnected = true → ∀ x ∈ calls, noBackstop x.1 = true

/-- A wake-up consumes nothing, or what has arrived when it takes the notification. -/
theorem wp_handleWake_mail :
    wp (serverHandler (host.withMailbox arrive).answer) handleWake (fun _ t =>
      (∃ more : List Notice, Host.history t = Host.history s ++ more.map some) ∨
      ∃ (between after : List Notice) (new : ServerLog) (w : (host.withMailbox arrive).World),
        Host.history t = Host.history s ++ between.map some ++
          none :: (arrive .takeHotplug w ++ after).map some ∧
        t.log = s.log ++ new ∧
        Consumed (mailboxAfter (Host.history s ++ between.map some)).hotplugPending
          (mailboxAfter (Host.history s ++ between.map some ++
            none :: (arrive .takeHotplug w).map some)) s.vars.clientFd new t.vars) s := by
  rw [handleWake, wp_bind]
  refine wp_ask _ fun _ w hw => ?_
  rw [wp_bind]
  refine wp_ask _ fun running w' hw' => ?_
  obtain ⟨between, hbefore⟩ : ∃ between : List Notice,
      Host.history (Host.called (Host.called s .readWake () w) .running running w') =
        Host.history s ++ between.map some :=
    ⟨arrive .readWake s.world ++ arrive .running w, by
      rw [history_called hw', history_called hw, map_append, ← append_assoc]
      rfl⟩
  rw [wp_ite]
  split
  · rw [wp_bind]
    refine wp_ask _ fun pending v hv => ?_
    have hempty := history_called hv
    rw [hbefore] at hempty
    have hpending :
        (mailboxAfter (Host.history s ++ between.map some)).hotplugPending = pending := by
      rw [← hbefore]
      cases hv
      rfl
    have hcalls : (Host.called (Host.called (Host.called s .readWake () w) .running running w')
        .takeHotplug pending v).log =
        s.log ++ [⟨.readWake, ()⟩, ⟨.running, running⟩, ⟨.takeHotplug, pending⟩] := by
      simp [Host.called]
    rw [wp_ite]
    split
    · refine wp_post wp_forward ?_
      rintro _ t ⟨after, new, hafter, hnew, hhandled, hplugged⟩
      rw [hempty] at hafter hhandled hplugged
      rw [hcalls, append_assoc] at hnew
      refine .inr ⟨between, after, _, w', ?_, hnew, fun _ h => ?_, fun h => ?_⟩
      · rw [hafter, append_assoc, map_append]
        rfl
      · exact (hhandled h).mono (subset_append_right _ _)
      · exact forall_mem_append.2 ⟨by simp [noBackstop], hplugged h⟩
    · rename_i hnot
      refine .inr ⟨between, [], _, w', ?_, hcalls, fun h _ => absurd (hpending.symm.trans h) hnot,
        fun _ => by simp [noBackstop]⟩
      rw [append_nil]
      exact hempty
  · exact .inl ⟨between, hbefore⟩

/-- The notices before the consumption can be told from those after it. -/
theorem consumed_inj {xs ys xs' ys' : List Notice}
    (h : xs.map some ++ none :: ys.map some = xs'.map some ++ none :: ys'.map some) :
    xs = xs' ∧ ys = ys' := by
  induction xs generalizing xs' with
  | nil =>
    cases xs' with
    | nil => exact ⟨rfl, (map_inj_right fun _ _ => Option.some.inj).1 (List.cons.inj h).2⟩
    | cons x xs' => cases h
  | cons x xs ih =>
    cases xs' with
    | nil => cases h
    | cons x' xs' =>
      obtain ⟨hx, h⟩ := List.cons.inj h
      rw [Option.some.inj hx, (ih h).1]
      exact ⟨rfl, (ih h).2⟩

/-- What the wake-up does, read off its history. -/
theorem consumed_of_run {result : Bool} {between after : List Notice}
    (hrun : handleWake.run (serverHandler (host.withMailbox arrive).answer) s = (some result, t))
    (hconsumed : Host.history t = Host.history s ++ between.map some ++ none :: after.map some) :
    ∃ (w : (host.withMailbox arrive).World) (rest : List Notice),
      after = arrive .takeHotplug w ++ rest ∧
      Consumed (mailboxAfter (Host.history s ++ between.map some)).hotplugPending
        (mailboxAfter (Host.history s ++ between.map some ++
          none :: (arrive .takeHotplug w).map some)) s.vars.clientFd
        ((host.withMailbox arrive).since s t) t.vars := by
  rcases wp_returned wp_handleWake_mail hrun with ⟨more, hmore⟩ | ⟨xs, ys, new, w, hxs, hnew, h⟩
  · rw [hconsumed, append_assoc] at hmore
    have hmem : none ∈ more.map some := by
      rw [← append_cancel_left hmore]
      simp
    simp at hmem
  · rw [hconsumed, append_assoc, append_assoc] at hxs
    obtain ⟨rfl, hafter⟩ := consumed_inj (append_cancel_left hxs)
    rw [Host.since, hnew, drop_left]
    exact ⟨w, ys, hafter, h⟩

/-- A consumption handles the unplug if no plug is notified after it until the wake-up is served. -/
theorem unplug_handled_next {result : Bool} {between after : List Notice}
    (hrun : handleWake.run (serverHandler (host.withMailbox arrive).answer) s = (some result, t))
    (hconsumed : Host.history t = Host.history s ++ between.map some ++ none :: after.map some)
    (hunplug : UnplugLast (Host.history s ++ between.map some)) (hplug : .notify true ∉ after) :
    UnplugHandled s.vars.clientFd ((host.withMailbox arrive).since s t) t.vars := by
  obtain ⟨w, rest, rfl, h⟩ := consumed_of_run hrun hconsumed
  refine h.unplug hunplug.kept.1 ?_
  rw [mailboxAfter, foldl_append]
  refine disconnected_after hunplug.kept.2 fun hmem => hplug (mem_append_left _ ?_)
  simpa using hmem

/-- Where the consumption is one step, it handles an unplug if and only if no plug was notified
    after the unplug. -/
theorem unplug_handled_iff {result : Bool} {between after : List Notice}
    (hstep : ∀ w, arrive .takeHotplug w = [])
    (hrun : handleWake.run (serverHandler (host.withMailbox arrive).answer) s = (some result, t))
    (hconsumed : Host.history t = Host.history s ++ between.map some ++ none :: after.map some)
    (hpending : UnplugPending (Host.history s ++ between.map some))
    (hstop : some .stop ∉ Host.history s ++ between.map some)
    (hstate : ∀ event : Message, (⟨.status hotplugEvent, event⟩ : Answered ServerCall.Ans) ∈
      (host.withMailbox arrive).since s t → event.state ≠ stateAndroid) :
    UnplugHandled s.vars.clientFd ((host.withMailbox arrive).since s t) t.vars ↔
      UnplugLast (Host.history s ++ between.map some) := by
  obtain ⟨w, rest, rfl, h⟩ := consumed_of_run hrun hconsumed
  have hloaded : ∀ history : History, (mailboxAfter (history ++ [none])).hotplugConnected =
      (mailboxAfter history).hotplugConnected := by
    intro history
    rw [mailboxAfter, foldl_append]
    rfl
  rw [hstep w, map_nil] at h
  refine ⟨fun hhandled => (hpending.last hstop).resolve_right fun hplugged => ?_, fun hunplug => ?_⟩
  · exact not_unplugHandled hstate (h.plug ((hloaded _).trans hplugged)) hhandled
  · exact h.unplug hunplug.kept.1 ((hloaded _).trans hunplug.kept.2)

end Consumption

/-! ## The end of the server -/

/-- The last calls have closed the client and released the display, and no takeover is under way. -/
def Host.Stopped (host : Host env) (t : host.Sys) : Prop :=
  ¬(host.sessionOf t).Busy ∧ ∃ before r,
    t.log = before ++ [⟨.release "composer lease server stopped", r⟩] ∧
      ∀ client, t.vars.clientFd = some client → before.getLast? = some ⟨.close client, ()⟩

theorem wp_stopServer {s : host.Sys} (h : host.Good s) :
    wp (serverHandler host.answer) stopServer (fun _ t => host.Stopped t) s := by
  have hrelease {u : host.Sys} (hu : (host.sessionOf u).Sound) (hclosed : ∀ client,
      u.vars.clientFd = some client → u.log.getLast? = some ⟨.close client, ()⟩) :
      wp (serverHandler host.answer) (do
        let _ ← ask (.release "composer lease server stopped")
        pure ()) (fun _ t => host.Stopped t) u := by
    rw [wp_bind]
    refine wp_ask _ fun r w hw => ?_
    obtain ⟨-, hidle⟩ := Host.release_idle hw hu
    exact ⟨hidle, u.log, r, rfl, hclosed⟩
  rw [stopServer, wp_bind, wp_getServer]
  cases hclient : s.vars.clientFd with
  | none =>
    refine hrelease h.sound fun client hsome => ?_
    rw [hclient] at hsome
    cases hsome
  | some fd =>
    dsimp only
    rw [wp_bind]
    refine wp_ask _ fun _ w hw => hrelease (Host.tame_falls rfl hw h.sound).1 fun client hsome => ?_
    obtain rfl := Option.some.inj (hclient.symm.trans hsome)
    exact getLast?_concat

/-- However the thread of the server ends, it leaves no takeover under way. -/
theorem stopped_server_released {fuel : Nat} {s t : host.Sys} (hs : s.vars = {}) (hlog : s.log = [])
    (hsession : (host.sessionOf s).Initial)
    (hrun : (threadMain fuel).run (serverHandler host.answer) s = (some (), t)) :
    host.Stopped t := by
  have hstart : host.Reaches (fun _ _ => True) s := .start hs hlog hsession
  have hwp : wp (serverHandler host.answer) (threadMain fuel) (fun _ t => host.Stopped t) s := by
    rw [threadMain, wp_bind]
    refine wp_loop _ (fun _ u => host.Good u) (fun _ _ _ => trivial) (fun _ u hu => ?_) fuel ()
      hstart.good
    refine wp_seq (wp_serverIteration hu) fun more v hv => ?_
    rw [wp_ite]
    split
    · exact hv
    · exact wp_stopServer hv
  exact wp_returned hwp hrun

/-! ## On the bench -/

/-- The bench with notices that arrive when the lease has been delivered. -/
def mailBench (notices : List Notice) : Host (benchEnv .revoked false) :=
  (benchHost _).withMailbox fun c _ =>
    match c with
    | .closeLease _ => notices
    | _ => []

def mailStart (notices : List Notice) : (mailBench notices).Sys :=
  { vars := {}
    world := (⟨benchStart, { time := 0 },
      takeoverScript ++ [{ time := 5000, hotplug := some true }]⟩, []) }

/-- The states of the bench. -/
def iterations (notices : List Notice) : Nat → Option (mailBench notices).Sys
  | 0 => some (mailStart notices)
  | n + 1 => (iterations notices n).bind fun s =>
    match serverIteration.run (serverHandler (mailBench notices).answer) s with
    | (some true, t) => some t
    | _ => none

/-- No answer says that the session is Android's. -/
def passes : Answered ServerCall.Ans → Bool
  | ⟨.status _, event⟩ => event.state != stateAndroid
  | _ => true

theorem state_of_passes {calls : ServerLog} (h : calls.all passes = true) (event : Message)
    (hmem : (⟨.status hotplugEvent, event⟩ : Answered ServerCall.Ans) ∈ calls) :
    event.state ≠ stateAndroid := by
  simpa [passes] using all_eq_true.1 h _ hmem

/-- The notices of the bench are consumed by a wake-up when the display is leased. -/
theorem bench_consumes (notices : List Notice) (f : ServerLog → Bool)
    (h : (iterations notices 4).any (fun s => decide (
      ((mailBench _).sessionOf s).state = stateLeased ∧
      (handleWake.run (serverHandler (mailBench _).answer) s).1 = some true ∧
      Host.history s = notices.map some ∧
      Host.history (handleWake.run (serverHandler (mailBench _).answer) s).2 =
        notices.map some ++ [none] ∧
      f ((mailBench _).since s (handleWake.run (serverHandler (mailBench _).answer) s).2) = true)) =
        true) :
    ∃ s t : (mailBench notices).Sys, iterations notices 4 = some s ∧
      ((mailBench _).sessionOf s).state = stateLeased ∧
      handleWake.run (serverHandler (mailBench _).answer) s = (some true, t) ∧
      Host.history s ++ ([] : List Notice).map some = notices.map some ∧
      Host.history t = Host.history s ++ ([] : List Notice).map some ++
        none :: ([] : List Notice).map some ∧ f ((mailBench _).since s t) = true := by
  obtain ⟨s, hs, hbench⟩ := (Option.any_eq_true _ _).1 h
  obtain ⟨hstate, hresult, hnotices, hconsumed, hf⟩ := of_decide_eq_true hbench
  have hfirst : Host.history s ++ ([] : List Notice).map some = notices.map some := by
    rw [hnotices, map_nil, append_nil]
  refine ⟨s, _, hs, hstate, Prod.ext hresult rfl, hfirst, ?_, hf⟩
  rw [hfirst]
  exact hconsumed

theorem unplug_handled_next_leased : ∃ s t : (mailBench [.notify false]).Sys,
    iterations [.notify false] 4 = some s ∧ ((mailBench _).sessionOf s).state = stateLeased ∧
    handleWake.run (serverHandler (mailBench _).answer) s = (some true, t) ∧
    Host.history t = [some (.notify false), none] ∧
    UnplugHandled s.vars.clientFd ((mailBench _).since s t) t.vars := by
  obtain ⟨s, t, hs, hstate, hrun, hfirst, htaken, -⟩ :=
    bench_consumes [.notify false] (fun _ => true) rfl
  have hlast : UnplugLast (Host.history s ++ ([] : List Notice).map some) := by
    rw [hfirst]
    exact ⟨[], [], rfl, not_mem_nil, not_mem_nil, not_mem_nil⟩
  refine ⟨s, t, hs, hstate, hrun, ?_, unplug_handled_next hrun htaken hlast not_mem_nil⟩
  rw [htaken, hfirst]
  rfl

theorem unplug_handled_iff_leased : ∃ s t : (mailBench [.notify false]).Sys,
    iterations [.notify false] 4 = some s ∧ ((mailBench _).sessionOf s).state = stateLeased ∧
    handleWake.run (serverHandler (mailBench _).answer) s = (some true, t) ∧
    UnplugHandled s.vars.clientFd ((mailBench _).since s t) t.vars := by
  obtain ⟨s, t, hs, hstate, hrun, hfirst, htaken, hpasses⟩ :=
    bench_consumes [.notify false] (·.all passes) rfl
  refine ⟨s, t, hs, hstate, hrun, (unplug_handled_iff (fun _ => rfl) hrun htaken ?_ ?_
    (state_of_passes hpasses)).2 ?_⟩
  · rw [hfirst]
    exact ⟨[], [], rfl, not_mem_nil, not_mem_nil⟩
  · rw [hfirst]
    simp
  · rw [hfirst]
    exact ⟨[], [], rfl, not_mem_nil, not_mem_nil, not_mem_nil⟩

/-- An unplug and a plug before the consumption: the broker never learns of the unplug, and no
    backstop is set. -/
theorem unplug_coalesced : ∃ s t : (mailBench [.notify false, .notify true]).Sys,
    iterations [.notify false, .notify true] 4 = some s ∧
    ((mailBench _).sessionOf s).state = stateLeased ∧
    handleWake.run (serverHandler (mailBench _).answer) s = (some true, t) ∧
    Host.history t = [some (.notify false), some (.notify true), none] ∧
    ¬UnplugHandled s.vars.clientFd ((mailBench _).since s t) t.vars := by
  obtain ⟨s, t, hs, hstate, hrun, hfirst, htaken, hcalls⟩ := bench_consumes
    [.notify false, .notify true]
    (fun calls => calls.all passes && calls.all fun x => noBackstop x.1) rfl
  rw [Bool.and_eq_true] at hcalls
  refine ⟨s, t, hs, hstate, hrun, ?_, not_unplugHandled (state_of_passes hcalls.1)
    (all_eq_true.1 hcalls.2)⟩
  rw [htaken, hfirst]
  rfl

/-- The server is told to stop when it has delivered a lease. -/
theorem stopped_server_released_leased : ∃ t : (mailBench [.stop]).Sys,
    (threadMain 5).run (serverHandler (mailBench _).answer) (mailStart [.stop]) = (some (), t) ∧
      (mailBench _).Stopped t := by
  have hresult : ((threadMain 5).run (serverHandler (mailBench [.stop]).answer)
      (mailStart [.stop])).1 = some () := rfl
  have hsession : ((mailBench [.stop]).sessionOf (mailStart [.stop])).Initial := benchStart_initial
  have hrun := Prod.ext (y := (some (), _)) hresult rfl
  exact ⟨_, hrun, stopped_server_released rfl rfl hsession hrun⟩

end HdmiLos.Composer
