import HdmiLos.Broker.Proofs.CalmProofs
import HdmiLos.Broker.Proofs.TrafficProofs

/-!
# Sessions and the composer connection

What the session functions do to the owner of the display and to the connection that holds the
lease. `Steady` is a step that leaves both alone; `Told` is one that only talks to the composer.
-/

namespace HdmiLos

open Interaction Prog List

variable {ω α : Type} {env : Env ω} {s t u : Sys ω}

/-! ## Steps that grant no lease -/

/-- No lease was granted from `s` to `t`, and no request for one is left open. -/
def Keeps (s t : Sys ω) : Prop :=
  ∃ seg, t.log = s.log ++ seg ∧ ∀ k : Track, k.creating = none →
    (seg.foldl Track.step k).creating = none ∧ (seg.foldl Track.step k).granted = k.granted

theorem Keeps.refl (s : Sys ω) : Keeps s s :=
  ⟨[], by simp, fun _ hk => ⟨hk, rfl⟩⟩

theorem Keeps.trans (h : Keeps s t) (h' : Keeps t u) : Keeps s u := by
  obtain ⟨seg, hl, hk⟩ := h
  obtain ⟨seg', hl', hk'⟩ := h'
  refine ⟨seg ++ seg', by rw [hl', hl, append_assoc], fun k hc => ?_⟩
  obtain ⟨hc', hg⟩ := hk k hc
  obtain ⟨hc'', hg'⟩ := hk' _ hc'
  rw [foldl_append]
  exact ⟨hc'', hg'.trans hg⟩

variable {seg : List Event}

theorem keeps_of_kind (hl : t.log = s.log ++ seg) (hk : ∀ e ∈ seg, e.1.kind ≠ .composer) :
    Keeps s t := by
  refine ⟨seg, hl, fun k hc => ?_⟩
  rw [track_foldl_of_kind hk]
  exact ⟨hc, rfl⟩

theorem Beside.keeps (h : Apart s t) : Keeps s t := by
  obtain ⟨-, seg, hl, hk⟩ := h
  exact keeps_of_kind hl hk

theorem Beside.track (h : Apart s t) : track t.log = track s.log := by
  obtain ⟨-, seg, hl, hk⟩ := h
  rw [HdmiLos.track, hl, foldl_append, track_foldl_of_kind hk]
  rfl

theorem HungUp.keeps (h : HungUp s t) : Keeps s t := by
  obtain ⟨-, -, -, seg, hl, hk⟩ := h
  exact keeps_of_kind hl hk

theorem Exchanged.keeps {reply : Reply} (h : Exchanged false s reply t seg) : Keeps s t :=
  ⟨seg, h.log, fun k hk => ⟨h.ended k hk, h.kept rfl k⟩⟩

theorem receive_keeps (k : Track) (r : Received) (hk : k.creating = none) :
    (k.receive r).creating = none ∧ (k.receive r).granted = k.granted := by
  unfold Track.receive
  split
  · exact ⟨rfl, rfl⟩
  · split
    · exact ⟨hk, rfl⟩
    · split
      · exact ⟨rfl, rfl⟩
      · split
        · rename_i h
          simp [hk] at h
        · exact ⟨rfl, rfl⟩

theorem Receives.keeps {fd : Fd} {r : Received} (h : Receives fd r s t) : Keeps s t := by
  obtain ⟨-, tail, hl, hk⟩ := h
  refine ⟨_, hl, fun k hc => ?_⟩
  rw [foldl_cons, track_foldl_of_kind hk]
  exact receive_keeps k r hc

theorem Keeps.track (h : Keeps s t) (hc : (track s.log).creating = none) :
    (track t.log).creating = none ∧ (track t.log).granted = (track s.log).granted := by
  obtain ⟨seg, hl, hk⟩ := h
  rw [HdmiLos.track, hl, foldl_append]
  exact hk _ hc

/-! ## Steps that leave the session alone -/

theorem owner_active (h : t.vars.owner = s.vars.owner) : t.vars.active = s.vars.active :=
  congrArg Prod.fst h

theorem owner_armed (h : t.vars.owner = s.vars.owner) : t.vars.armed = s.vars.armed :=
  congrArg (fun v => v.2.1) h

/-- The step neither changes the owner nor the composer connection, nor grants a lease. -/
structure Steady (s t : Sys ω) : Prop where
  keeps : Keeps s t
  owner : t.vars.owner = s.vars.owner
  composerFd : t.vars.composerFd = s.vars.composerFd

theorem Steady.refl (s : Sys ω) : Steady s s := ⟨Keeps.refl s, rfl, rfl⟩

theorem Steady.trans (h : Steady s t) (h' : Steady t u) : Steady s u :=
  ⟨h.keeps.trans h'.keeps, h'.owner.trans h.owner, h'.composerFd.trans h.composerFd⟩

theorem Beside.steady (h : Apart s t) : Steady s t :=
  ⟨h.keeps, h.owner, h.composerFd⟩

variable {p : BrokerProg α}

theorem wp_steady_quiet (hp : p.Uses Quiet) : wp (sysHandler env) p (fun _ => Steady s) s :=
  wp_returns (wp_quiet hp) fun _ _ h => h.steady

theorem wp_steady_streams (hp : p.Uses Streams) : wp (sysHandler env) p (fun _ => Steady s) s :=
  wp_returns (wp_streams hp) fun _ _ h => h.steady

theorem wp_steady_files (hp : p.Uses Files) : wp (sysHandler env) p (fun _ => Steady s) s :=
  wp_returns (wp_files hp) fun _ _ h => h.steady

theorem wp_steady_apart (hp : p.Uses NoComposer) : wp (sysHandler env) p (fun _ => Steady s) s :=
  wp_returns (wp_apart hp) fun _ _ h => h.steady

theorem wp_steady_log (t : Transition) :
    wp (sysHandler env) (logTransition t) (fun _ => Steady s) s :=
  wp_steady_apart (uses_logAny t)

theorem wp_steady_bind {β : Type} {f : α → BrokerProg β}
    {Q : β → Sys ω → Prop} (hp : wp (sysHandler env) p (fun _ => Steady t) t)
    (h : Steady s t)
    (hf : ∀ a u, Steady s u → wp (sysHandler env) (f a) Q u) :
    wp (sysHandler env) (p >>= f) Q t := by
  rw [wp_bind]
  exact wp_post hp fun a u hu => hf a u (h.trans hu)

/-- `HandleComposerReadable` only notes the link; after a notification that the display is
    connected no unplug is pending. -/
theorem wp_handleComposerReadable (fd : Fd) :
    wp (sysHandler env) (handleComposerReadable fd) (fun r t => Steady s t ∧
      (r = .connected → ∃ seg, t.log = s.log ++ seg ∧
        ∀ p, unplugAfter p (composerMessages seg) = false)) s := by
  simp only [handleComposerReadable, wp_bind]
  refine wp_post (wp_recvWithFd fd) ?_
  rintro ⟨r, passed⟩ t ht
  refine wp_post (ht.closeIfOpen passed) ?_
  rintro _ u hu
  simp only [wp_ite, wp_pure, wp_bind, wp_update]
  have hsteady : Steady s u :=
    ⟨hu.keeps, congrArg Broker.owner hu.vars, congrArg Broker.composerFd hu.vars⟩
  split
  · exact ⟨hsteady, by simp⟩
  · rename_i hval
    have hnoted : Steady s { u with vars := u.vars.noteHotplug r.message } :=
      ⟨hsteady.keeps, hsteady.owner, hsteady.composerFd⟩
    split
    · rename_i hconn
      refine wp_returns (wp_quiet (uses_logTransition rfl)) ?_
      rintro _ v hv
      refine ⟨hnoted.trans hv.steady, fun _ => ?_⟩
      obtain ⟨-, tail, hl, hk⟩ := hu
      obtain ⟨-, tail', hl', hk'⟩ := hv
      refine ⟨⟨.recvWithFd fd, r⟩ :: tail ++ tail', ?_, fun p => ?_⟩
      · rw [hl']
        simp [hl]
      · have hvalid : (r.ok && r.message.validComposer) = true := by
          revert hval
          cases r.ok <;> cases r.message.validComposer <;> simp
        have hseg := composerMessages_received [] tail fd r hk
        rw [composerMessages_append, composerMessages_of_kind hk', append_nil]
        rw [nil_append] at hseg
        rw [hseg]
        simp [composerMessages, hvalid, unplugAfter, hconn]
    · refine wp_returns (wp_quiet (uses_logTransition rfl)) ?_
      exact fun _ v hv => ⟨hnoted.trans hv.steady, by simp⟩

/-! ## Waiting for the agent -/

theorem steadyParts : WaitParts (Follows (sysHandler env) (@Steady ω)) where
  toCompositional := follows_compositional Steady.refl Steady.trans
  passive hp _ := wp_steady_quiet (uses_of_passive hp)
  read fd wanted _ := wp_steady_streams (uses_waitAgentRead fd wanted)
  hear fd _ := wp_post (wp_handleComposerReadable fd) fun _ _ h => h.1
  lose s := ⟨Keeps.refl s, rfl, rfl⟩

theorem wp_waitAgent (n : Nat) (wanted : UInt16) (timeoutMs : Int) (m : Message) :
    wp (sysHandler env) (waitAgent n wanted timeoutMs m) (fun _ => Steady s) s :=
  steadyParts.waitAgent wanted timeoutMs m s

/-! ## Talking to the composer -/

/-- No request for a lease is waiting for its response. -/
def Idle (s : Sys ω) : Prop := (track s.log).creating = none

/-- The step leaves the owner alone and finishes the requests it makes. -/
structure Talked (s t : Sys ω) : Prop where
  idle : Idle s → Idle t
  owner : t.vars.owner = s.vars.owner

theorem Talked.trans (h : Talked s t) (h' : Talked t u) : Talked s u :=
  ⟨fun hi => h'.idle (h.idle hi), h'.owner.trans h.owner⟩

theorem Keeps.idle (h : Keeps s t) (hi : Idle s) : Idle t := (h.track hi).1

theorem Steady.talked (h : Steady s t) : Talked s t := ⟨h.keeps.idle, h.owner⟩

theorem Exchanged.talked {create : Bool} {reply : Reply} (h : Exchanged create s reply t seg) :
    Talked s t := by
  refine ⟨fun hi => ?_, h.owner⟩
  rw [Idle, track, h.log, foldl_append]
  exact h.ended _ hi

theorem wp_talked_request (n : Nat) (opcode : UInt16) (m : Message) (wantLease : Bool)
    (flags : UInt32) : wp (sysHandler env) (composerRequest n opcode m wantLease flags)
      (fun _ => Talked s) s :=
  wp_post (wp_composerRequest n opcode m wantLease flags) fun _ _ ⟨_, h⟩ => h.talked

theorem wp_talked_quiet (hp : p.Uses Quiet) : wp (sysHandler env) p (fun _ => Talked s) s :=
  wp_post (wp_steady_quiet hp) fun _ _ h => h.talked

theorem wp_talked_streams (hp : p.Uses Streams) : wp (sysHandler env) p (fun _ => Talked s) s :=
  wp_post (wp_steady_streams hp) fun _ _ h => h.talked

theorem wp_talked_log (t : Transition) :
    wp (sysHandler env) (logTransition t) (fun _ => Talked s) s :=
  wp_post (wp_steady_log t) fun _ _ h => h.talked

theorem wp_talked_bind {β : Type} {f : α → BrokerProg β}
    {Q : β → Sys ω → Prop} (hp : wp (sysHandler env) p (fun _ => Talked t) t)
    (h : Talked s t)
    (hf : ∀ a u, Talked s u → wp (sysHandler env) (f a) Q u) :
    wp (sysHandler env) (p >>= f) Q t := by
  rw [wp_bind]
  exact wp_post hp fun a u hu => hf a u (h.trans hu)

theorem Talked.refl (s : Sys ω) : Talked s s := (Steady.refl s).talked

/-! ## Release -/

/-- The session is over: the display is not taken and nothing is armed. -/
structure Released (s t : Sys ω) : Prop where
  keeps : Keeps s t
  active : t.vars.active = false
  armed : t.vars.armed = false

theorem wp_releaseAgent (n : Nat) : wp (sysHandler env) (releaseAgent n) (fun _ => Steady s) s := by
  simp only [releaseAgent, wp_bind, wp_getBroker]
  cases s.vars.agentFd with
  | none => exact Steady.refl s
  | some agent =>
    refine wp_steady_bind (wp_steady_quiet (uses_makeMessage _)) (Steady.refl s) fun m t ht => ?_
    refine wp_steady_bind (wp_steady_streams (uses_call (by simp [Io.kind]))) ht fun ok u hu => ?_
    rw [wp_ite]
    split
    · exact wp_seq (wp_waitAgent _ _ _ _) fun _ _ h => hu.trans h
    · exact hu

theorem wp_releaseComposer (n : Nat) (tell : Bool) : wp (sysHandler env) (releaseComposer n tell)
      (fun _ t => Keeps s t ∧ t.vars.owner = s.vars.owner) s := by
  simp only [releaseComposer, wp_bind, wp_getBroker]
  rw [wp_ite]
  split
  · exact wp_seq (wp_composerRequest _ _ _ _ _) fun _ _ ⟨_, h⟩ => ⟨h.keeps, h.owner⟩
  · exact ⟨Keeps.refl s, rfl⟩

theorem wp_releaseArmed : wp (sysHandler env) releaseArmed
    (fun _ t => Keeps s t ∧ t.vars.active = s.vars.active ∧ t.vars.armed = false) s := by
  simp only [releaseArmed, wp_bind, wp_getBroker, wp_ite, wp_update]
  split
  · refine wp_post (wp_steady_files uses_recoverPreferredMode) fun _ t ht => ?_
    have hactive := owner_active ht.owner
    have harmed := owner_armed ht.owner
    exact ⟨ht.keeps, hactive, harmed⟩
  · rename_i h
    exact ⟨Keeps.refl s, rfl, by simpa using h⟩

/-- `Release` of an active session leaves the display to Android. -/
theorem wp_release (n : Nat) (reason : String) (tell : Bool) (hs : s.vars.active = true) :
    wp (sysHandler env) (release n reason tell) (fun _ => Released s) s := by
  simp only [release, wp_bind, wp_getBroker, hs, Bool.not_true, Bool.false_and, wp_ite,
    Bool.false_eq_true, if_false, wp_update]
  refine wp_post (wp_steady_log _) fun _ t ht => ?_
  refine wp_post (wp_releaseAgent n) fun _ u hu => ?_
  refine wp_post (wp_releaseComposer n tell) fun _ v hv => ?_
  refine wp_post (wp_steady_quiet uses_cleanupGuards) fun _ w hw => ?_
  refine wp_post wp_releaseArmed fun _ x hx => ?_
  refine wp_post (wp_steady_quiet (uses_setDetail _)) fun _ y hy => ?_
  refine wp_post (wp_steady_log _) fun _ z hz => ?_
  have hend := hy.trans hz
  have hkeeps := ((ht.trans hu).keeps.trans hv.1).trans (hw.keeps.trans (hx.1.trans hend.keeps))
  refine ⟨hkeeps, ?_, (owner_armed hend.owner).trans hx.2.2⟩
  rw [owner_active hend.owner, hx.2.1, owner_active hw.owner]

/-! ## Start -/

/-- An active session holds the connection on which its lease was granted. -/
structure OwnsLease (s : Sys ω) : Prop where
  idle : Idle s
  lease : s.vars.active = true → ∃ c, s.vars.composerFd = some c ∧ (track s.log).granted = some c

theorem OwnsLease.inactive (hi : Idle s) (ha : s.vars.active = false) : OwnsLease s :=
  ⟨hi, by simp [ha]⟩

theorem OwnsLease.steady (h : OwnsLease s) (ht : Steady s t) : OwnsLease t := by
  refine ⟨ht.keeps.idle h.idle, fun ha => ?_⟩
  obtain ⟨c, hc, hg⟩ := h.lease ((owner_active ht.owner).symm.trans ha)
  exact ⟨c, ht.composerFd.trans hc, (ht.keeps.track h.idle).2.trans hg⟩

theorem wp_prepareAgent (n : Nat) (agent : Fd) (mode : UInt32) :
    wp (sysHandler env) (prepareAgent n agent mode) (fun _ => Steady s) s := by
  unfold prepareAgent
  refine wp_steady_bind (wp_steady_quiet (uses_makeMessage _)) (Steady.refl s) fun m t ht => ?_
  refine wp_steady_bind (wp_steady_streams (uses_call (by simp [Io.kind]))) ht fun sent t ht => ?_
  rw [wp_ite]
  split
  · exact wp_steady_bind (wp_waitAgent _ _ _ _) ht fun _ _ h => h
  · exact ht

theorem wp_startPrepare (n : Nat) (agent : Fd) (mode : UInt32) :
    wp (sysHandler env) (startPrepare n agent mode) (fun _ => Steady s) s := by
  unfold startPrepare
  refine wp_steady_bind (wp_steady_log _) (Steady.refl s) fun _ t ht => ?_
  refine wp_steady_bind (wp_prepareAgent n agent mode) ht fun prepared t ht => ?_
  rw [wp_ite]
  split
  · exact wp_steady_bind (wp_steady_log _) ht fun _ _ h => h
  · refine wp_steady_bind (wp_steady_streams (uses_sendAgentStop agent)) ht fun _ t ht => ?_
    exact wp_steady_bind (wp_steady_quiet uses_cleanupGuards) ht fun _ _ h => h

/-- A phase of the acquisition: the create phase leaves the lease with the connection. -/
theorem wp_startAcquire (n : Nat) (agent : Fd) (stage : Stage) (flags : UInt32)
    (wantLease : Bool) (text : String) :
    wp (sysHandler env) (startAcquire n agent stage flags wantLease text) (fun r t => Talked s t ∧
      (∀ reply, r = Sum.inr reply → createRequest opAcquire flags = true →
        ∃ c, t.vars.composerFd = some c ∧ (track t.log).granted = some c)) s := by
  unfold startAcquire
  refine wp_talked_bind (wp_talked_log _) (Talked.refl s) fun _ t ht => ?_
  refine wp_seq (wp_composerRequest _ _ _ _ _) fun reply u ⟨seg, hu⟩ => ?_
  have hsu := ht.trans hu.talked
  rw [wp_ite]
  split
  · refine wp_talked_bind (wp_talked_log _) hsu fun _ v hv => ?_
    refine wp_talked_bind (wp_talked_streams (uses_sendAgentStop agent)) hv fun _ v hv => ?_
    refine wp_talked_bind (wp_talked_quiet (uses_closeIfOpen _)) hv fun _ v hv => ?_
    refine wp_talked_bind (wp_talked_request _ _ _ _ _) hv fun _ v hv => ?_
    refine wp_talked_bind (wp_talked_quiet uses_cleanupGuards) hv fun _ v hv => ?_
    exact ⟨hv, by simp⟩
  · rename_i hok
    have hreply : reply.ok = true ∧ reply.message.status = statusOk := by
      revert hok
      cases reply.ok <;> simp +contextual
    rw [wp_bind]
    refine wp_returns (wp_apart (uses_logAny _)) fun _ v hv => ?_
    refine ⟨hsu.trans hv.steady.talked, fun reply' _ hcreate => ?_⟩
    obtain ⟨c, hc, -⟩ := hu.connection hreply.1
    have hgranted : (track u.log).granted = u.vars.composerFd := by
      rw [track, hu.log, foldl_append]
      exact hu.created hcreate hreply.1 hreply.2 _
    exact ⟨c, hv.composerFd.trans hc, by rw [hv.track, hgranted, hc]⟩

/-- The last step of `Start` talks to the composer only when it fails. -/
theorem wp_startAgent (n : Nat) (agent : Fd) (mode : UInt32) (created : Message) (lease : Fd) :
    wp (sysHandler env) (startAgent n agent mode created lease)
      (fun r t => Talked s t ∧ (r = Sum.inr () → Steady s t)) s := by
  unfold startAgent
  refine wp_steady_bind (wp_steady_log _) (Steady.refl s) fun _ t ht => ?_
  refine wp_steady_bind (wp_steady_quiet (uses_makeMessage _)) ht fun m t ht => ?_
  refine wp_steady_bind (wp_steady_apart (uses_call (by simp [Io.kind]))) ht fun sent t ht => ?_
  refine wp_steady_bind (wp_steady_quiet (uses_quietCall rfl)) ht fun _ t ht => ?_
  rw [wp_ite]
  split
  · refine wp_talked_bind (wp_talked_request _ _ _ _ _) ht.talked fun _ u hu => ?_
    exact wp_talked_bind (wp_talked_quiet uses_cleanupGuards) hu fun _ _ h => ⟨h, by simp⟩
  · refine wp_steady_bind (wp_waitAgent _ _ _ _) ht fun r t ht => ?_
    obtain ⟨ready, response⟩ := r
    cases ready with
    | true =>
      exact wp_steady_bind (wp_steady_log _) ht fun _ _ h => ⟨h.talked, fun _ => h⟩
    | false =>
      refine wp_talked_bind (wp_talked_streams (uses_sendAgentStop agent)) ht.talked
        fun _ u hu => ?_
      refine wp_talked_bind (wp_talked_request _ _ _ _ _) hu fun reply u hu => ?_
      refine wp_talked_bind (wp_talked_quiet uses_cleanupGuards) hu fun _ u hu => ?_
      rw [wp_ite]
      split
      · exact ⟨hu, by simp⟩
      · exact ⟨hu, by simp⟩

theorem wp_startActive (mode : UInt32) (hi : Idle s)
    (hl : ∃ c, s.vars.composerFd = some c ∧ (track s.log).granted = some c) :
    wp (sysHandler env) (startActive mode) (fun _ => OwnsLease) s := by
  simp only [startActive, wp_bind, wp_update, wp_getBroker]
  have hs : OwnsLease { s with vars := { s.vars with active := true } } := ⟨hi, fun _ => hl⟩
  have hbeat : (startHeartbeat s.vars.sessionContinuous).Uses Quiet :=
    uses_ite (uses_bind uses_monotonicMs fun _ => uses_update fun _ => rfl) trivial
  refine wp_post (wp_steady_quiet hbeat) fun _ t ht => ?_
  exact wp_post (wp_steady_quiet (uses_setDetail _)) fun _ u hu => hs.steady (ht.trans hu)

theorem uses_startDeadline (continuous : Bool) : (startDeadline continuous).Uses Quiet :=
  uses_ite (uses_update fun _ => rfl) (uses_bind uses_monotonicMs fun _ => uses_update fun _ => rfl)

/-- A takeover that fails leaves the display alone, and one that succeeds holds its lease. -/
theorem wp_startGuarded (n : Nat) (agent : Fd) (mode : UInt32) (hi : Idle s)
    (ha : s.vars.active = false) :
    wp (sysHandler env) (startGuarded n agent mode) (fun _ => OwnsLease) s := by
  have hfail : ∀ {t : Sys ω}, Talked s t → OwnsLease t := fun ht =>
    OwnsLease.inactive (ht.idle hi) ((owner_active ht.owner).trans ha)
  simp only [startGuarded, wp_bind, wp_update, wp_getBroker]
  refine wp_post (wp_talked_quiet (uses_startDeadline _)) fun _ t ht => ?_
  have ht : Talked s t := ⟨ht.idle, ht.owner⟩
  refine wp_post (wp_startPrepare n agent mode) fun r u hu => ?_
  have hu := ht.trans hu.talked
  cases r with
  | inl failure => exact hfail hu
  | inr _ =>
    refine wp_seq (wp_startAcquire _ _ _ _ _ _) fun r v hv => ?_
    have hsv := hu.trans hv.1
    cases r with
    | inl failure => exact hfail hsv
    | inr _ =>
      refine wp_seq (wp_startAcquire _ _ _ _ _ _) fun r w hw => ?_
      have hsw := hsv.trans hw.1
      cases r with
      | inl failure => exact hfail hsw
      | inr _ =>
        refine wp_seq (wp_startAcquire _ _ _ _ _ _) fun r x hx => ?_
        have hsx := hsw.trans hx.1
        cases r with
        | inl failure => exact hfail hsx
        | inr created =>
          cases hlease : created.leaseFd with
          | none => simpa only [hlease, wp_pure] using hfail hsx
          | some lease =>
            have hcreate : createRequest opAcquire
                (acquireFlags s.vars.agentContinuous acquireCreate) = true := by
              cases s.vars.agentContinuous <;> decide
            obtain ⟨c, hc, hg⟩ := hx.2 created rfl hcreate
            simp only [hlease, wp_bind]
            refine wp_post (wp_startAgent n agent mode _ lease) fun r y hy => ?_
            cases r with
            | inl failure => exact hfail (hsx.trans hy.1)
            | inr _ =>
              have hy := hy.2 rfl
              have hix := hsx.idle hi
              exact wp_startActive mode (hy.keeps.idle hix)
                ⟨c, hy.composerFd.trans hc, (hy.keeps.track hix).2.trans hg⟩

/-- `Start` keeps `OwnsLease`. -/
theorem wp_start (n : Nat) (mode : UInt32) (h : OwnsLease s) :
    wp (sysHandler env) (start n mode) (fun _ => OwnsLease) s := by
  simp only [start, wp_bind, wp_getBroker]
  rw [wp_ite]
  split
  · exact h
  · rename_i hactive
    rw [wp_ite]
    split
    · exact h
    · refine wp_seq (wp_steady_quiet uses_closedGate) fun gate t ht => ?_
      cases gate with
      | some text => exact h.steady ht
      | none =>
        cases s.vars.agentFd with
        | none => exact h.steady ht
        | some agent =>
          simp only [wp_bind]
          refine wp_post (wp_steady_quiet uses_acquireGuards) fun failed u hu => ?_
          have hu := ht.trans hu
          cases failed with
          | some text => exact h.steady hu
          | none =>
            refine wp_startGuarded n agent mode (hu.keeps.idle h.idle) ?_
            rw [owner_active hu.owner]
            simpa using hactive

end HdmiLos
