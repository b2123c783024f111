import HdmiLos.Composer.Proofs.LogProofs

/-!
# The invariant of the server

Between the parts of an iteration the variables of the server are what its log says, and the session
is in a takeover only if the log says so. Each part of an iteration keeps this.
-/

namespace HdmiLos.Composer

open Interaction Prog

variable {ω α : Type} {env : Env ω} {host : Host env} {s t : host.Sys} {H : host.Sys → Prop}

/-! ## Weakest preconditions -/

@[simp] theorem wp_getServer (Q : Server → host.Sys → Prop) :
    wp (serverHandler host.answer) getServer Q s H = Q s.vars s := rfl

@[simp] theorem wp_setServer (f : Server → Server) (Q : Unit → host.Sys → Prop) :
    wp (serverHandler host.answer) (setServer f) Q s H = Q () { s with vars := f s.vars } := rfl

/-- The state after a call. -/
def Host.called (s : host.Sys) (c : ServerCall) (a : c.Ans) (w : host.World) : host.Sys :=
  { s with log := s.log ++ [⟨c, a⟩], world := w }

theorem wp_ask (c : ServerCall) {Q : c.Ans → host.Sys → Prop}
    (hQ : ∀ a w, host.answer c s.world = some (a, w) → Q a (Host.called s c a w)) :
    wp (serverHandler host.answer) (ask c) Q s :=
  wp_io c trivial hQ

/-! ## The invariant -/

/-- The server between two parts of an iteration. -/
structure Host.Good (host : Host env) (s : host.Sys) : Prop where
  deadline : s.vars.deadlineMs = (viewOf s.log).deadline
  continuous : s.vars.continuousLease = (viewOf s.log).continuous
  sound : (host.sessionOf s).Sound
  stage : (host.sessionOf s).Busy → (host.sessionOf s).phase = (viewOf s.log).stage
  told : Told s.log
  armed : (viewOf s.log).stage ≠ acquireNone → 0 < (viewOf s.log).deadline
  fires : Fires s.log
  client : HotplugSent s.log → s.vars.clientFd = none → (viewOf s.log).stage = acquireNone

variable {c : ServerCall} {a : c.Ans} {w : host.World}

/-- A call that keeps the stage, with the assignment that follows it. -/
theorem Host.Good.tells {vars : Server} {v : View} (h : host.Good s) (htame : c.tame = true)
    (hw : host.answer c s.world = some (a, w)) (hv : (viewOf s.log).step ⟨c, a⟩ = v)
    (hdeadline : vars.deadlineMs = v.deadline) (hcontinuous : vars.continuousLease = v.continuous)
    (hclient : vars.clientFd = s.vars.clientFd) (hstage : v.stage = (viewOf s.log).stage)
    (harmed : 0 < (viewOf s.log).deadline → 0 < v.deadline) (hfits : Fits s.log ⟨c, a⟩)
    (hcheck : ∀ now, checkedAt ⟨c, a⟩ = some now → now < s.vars.deadlineMs) :
    host.Good { Host.called s c a w with vars := vars } := by
  have hview : viewOf (s.log ++ [⟨c, a⟩]) = v := by rw [viewOf_snoc, hv]
  obtain ⟨hsound, hfalls⟩ := Host.tame_falls htame hw h.sound
  refine ⟨?_, ?_, hsound, fun hbusy => ?_, h.told.snoc hfits, ?_, h.fires.snoc ?_, ?_⟩
  · rw [Host.called, hview, hdeadline]
  · rw [Host.called, hview, hcontinuous]
  · rw [Host.called, hview, hstage]
    exact (hfalls hbusy).2.trans (h.stage (hfalls.busy hbusy))
  · rw [Host.called, hview, hstage]
    exact fun hne => harmed (h.armed hne)
  · rw [← h.deadline]
    exact hcheck
  · intro hsent
    rw [Host.called, hview, hstage, hclient]
    exact h.client hsent.of_snoc.1

theorem Host.Good.silent (h : host.Good s) (htame : c.tame = true)
    (hstep : ∀ v : View, v.step ⟨c, a⟩ = v) (hfits : Fits s.log ⟨c, a⟩)
    (hcheck : ∀ now, checkedAt ⟨c, a⟩ = some now → now < s.vars.deadlineMs)
    (hw : host.answer c s.world = some (a, w)) : host.Good (Host.called s c a w) :=
  h.tells htame hw (hstep _) h.deadline h.continuous rfl rfl id hfits hcheck

theorem Host.Good.plain (h : host.Good s) (hc : c.plain = true)
    (hw : host.answer c s.world = some (a, w)) : host.Good (Host.called s c a w) := by
  refine h.silent (ServerCall.tame_of_plain hc) (fun v => View.step_plain v hc a)
    (fits_plain hc _ a) (fun now hnow => ?_) hw
  rw [checkedAt_plain hc] at hnow
  cases hnow

/-- The calls and reads that leave the server's variables and the view alone. -/
def PlainAct : Act Server ServerCall → Prop
  | .get => True
  | .modify _ => False
  | .fresh => True
  | .io c => c.plain = true

theorem wp_plain {p : ServerProg α} (hp : p.Uses PlainAct) (h : host.Good s) :
    wp (serverHandler host.answer) p (fun _ t => host.Good t ∧ t.vars = s.vars) s := by
  refine wp_returns (wp_process_invariant (I := fun t => host.Good t ∧ t.vars = s.vars) ?_ ?_ ?_ hp
    ⟨h, rfl⟩) fun _ _ h => h
  · intro t f hf
    exact hf.elim
  · intro t _ ht
    exact ⟨⟨ht.1.deadline, ht.1.continuous, ht.1.sound, ht.1.stage, ht.1.told, ht.1.armed,
      ht.1.fires, ht.1.client⟩, ht.2⟩
  · intro t c a w hc ht hw
    exact ⟨ht.1.plain hc hw, ht.2⟩

theorem plain_ask (hc : c.plain = true) : (ask c).Uses PlainAct := uses_perform hc

theorem wp_ask_plain (hc : c.plain = true) (h : host.Good s) :
    wp (serverHandler host.answer) (ask c) (fun _ t => host.Good t ∧ t.vars = s.vars) s :=
  wp_plain (plain_ask hc) h

/-! ## Releases -/

/-- A release is called, pending hotplugs are processed, and no deadline is left. -/
theorem wp_releaseAndDisarm (reason : String)
    (hsound : (host.sessionOf s).Sound) (htold : Told s.log)
    (hfires : ∀ r, Fires (s.log ++ [⟨.release reason, r⟩])) :
    wp (serverHandler host.answer) (releaseAndDisarm reason)
      (fun _ t => host.Good t ∧ t.vars.clientFd = s.vars.clientFd ∧
        ¬(host.sessionOf t).Busy) s := by
  rw [releaseAndDisarm, wp_bind]
  refine wp_ask _ fun r w hw => ?_
  obtain ⟨hsound', hidle⟩ := Host.release_idle hw hsound
  rw [wp_bind]
  refine wp_ask _ fun _ w' hw' => ?_
  obtain ⟨hsound'', hfalls⟩ := Host.tame_falls (c := .processPendingHotplug) rfl hw' hsound'
  have hidle' : ¬(host.session w').vars.Busy := fun hbusy => hidle (hfalls.busy hbusy)
  have hview : viewOf (s.log ++ [⟨.release reason, r⟩] ++ [⟨.processPendingHotplug, ()⟩]) = {} := by
    rw [viewOf_snoc, viewOf_snoc]
    rfl
  rw [wp_bind, wp_setServer]
  refine ⟨⟨?_, ?_, hsound'', fun hbusy => absurd hbusy hidle', ?_, ?_, ?_, ?_⟩, rfl, hidle'⟩
  · exact (congrArg View.deadline hview).symm
  · exact (congrArg View.continuous hview).symm
  · exact Told.snoc (Told.snoc (x := ⟨.release reason, r⟩) htold trivial) trivial
  · intro hstage
    exact absurd (congrArg View.stage hview) hstage
  · refine (hfires r).snoc fun now hnow => ?_
    cases hnow
  · exact fun _ _ => congrArg View.stage hview

theorem wp_releaseAndDisarm_good (reason : String) (h : host.Good s) :
    wp (serverHandler host.answer) (releaseAndDisarm reason)
      (fun _ t => host.Good t ∧ t.vars.clientFd = s.vars.clientFd ∧ ¬(host.sessionOf t).Busy) s :=
  wp_releaseAndDisarm reason h.sound h.told fun r => h.fires.snoc fun now hnow => by cases hnow

/-! ## Deadlines -/

theorem failsafe_pos (now : Nat) : 0 < now + composerFailsafeMs := by
  unfold composerFailsafeMs
  omega

theorem backstop_pos (now : Nat) : 0 < now + disconnectBackstopMs := by
  unfold disconnectBackstopMs
  omega

theorem wp_renew (h : host.Good s) (hcontinuous : s.vars.continuousLease = true) :
    wp (serverHandler host.answer) (armDeadline .renewed composerFailsafeMs)
      (fun _ t => host.Good t ∧ t.vars.clientFd = s.vars.clientFd) s := by
  rw [armDeadline, wp_bind]
  refine wp_ask _ fun now w hw => ?_
  rw [wp_setServer]
  exact ⟨h.tells rfl hw rfl rfl h.continuous rfl rfl (fun _ => failsafe_pos now)
    (h.continuous.symm.trans hcontinuous) (fun _ h => by cases h), rfl⟩

theorem wp_disconnect (h : host.Good s) : wp (serverHandler host.answer) (do
      armDeadline .disconnected disconnectBackstopMs
      setServer fun s => { s with continuousLease := false })
      (fun _ t => host.Good t ∧ t.vars.clientFd = s.vars.clientFd) s := by
  rw [armDeadline, wp_bind, wp_bind]
  refine wp_ask _ fun now w hw => ?_
  rw [wp_setServer, wp_setServer]
  exact ⟨h.tells rfl hw rfl rfl rfl rfl rfl (fun _ => backstop_pos now) trivial
    (fun _ h => by cases h), rfl⟩

/-! ## Acquires -/

variable {client : Fd}

theorem wp_acquirePhase (phase : UInt32) (response : Message) (h : host.Good s)
    (hclient : s.vars.clientFd = some client) :
    wp (serverHandler host.answer) (acquirePhase phase response)
      (fun _ t => host.Good t ∧ t.vars.clientFd = s.vars.clientFd) s := by
  rw [acquirePhase, wp_bind]
  refine wp_ask _ fun a w hw => ?_
  obtain ⟨hsound, hok, hfail⟩ := Host.acquire_advances hw h.sound h.stage
  dsimp only
  rw [wp_ite]
  split
  · rename_i hresult
    obtain ⟨hnext, hphase⟩ := hok hresult
    rw [armDeadline, wp_bind, wp_bind]
    refine wp_ask _ fun now w' hw' => ?_
    obtain ⟨hsound', hfalls⟩ := Host.tame_falls (c := .bootTimeMs .acquired) rfl hw' hsound
    have hacquire : (viewOf s.log).step ⟨.acquire phase response, a⟩ =
        { viewOf s.log with stage := phase } := if_pos hresult
    have hview : viewOf (s.log ++ [⟨.acquire phase response, a⟩] ++
        [⟨.bootTimeMs .acquired, now⟩]) =
        { viewOf s.log with deadline := now + composerFailsafeMs, stage := phase } := by
      rw [viewOf_snoc, viewOf_snoc, hacquire]
      rfl
    rw [wp_setServer]
    refine ⟨⟨?_, ?_, hsound', ?_, ?_, ?_, ?_, ?_⟩, rfl⟩
    · exact (congrArg View.deadline hview).symm
    · rw [Host.called, Host.called, hview]
      exact h.continuous
    · intro hbusy
      rw [Host.called, Host.called, hview]
      exact (hfalls hbusy).2.trans (hphase (hfalls.busy hbusy))
    · have htold : Told (s.log ++ [⟨.acquire phase response, a⟩]) := h.told.snoc fun _ => hnext
      refine htold.snoc ⟨s.log, _, phase, rfl, ?_⟩
      exact if_pos hresult
    · intro _
      rw [Host.called, Host.called, hview]
      exact failsafe_pos now
    · refine (h.fires.snoc fun now' hnow' => ?_).snoc fun now' hnow' => ?_
      · cases hnow'
      · cases hnow'
    · intro _ hnone
      cases hclient.symm.trans hnone
  · rename_i hresult
    have hview : viewOf (s.log ++ [⟨.acquire phase response, a⟩]) = viewOf s.log := by
      rw [viewOf_snoc]
      exact if_neg hresult
    refine ⟨⟨?_, ?_, hsound, ?_, h.told.snoc ?_, ?_, h.fires.snoc ?_, ?_⟩, rfl⟩
    · rw [Host.called, hview]
      exact h.deadline
    · rw [Host.called, hview]
      exact h.continuous
    · intro hbusy
      rw [Host.called, hview]
      exact hfail hresult hbusy
    · exact fun hok => absurd hok hresult
    · rw [Host.called, hview]
      exact h.armed
    · intro now' hnow'
      cases hnow'
    · intro _ hnone
      cases hclient.symm.trans hnone

/-! ## Requests -/

/-- What a part of an iteration keeps. -/
def Host.Keeps (host : Host env) (s t : host.Sys) : Prop :=
  host.Good t ∧ t.vars.clientFd = s.vars.clientFd

theorem wp_keeps_of_plain {p : ServerProg α} (hp : p.Uses PlainAct) (h : host.Good s) :
    wp (serverHandler host.answer) p (fun _ t => host.Keeps s t) s :=
  wp_post (wp_plain hp h) fun _ t ht => ⟨ht.1, by rw [ht.2]⟩

/-- The state in which the timeout policy of a request has been stored. -/
def Host.settle (request : Message) (s : host.Sys) : host.Sys :=
  { s with vars := { s.vars with
    continuousLease := (policyOf request).getD s.vars.continuousLease } }

variable {request : Message}

theorem settle_none (h : policyOf request = none) (s : host.Sys) : Host.settle request s = s := by
  unfold Host.settle
  rw [h]
  rfl

/-- After a request has been received its policy is in the log. -/
theorem Host.Good.received (h : host.Good s)
    (hw : host.answer (.recv client) s.world = some (some request, w)) :
    host.Good (Host.settle request (Host.called s (.recv client) (some request) w)) := by
  have hpolicy : (policyOf request).getD s.vars.continuousLease =
      (policyOf request).getD (viewOf s.log).continuous := by rw [h.continuous]
  exact h.tells rfl hw rfl h.deadline hpolicy rfl rfl id trivial fun _ h => by cases h

theorem wp_servePing (request response : Message) (h : host.Good s) :
    wp (serverHandler host.answer) (servePing request response) (fun _ t => host.Keeps s t) s := by
  rw [servePing]
  refine wp_seq (wp_ask_plain (c := .status response) rfl h) fun response t ht => ?_
  have hkeeps : host.Keeps s t := ⟨ht.1, by rw [ht.2]⟩
  rw [wp_ite]
  split
  · rw [wp_bind, wp_getServer, wp_ite]
    split
    · exact hkeeps
    · rename_i hactive
      have hcontinuous : t.vars.continuousLease = true := by
        by_contra hne
        exact hactive (.inl (by simp [hne]))
      refine wp_seq (wp_renew ht.1 hcontinuous) fun _ u hu => ⟨hu.1, ?_⟩
      rw [hu.2, ht.2]
  · rw [wp_ite]
    split
    · exact hkeeps
    · exact hkeeps

/-- The policy of a request is that of an acquire of the first phase. -/
theorem policyOf_eq_none (h : request.opcode = opAcquire → unknownAcquireFlags request = 0 →
      requestedPhase request ≠ acquirePrepare) : policyOf request = none :=
  if_neg fun hp => h hp.2.2.1 hp.2.2.2.1 hp.2.2.2.2

theorem policyOf_eq_some (hmagic : request.magic = hdmiLosMagic)
    (hversion : request.version = hdmiLosVersion) (hop : request.opcode = opAcquire)
    (hflags : unknownAcquireFlags request = 0) (hphase : requestedPhase request = acquirePrepare) :
    policyOf request = some (hasFlag request.flags flagContinuous) :=
  if_pos ⟨hmagic, hversion, hop, hflags, hphase⟩

theorem wp_serveAcquire {response : Message}
    (hmagic : request.magic = hdmiLosMagic) (hversion : request.version = hdmiLosVersion)
    (hop : request.opcode = opAcquire) (h : host.Good (Host.settle request s))
    (hclient : s.vars.clientFd = some client) :
    wp (serverHandler host.answer) (serveAcquire request response) (fun _ t => host.Keeps s t)
      s := by
  rw [serveAcquire, wp_ite]
  split
  · rename_i hflags
    rw [settle_none (policyOf_eq_none fun _ h => absurd h hflags)] at h
    exact ⟨h, rfl⟩
  · rename_i hflags
    have hflags : unknownAcquireFlags request = 0 := by simpa using hflags
    dsimp only
    rw [wp_ite]
    split
    · rename_i hphase
      rw [wp_bind, wp_setServer]
      rw [Host.settle, policyOf_eq_some hmagic hversion hop hflags hphase] at h
      exact wp_post (wp_acquirePhase _ response h hclient) fun _ t ht => ht
    · rename_i hphase
      rw [settle_none (policyOf_eq_none fun _ _ => hphase)] at h
      rw [wp_bind, wp_getServer, wp_ite]
      split
      · exact ⟨h, rfl⟩
      · exact wp_acquirePhase _ response h hclient

theorem wp_serveOpcode {response : Message}
    (hmagic : request.magic = hdmiLosMagic) (hversion : request.version = hdmiLosVersion)
    (h : host.Good (Host.settle request s)) (hclient : s.vars.clientFd = some client) :
    wp (serverHandler host.answer) (serveOpcode request response) (fun _ t => host.Keeps s t)
      s := by
  have hother : request.opcode ≠ opAcquire → host.Good s := fun hop => by
    rwa [settle_none (policyOf_eq_none fun h => absurd h hop)] at h
  rw [serveOpcode, wp_ite]
  split
  · rename_i hop
    exact wp_keeps_of_plain (uses_bind (plain_ask rfl) fun _ => trivial)
      (hother (by rw [hop]; decide))
  rw [wp_ite]
  split
  · rename_i hop
    rw [wp_bind]
    exact wp_servePing request response (hother (by rw [hop]; decide))
  rw [wp_ite]
  split
  · rename_i hop
    exact wp_serveAcquire hmagic hversion hop h hclient
  rename_i hacquire
  rw [wp_ite]
  split
  · rw [wp_bind, serveRelease]
    refine wp_seq (wp_releaseAndDisarm_good _ (hother hacquire)) fun _ t ht => ?_
    refine wp_post (wp_ask_plain rfl ht.1) fun _ u hu => ⟨hu.1, ?_⟩
    rw [hu.2, ht.2.1]
  · exact ⟨hother hacquire, rfl⟩

theorem plain_closeLease (lease : Option Fd) : (closeLease lease).Uses PlainAct := by
  cases lease with
  | none => trivial
  | some fd => exact plain_ask rfl

theorem wp_deliver (client : Fd) (request response : Message) (lease : Option Fd)
    (h : host.Good s) :
    wp (serverHandler host.answer) (deliver client request response lease)
      (fun _ t => host.Keeps s t) s := by
  rw [deliver]
  refine wp_seq (wp_ask_plain rfl h) fun delivered t ht => ?_
  refine wp_seq (wp_plain (plain_closeLease lease) ht.1) fun _ u hu => ?_
  have hkeeps : host.Keeps s u := ⟨hu.1, by rw [hu.2, ht.2]⟩
  rw [wp_ite]
  split
  · refine wp_seq (wp_releaseAndDisarm_good _ hu.1) fun _ v hv => ⟨hv.1, ?_⟩
    rw [hv.2.1, hkeeps.2]
  · exact hkeeps

theorem wp_handleRequest
    (h : host.Good (Host.settle request s)) (hclient : s.vars.clientFd = some client) :
    wp (serverHandler host.answer) (handleRequest client request) (fun _ t => host.Keeps s t)
      s := by
  rw [handleRequest]
  dsimp only
  rw [wp_ite]
  split
  · rename_i hheader
    have hnone : policyOf request = none := if_neg fun hp => by
      rcases hheader with hm | hv
      · exact hm hp.1
      · exact hv hp.2.1
    rw [settle_none hnone] at h
    exact wp_keeps_of_plain (plain_ask rfl) h
  · rename_i hheader
    simp only [not_or, not_not] at hheader
    refine wp_seq (wp_serveOpcode hheader.1 hheader.2 h hclient) fun r t ht => ?_
    refine wp_post (wp_deliver client request r.1 r.2 ht.1) fun _ u hu => ⟨hu.1, ?_⟩
    rw [hu.2, ht.2]

/-! ## Clients -/

theorem wp_closeClient (client : Fd) (h : host.Good s) :
    wp (serverHandler host.answer) (closeClient client)
      (fun _ t => ∃ u, host.Good u ∧ s.log <+: u.log ∧
        t = { u with vars := { u.vars with clientFd := none } }) s := by
  rw [closeClient, wp_bind]
  refine wp_ask _ fun _ w hw => ?_
  have h₁ := h.plain rfl hw
  rw [wp_bind]
  refine wp_ask _ fun _ w' hw' => ?_
  refine ⟨_, h₁.plain rfl hw', ?_, rfl⟩
  exact (List.prefix_append _ _).trans (List.prefix_append _ _)

/-- A client that is gone takes its takeover with it. -/
theorem wp_dropClient (client : Fd) (h : host.Good s) :
    wp (serverHandler host.answer) (dropClient client)
      (fun _ t => host.Good t ∧ t.vars.clientFd = none) s := by
  rw [dropClient]
  refine wp_seq (wp_closeClient client h) ?_
  rintro _ t ⟨u, hu, -, rfl⟩
  refine wp_seq (wp_releaseAndDisarm _ hu.sound hu.told fun r => ?_) fun _ v hv => ⟨hv.1, hv.2.1⟩
  refine hu.fires.snoc fun now hnow => ?_
  cases hnow

theorem wp_readClient (h : host.Good s) :
    wp (serverHandler host.answer) readClient (fun _ t => host.Good t) s := by
  rw [readClient, wp_bind, wp_getServer]
  cases hclient : s.vars.clientFd with
  | none => exact h
  | some client =>
    dsimp only
    rw [wp_bind]
    refine wp_ask _ fun received w hw => ?_
    cases received with
    | none =>
      have hgood : host.Good (Host.called s (.recv client) none w) :=
        h.silent rfl (fun _ => rfl) trivial (fun now hnow => by cases hnow) hw
      exact wp_post (wp_dropClient client hgood) fun _ t ht => ht.1
    | some request =>
      dsimp only
      refine wp_seq (wp_handleRequest (h.received hw) hclient) fun delivered t ht => ?_
      rw [wp_ite]
      split
      · exact ht.1
      · exact wp_post (wp_dropClient client ht.1) fun _ u hu => hu.1

theorem wp_hangupClient (h : host.Good s) :
    wp (serverHandler host.answer) hangupClient (fun _ t => host.Good t) s := by
  rw [hangupClient, wp_bind, wp_getServer]
  cases s.vars.clientFd with
  | none => exact h
  | some client => exact wp_post (wp_dropClient client h) fun _ t ht => ht.1

theorem wp_acceptClient (h : host.Good s) : wp (serverHandler host.answer) acceptClient
      (fun _ t => host.Good t ∧ ∀ client, s.vars.clientFd = some client →
        t.vars.clientFd = some client) s := by
  rw [acceptClient]
  refine wp_seq (wp_ask_plain rfl h) fun accepted t ht => ?_
  have hkeep : ∀ client, s.vars.clientFd = some client → t.vars.clientFd = some client := by
    intro client hclient
    rw [ht.2, hclient]
  rw [wp_ite]
  split
  · refine wp_seq (wp_plain (uses_perform trivial) ht.1) fun fd u hu => ?_
    refine wp_seq (wp_ask_plain rfl hu.1) fun root v hv => ?_
    rw [wp_bind, wp_getServer, wp_ite]
    have hv_keep : v.vars.clientFd = t.vars.clientFd := by rw [hv.2, hu.2]
    split
    · refine wp_post (wp_ask_plain rfl hv.1) fun _ x hx => ⟨hx.1, fun client hclient => ?_⟩
      rw [hx.2, hv_keep, hkeep client hclient]
    · rename_i hfree
      have hnone : v.vars.clientFd = none := by
        by_contra hne
        exact hfree (.inr (Option.isSome_iff_ne_none.2 hne))
      refine ⟨⟨hv.1.deadline, hv.1.continuous, hv.1.sound, hv.1.stage, hv.1.told, hv.1.armed,
        hv.1.fires, fun _ hclient => by cases hclient⟩, fun client hclient => ?_⟩
      rw [hv_keep, hkeep client hclient] at hnone
      cases hnone
  · exact ⟨ht.1, hkeep⟩

/-! ## The deadline and the hotplug -/

theorem wp_checkDeadline (h : host.Good s) :
    wp (serverHandler host.answer) checkDeadline (fun _ t => host.Keeps s t) s := by
  rw [checkDeadline, wp_bind, wp_getServer, wp_ite]
  split
  · rename_i hdeadline
    rw [wp_bind]
    refine wp_ask _ fun now w hw => ?_
    rw [wp_ite]
    split
    · obtain ⟨hsound, -⟩ := Host.tame_falls (c := .bootTimeMs .check) rfl hw h.sound
      refine wp_seq (wp_releaseAndDisarm _ hsound (h.told.snoc trivial) fun r => ?_) ?_
      · exact h.fires.expired now r
      · exact fun _ t ht => ⟨ht.1, ht.2.1⟩
    · rename_i hearly
      refine ⟨h.silent rfl (fun _ => rfl) trivial (fun now' hnow' => ?_) hw, rfl⟩
      cases hnow'
      exact Nat.lt_of_not_le hearly
  · exact ⟨h, rfl⟩

/-- A hotplug event is sent, or it is lost together with the client. -/
theorem wp_sendHotplug {event : Message} (hevent : event.opcode = opHotplug) (h : host.Good s) :
    wp (serverHandler host.answer) (sendHotplug event)
      (fun _ t => host.Good t ∧ (HotplugSent t.log → t.vars.clientFd = s.vars.clientFd)) s := by
  rw [sendHotplug, wp_bind, wp_getServer]
  cases hclient : s.vars.clientFd with
  | none => exact ⟨h, fun _ => hclient⟩
  | some client =>
    dsimp only
    rw [wp_bind]
    refine wp_ask _ fun sent w hw => ?_
    have hgood := h.plain rfl hw
    rw [wp_ite]
    split
    · exact ⟨hgood, fun _ => hclient⟩
    · rename_i hlost
      have hsent : sent = false := by simpa using hlost
      refine wp_post (wp_closeClient client hgood) ?_
      rintro _ t ⟨u, hu, hlog, rfl⟩
      -- the log tells that the event was lost
      have hnot : ¬HotplugSent u.log := by
        intro hall
        have hmem : (⟨.send client event none, sent⟩ : Answered ServerCall.Ans) ∈ u.log :=
          hlog.subset (List.mem_append_right _ List.mem_cons_self)
        have hx := hall _ hmem
        rw [hsent] at hx
        simp [hotplugLost, hevent] at hx
      exact ⟨⟨hu.deadline, hu.continuous, hu.sound, hu.stage, hu.told, hu.armed, hu.fires,
        fun hall => absurd hall hnot⟩, fun hall => absurd hall hnot⟩

/-- The status keeps the opcode of the message that it fills. -/
theorem told_getHdmiLeaseStatus (status : Message) : (getHdmiLeaseStatus status).Told
      fun m => m.opcode = status.opcode ∧ m.status = statusOk := by
  refine told_after _ fun s => ?_
  dsimp only
  cases s.reportedDisplay with
  | none => exact ⟨rfl, rfl⟩
  | some x =>
    refine told_after _ fun _ => told_after _ fun _ => told_after _ fun a => ?_
    cases a with
    | none => exact ⟨rfl, rfl⟩
    | some a => exact ⟨rfl, rfl⟩

theorem wp_notifyBroker (connected : Bool) (h : host.Good s) :
    wp (serverHandler host.answer) (notifyBroker connected)
      (fun _ t => host.Good t ∧ (HotplugSent t.log → t.vars.clientFd = s.vars.clientFd)) s := by
  rw [notifyBroker, wp_bind]
  refine wp_ask _ fun event w hw => ?_
  have hgood := h.plain rfl hw
  have hop : event.opcode = opHotplug := by
    obtain ⟨u, v, -, hrun, -⟩ := host.inside (.status hotplugEvent) _ _ event w rfl hw
    exact (wp_returned (wp_told (told_getHdmiLeaseStatus _)) hrun).1
  dsimp only
  refine wp_seq (wp_sendHotplug (s := Host.called s (.status hotplugEvent) event w) hop hgood)
    fun _ t ht => ?_
  rw [wp_ite]
  split
  · refine wp_returns (wp_and (wp_disconnect ht.1) (wp_log_extends _)) fun _ u hu => ⟨hu.1.1, ?_⟩
    intro hsent
    rw [hu.1.2]
    exact ht.2 fun x hx => hsent x (hu.2.subset hx)
  · exact ht

theorem wp_handleWake (h : host.Good s) : wp (serverHandler host.answer) handleWake
      (fun _ t => host.Good t ∧ (HotplugSent t.log → t.vars.clientFd = s.vars.clientFd)) s := by
  have hsame : ∀ {t : host.Sys}, host.Good t ∧ t.vars = s.vars →
      host.Good t ∧ (HotplugSent t.log → t.vars.clientFd = s.vars.clientFd) :=
    fun {t} ht => ⟨ht.1, fun _ => by rw [ht.2]⟩
  rw [handleWake]
  refine wp_seq (wp_ask_plain rfl h) fun _ t ht => ?_
  refine wp_seq (wp_ask_plain rfl ht.1) fun running u hu => ?_
  have hu' : host.Good u ∧ u.vars = s.vars := ⟨hu.1, hu.2.trans ht.2⟩
  rw [wp_ite]
  split
  · refine wp_seq (wp_ask_plain rfl hu.1) fun pending v hv => ?_
    have hv' : host.Good v ∧ v.vars = s.vars := ⟨hv.1, hv.2.trans hu'.2⟩
    rw [wp_ite]
    split
    · refine wp_seq (wp_ask_plain rfl hv.1) fun connected x hx => ?_
      refine wp_seq (wp_notifyBroker connected hx.1) fun _ y hy => ⟨hy.1, fun hsent => ?_⟩
      rw [hy.2 hsent, hx.2, hv'.2]
    · exact hsame hv'
  · exact hsame hu'

/-! ## An iteration -/

theorem wp_whenSet {p : ServerProg Unit} (bit : Bool) (h : host.Good s) (hp : bit = true →
      wp (serverHandler host.answer) p (fun _ t => host.Good t) s) :
    wp (serverHandler host.answer) (whenSet bit p) (fun _ t => host.Good t) s := by
  rw [whenSet, wp_ite]
  split
  · rename_i hbit
    exact hp hbit
  · exact h

theorem wp_afterWake (ready : Readiness) (h : host.Good s) :
    wp (serverHandler host.answer) (afterWake ready) (fun _ t => host.Good t) s := by
  rw [afterWake]
  refine wp_seq (wp_checkDeadline h) fun _ t ht => ?_
  refine wp_seq (wp_whenSet _ ht.1 fun _ => ?_) fun _ u hu => ?_
  · exact wp_post (wp_acceptClient ht.1) fun _ u hu => hu.1
  refine wp_seq (wp_whenSet _ hu fun _ => wp_readClient hu) fun _ v hv => ?_
  exact wp_whenSet _ hv fun _ => wp_hangupClient hv

theorem plain_pollServer : pollServer.Uses PlainAct := by
  refine uses_bind ?_ fun timeout => uses_bind (uses_perform trivial) fun _ =>
    uses_bind (plain_ask rfl) fun _ => uses_ite trivial trivial
  exact uses_bind (uses_perform trivial) fun _ =>
    uses_ite (uses_bind (plain_ask rfl) fun _ => trivial) trivial

/-- An iteration of the server keeps the invariant. -/
theorem wp_serverIteration (h : host.Good s) :
    wp (serverHandler host.answer) serverIteration (fun _ t => host.Good t) s := by
  rw [serverIteration]
  refine wp_seq (wp_ask_plain rfl h) fun running t ht => ?_
  rw [wp_ite]
  split
  · refine wp_seq (wp_plain plain_pollServer ht.1) fun ready u hu => ?_
    refine wp_seq (wp_ask_plain rfl hu.1) fun running v hv => ?_
    rw [wp_ite]
    split
    · rw [wp_bind, wp_ite]
      have hafter : ∀ {x : host.Sys} (woken : Bool), host.Good x → wp (serverHandler host.answer)
            (if woken = true then do afterWake ready; pure true else pure false)
            (fun _ t => host.Good t) x := by
        intro x woken hx
        rw [wp_ite]
        split
        · rw [wp_bind]
          exact wp_afterWake ready hx
        · exact hx
      split
      · exact wp_post (wp_handleWake hv.1) fun woken x hx => hafter woken hx.1
      · exact hafter true hv.1
    · exact hv.1
  · exact ht.1

/-- The invariant holds at every boundary of the loop. -/
theorem Host.Reaches.good {P : host.Sys → host.Sys → Prop} (h : host.Reaches P s) :
    host.Good s := by
  induction h with
  | start hs hlog hsession =>
    have hview : viewOf ([] : ServerLog) = {} := rfl
    refine ⟨?_, ?_, ⟨.inl ?_, hsession.distinct⟩, ?_, ?_, ?_, ?_, ?_⟩
    · rw [hs, hlog, hview]
    · rw [hs, hlog, hview]
    · exact ⟨hsession.state, hsession.phase, hsession.displayIdx, hsession.info, hsession.noLease⟩
    · intro hbusy
      exact absurd hbusy (not_busy_of_released (.inl hsession.state))
    · rw [hlog]
      exact told_nil
    · rw [hlog, hview]
      intro hstage
      exact absurd rfl hstage
    · rw [hlog]
      exact fires_nil
    · intro _ _
      rw [hlog, hview]
  | step _ run _ ih => exact wp_returned (wp_serverIteration ih) run

end HdmiLos.Composer
