import HdmiLos.Composer.Refusal
import HdmiLos.Composer.ServerBench
import HdmiLos.Composer.Proofs.IterationProofs

/-!
# Refused requests change nothing

The session judges a request before it changes more than its detail text. The server stores the
timeout policy of a takeover before it asks the session.
-/

namespace HdmiLos.Composer

open Interaction Prog List

variable {ω : Type} {env : Env ω}

/-! ## Acquires of the session -/

/-- The request has been judged: what the program returns is no refusal. -/
abbrev Judged (p : SessionProg Acquired) : Prop :=
  p.Told fun r => refuses r.result = false

section Judged

variable {status : Message} {slot : Slot} {display : Display} {result : Int} {detail : String}

theorem judged_acquireFailed (h : refuses result = false) :
    Judged (acquireFailed status result detail) :=
  fun _ => h

theorem judged_abandonTakeover {paused refresh : Bool} (h : refuses result = false) :
    Judged (abandonTakeover status slot display result detail paused refresh) :=
  told_after _ fun _ => told_after _ fun _ => told_after _ fun _ => told_after _ fun _ => fun _ => h

theorem judged_prepareSelected : Judged (prepareSelected status slot display) := by
  refine told_after _ fun ready => ?_
  split
  · refine told_after _ fun prepared => ?_
    cases prepared with
    | none => exact judged_acquireFailed rfl
    | some lease => exact told_after _ fun _ => fun _ => rfl
  · exact judged_acquireFailed rfl

theorem judged_pauseSelected : Judged (pauseSelected status slot display) := by
  refine told_after _ fun paused => ?_
  split
  · exact told_after _ fun _ => told_after _ fun _ => fun _ => rfl
  · exact judged_abandonTakeover rfl

theorem judged_createSelected : Judged (createSelected status slot display) := by
  refine told_after _ fun s => told_after _ fun created => ?_
  cases created with
  | none => exact judged_abandonTakeover rfl
  | some lease =>
    dsimp only
    cases lease.leaseFd with
    | none => exact judged_abandonTakeover rfl
    | some fd => exact told_after _ fun _ => fun _ => rfl

theorem judged_acquireSelected {phase : UInt32} : Judged (acquireSelected phase status slot) := by
  refine told_after _ fun s => ?_
  cases s.displays slot with
  | none => exact judged_acquireFailed rfl
  | some display =>
    refine told_after _ fun forbidden => ?_
    split
    · exact judged_abandonTakeover rfl
    · split
      · exact judged_pauseSelected
      · exact judged_createSelected

end Judged

/-- The session after a refusal, whatever else may have happened. -/
def Refused (s : Sys ω) (r : Acquired) (t : Sys ω) : Prop :=
  refuses r.result = true → ∃ detail, t.vars = { s.vars with detail := detail }

theorem wp_judged {p : SessionProg Acquired} (hp : Judged p) {s t : Sys ω} :
    wp (sysHandler env) p (Refused s) t := by
  refine wp_post (wp_told hp) fun r u hr hrefused => ?_
  rw [hr] at hrefused
  cases hrefused

theorem wp_acquireHdmiLease_refused {phase : UInt32} {status : Message} {s : Sys ω} :
    wp (sysHandler env) (acquireHdmiLease phase status) (Refused s) s := by
  refine wp_acquireHdmiLease_cases (fun _ => ?_) (fun result detail _ _ => ⟨detail, rfl⟩)
    fun slot _ _ _ => wp_judged judged_acquireSelected
  rw [acquirePreparePhase, wp_bind, wp_getSession, wp_ite]
  split
  · exact fun _ => ⟨_, rfl⟩
  · refine wp_judged (told_after _ fun forbidden => ?_)
    split
    · exact fun _ => rfl
    · refine told_after _ fun _ => told_after _ fun t => ?_
      split
      · split
        · exact judged_acquireFailed rfl
        · exact judged_prepareSelected
      · exact judged_acquireFailed rfl

/-! ## Requests to the server -/

section Requests

variable {host : Host env} {s t : host.Sys} {request response : Message}

/-- What a part of serving a request keeps if the request is refused. -/
def Host.Refused (host : Host env) (s : host.Sys) (r : Message × Option Fd) (t : host.Sys) : Prop :=
  refuses r.1.status = true → host.Untouched s t

theorem not_refused {r : Message × Option Fd} (h : r.1.status = statusOk) : host.Refused s r t := by
  intro hrefused
  rw [h] at hrefused
  cases hrefused

theorem Host.Untouched.refl (s : host.Sys) : host.Untouched s s := ⟨rfl, _, rfl⟩

/-- A call that does not touch the stage of a takeover. -/
theorem Host.Alone.tame (halone : host.Alone) {c : ServerCall} {a : c.Ans} {w : host.World}
    (hc : c.tame = true) (hw : host.answer c t.world = some (a, w)) (h : host.Untouched s t) :
    host.Untouched s (Host.called t c a w) := by
  refine ⟨h.1, ?_⟩
  suffices hvars : (host.session w).vars = host.sessionOf t by
    rw [Host.sessionOf, Host.called, hvars]
    exact h.2
  cases hcontroller : c.controller with
  | none => rw [halone.outside c _ a w hcontroller hw, Host.sessionOf]
  | some p =>
    exact vars_of_inert (ServerCall.inert_of_tame hc hcontroller)
      (halone.inside c p _ a w hcontroller hw)

theorem wp_acquirePhase_refused (halone : host.Alone) (phase : UInt32) (h : host.Untouched s t) :
    wp (serverHandler host.answer) (acquirePhase phase response) (host.Refused s) t := by
  rw [acquirePhase, wp_bind]
  refine wp_ask _ fun a w hw => ?_
  dsimp only
  rw [wp_ite]
  split
  · rename_i hok
    exact wp_seq (wp_returns (wp_log_extends _) fun _ _ h => h) fun _ u _ => not_refused hok
  · intro hrefused
    obtain ⟨detail, hdetail⟩ := wp_returned wp_acquireHdmiLease_refused
      (halone.inside (.acquire phase response) _ _ a w rfl hw) hrefused
    obtain ⟨detail', hdetail'⟩ := h.2
    refine ⟨h.1, detail, ?_⟩
    rw [Host.sessionOf, Host.called, hdetail, ← Host.sessionOf, hdetail']

theorem wp_servePing_refused (halone : host.Alone) :
    wp (serverHandler host.answer) (servePing request response)
      (fun m => host.Refused s (m, none)) s := by
  rw [servePing, wp_bind]
  refine wp_ask _ fun m w hw => ?_
  have hsame := halone.tame rfl hw (.refl s)
  have hok : m.status = statusOk := (wp_returned (wp_told (told_getHdmiLeaseStatus _))
    (halone.inside (.status response) _ _ m w rfl hw)).2
  rw [wp_ite]
  split
  · rw [wp_bind, wp_getServer, wp_ite]
    split
    · exact fun _ => hsame
    · exact wp_seq (wp_returns (wp_log_extends _) fun _ _ h => h) fun _ u _ => not_refused hok
  · rw [wp_ite]
    split
    · exact fun _ => hsame
    · exact not_refused hok

theorem wp_serveAcquire_refused (halone : host.Alone) (hmagic : request.magic = hdmiLosMagic)
    (hversion : request.version = hdmiLosVersion) (hop : request.opcode = opAcquire) :
    wp (serverHandler host.answer) (serveAcquire request response)
      (host.Refused (Host.settle request s)) s := by
  rw [serveAcquire, wp_ite]
  split
  · rename_i hflags
    rw [settle_none (policyOf_eq_none fun _ h => absurd h hflags)]
    exact fun _ => .refl s
  · rename_i hflags
    dsimp only
    rw [wp_ite]
    split
    · rename_i hphase
      rw [wp_bind, wp_setServer, Host.settle,
        policyOf_eq_some hmagic hversion hop (by simpa using hflags) hphase]
      exact wp_acquirePhase_refused halone _ (.refl _)
    · rename_i hphase
      rw [settle_none (policyOf_eq_none fun _ _ => hphase), wp_bind, wp_getServer, wp_ite]
      split
      · exact fun _ => .refl s
      · exact wp_acquirePhase_refused halone _ (.refl s)

theorem wp_serveOpcode_refused (halone : host.Alone) (hmagic : request.magic = hdmiLosMagic)
    (hversion : request.version = hdmiLosVersion) :
    wp (serverHandler host.answer) (serveOpcode request response)
      (host.Refused (Host.settle request s)) s := by
  by_cases hop : request.opcode = opAcquire
  · have hserve : serveOpcode request response = serveAcquire request response := by
      simp [serveOpcode, hop, (by decide : ¬opAcquire = opStatus), (by decide : ¬opAcquire = opPing)]
    rw [hserve]
    exact wp_serveAcquire_refused halone hmagic hversion hop
  rw [settle_none (policyOf_eq_none fun h => absurd h hop)]
  have hstatus : ∀ {t : host.Sys} {m : Message},
      wp (serverHandler host.answer) (ask (.status m)) (fun m => host.Refused s (m, none))
        t := fun {t m} =>
    wp_ask _ fun a w hw => not_refused (wp_returned (wp_told (told_getHdmiLeaseStatus _))
      (halone.inside (.status m) _ _ a w rfl hw)).2
  rw [serveOpcode, wp_ite]
  split
  · exact wp_seq hstatus fun _ _ h => h
  rw [wp_ite]
  split
  · exact wp_seq (wp_servePing_refused halone) fun _ _ h => h
  rw [wp_ite]
  split
  · rw [wp_bind, serveRelease]
    exact wp_seq (wp_returns (wp_log_extends _) fun _ _ h => h) fun _ _ _ => hstatus
  · exact fun _ => .refl s

/-- Every call but `send`. -/
def ServerCall.noSend : ServerCall → Bool
  | send _ _ _ => false
  | _ => true

theorem noSend_of_serving (c : ServerCall) (h : c.serving = true) : c.noSend = true := by
  cases c with
  | send fd message lease => cases h
  | _ => rfl

/-- The only message that has been sent is a response, which keeps to its word. -/
def Host.Responded (host : Host env) (request : Message) (s t : host.Sys) : Prop :=
  ∃ response lease, host.Refused (Host.settle request s) (response, lease) t ∧
    ∀ fd message lease' (sent : Bool),
      (⟨.send fd message lease', sent⟩ : Answered ServerCall.Ans) ∈ host.since s t →
        message = response

theorem responded_of_log {before after : ServerLog} {fd : Fd} {lease : Option Fd} {sent : Bool}
    (h : host.Refused (Host.settle request s) (response, lease) t)
    (hlog : t.log = s.log ++ before ++ ⟨.send fd response lease, sent⟩ :: after)
    (hbefore : ∀ x ∈ before, x.1.noSend = true) (hafter : ∀ x ∈ after, x.1.noSend = true) :
    host.Responded request s t := by
  refine ⟨response, lease, h, fun fd' message lease' sent' hmem => ?_⟩
  rw [Host.since, hlog, append_assoc, drop_left] at hmem
  rcases mem_append.1 hmem with hmem | hmem
  · cases hbefore _ hmem
  · rcases mem_cons.1 hmem with hmem | hmem
    · cases hmem
      rfl
    · cases hafter _ hmem

theorem wp_deliver_refused (halone : host.Alone) {client : Fd} {lease : Option Fd}
    {before : ServerLog} (h : host.Refused (Host.settle request s) (response, lease) t)
    (hlog : t.log = s.log ++ before) (hbefore : ∀ x ∈ before, x.1.noSend = true) :
    wp (serverHandler host.answer) (deliver client request response lease)
      (fun _ u => host.Responded request s u) t := by
  rw [deliver, wp_bind]
  refine wp_ask _ fun delivered w hw => ?_
  have hsent : host.Refused (Host.settle request s) (response, lease)
      (Host.called t _ delivered w) := fun hrefused => halone.tame rfl hw (h hrefused)
  have hclosed : wp (serverHandler host.answer) (closeLease lease)
      (fun _ u => host.Refused (Host.settle request s) (response, lease) u)
      (Host.called t _ delivered w) := by
    cases lease with
    | none => exact hsent
    | some fd => exact wp_ask _ fun _ w' hw' hrefused => halone.tame rfl hw' (hsent hrefused)
  refine wp_returns (wp_and
    (Q := fun _ u => host.Refused (Host.settle request s) (response, lease) u)
    (H := fun _ => True) ?_ (wp_log_uses (P := Calls ServerCall.noSend) ?_)) ?_
  · refine wp_seq hclosed fun _ u hu => ?_
    rw [wp_ite]
    split
    · rename_i hok
      exact wp_seq (wp_returns (wp_log_extends _) fun _ _ h => h) fun _ _ _ =>
        not_refused hok.2.2
    · exact hu
  · exact uses_bind (calls_closeLease fun _ => rfl) fun _ => uses_ite
      (uses_bind (calls_releaseAndDisarm noSend_of_serving _) fun _ => trivial) trivial
  rintro _ u ⟨hu, after, hafter, hall⟩
  have hlog' : u.log = s.log ++ before ++ ⟨.send client response lease, delivered⟩ :: after := by
    rw [hafter, Host.called, hlog, append_assoc (s.log ++ before), singleton_append]
  exact responded_of_log hu hlog' hbefore hall

variable {client fd : Fd} {message : Message} {lease : Option Fd} {delivered sent : Bool}

/-- A refused request leaves the server with its policy stored, and of the session it changes at most
    the detail text. -/
theorem refused_settled (halone : host.Alone)
    (hrun : (handleRequest client request).run (serverHandler host.answer) s = (some delivered, t))
    (hsent : (⟨.send fd message lease, sent⟩ : Answered ServerCall.Ans) ∈ host.since s t)
    (hrefused : refuses message.status = true) : host.Untouched (Host.settle request s) t := by
  suffices hwp : wp (serverHandler host.answer) (handleRequest client request)
      (fun _ t => host.Responded request s t) s by
    obtain ⟨response, lease', hresponse, honly⟩ := wp_returned hwp hrun
    obtain rfl := honly fd message lease sent hsent
    exact hresponse hrefused
  rw [handleRequest]
  dsimp only
  rw [wp_ite]
  split
  · rename_i hheader
    have hnone : policyOf request = none :=
      if_neg fun hp => hheader.elim (absurd hp.1) (absurd hp.2.1)
    refine wp_ask _ fun ok w hw => ?_
    refine responded_of_log (fun _ => ?_) (congrArg (· ++ _) (append_nil s.log).symm)
      (forall_mem_nil _) (forall_mem_nil _)
    rw [settle_none hnone]
    exact halone.tame rfl hw (.refl s)
  · rename_i hheader
    simp only [not_or, not_not] at hheader
    refine wp_seq (wp_returns (wp_and (wp_serveOpcode_refused halone hheader.1 hheader.2)
      (wp_log_uses (calls_serveOpcode noSend_of_serving request (responseTo request))))
      fun _ _ h => h) ?_
    rintro ⟨response, lease⟩ u ⟨hu, before, hlog, hbefore⟩
    exact wp_deliver_refused halone hu hlog hbefore

theorem settle_eq_iff : Host.settle request s = s ↔
    ∀ policy, policyOf request = some policy → policy = s.vars.continuousLease := by
  constructor
  · intro h policy hpolicy
    have hvars := congrArg (·.vars.continuousLease) h
    rw [Host.settle, hpolicy] at hvars
    exact hvars
  · intro h
    cases hpolicy : policyOf request with
    | none => exact settle_none hpolicy s
    | some policy =>
      rw [Host.settle, hpolicy, Option.getD_some, h policy hpolicy]

/-- A refused request changes nothing but the detail text, if it is no acquire of the first phase
    whose policy is another than the stored one. -/
theorem refused_untouched (halone : host.Alone)
    (hpolicy : ∀ policy, policyOf request = some policy → policy = s.vars.continuousLease)
    (hrun : (handleRequest client request).run (serverHandler host.answer) s = (some delivered, t))
    (hsent : (⟨.send fd message lease, sent⟩ : Answered ServerCall.Ans) ∈ host.since s t)
    (hrefused : refuses message.status = true) : host.Untouched s t := by
  have hsettled := refused_settled halone hrun hsent hrefused
  rw [settle_eq_iff.2 hpolicy] at hsettled
  exact hsettled

/-- A refused request changes nothing but the detail text if and only if it is no acquire of the
    first phase whose policy is another than the stored one. -/
theorem refused_untouched_iff (halone : host.Alone)
    (hrun : (handleRequest client request).run (serverHandler host.answer) s = (some delivered, t))
    (hsent : (⟨.send fd message lease, sent⟩ : Answered ServerCall.Ans) ∈ host.since s t)
    (hrefused : refuses message.status = true) :
    host.Untouched s t ↔
      ∀ policy, policyOf request = some policy → policy = s.vars.continuousLease := by
  have hsettled := refused_settled halone hrun hsent hrefused
  refine ⟨fun h policy hpolicy => ?_, fun h => settle_eq_iff.2 h ▸ hsettled⟩
  have hvars : (Host.settle request s).vars = s.vars := hsettled.1.symm.trans h.1
  rw [Host.settle, hpolicy] at hvars
  exact congrArg (·.continuousLease) hvars

end Requests

/-! ## On the bench -/

theorem benchHost_alone (env : Env BenchWorld) : (benchHost env).Alone :=
  ⟨fun _ _ _ _ => serverAnswer_outside, fun _ _ _ _ _ => serverAnswer_inside⟩

def sendsRefusal : Answered ServerCall.Ans → Bool
  | ⟨.send _ message _, _⟩ => refuses message.status
  | _ => false

theorem exists_send {log : ServerLog} (h : log.any sendsRefusal = true) :
    ∃ fd message lease, ∃ sent : Bool,
      (⟨.send fd message lease, sent⟩ : Answered ServerCall.Ans) ∈ log ∧
        refuses message.status = true := by
  obtain ⟨⟨c, a⟩, hmem, hx⟩ := any_eq_true.1 h
  cases c with
  | send fd message lease => exact ⟨fd, message, lease, a, hmem, hx⟩
  | _ => cases hx

/-- An acquire of the first phase, when the display has been taken over. -/
def acquiredAgain (flags : UInt32) (s : ServerSys ServerWorld) :
    Option Bool × ServerSys ServerWorld :=
  (handleRequest 0 (benchRequest opAcquire (acquirePrepare ||| flags))).run
    (serverHandler (serverAnswer (benchEnv .revoked false))) s

/-- It is refused, and the policy of the lease is bounded. -/
theorem exists_acquiredAgain (flags : UInt32)
    (h : (serverAfter (benchEnv .revoked false) (fun _ _ => true) takeoverScript 4).any (fun s =>
      (acquiredAgain flags s).1 == some true &&
        ((acquiredAgain flags s).2.log.drop s.log.length).any sendsRefusal &&
        !s.vars.continuousLease) = true) :
    ∃ s : (benchHost (benchEnv .revoked false)).Sys, (benchHost _).Reaches (fun _ _ => True) s ∧
      acquiredAgain flags s = (some true, (acquiredAgain flags s).2) ∧
      ((benchHost _).since s (acquiredAgain flags s).2).any sendsRefusal = true ∧
      s.vars.continuousLease = false := by
  obtain ⟨s, hs, hf⟩ := exists_reaches (benchEnv .revoked false) takeoverScript 4 _ h
  simp only [Bool.and_eq_true, beq_iff_eq, Bool.not_eq_true'] at hf
  exact ⟨s, hs, Prod.ext hf.1.1 rfl, hf.1.2, hf.2⟩

theorem refused_untouched_busy :
    ∃ s t : (benchHost (benchEnv .revoked false)).Sys, (benchHost _).Reaches (fun _ _ => True) s ∧
      (handleRequest 0 (benchRequest opAcquire acquirePrepare)).run
        (serverHandler (benchHost _).answer) s = (some true, t) ∧
      (benchHost _).Untouched s t := by
  obtain ⟨s, hs, hrun, hany, hbounded⟩ := exists_acquiredAgain 0 rfl
  obtain ⟨fd, message, lease, sent, hsent, hrefused⟩ := exists_send hany
  refine ⟨s, _, hs, hrun, refused_untouched (benchHost_alone _) (fun policy hpolicy => ?_) hrun
    hsent hrefused⟩
  obtain rfl : false = policy := Option.some.inj hpolicy
  exact hbounded.symm

/-- The same request, by the equivalence. -/
theorem refused_untouched_iff_busy :
    ∃ s t : (benchHost (benchEnv .revoked false)).Sys, (benchHost _).Reaches (fun _ _ => True) s ∧
      (handleRequest 0 (benchRequest opAcquire acquirePrepare)).run
        (serverHandler (benchHost _).answer) s = (some true, t) ∧
      (benchHost _).Untouched s t := by
  obtain ⟨s, hs, hrun, hany, hbounded⟩ := exists_acquiredAgain 0 rfl
  obtain ⟨fd, message, lease, sent, hsent, hrefused⟩ := exists_send hany
  refine ⟨s, _, hs, hrun,
    (refused_untouched_iff (benchHost_alone _) hrun hsent hrefused).2 fun policy hpolicy => ?_⟩
  obtain rfl : false = policy := Option.some.inj hpolicy
  exact hbounded.symm

/-- With a bounded lease, an acquire for a continuous one is refused and yet makes the lease
    continuous. -/
theorem refused_acquire_stores_policy :
    ∃ s t : (benchHost (benchEnv .revoked false)).Sys, (benchHost _).Reaches (fun _ _ => True) s ∧
      (handleRequest 0 (benchRequest opAcquire (acquirePrepare ||| flagContinuous))).run
        (serverHandler (benchHost _).answer) s = (some true, t) ∧
      (∃ fd message lease, ∃ sent : Bool, (⟨.send fd message lease, sent⟩ :
        Answered ServerCall.Ans) ∈ (benchHost _).since s t ∧ refuses message.status = true) ∧
      s.vars.continuousLease = false ∧ t.vars.continuousLease = true := by
  obtain ⟨s, hs, hrun, hany, hbounded⟩ := exists_acquiredAgain flagContinuous rfl
  obtain ⟨fd, message, lease, sent, hsent, hrefused⟩ := exists_send hany
  have hsettled := refused_settled (benchHost_alone _) hrun hsent hrefused
  exact ⟨s, _, hs, hrun, ⟨fd, message, lease, sent, hsent, hrefused⟩, hbounded,
    (congrArg (·.continuousLease) hsettled.1).trans rfl⟩

end HdmiLos.Composer
