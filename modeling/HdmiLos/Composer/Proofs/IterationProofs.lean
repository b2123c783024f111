import HdmiLos.Composer.Proofs.ServerProofs

/-!
# The calls of one iteration

Which calls the parts of an iteration make, when the deadline is tested, and on which connection a
request is received.
-/

namespace HdmiLos.Composer

open Interaction Prog List

variable {ω α : Type} {env : Env ω} {host : Host env} {s t : host.Sys}

/-- The footprint of the programs whose calls satisfy `K`. -/
def Calls (K : ServerCall → Bool) : Act Server ServerCall → Prop
  | .io c => K c = true
  | _ => True

section Calls

variable {K : ServerCall → Bool}

theorem calls_ask {c : ServerCall} (h : K c = true) : (ask c).Uses (Calls K) := uses_perform h

theorem calls_getServer : getServer.Uses (Calls K) := uses_perform trivial

theorem calls_setServer (f : Server → Server) : (setServer f).Uses (Calls K) := uses_perform trivial

theorem calls_armDeadline {site : ClockSite} (ms : Nat) (h : K (.bootTimeMs site) = true) :
    (armDeadline site ms).Uses (Calls K) :=
  uses_bind (calls_ask h) fun _ => calls_setServer _

theorem calls_closeClient {client : Fd} (hs : K (.shutdown client) = true)
    (hc : K (.close client) = true) : (closeClient client).Uses (Calls K) :=
  uses_bind (calls_ask hs) fun _ => uses_bind (calls_ask hc) fun _ => calls_setServer _

theorem calls_closeLease {lease : Option Fd} (h : ∀ fd, K (.closeLease fd) = true) :
    (closeLease lease).Uses (Calls K) := by
  cases lease with
  | none => trivial
  | some fd => exact calls_ask (h fd)

theorem calls_sendHotplug {event : Message} (hsend : ∀ client event,
    K (.send client event none) = true)
    (hshutdown : ∀ client, K (.shutdown client) = true)
    (hclose : ∀ client, K (.close client) = true) : (sendHotplug event).Uses (Calls K) := by
  refine uses_bind calls_getServer fun s => ?_
  cases s.clientFd with
  | none => trivial
  | some client =>
    exact uses_bind (calls_ask (hsend _ _)) fun _ =>
      uses_ite trivial (calls_closeClient (hshutdown _) (hclose _))

theorem calls_notifyBroker {connected : Bool} (hstatus : K (.status hotplugEvent) = true)
    (hsend : ∀ client event, K (.send client event none) = true)
    (hshutdown : ∀ client, K (.shutdown client) = true) (hclose : ∀ client, K (.close client) = true)
    (hclock : K (.bootTimeMs .disconnected) = true) : (notifyBroker connected).Uses (Calls K) :=
  uses_bind (calls_ask hstatus) fun _ => uses_bind (calls_sendHotplug hsend hshutdown hclose)
    fun _ => uses_ite (uses_bind (calls_armDeadline _ hclock) fun _ => calls_setServer _) trivial

theorem calls_handleWake (hplain : ∀ c : ServerCall, c.plain = true → K c = true)
    (hclock : K (.bootTimeMs .disconnected) = true) : handleWake.Uses (Calls K) := by
  have hask : ∀ {c : ServerCall}, c.plain = true → (ask c).Uses (Calls K) := fun h =>
    calls_ask (hplain _ h)
  have hnotify : ∀ connected, (notifyBroker connected).Uses (Calls K) := fun connected =>
    calls_notifyBroker (hplain _ rfl) (fun _ _ => hplain _ rfl) (fun _ => hplain _ rfl)
      (fun _ => hplain _ rfl) hclock
  exact uses_bind (hask rfl) fun _ => uses_bind (hask rfl) fun _ => uses_ite
    (uses_bind (hask rfl) fun _ => uses_ite
      (uses_bind (hask rfl) fun _ => uses_bind (hnotify _) fun _ => trivial) trivial) trivial

theorem calls_pollServer (hplain : ∀ c : ServerCall, c.plain = true → K c = true) :
    pollServer.Uses (Calls K) := by
  refine uses_mono (fun op hop => ?_) plain_pollServer
  cases op with
  | io c => exact hplain c hop
  | _ => trivial

/-- The calls that are made for a request: those of the controller, and the clock. -/
def ServerCall.serving : ServerCall → Bool
  | bootTimeMs _ => true
  | acquire _ _ => true
  | release _ => true
  | status _ => true
  | processPendingHotplug => true
  | _ => false

variable (hK : ∀ c : ServerCall, c.serving = true → K c = true)
include hK

theorem calls_releaseAndDisarm (reason : String) : (releaseAndDisarm reason).Uses (Calls K) :=
  uses_bind (calls_ask (hK _ rfl)) fun _ => uses_bind (calls_ask (hK _ rfl)) fun _ =>
    uses_bind (calls_setServer _) fun _ => trivial

theorem calls_acquirePhase (phase : UInt32) (response : Message) :
    (acquirePhase phase response).Uses (Calls K) :=
  uses_bind (calls_ask (hK _ rfl)) fun _ =>
    uses_ite (uses_bind (calls_armDeadline _ (hK _ rfl)) fun _ => trivial) trivial

theorem calls_servePing (request response : Message) :
    (servePing request response).Uses (Calls K) :=
  uses_bind (calls_ask (hK _ rfl)) fun _ => uses_ite
    (uses_bind calls_getServer fun _ => uses_ite trivial
      (uses_bind (calls_armDeadline _ (hK _ rfl)) fun _ => trivial))
    (uses_ite trivial trivial)

theorem calls_serveAcquire (request response : Message) :
    (serveAcquire request response).Uses (Calls K) :=
  uses_ite trivial (uses_ite (uses_bind (calls_setServer _) fun _ => calls_acquirePhase hK _ _)
    (uses_bind calls_getServer fun _ => uses_ite trivial (calls_acquirePhase hK _ _)))

theorem calls_serveOpcode (request response : Message) :
    (serveOpcode request response).Uses (Calls K) :=
  uses_ite (uses_bind (calls_ask (hK _ rfl)) fun _ => trivial)
    (uses_ite (uses_bind (calls_servePing hK _ _) fun _ => trivial)
      (uses_ite (calls_serveAcquire hK _ _)
        (uses_ite (uses_bind (uses_bind (calls_releaseAndDisarm hK _) fun _ =>
          calls_ask (hK _ rfl)) fun _ => trivial) trivial)))

end Calls

/-! ## The test of the deadline -/

/-- The calls before the test: they neither grant nor release. -/
def ServerCall.early (c : ServerCall) : Bool :=
  c.plain || match c with
    | bootTimeMs .disconnected => true
    | _ => false

theorem early_of_plain (c : ServerCall) (h : c.plain = true) : c.early = true := by
  simp [ServerCall.early, h]

variable {x : Answered ServerCall.Ans}

theorem quiet_of_early (h : x.1.early = true) :
    grantedAt x = none ∧ isReleaseCall x = false ∧ acquiredBy x = none := by
  obtain ⟨c, a⟩ := x
  cases c with
  | bootTimeMs site => cases site <;> first | exact ⟨rfl, rfl, rfl⟩ | cases h
  | acquire phase response => cases h
  | release reason => cases h
  | _ => exact ⟨rfl, rfl, rfl⟩

/-- The state before the test: the calls since `s` were early ones. -/
def Host.Before (host : Host env) (s t : host.Sys) : Prop :=
  host.Good t ∧ ∃ early, t.log = s.log ++ early ∧ ∀ x ∈ early, x.1.early = true

theorem Host.Before.refl (h : host.Good s) : host.Before s s := ⟨h, [], by simp, by simp⟩

variable {p : ServerProg α}

theorem wp_before (hp : p.Uses (Calls ServerCall.early)) (hgood : ∀ {t : host.Sys}, host.Good t →
      wp (serverHandler host.answer) p (fun _ u => host.Good u) t)
    (h : host.Before s t) :
    wp (serverHandler host.answer) p (fun _ u => host.Before s u) t := by
  refine wp_returns (wp_and (hgood h.1) (wp_log_uses hp)) fun _ u hu => ⟨hu.1, ?_⟩
  obtain ⟨-, early, hlog, hearly⟩ := h
  obtain ⟨-, new, hnew, hall⟩ := hu
  refine ⟨early ++ new, by rw [hnew, hlog, append_assoc], fun x hx => ?_⟩
  rcases mem_append.1 hx with hx | hx
  · exact hearly x hx
  · exact hall x hx

theorem Host.Before.deadline_pos (h : host.Before s t) (hs : host.Good s)
    (hdeadline : 0 < s.vars.deadlineMs) : 0 < t.vars.deadlineMs := by
  obtain ⟨hgood, early, hlog, hearly⟩ := h
  rw [hs.deadline] at hdeadline
  rw [hgood.deadline, hlog, viewOf_append]
  have hquiet : ∀ x ∈ early, grantedAt x = none ∧ isReleaseCall x = false := fun x hx =>
    ⟨(quiet_of_early (hearly x hx)).1, (quiet_of_early (hearly x hx)).2.1⟩
  rcases deadline_of_quiet (v := viewOf s.log) hquiet with ⟨hd, -⟩ | ⟨x, -, now, -, hd⟩
  · rwa [hd]
  · rw [hd]
    exact backstop_pos now

/-- The deadline is tested after early calls only. -/
def Host.Checked (host : Host env) (s t : host.Sys) : Prop :=
  ∃ early x late now, t.log = s.log ++ early ++ x :: late ∧ checkedAt x = some now ∧
    ∀ y ∈ early, y.1.early = true

theorem wp_checked (h : host.Before s t) {now : Nat} {u : host.Sys}
    (hx : checkedAt x = some now) (hu : t.log ++ [x] <+: u.log) :
    wp (serverHandler host.answer) p (fun _ v => host.Checked s v) u := by
  refine wp_returns (wp_log_extends p) fun _ v hv => ?_
  obtain ⟨-, early, hlog, hearly⟩ := h
  obtain ⟨late, hlate⟩ := hu.trans hv
  refine ⟨early, x, late, now, ?_, hx, hearly⟩
  rw [← hlate, hlog, append_assoc, append_assoc, append_assoc]
  rfl

theorem wp_afterWake_checked (ready : Readiness) (h : host.Before s t)
    (hdeadline : 0 < t.vars.deadlineMs) :
    wp (serverHandler host.answer) (afterWake ready) (fun _ u => host.Checked s u) t := by
  rw [afterWake, wp_bind, checkDeadline, wp_bind, wp_getServer, wp_ite, if_pos hdeadline, wp_bind]
  refine wp_ask _ fun now w _ => ?_
  rw [← wp_bind]
  exact wp_checked h (x := ⟨.bootTimeMs .check, now⟩) rfl (prefix_refl _)

theorem wp_serverIteration_checked (h : host.Good s) (hdeadline : 0 < s.vars.deadlineMs) :
    wp (serverHandler host.answer) serverIteration
      (fun goes t => goes = true → host.Checked s t) s := by
  have hrunning : ∀ {t : host.Sys}, host.Before s t →
      wp (serverHandler host.answer) (ask .running) (fun _ u => host.Before s u) t := fun ht =>
    wp_before (calls_ask rfl) (fun h => wp_post (wp_ask_plain rfl h) fun _ _ h => h.1) ht
  have hafter : ∀ {t : host.Sys} (ready : Readiness) (woken : Bool), host.Before s t →
      wp (serverHandler host.answer)
        (if woken = true then do afterWake ready; pure true else pure false)
        (fun goes t => goes = true → host.Checked s t) t := by
    intro t ready woken ht
    rw [wp_ite]
    split
    · exact wp_seq (wp_afterWake_checked ready ht (ht.deadline_pos h hdeadline)) fun _ u hu _ => hu
    · intro hgoes
      cases hgoes
  rw [serverIteration]
  refine wp_seq (hrunning (.refl h)) fun running t ht => ?_
  rw [wp_ite]
  split
  · refine wp_seq (wp_before (calls_pollServer early_of_plain)
      (fun h => wp_post (wp_plain plain_pollServer h) fun _ _ h => h.1) ht) fun ready u hu => ?_
    refine wp_seq (hrunning hu) fun running v hv => ?_
    rw [wp_ite]
    split
    · rw [wp_bind, wp_ite]
      split
      · refine wp_post (wp_before (calls_handleWake early_of_plain rfl)
          (fun h => wp_post (wp_handleWake h) fun _ _ h => h.1) hv) fun woken x hx => ?_
        exact hafter ready woken hx
      · exact hafter ready true hv
    · intro hgoes
      cases hgoes
  · intro hgoes
    cases hgoes

/-! ## The connection that is served -/

/-- Every call but `recv`. -/
def ServerCall.noRecv : ServerCall → Bool
  | recv _ => false
  | _ => true

theorem noRecv_of_plain (c : ServerCall) (h : c.plain = true) : c.noRecv = true := by
  cases c with
  | recv fd => cases h
  | _ => rfl

abbrev NoRecv := Calls ServerCall.noRecv

theorem noRecv_of_serving (c : ServerCall) (h : c.serving = true) : c.noRecv = true := by
  cases c with
  | recv fd => cases h
  | _ => rfl

theorem noRecv_releaseAndDisarm (reason : String) : (releaseAndDisarm reason).Uses NoRecv :=
  calls_releaseAndDisarm noRecv_of_serving reason

theorem noRecv_handleRequest (client : Fd) (request : Message) :
    (handleRequest client request).Uses NoRecv :=
  uses_ite (calls_ask rfl) (uses_bind (calls_serveOpcode noRecv_of_serving _ _) fun _ =>
    uses_bind (calls_ask rfl) fun _ => uses_bind (calls_closeLease fun _ => rfl) fun _ =>
      uses_ite (uses_bind (noRecv_releaseAndDisarm _) fun _ => trivial) trivial)

theorem noRecv_dropClient (client : Fd) : (dropClient client).Uses NoRecv :=
  uses_bind (calls_closeClient rfl rfl) fun _ =>
    uses_bind (noRecv_releaseAndDisarm _) fun _ => trivial

theorem noRecv_hangupClient : hangupClient.Uses NoRecv := by
  refine uses_bind calls_getServer fun s => ?_
  cases s.clientFd with
  | none => trivial
  | some client => exact noRecv_dropClient client

theorem noRecv_checkDeadline : checkDeadline.Uses NoRecv :=
  uses_bind calls_getServer fun _ => uses_ite (uses_bind (calls_ask rfl) fun _ => uses_ite
      (uses_bind (noRecv_releaseAndDisarm _) fun _ => trivial) trivial) trivial

theorem noRecv_acceptClient : acceptClient.Uses NoRecv :=
  uses_bind (calls_ask rfl) fun _ => uses_ite
    (uses_bind (uses_perform trivial) fun _ => uses_bind (calls_ask rfl) fun _ =>
      uses_bind calls_getServer fun _ => uses_ite (calls_ask rfl) (calls_setServer _)) trivial

theorem noRecv_whenSet (bit : Bool) {p : ServerProg Unit} (hp : p.Uses NoRecv) :
    (whenSet bit p).Uses NoRecv :=
  uses_ite hp trivial

/-- The state of an iteration in which `poll` has reported on `client` and nothing has been received
    yet. A client stays if the broker gets the hotplug events. -/
structure Host.Polled (host : Host env) (s : host.Sys) (client : Option Fd) (ready : Readiness)
    (t : host.Sys) : Prop where
  good : host.Good t
  log : ∃ new, t.log = s.log ++ new ∧ (∀ x ∈ new, x.1.noRecv = true) ∧
    ∃ timeout, (⟨.poll client timeout, ready⟩ : Answered ServerCall.Ans) ∈ new
  client : HotplugSent t.log → ∀ fd, client = some fd → t.vars.clientFd = some fd

/-- What was received came from the connection that `poll` reported. -/
def Host.Served (host : Host env) (s t : host.Sys) : Prop :=
  ∃ new, t.log = s.log ++ new ∧ (HotplugSent t.log →
    ∀ fd received, (⟨.recv fd, received⟩ : Answered ServerCall.Ans) ∈ new →
      ∃ timeout ready, (⟨.poll (some fd) timeout, ready⟩ : Answered ServerCall.Ans) ∈ new ∧
        ready.clientIn = true)

theorem served_of_noRecv (h : Process.Grown NoRecv s t) : host.Served s t := by
  obtain ⟨new, hlog, hnew⟩ := h
  refine ⟨new, hlog, fun _ fd received hmem => ?_⟩
  cases hnew _ hmem

theorem Host.Served.grown {u : host.Sys} (h : host.Served s t) (hu : Process.Grown NoRecv t u) :
    host.Served s u := by
  obtain ⟨new, hlog, hnew⟩ := h
  obtain ⟨new', hlog', hnew'⟩ := hu
  refine ⟨new ++ new', by rw [hlog', hlog, append_assoc], fun hsent fd received hmem => ?_⟩
  rcases mem_append.1 hmem with hmem | hmem
  · have hsent' : HotplugSent t.log := fun x hx => hsent x (by
      rw [hlog']
      exact mem_append_left _ hx)
    obtain ⟨timeout, ready, hpoll, hready⟩ := hnew hsent' fd received hmem
    exact ⟨timeout, ready, mem_append_left _ hpoll, hready⟩
  · cases hnew' _ hmem

variable {client : Option Fd} {ready : Readiness}

theorem Host.Polled.served (h : host.Polled s client ready t) : host.Served s t := by
  obtain ⟨new, hlog, hnew, -⟩ := h.log
  exact served_of_noRecv ⟨new, hlog, hnew⟩

theorem wp_polled (hp : p.Uses NoRecv) (hgood : wp (serverHandler host.answer) p
      (fun _ u => host.Good u ∧ (HotplugSent u.log → ∀ fd, t.vars.clientFd = some fd →
        u.vars.clientFd = some fd)) t) (h : host.Polled s client ready t) :
    wp (serverHandler host.answer) p (fun _ u => host.Polled s client ready u) t := by
  refine wp_returns (wp_and hgood (wp_log_uses hp)) fun _ u hu => ?_
  obtain ⟨⟨hgood, hclient⟩, new', hlog', hnew'⟩ := hu
  obtain ⟨new, hlog, hnew, timeout, hpoll⟩ := h.log
  refine ⟨hgood, ⟨new ++ new', by rw [hlog', hlog, append_assoc], ?_, timeout,
    mem_append_left _ hpoll⟩, fun hsent fd hfd => hclient hsent fd (h.client ?_ fd hfd)⟩
  · exact forall_mem_append.2 ⟨hnew, hnew'⟩
  · intro x hx
    refine hsent x ?_
    rw [hlog']
    exact mem_append_left _ hx

theorem wp_readClient_served (h : host.Polled s client ready t) (hclient : client.isSome = true)
    (hready : ready.clientIn = true) :
    wp (serverHandler host.answer) readClient (fun _ u => host.Served s u) t := by
  obtain ⟨polled, rfl⟩ := Option.isSome_iff_exists.1 hclient
  rw [readClient, wp_bind, wp_getServer]
  cases hfd : t.vars.clientFd with
  | none => exact h.served
  | some fd =>
    dsimp only
    rw [wp_bind]
    refine wp_ask _ fun received w _ => ?_
    have hserved : host.Served s (Host.called t (.recv fd) received w) := by
      obtain ⟨new, hlog, hnew, timeout, hpoll⟩ := h.log
      refine ⟨new ++ [⟨.recv fd, received⟩], ?_, fun hsent fd' received' hmem => ?_⟩
      · show t.log ++ _ = _
        rw [hlog, append_assoc]
      · rcases mem_append.1 hmem with hmem | hmem
        · cases hnew _ hmem
        · cases mem_singleton.1 hmem
          have hsame := h.client hsent.of_snoc.1 polled rfl
          obtain rfl := Option.some.inj (hsame.symm.trans hfd)
          exact ⟨timeout, ready, mem_append_left _ hpoll, hready⟩
    have hrest : ∀ {p : ServerProg Unit}, p.Uses NoRecv →
        wp (serverHandler host.answer) p (fun _ u => host.Served s u)
          (Host.called t (.recv fd) received w) := fun hp =>
      wp_returns (wp_log_uses hp) fun _ u hu => hserved.grown hu
    cases received with
    | none => exact hrest (noRecv_dropClient fd)
    | some request =>
      exact hrest (uses_bind (noRecv_handleRequest fd request) fun _ =>
        uses_ite trivial (noRecv_dropClient fd))

theorem wp_afterWake_served {masked : Readiness} (h : host.Polled s client ready t)
    (hmask : masked.clientIn = true → client.isSome = true ∧ ready.clientIn = true) :
    wp (serverHandler host.answer) (afterWake masked) (fun _ u => host.Served s u) t := by
  rw [afterWake]
  refine wp_seq (wp_polled noRecv_checkDeadline (wp_post (wp_checkDeadline h.good)
    fun _ u hu => ⟨hu.1, fun _ fd hfd => by rw [hu.2, hfd]⟩) h) fun _ u hu => ?_
  rw [wp_bind]
  have haccept : wp (serverHandler host.answer) (whenSet masked.listen acceptClient)
      (fun _ v => host.Good v ∧ (HotplugSent v.log → ∀ fd, u.vars.clientFd = some fd →
        v.vars.clientFd = some fd)) u := by
    rw [whenSet, wp_ite]
    split
    · exact wp_post (wp_acceptClient hu.good) fun _ v hv => ⟨hv.1, fun _ => hv.2⟩
    · exact ⟨hu.good, fun _ fd hfd => hfd⟩
  refine wp_post (wp_polled (noRecv_whenSet _ noRecv_acceptClient) haccept hu) fun _ v hv => ?_
  have hread : wp (serverHandler host.answer) (whenSet masked.clientIn readClient)
      (fun _ x => host.Served s x) v := by
    rw [whenSet, wp_ite]
    split
    · rename_i hin
      exact wp_readClient_served hv (hmask hin).1 (hmask hin).2
    · exact hv.served
  rw [wp_bind]
  refine wp_post hread fun _ x hx => ?_
  exact wp_returns (wp_log_uses (noRecv_whenSet _ noRecv_hangupClient)) fun _ y hy => hx.grown hy

/-- What `poll` reports, with the bits of a missing client cleared. -/
theorem wp_pollServer (h : host.Good t) (hlog : Process.Grown NoRecv s t) :
    wp (serverHandler host.answer) pollServer
      (fun masked u => ∃ ready, host.Polled s t.vars.clientFd ready u ∧
        (masked.clientIn = true → t.vars.clientFd.isSome = true ∧ ready.clientIn = true)) t := by
  have htimeout : pollTimeout.Uses PlainAct := uses_bind (uses_perform trivial) fun _ =>
    uses_ite (uses_bind (plain_ask rfl) fun _ => trivial) trivial
  rw [pollServer, wp_bind]
  refine wp_returns (wp_and (wp_plain htimeout h) (wp_log_uses htimeout)) fun timeout u hu => ?_
  obtain ⟨⟨hgood, hvars⟩, new', hlog', hnew'⟩ := hu
  rw [wp_bind, wp_getServer, wp_bind]
  refine wp_ask _ fun ready w hw => ?_
  have hpolled : host.Polled s t.vars.clientFd ready
      (Host.called u (.poll u.vars.clientFd timeout) ready w) := by
    obtain ⟨new, hlog, hnew⟩ := hlog
    refine ⟨hgood.plain rfl hw, ⟨new ++ new' ++ [⟨.poll u.vars.clientFd timeout, ready⟩], ?_, ?_,
      timeout, ?_⟩, fun _ fd hfd => ?_⟩
    · show u.log ++ _ = _
      rw [hlog', hlog, append_assoc, append_assoc, append_assoc]
    · intro x hx
      rcases mem_append.1 hx with hx | hx
      · rcases mem_append.1 hx with hx | hx
        · exact hnew x hx
        · exact noRecv_of_plain _ (hnew' x hx)
      · rw [mem_singleton.1 hx]
        rfl
    · rw [hvars]
      exact mem_append_right _ mem_cons_self
    · show u.vars.clientFd = some fd
      rw [hvars, hfd]
  rw [wp_ite]
  split
  · rename_i hsome
    refine ⟨ready, hpolled, fun hin => ⟨?_, hin⟩⟩
    rw [← hvars]
    exact hsome
  · refine ⟨ready, hpolled, fun hin => ?_⟩
    cases hin

/-- In an iteration requests are received only from the connection that `poll` reported. -/
theorem wp_serverIteration_served (h : host.Good s) :
    wp (serverHandler host.answer) serverIteration (fun _ t => host.Served s t) s := by
  rw [serverIteration, wp_bind]
  refine wp_returns (wp_and (wp_ask_plain rfl h)
    (wp_log_uses (calls_ask (K := ServerCall.noRecv) rfl)))
    fun running t ht => ?_
  obtain ⟨⟨hgood, -⟩, hlog⟩ := ht
  rw [wp_ite]
  split
  · refine wp_seq (wp_pollServer hgood hlog) ?_
    rintro masked u ⟨ready, hu, hmask⟩
    refine wp_seq (wp_polled (calls_ask rfl) (wp_post (wp_ask_plain rfl hu.good) fun _ v hv =>
      ⟨hv.1, fun _ fd hfd => by rw [hv.2, hfd]⟩) hu) fun running v hv => ?_
    have hafter : ∀ {x : host.Sys} (woken : Bool), host.Polled s t.vars.clientFd ready x →
        wp (serverHandler host.answer)
          (if woken = true then do afterWake masked; pure true else pure false)
          (fun _ y => host.Served s y) x := by
      intro x woken hx
      rw [wp_ite]
      split
      · rw [wp_bind]
        exact wp_afterWake_served hx hmask
      · exact hx.served
    rw [wp_ite]
    split
    · rw [wp_bind, wp_ite]
      split
      · refine wp_post (wp_polled (calls_handleWake noRecv_of_plain rfl)
          (wp_post (wp_handleWake hv.good) fun _ x hx =>
            ⟨hx.1, fun hsent fd hfd => by rw [hx.2 hsent, hfd]⟩) hv) fun woken x hx => ?_
        exact hafter woken hx
      · exact hafter true hv
    · exact hv.served
  · exact served_of_noRecv hlog

end HdmiLos.Composer
