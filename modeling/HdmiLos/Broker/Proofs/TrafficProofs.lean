import HdmiLos.Broker.Proofs.FootprintProofs
import HdmiLos.Broker.Traffic

/-!
# The conversation with the composer

What one `ComposerRequest` and one `HandleComposerReadable` do to the composer connection, to the
pending flag and to the observers of the call log. Everything else the broker does is apart from
the conversation.
-/

namespace HdmiLos

open Interaction Prog List

variable {ω α : Type} {env : Env ω} {s t : Sys ω} {H : Sys ω → Prop}

/-! ## Observers -/

theorem unplugAfter_append (u : Bool) (xs ys : List Message) :
    unplugAfter u (xs ++ ys) = unplugAfter (unplugAfter u xs) ys :=
  foldl_append

theorem unplugAfter_mono (messages : List Message) {u v : Bool} (h : u = true → v = true)
    (hu : unplugAfter u messages = true) : unplugAfter v messages = true := by
  induction messages generalizing u v with
  | nil => exact h hu
  | cons m ms ih =>
    refine ih ?_ hu
    simp only [Bool.and_eq_true, Bool.or_eq_true]
    rintro ⟨hc, hm | hm⟩
    · exact ⟨hc, Or.inl hm⟩
    · exact ⟨hc, Or.inr (h hm)⟩

theorem unplugAfter_of_disconnected (messages : List Message)
    (h : ∀ m ∈ messages, m.connected = false) : unplugAfter true messages = true := by
  induction messages with
  | nil => rfl
  | cons m ms ih =>
    have hm : m.connected = false := h m (by simp)
    simpa [unplugAfter, hm] using ih fun m' hm' => h m' (by simp [hm'])

theorem UnplugConsumed.unplugAfter {messages : List Message} (h : UnplugConsumed messages)
    (u : Bool) : unplugAfter u messages = true := by
  obtain ⟨before, event, after, rfl, hplug, hconn, hafter⟩ := h
  rw [unplugAfter_append]
  simpa [HdmiLos.unplugAfter, hplug, hconn] using unplugAfter_of_disconnected after hafter

theorem composerMessages_append (xs ys : List Event) :
    composerMessages (xs ++ ys) = composerMessages xs ++ composerMessages ys :=
  filterMap_append

theorem composerMessage_of_kind {e : Event} (h : e.1.kind ≠ .composer) :
    composerMessage e = none := by
  obtain ⟨c, a⟩ := e
  cases c <;> first | rfl | exact absurd rfl h

theorem track_step_of_kind (k : Track) {e : Event} (h : e.1.kind ≠ .composer) : k.step e = k := by
  obtain ⟨c, a⟩ := e
  cases c with
  | sendWithFd fd m passed =>
    cases passed with
    | none => exact absurd rfl h
    | some _ => rfl
  | recvWithFd fd => exact absurd rfl h
  | _ => rfl

variable {seg : List Event}

theorem composerMessages_of_kind (h : ∀ e ∈ seg, e.1.kind ≠ .composer) :
    composerMessages seg = [] :=
  filterMap_eq_nil_iff.2 fun e he => composerMessage_of_kind (h e he)

theorem track_foldl_of_kind (h : ∀ e ∈ seg, e.1.kind ≠ .composer) (k : Track) :
    seg.foldl Track.step k = k := by
  induction seg generalizing k with
  | nil => rfl
  | cons e es ih =>
    rw [foldl_cons, track_step_of_kind k (h e (by simp))]
    exact ih (fun e' he' => h e' (by simp [he'])) k

/-! ## Functions apart from the conversation -/

/-- From `s` to `t` nothing was said to the composer, and `V` of the fields was kept. -/
structure Beside {τ : Type} (V : Broker → τ) (s t : Sys ω) : Prop where
  kept : V t.vars = V s.vars
  log : ∃ seg, t.log = s.log ++ seg ∧ ∀ e ∈ seg, e.1.kind ≠ .composer

/-- The broker got from `s` to `t` without touching the composer connection or the owner. -/
abbrev Apart (s t : Sys ω) : Prop := Beside Broker.vital s t

section Beside

variable {τ : Type} {V : Broker → τ} {u : Sys ω}

theorem Beside.refl (s : Sys ω) : Beside V s s := ⟨rfl, [], by simp, by simp⟩

theorem Beside.grows (h : Beside V s t) : s.log <+: t.log := h.log.elim fun _ hl => ⟨_, hl.1.symm⟩

theorem Beside.trans (h : Beside V s t) (h' : Beside V t u) : Beside V s u := by
  obtain ⟨hv, seg, hl, hk⟩ := h
  obtain ⟨hv', seg', hl', hk'⟩ := h'
  exact ⟨hv'.trans hv, seg ++ seg', by rw [hl', hl, append_assoc], forall_mem_append.2 ⟨hk, hk'⟩⟩

theorem wp_beside {p : BrokerProg α} {K : List IoKind} (hK : .composer ∉ K)
    (hp : p.Uses (Within V K)) : wp (sysHandler env) p (fun _ => Beside V s) s (Beside V s) := by
  refine wp_process_invariant ?_ ?_ ?_ hp (.refl s)
  · exact fun t f hf ht => ht.trans ⟨hf t.vars, [], by simp, by simp⟩
  · exact fun t _ ht => ht.trans ⟨rfl, [], by simp, by simp⟩
  · refine fun t c a w hc ht _ => ht.trans ⟨rfl, [⟨c, a⟩], rfl, forall_mem_singleton.2 ?_⟩
    exact fun hk => hK (hk ▸ hc)

end Beside

variable {p : BrokerProg α} {u : Sys ω}

theorem wp_apart (hp : p.Uses NoComposer) :
    wp (sysHandler env) p (fun _ => Apart s) s (Apart s) := wp_beside (by simp) hp

theorem wp_quiet (hp : p.Uses Quiet) : wp (sysHandler env) p (fun _ => Apart s) s (Apart s) :=
  wp_beside (by simp) hp

theorem wp_files (hp : p.Uses Files) : wp (sysHandler env) p (fun _ => Apart s) s (Apart s) :=
  wp_beside (by simp) hp

theorem wp_streams (hp : p.Uses Streams) : wp (sysHandler env) p (fun _ => Apart s) s (Apart s) :=
  wp_beside (by simp) hp

/-! ## One request -/

theorem Beside.owner (h : Apart s t) : t.vars.owner = s.vars.owner := congrArg Prod.fst h.kept

theorem Beside.pending (h : Apart s t) :
    t.vars.composerDisconnectPending = s.vars.composerDisconnectPending :=
  congrArg (fun v => v.2.1) h.kept

theorem Beside.composerFd (h : Apart s t) : t.vars.composerFd = s.vars.composerFd :=
  congrArg (fun v => v.2.2) h.kept

/-- The broker closed the composer connection and did nothing else. -/
def HungUp (s t : Sys ω) : Prop :=
  t.vars.owner = s.vars.owner ∧
    t.vars.composerDisconnectPending = s.vars.composerDisconnectPending ∧
    t.vars.composerFd = none ∧ ∃ seg, t.log = s.log ++ seg ∧ ∀ e ∈ seg, e.1.kind ≠ .composer

theorem wp_closeComposer : wp (sysHandler env) closeComposer (fun _ => HungUp s) s := by
  simp only [closeComposer, wp_bind, wp_getBroker]
  refine wp_returns (wp_quiet (uses_closeIfOpen _)) ?_
  rintro _ t ht
  rw [wp_update]
  exact ⟨ht.owner, ht.pending, rfl, ht.log⟩

theorem wp_composerFailed (passed : Option Fd) (buffer : Message) :
    wp (sysHandler env) (composerFailed passed buffer)
      (fun reply t => reply.ok = false ∧ HungUp s t) s := by
  simp only [composerFailed, wp_bind]
  refine wp_returns (wp_quiet (uses_closeIfOpen _)) ?_
  rintro _ t ⟨hv, seg, hl, hk⟩
  have ht : Apart s t := ⟨hv, seg, hl, hk⟩
  refine wp_post wp_closeComposer ?_
  rintro _ u ⟨ho, hp, hfd, seg', hl', hk'⟩
  rw [wp_pure]
  refine ⟨rfl, ho.trans ht.owner, hp.trans ht.pending, hfd, seg ++ seg', ?_, ?_⟩
  · rw [hl', hl, append_assoc]
  · exact forall_mem_append.2 ⟨hk, hk'⟩

/-- The receive loop of a request on the connection `fd`: what was received so far is `seg`. -/
structure Asking (create : Bool) (fd : Fd) (id : UInt32) (s : Sys ω) (seg : List Event)
    (t : Sys ω) : Prop where
  log : t.log = s.log ++ seg
  owner : t.vars.owner = s.vars.owner
  pending : unplugAfter s.vars.composerDisconnectPending (composerMessages seg) = true →
    t.vars.composerDisconnectPending = true
  isOpen : t.vars.composerFd = some fd
  same : ∀ c, s.vars.composerFd = some c → c = fd
  track : ∀ k : Track, (seg.foldl Track.step k).requestId = id ∧
    (seg.foldl Track.step k).creating = (if create then some fd else none) ∧
    (seg.foldl Track.step k).granted = k.granted

/-- What a request left behind: its reply, and what it sent and received in `seg`. -/
structure Exchanged (create : Bool) (s : Sys ω) (reply : Reply) (t : Sys ω) (seg : List Event) :
    Prop where
  log : t.log = s.log ++ seg
  owner : t.vars.owner = s.vars.owner
  pending : unplugAfter s.vars.composerDisconnectPending (composerMessages seg) = true →
    t.vars.composerDisconnectPending = true
  settled : reply.ok = true → t.vars.composerDisconnectPending = false
  connection : reply.ok = true →
    ∃ fd, t.vars.composerFd = some fd ∧ ∀ c, s.vars.composerFd = some c → c = fd
  unbroken : ∀ k : Track, (seg.foldl Track.step k).broken = false →
    ∀ c, s.vars.composerFd = some c → t.vars.composerFd = some c
  ended : ∀ k : Track, k.creating = none → (seg.foldl Track.step k).creating = none
  kept : create = false → ∀ k : Track, (seg.foldl Track.step k).granted = k.granted
  created : create = true → reply.ok = true → reply.message.status = statusOk →
    ∀ k : Track, (seg.foldl Track.step k).granted = t.vars.composerFd

theorem foldl_received (seg tail : List Event) (fd : Fd) (r : Received)
    (h : ∀ e ∈ tail, e.1.kind ≠ .composer) (k : Track) :
    (seg ++ ⟨.recvWithFd fd, r⟩ :: tail).foldl Track.step k
      = (seg.foldl Track.step k).receive r := by
  rw [foldl_append, foldl_cons, track_foldl_of_kind h]
  rfl

theorem composerMessages_received (seg tail : List Event) (fd : Fd) (r : Received)
    (h : ∀ e ∈ tail, e.1.kind ≠ .composer) :
    composerMessages (seg ++ ⟨.recvWithFd fd, r⟩ :: tail) = composerMessages seg ++
      (if r.ok && r.message.validComposer then [r.message] else []) := by
  have hcons : composerMessages (⟨.recvWithFd fd, r⟩ :: tail)
      = (if r.ok && r.message.validComposer then [r.message] else []) ++ composerMessages tail := by
    by_cases hv : (r.ok && r.message.validComposer) = true
    · simp [composerMessages, composerMessage, hv]
    · simp [composerMessages, composerMessage, hv]
  rw [composerMessages_append, hcons, composerMessages_of_kind h, append_nil]

/-- From `t` to `u` the broker received `r` on `fd`, and closed descriptors at most. -/
structure Receives (fd : Fd) (r : Received) (t u : Sys ω) : Prop where
  vars : u.vars = t.vars
  log : ∃ seg, u.log = t.log ++ ⟨.recvWithFd fd, r⟩ :: seg ∧ ∀ e ∈ seg, e.1.kind ≠ .composer

theorem wp_recvWithFd (fd : Fd) :
    wp (sysHandler env) (recvWithFd fd) (fun x u => Receives fd x.1 s u) s := by
  simp only [recvWithFd, wp_bind]
  refine wp_call _ trivial fun r w _ => ?_
  rw [wp_opened]
  split
  · exact ⟨rfl, [], rfl, by simp⟩
  · exact ⟨rfl, [], rfl, by simp⟩

variable {fd : Fd} {r : Received}

theorem Receives.closeIfOpen (h : Receives fd r t u) (passed : Option Fd) :
    wp (sysHandler env) (closeIfOpen passed) (fun _ => Receives fd r t) u := by
  obtain ⟨hvars, seg, hlog, hseg⟩ := h
  cases passed with
  | none => exact ⟨hvars, seg, hlog, hseg⟩
  | some fd' =>
    refine wp_call _ trivial fun _ w _ => ⟨hvars, seg ++ [⟨.close fd', ()⟩], by simp [hlog], ?_⟩
    exact forall_mem_append.2 ⟨hseg, by simp [Io.kind]⟩

variable {create : Bool} {id : UInt32} {reply : Reply}

/-- A broken exchange: the message was not an answer, and the connection is closed. -/
theorem Asking.broken {v : Sys ω} (h : Asking create fd id s seg t) (hr : Receives fd r t u)
    (hv : HungUp u v) (hok : reply.ok = false) (hbad : (!r.ok || !r.message.validComposer) = true ∨
      (r.message.isHotplug = false ∧ r.message.requestId ≠ id)) :
    ∃ seg', Exchanged create s reply v seg' := by
  obtain ⟨hvars, tail, hlog, htail⟩ := hr
  obtain ⟨howner, hpend, hfd, tail', hlog', htail'⟩ := hv
  have hboth : ∀ e ∈ tail ++ tail', e.1.kind ≠ .composer :=
    forall_mem_append.2 ⟨htail, htail'⟩
  have hreceive : ∀ k : Track, (seg.foldl Track.step k).receive r
      = { seg.foldl Track.step k with creating := none, broken := true } := by
    intro k
    rcases hbad with hbad | ⟨hplug, hid⟩
    · simp [Track.receive, hbad]
    · by_cases hinv : (!r.ok || !r.message.validComposer) = true
      · simp [Track.receive, hinv]
      · simp [Track.receive, hinv, hplug, (h.track k).1, hid]
  refine ⟨seg ++ ⟨.recvWithFd fd, r⟩ :: (tail ++ tail'), ?_, ?_, ?_, ?_, ?_, ?_, ?_, ?_, ?_⟩
  · rw [hlog', hlog, h.log]
    simp
  · rw [howner, hvars, h.owner]
  · rw [composerMessages_received _ _ _ _ hboth, unplugAfter_append, hpend]
    intro hun
    rw [hvars]
    refine h.pending ?_
    by_cases hval : (r.ok && r.message.validComposer) = true
    · rcases hbad with hbad | ⟨hplug, -⟩
      · simp only [Bool.and_eq_true] at hval
        simp [hval.1, hval.2] at hbad
      · simp only [hval, if_true, unplugAfter, foldl_cons, foldl_nil, hplug,
          Bool.false_or, Bool.and_eq_true] at hun
        exact hun.2
    · simpa [hval, unplugAfter] using hun
  · simp [hok]
  · simp [hok]
  · intro k hk
    rw [foldl_received _ _ _ _ hboth, hreceive] at hk
    simp at hk
  · intro k _
    rw [foldl_received _ _ _ _ hboth, hreceive]
  · intro _ k
    rw [foldl_received _ _ _ _ hboth, hreceive]
    exact (h.track k).2.2
  · simp [hok]

theorem Asking.hotplug (h : Asking create fd id s seg t) (hr : Receives fd r t u)
    (hval : (!r.ok || !r.message.validComposer) = false) (hplug : r.message.isHotplug = true) :
    ∃ seg', Asking create fd id s seg' { u with vars := u.vars.noteHotplug r.message } := by
  obtain ⟨hvars, tail, hlog, htail⟩ := hr
  have hval' : (r.ok && r.message.validComposer) = true := by simpa using hval
  have hreceive : ∀ k : Track, (seg.foldl Track.step k).receive r = seg.foldl Track.step k := by
    intro k
    simp [Track.receive, hval, hplug]
  refine ⟨seg ++ ⟨.recvWithFd fd, r⟩ :: tail, ?_, ?_, ?_, ?_, h.same, ?_⟩
  · show u.log = _
    rw [hlog, h.log, append_assoc]
  · show u.vars.owner = _
    rw [hvars, h.owner]
  · rw [composerMessages_received _ _ _ _ htail, unplugAfter_append]
    simp [hval', unplugAfter, hplug, Broker.noteHotplug]
  · show u.vars.composerFd = _
    rw [hvars, h.isOpen]
  · intro k
    rw [foldl_received _ _ _ _ htail, hreceive]
    exact h.track k

theorem Asking.answered (h : Asking create fd id s seg t) (hr : Receives fd r t u)
    (hval : (!r.ok || !r.message.validComposer) = false) (hplug : r.message.isHotplug = false)
    (hid : r.message.requestId = id) (hmessage : reply.message = r.message)
    (hok : reply.ok = !(u.vars.cacheComposerStatus r.message).composerDisconnectPending) :
    ∃ seg', Exchanged create s reply
      { u with vars := u.vars.cacheComposerStatus r.message } seg' := by
  obtain ⟨hvars, tail, hlog, htail⟩ := hr
  have hval' : (r.ok && r.message.validComposer) = true := by simpa using hval
  have hopen : u.vars.composerFd = some fd := by rw [hvars, h.isOpen]
  refine ⟨seg ++ ⟨.recvWithFd fd, r⟩ :: tail, ?_, ?_, ?_, ?_, ?_, ?_, ?_, ?_, ?_⟩
  · show u.log = _
    rw [hlog, h.log, append_assoc]
  · show u.vars.owner = _
    rw [hvars, h.owner]
  · rw [composerMessages_received _ _ _ _ htail, unplugAfter_append]
    simp only [hval', if_true, unplugAfter, foldl_cons, foldl_nil, hplug,
      Bool.false_or, Bool.and_eq_true]
    rintro ⟨hc, hun⟩
    simp only [Broker.cacheComposerStatus, hvars, Bool.and_eq_true]
    exact ⟨hc, h.pending hun⟩
  · intro hr
    simpa [hok] using hr
  · exact fun _ => ⟨fd, hopen, h.same⟩
  · intro k _ c hc
    rw [h.same c hc]
    exact hopen
  · intro k _
    rw [foldl_received _ _ _ _ htail]
    simp only [Track.receive, hval, hplug, (h.track k).1, hid, bne_self_eq_false,
      Bool.false_eq_true, if_false]
    split <;> rfl
  · intro hcreate k
    rw [foldl_received _ _ _ _ htail]
    obtain ⟨hkid, hkc, hkg⟩ := h.track k
    simp [Track.receive, hval, hplug, hkid, hid, hkc, hcreate, hkg]
  · intro hcreate _ hstatus k
    rw [foldl_received _ _ _ _ htail]
    obtain ⟨hkid, hkc, hkg⟩ := h.track k
    rw [hmessage] at hstatus
    simp [Track.receive, hval, hplug, hkid, hid, hkc, hcreate, hstatus, hopen,
      Broker.cacheComposerStatus]

theorem wp_composerReceive (wantLease : Bool) (h : Asking create fd id s seg t) :
    wp (sysHandler env) (composerReceive fd id wantLease ()) (fun r u =>
      Sum.elim (fun _ => ∃ seg', Asking create fd id s seg' u)
        (fun reply => ∃ seg', Exchanged create s reply u seg') r) t := by
  simp only [composerReceive, wp_bind]
  refine wp_post (wp_recvWithFd fd) ?_
  rintro ⟨r, passed⟩ u hr
  simp only [wp_ite, wp_bind, wp_pure, wp_update, wp_getBroker]
  split
  · rename_i hbad
    refine wp_post (wp_composerFailed passed r.message) ?_
    rintro reply v ⟨hok, hv⟩
    exact h.broken hr hv hok (Or.inl hbad)
  · rename_i hval
    rw [Bool.not_eq_true] at hval
    split
    · rename_i hplug
      exact wp_post (hr.closeIfOpen passed) fun _ v hv => h.hotplug hv hval hplug
    · rename_i hplug
      rw [Bool.not_eq_true] at hplug
      split
      · rename_i hid
        refine wp_post (wp_composerFailed passed r.message) ?_
        rintro reply v ⟨hok, hv⟩
        exact h.broken hr hv hok (Or.inr ⟨hplug, by simpa using hid⟩)
      · rename_i hid
        have hid : r.message.requestId = id := by simpa using hid
        exact wp_post (hr.closeIfOpen _) fun _ v hv => h.answered hv hval hplug hid rfl rfl

/-- Whether a request asks to create the lease. -/
def createRequest (opcode : UInt16) (flags : UInt32) : Bool :=
  opcode == opAcquire && (flags &&& acquirePhaseMask) == acquireCreate

theorem Exchanged.unsent (hlog : t.log = s.log ++ seg) (hext : composerMessages seg = [])
    (howner : t.vars.owner = s.vars.owner)
    (hpend : t.vars.composerDisconnectPending = s.vars.composerDisconnectPending)
    (hok : reply.ok = false) (hkept : ∀ k : Track, (seg.foldl Track.step k).granted = k.granted)
    (hover : ∀ k : Track, k.creating = none → (seg.foldl Track.step k).creating = none)
    (hbroken : ∀ k : Track, (seg.foldl Track.step k).broken = false →
      ∀ c, s.vars.composerFd = some c → t.vars.composerFd = some c) :
    Exchanged create s reply t seg where
  log := hlog
  owner := howner
  pending := by
    rw [hext, hpend]
    exact id
  settled := by simp [hok]
  connection := by simp [hok]
  unbroken := hbroken
  ended := hover
  kept := fun _ => hkept
  created := by simp [hok]

/-- `EnsureComposer` keeps an open connection and may open a new one. -/
structure Ensured (s : Sys ω) (fd : Option Fd) (t : Sys ω) (seg : List Event) : Prop where
  log : t.log = s.log ++ seg
  owner : t.vars.owner = s.vars.owner
  pending : t.vars.composerDisconnectPending = s.vars.composerDisconnectPending
  isOpen : t.vars.composerFd = fd
  same : ∀ c, s.vars.composerFd = some c → fd = some c
  silent : composerMessages seg = []
  track : ∀ k : Track, seg.foldl Track.step k = k

theorem wp_ensureComposer : wp (sysHandler env) ensureComposer
    (fun fd t => ∃ seg, Ensured s fd t seg) s := by
  simp only [ensureComposer, wp_bind, wp_getBroker]
  cases hfd : s.vars.composerFd with
  | some fd =>
    rw [wp_pure]
    refine ⟨[], by simp, rfl, rfl, hfd, ?_, rfl, fun k => rfl⟩
    intro c hc
    rw [← hc, hfd]
  | none =>
    simp only [wp_bind]
    refine wp_call _ trivial fun ok w _ => ?_
    have hnone : ∀ (c : Fd) (fd : Option Fd), s.vars.composerFd = some c → fd = some c := by
      intro c fd hc
      simp [hfd] at hc
    cases ok with
    | false => exact ⟨_, rfl, rfl, rfl, rfl, fun c hc => hnone c _ hc, rfl, fun k => rfl⟩
    | true => exact ⟨_, rfl, rfl, rfl, rfl, fun c hc => hnone c _ hc, rfl, fun k => rfl⟩

/-- The event of handing a request to `send_with_fd`. -/
def sentEvent (fd : Fd) (m : Message) (ok : Bool) : Event := ⟨.sendWithFd fd m none, ok⟩

theorem Ensured.sent (h : Ensured s (some fd) t seg) (m : Message) (ok : Bool) :
    composerMessages (seg ++ [sentEvent fd m ok]) = [] ∧
      ∀ k : Track, (seg ++ [sentEvent fd m ok]).foldl Track.step k =
        { k with requestId := m.requestId,
                 creating := if ok && m.isCreate then some fd else none,
                 broken := k.broken || !ok } := by
  refine ⟨?_, fun k => ?_⟩
  · rw [composerMessages_append, h.silent]
    rfl
  · rw [foldl_append, h.track]
    rfl

/-- What `ComposerRequest` does to the conversation. -/
theorem wp_composerRequest (n : Nat) (opcode : UInt16) (buffer : Message) (wantLease : Bool)
    (flags : UInt32) : wp (sysHandler env) (composerRequest n opcode buffer wantLease flags)
      (fun reply t => ∃ seg, Exchanged (createRequest opcode flags) s reply t seg) s := by
  simp only [composerRequest, wp_bind]
  refine wp_post wp_ensureComposer ?_
  rintro (_ | fd) t ⟨seg, h⟩
  · rw [wp_pure]
    refine ⟨seg, Exchanged.unsent h.log h.silent h.owner h.pending rfl ?_ ?_ ?_⟩
    · intro k
      rw [h.track]
    · intro k hk
      rw [h.track, hk]
    · intro k _ c hc
      rw [h.isOpen, h.same c hc]
  · simp only [wp_bind, wp_makeMessage, wp_ite]
    refine wp_call _ trivial fun ok w _ => ?_
    let request : Message :=
      { magic := hdmiLosMagic, version := hdmiLosVersion, opcode := opcode,
        requestId := t.vars.nextRequestId, flags := flags }
    obtain ⟨hsilent, htrack⟩ := h.sent request ok
    cases ok with
    | true =>
      refine wp_loop _ (fun _ u => ∃ seg', Asking (createRequest opcode flags) fd
        t.vars.nextRequestId s seg' u) (fun _ _ _ => trivial) ?_ n () ?_
      · rintro ⟨⟩ u ⟨seg', hu⟩
        exact wp_composerReceive wantLease hu
      · refine ⟨seg ++ [sentEvent fd request true], by rw [h.log, append_assoc]; rfl, h.owner,
          ?_, h.isOpen, ?_, ?_⟩
        · rw [hsilent]
          exact fun hp => h.pending.trans hp
        · exact fun c hc => (Option.some.inj (h.same c hc)).symm
        · intro k
          rw [htrack]
          exact ⟨rfl, rfl, rfl⟩
    | false =>
      refine wp_post (wp_composerFailed none buffer) ?_
      rintro reply v ⟨hok, howner, hpend, hfd, tail, hlog, htail⟩
      have hfold : ∀ k : Track, (seg ++ [sentEvent fd request false] ++ tail).foldl Track.step k
          = { k with requestId := request.requestId, creating := none, broken := true } := by
        intro k
        rw [foldl_append, htrack, track_foldl_of_kind htail]
        simp
      refine ⟨seg ++ [sentEvent fd request false] ++ tail, Exchanged.unsent ?_ ?_
        (howner.trans h.owner) (hpend.trans h.pending) hok ?_ ?_ ?_⟩
      · rw [hlog]
        simp [h.log, sentEvent, request]
      · rw [composerMessages_append, hsilent, composerMessages_of_kind htail]
        rfl
      · intro k
        rw [hfold]
      · intro k _
        rw [hfold]
      · intro k hk
        rw [hfold] at hk
        simp at hk

end HdmiLos
