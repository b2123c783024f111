import HdmiLos.Broker.Proofs.ActiveProofs

/-!
# Clients of an active session

While a session is active a client can end it (toggle and disarm), or its request is answered
without touching it. In the second case `AcceptClient` has already asked the composer for its
status, and whatever that request met is lost on the session.
-/

namespace HdmiLos

open Interaction Prog

variable {ω : Type} {env : Env ω} {s t u : Sys ω}

/-! ## Requests -/

theorem wp_serveToggle_active (n : Nat) (request response : Message) (hs : s.vars.active = true) :
    wp (sysHandler env) (serveToggle n request response) (fun _ => Released s) s := by
  simp only [serveToggle, wp_bind, wp_getBroker, hs, if_true]
  refine wp_post (wp_release n _ _ hs) fun _ t ht => ?_
  exact wp_returns (wp_quiet (uses_status _)) fun _ _ h => ht.apart h

theorem wp_serveDisarm_active (n : Nat) (request : Message) (hs : s.vars.active = true) :
    wp (sysHandler env) (serveDisarm n request) (fun _ => Released s) s := by
  simp only [serveDisarm, stopOrDisarm, wp_bind, wp_getBroker, hs, if_true]
  refine wp_post (wp_release n _ _ hs) fun _ t ht => ?_
  exact wp_returns (wp_quiet (uses_status _)) fun _ _ h => ht.apart h

theorem wp_respond_apart (request : Message) (result : Int) (text : String) (keep : Bool)
    (h : Apart s t) : wp (sysHandler env) (respond request result text keep) (fun _ => Apart s) t :=
  wp_returns (wp_quiet (uses_respond _ _ _ _)) fun _ _ h' => h.trans h'

variable {Q : Int × String → Sys ω → Prop}

theorem wp_setMode_active (request : Message) (hs : s.vars.active = true) (hQ : ∀ r, Q r s) :
    wp (sysHandler env) (setMode request) Q s := by
  simp only [setMode, wp_bind, wp_getBroker, hs, Bool.true_or, if_true, wp_pure]
  exact hQ _

theorem wp_arm_active (n : Nat) (request : Message) (hs : s.vars.active = true) (hQ : ∀ r, Q r s) :
    wp (sysHandler env) (arm n request) Q s := by
  simp only [arm, wp_bind, wp_getBroker, hs, Bool.true_or, if_true, wp_pure]
  exact hQ _

theorem wp_probe_active (n : Nat) (request : Message) (hs : s.vars.active = true)
    (hQ : ∀ r, Q r s) : wp (sysHandler env) (probe n request) Q s := by
  simp only [probe, probeLease, start, wp_ite, wp_bind, wp_getBroker, hs, Bool.true_or, if_true,
    wp_pure]
  split
  · exact hQ _
  · split
    · exact hQ _
    · exact hQ _

theorem wp_serveProbe_active (n : Nat) (root : Bool) (request response : Message)
    (h : Apart s t) (ht : t.vars.active = true) :
    wp (sysHandler env) (serveProbe n root request response) (fun _ => Apart s) t := by
  simp only [serveProbe, wp_ite, wp_bind, wp_pure]
  split
  · exact h
  · exact wp_probe_active n request ht fun _ => wp_respond_apart request _ _ _ h

/-- A request is answered: toggle and disarm end the session, the others leave it alone. -/
theorem wp_serveRequest_active (n : Nat) (root : Bool) (request : Message)
    (hs : s.vars.active = true) :
    wp (sysHandler env) (serveRequest n root request) (fun _ t =>
      if request.opcode = opToggle ∨ request.opcode = opDisarm then Released s t else Apart s t)
      s := by
  simp only [serveRequest, wp_bind]
  refine wp_returns (wp_quiet (uses_status _)) fun response t ht => ?_
  have hactive : t.vars.active = true := (owner_active ht.owner).trans hs
  simp only [wp_ite, wp_bind, wp_pure, beq_iff_eq]
  by_cases htoggle : request.opcode = opToggle
  · simp only [htoggle, if_true, true_or]
    exact wp_post (wp_serveToggle_active n request response hactive)
      fun _ _ h => Released.after ht.keeps h
  by_cases hdisarm : request.opcode = opDisarm
  · simp only [hdisarm, or_true, if_true]
    exact wp_post (wp_serveDisarm_active n request hactive) fun _ _ h => Released.after ht.keeps h
  simp only [htoggle, hdisarm, or_self, if_false]
  split
  · exact wp_setMode_active request hactive fun _ => wp_respond_apart request _ _ _ ht
  · split
    · exact wp_arm_active n request hactive fun _ => wp_respond_apart request _ _ _ ht
    · split
      · exact wp_serveProbe_active n root request response ht hactive
      · split
        · exact ht
        · exact ht

theorem wp_refused_apart (client : Fd) (id : UInt32) (f : Message → Message) (h : Apart s t) :
    wp (sysHandler env) (do
      let m ← status id
      let _ ← writeFull client (f m)
      closeFd client) (fun _ => Apart s) t := by
  simp only [wp_bind]
  refine wp_returns (wp_quiet (uses_status _)) fun m u hu => ?_
  refine wp_returns (wp_streams (uses_call (by simp [Io.kind]))) fun _ v hv => ?_
  exact wp_returns (wp_quiet (uses_quietCall rfl)) fun _ w hw => ((h.trans hu).trans hv).trans hw

theorem wp_registerAgent_active (client : Fd) (request : Message) (hs : s.vars.active = true) :
    wp (sysHandler env) (registerAgent client request) (fun _ => Apart s) s := by
  simp only [registerAgent, wp_bind, wp_getBroker, hs, Bool.true_or, if_true]
  rw [wp_ite]
  split
  · exact wp_refused_apart client request.requestId (fun m =>
      { m with status := errProtocol, detail := "unknown agent registration flag" }) (Beside.refl s)
  · exact wp_refused_apart client request.requestId (fun m => { m with status := errBusy })
      (Beside.refl s)

/-! ## Connections -/

/-- The step makes one request to the composer and ignores its result. -/
def Asked (s t : Sys ω) : Prop :=
  ∃ (u v : Sys ω) (reply : Reply) (seg : List Event),
    Apart s u ∧ Exchanged false u reply v seg ∧ Apart v t

theorem Asked.before (h : Apart s t) (h' : Asked t u) : Asked s u := by
  obtain ⟨v, w, reply, seg, hv, hw, hu⟩ := h'
  exact ⟨v, w, reply, seg, h.trans hv, hw, hu⟩

theorem Asked.owner (h : Asked s t) : t.vars.owner = s.vars.owner := by
  obtain ⟨u, v, reply, seg, hu, hv, ht⟩ := h
  rw [ht.owner, hv.owner, hu.owner]

theorem Asked.keeps (h : Asked s t) : Keeps s t := by
  obtain ⟨u, v, reply, seg, hu, hv, ht⟩ := h
  exact (hu.keeps.trans hv.keeps).trans ht.keeps

theorem Asked.connection (h : Asked s t) {calls : List Event} (hcalls : t.log = s.log ++ calls)
    (hb : (track calls).broken = false) (c : Fd) (hc : s.vars.composerFd = some c) :
    t.vars.composerFd = some c := by
  obtain ⟨u, v, reply, seg, ⟨huv, before, hlu, hku⟩, hv, ⟨htv, after, hlt, hkt⟩⟩ := h
  have hseg : calls = before ++ seg ++ after := by
    have hlog : s.log ++ calls = s.log ++ (before ++ seg ++ after) := by
      rw [← hcalls, hlt, hv.log, hlu]
      simp
    exact List.append_cancel_left hlog
  have hbroken : (seg.foldl Track.step {}).broken = false := by
    rw [track, hseg, List.foldl_append, List.foldl_append, track_foldl_of_kind hku,
      track_foldl_of_kind hkt] at hb
    exact hb
  have hopen : u.vars.composerFd = some c := by
    rw [← hc]
    exact congrArg (fun x => x.2.2) huv
  have htfd : t.vars.composerFd = v.vars.composerFd := congrArg (fun x => x.2.2) htv
  rw [htfd, hv.unbroken {} hbroken c hopen]

theorem Asked.extends (h : Asked s t) : ∃ calls, t.log = s.log ++ calls := by
  obtain ⟨seg, hl, -⟩ := h.keeps
  exact ⟨seg, hl⟩

/-- What serving a client can do to an active session. -/
def Served (s t : Sys ω) (keepsSession : Prop) : Prop :=
  Released s t ∨ Apart s t ∨ (Asked s t ∧ keepsSession)

theorem wp_serveClient_active (n : Nat) (client : Fd) (root : Bool) (request : Message)
    (hs : s.vars.active = true) :
    wp (sysHandler env) (serveClient n client root request) (fun _ t => Served s t
      (request.opcode ≠ opToggle ∧ request.opcode ≠ opDisarm)) s := by
  simp only [serveClient, wp_ite, wp_bind]
  split
  · exact wp_post (wp_registerAgent_active client request hs) fun _ _ h => Or.inr (Or.inl h)
  · refine wp_post (wp_composerRequest n opStatus {} false 0) fun reply t ⟨seg, ht⟩ => ?_
    rw [show createRequest opStatus 0 = false from rfl] at ht
    refine wp_post (wp_serveRequest_active n root request ((owner_active ht.owner).trans hs))
      fun response u hu => ?_
    refine wp_returns (wp_streams (uses_call (by simp [Io.kind]))) fun _ v hv => ?_
    refine wp_returns (wp_quiet (uses_quietCall rfl)) fun _ w hw => ?_
    by_cases hend : request.opcode = opToggle ∨ request.opcode = opDisarm
    · rw [if_pos hend] at hu
      exact Or.inl (((Released.after ht.keeps hu).apart hv).apart hw)
    · rw [if_neg hend] at hu
      exact Or.inr (Or.inr ⟨⟨s, t, reply, seg, Beside.refl s, ht, (hu.trans hv).trans hw⟩,
        not_or.1 hend⟩)

/-- The calls that accept a client begin with its request. -/
theorem not_endsSession {ok : Bool} {client : Fd} {uid : Option UInt32} {r : Received}
    {rest : List Event} (h : r.message.opcode ≠ opToggle ∧ r.message.opcode ≠ opDisarm) :
    ¬EndsSession (⟨.acceptClient client, ok⟩ :: ⟨.peerUid client, uid⟩ ::
      ⟨.readFull client, r⟩ :: rest) := by
  rintro ⟨request, hreq, hop⟩
  obtain rfl : r.message = request := Option.some.inj hreq
  rcases hop with hop | hop
  · exact h.1 hop
  · exact h.2 hop

theorem Beside.call (h : Apart s t) (c : Io) (a : c.Ans) (hc : c.kind ≠ .composer)
    (hb : u.vars = t.vars) (hl : u.log = t.log ++ [⟨c, a⟩]) : Apart s u := by
  refine h.trans ⟨by rw [hb], [⟨c, a⟩], hl, fun e he => ?_⟩
  rw [List.mem_singleton.1 he]
  exact hc

theorem Served.imp {P Q : Prop} (h : Served s t P) (hPQ : P → Q) : Served s t Q := by
  rcases h with h | h | ⟨h, hp⟩
  · exact Or.inl h
  · exact Or.inr (Or.inl h)
  · exact Or.inr (Or.inr ⟨h, hPQ hp⟩)

theorem Served.before {P : Prop} (h : Apart s t) (h' : Served t u P) : Served s u P := by
  rcases h' with h' | h' | ⟨h', hp⟩
  · exact Or.inl (Released.after h.keeps h')
  · exact Or.inr (Or.inl (h.trans h'))
  · exact Or.inr (Or.inr ⟨h'.before h, hp⟩)

theorem wp_answerClient_active (n : Nat) (client : Fd) (uid : UInt32) (request : Message)
    (hs : s.vars.active = true) :
    wp (sysHandler env) (answerClient n client uid request) (fun _ t => Served s t
      (request.opcode ≠ opToggle ∧ request.opcode ≠ opDisarm)) s := by
  simp only [answerClient, wp_bind]
  refine wp_returns (wp_quiet (uses_quietCall rfl)) fun packages t ht => ?_
  rw [wp_ite]
  split
  · refine wp_post (wp_refused_apart client request.requestId (fun m =>
      { m with status := errPermission, detail := "peer uid is not authorized" }) ht) ?_
    exact fun _ _ h => Or.inr (Or.inl h)
  · refine wp_post (wp_serveClient_active n client _ request ((owner_active ht.owner).trans hs)) ?_
    exact fun _ _ h => h.before ht

theorem wp_acceptConnection {Q : Option Fd → Sys ω → Prop} (hQ : ∀ (ok : Bool) (w : ω),
      Q (if ok then some s.nextFd else none)
        { s with log := s.log ++ [⟨.acceptClient s.nextFd, ok⟩], nextFd := s.nextFd + 1,
                 world := w }) :
    wp (sysHandler env) acceptConnection Q s := by
  show wp (sysHandler env) (do
    if ← call (.acceptClient s.nextFd) then pure (some s.nextFd) else pure none) Q
    { s with nextFd := s.nextFd + 1 }
  rw [wp_bind]
  refine wp_call (.acceptClient s.nextFd) trivial fun (ok : Bool) w _ => ?_
  have h := hQ ok w
  cases ok
  · exact h
  · exact h

/-- The client's part of an iteration with a session. -/
theorem wp_runClient_active (n : Nat) (listen : Revents) (hs : s.vars.active = true) :
    wp (sysHandler env) (runClient n listen) (fun _ t => Served s t
      (∃ calls, t.log = s.log ++ calls ∧ ¬EndsSession calls)) s := by
  simp only [runClient, wp_ite]
  split
  case isFalse => exact Or.inr (Or.inl (Beside.refl s))
  simp only [acceptClient, wp_bind]
  refine wp_acceptConnection fun ok w => ?_
  have h₁ : Apart s { s with log := s.log ++ [⟨.acceptClient s.nextFd, ok⟩]
                             nextFd := s.nextFd + 1, world := w } :=
    (Beside.refl s).call (.acceptClient s.nextFd) ok (by simp [Io.kind]) rfl rfl
  cases ok
  case false => exact Or.inr (Or.inl h₁)
  simp only [if_true, acceptedClient, wp_bind]
  refine wp_call (.peerUid s.nextFd) trivial fun (uid : Option UInt32) w₂ _ => ?_
  have h₂ : Apart s { s with log := s.log ++ [⟨.acceptClient s.nextFd, true⟩] ++
    [⟨.peerUid s.nextFd, uid⟩]
                             nextFd := s.nextFd + 1, world := w₂ } :=
    h₁.call (.peerUid s.nextFd) uid (by simp [Io.kind]) rfl rfl
  cases uid with
  | none =>
    exact wp_returns (wp_quiet (uses_quietCall rfl)) fun _ t ht => Or.inr (Or.inl (h₂.trans ht))
  | some uid =>
    simp only [wp_bind]
    refine wp_call (.readFull s.nextFd) trivial fun (r : Received) w₃ _ => ?_
    have h₃ : Apart s { s with log := s.log ++ [⟨.acceptClient s.nextFd, true⟩]
                                 ++ [⟨.peerUid s.nextFd, some uid⟩] ++ [⟨.readFull s.nextFd, r⟩]
                               nextFd := s.nextFd + 1, world := w₃ } :=
      h₂.call (.readFull s.nextFd) r (by simp [Io.kind]) rfl rfl
    rw [wp_ite]
    split
    · exact wp_returns (wp_quiet (uses_quietCall rfl)) fun _ t ht => Or.inr (Or.inl (h₃.trans ht))
    · refine wp_post (wp_answerClient_active n s.nextFd uid r.message hs) fun _ t ht => ?_
      rcases ht with ht | ht | ⟨ht, hop⟩
      · exact Or.inl (Released.after h₃.keeps ht)
      · exact Or.inr (Or.inl (h₃.trans ht))
      · refine Or.inr (Or.inr ⟨ht.before h₃, ?_⟩)
        obtain ⟨rest, hl⟩ := ht.extends
        refine ⟨⟨.acceptClient s.nextFd, true⟩ :: ⟨.peerUid s.nextFd, some uid⟩ ::
          ⟨.readFull s.nextFd, r⟩ :: rest, ?_, not_endsSession hop⟩
        rw [hl]
        simp

end HdmiLos
