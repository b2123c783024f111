import HdmiLos.Agent.Proofs.ServingProofs
import HdmiLos.Handshake.Pair

/-!
# What a connection can still bring

The requests that are outstanding on a connection are only ever answered in order: a step of the
agent takes none away that it does not answer, and adds none. So if nothing was outstanding when the
broker sent a request, the next `AGENT_READY` it reads there is the reply to that request.
-/

namespace HdmiLos.Handshake

open Interaction Prog List

variable {ω : Type} {w w' : Pair ω} {l : Link} {oracle : (c : Agent.Io) → c.Ans}

/-! ## Steps of an agent -/

/-- The agent has only replied to what it was asked, and goes on like that. -/
def Link.Orderly (l : Link) : Prop :=
  l.prog.Obeys Agent.servingMonitor (fun _ _ _ => True) l.vars l.serving.isSome

/-- What one step of an agent does to its connection. -/
structure Link.Advances (l l' : Link) (reply : Option (Nat × Message)) : Prop where
  orderly : l'.Orderly
  outstanding : l'.outstanding.Sublist l.outstanding
  heard : ∀ x ∈ l'.toBroker, x ∈ l.toBroker ∨ ∀ serial, x.re = some serial →
    reply = some (serial, x.message)

theorem Link.advances_refl (hl : l.Orderly) : l.Advances l none :=
  ⟨hl, Sublist.refl _, fun _ hx => Or.inl hx⟩

theorem Link.served_isSome (l : Link) (reader : Agent.Reader) (x : Unread) :
    (l.served reader (some x)).isSome = Agent.servingMonitor.next l.serving.isSome
      (.recvBroker reader) { ok := true, message := x.message, passed := x.lease } := by
  cases reader with
  | request => cases h : x.message.isAgentRequest <;> simp [Link.served, Agent.servingMonitor, h]
  | registration => rfl
  | acknowledgement => rfl

theorem Link.served_isSome_none (l : Link) (reader : Agent.Reader) {received : Received}
    (hok : received.ok = false) : (l.served reader none).isSome =
      Agent.servingMonitor.next l.serving.isSome (.recvBroker reader) received := by
  cases reader with
  | request => simp [Link.served, Agent.servingMonitor, hok]
  | registration => rfl
  | acknowledgement => rfl

/-- A message that was read is at most moved from the unread ones to the one being served. -/
theorem Link.outstanding_served (l : Link) (reader : Agent.Reader) {x : Unread} {rest : List Unread}
    (hl : l.toAgent = x :: rest) :
    ((l.served reader (some x)).toList.map some ++
      (rest.filter fun x => x.message.isAgentRequest).map fun x => some x.serial).Sublist
    (l.serving.toList.map some ++
      (l.toAgent.filter fun x => x.message.isAgentRequest).map fun x => some x.serial) := by
  have hrest : ((rest.filter fun x => x.message.isAgentRequest).map fun x =>
      some x.serial).Sublist
      ((l.toAgent.filter fun x => x.message.isAgentRequest).map fun x => some x.serial) := by
    rw [hl]
    exact ((sublist_cons_self x rest).filter _).map _
  cases reader with
  | request =>
    refine Sublist.trans ?_ (sublist_append_right _ _)
    cases h : x.message.isAgentRequest with
    | true => simp [Link.served, hl, h]
    | false => simpa [Link.served, h] using hrest
  | registration => exact (Sublist.refl _).append hrest
  | acknowledgement => exact (Sublist.refl _).append hrest

theorem Link.served_none_sublist (l : Link) (reader : Agent.Reader) :
    ((l.served reader none).toList.map some).Sublist (l.serving.toList.map some) := by
  cases reader with
  | request => simp [Link.served]
  | registration => exact Sublist.refl _
  | acknowledgement => exact Sublist.refl _

theorem Link.outstanding_write (l : Link) (m : Message) (ok : Bool)
    (hready : m.opcode = opAgentReady → l.serving.isSome = true) :
    (l.write m ok).outstanding.Sublist l.outstanding := by
  by_cases hprogress : m.opcode = opAgentProgress
  · have hne : opAgentProgress ≠ opAgentReady := by decide
    cases ok with
    | true => simp [Link.write, Link.outstanding, hprogress, hne]
    | false => simp [Link.write, Link.outstanding, hprogress]
  · cases ok with
    | false => simp [Link.write, Link.outstanding, hprogress]
    | true =>
      by_cases hm : m.opcode = opAgentReady
      · -- the reply moves from the request being served to the messages on their way
        obtain ⟨serial, hserial⟩ := Option.isSome_iff_exists.1 (hready hm)
        have hne : (opAgentReady == opAgentProgress) = false := by decide
        simp [Link.write, Link.outstanding, hm, hne, hserial]
      · simp [Link.write, Link.outstanding, hprogress, hm]

theorem Link.heard_write (l : Link) (m : Message) (ok : Bool) :
    ∀ x ∈ (l.write m ok).toBroker, x ∈ l.toBroker ∨ ∀ serial, x.re = some serial →
      l.reply m ok = some (serial, x.message) := by
  intro x hx
  by_cases hprogress : m.opcode = opAgentProgress
  · cases ok with
    | false => exact Or.inl (by simpa [Link.write, hprogress] using hx)
    | true =>
      have hx' : x ∈ l.toBroker ∨ x = ⟨none, m⟩ := by simpa [Link.write, hprogress] using hx
      rcases hx' with hx' | rfl
      · exact Or.inl hx'
      · exact Or.inr fun serial h => by cases h
  · cases ok with
    | false => exact Or.inl (by simpa [Link.write, hprogress] using hx)
    | true =>
      have hx' : x ∈ l.toBroker ∨ x = ⟨l.serving, m⟩ := by simpa [Link.write, hprogress] using hx
      rcases hx' with hx' | rfl
      · exact Or.inl hx'
      · exact Or.inr fun serial h => by simp [Link.reply, hprogress, show l.serving = _ from h]

theorem Link.advances_answer (l : Link) (vars : Agent) (nextFd : Nat) (c : Agent.Io)
    (resume : c.Ans → AgentProg Int) (hl : l.Orderly)
    (hc : Agent.servingMonitor.allows l.serving.isSome c)
    (hresume : ∀ a, (resume a).Obeys Agent.servingMonitor (fun _ _ _ => True) vars
      (Agent.servingMonitor.next l.serving.isSome c a)) :
    l.Advances (l.answer oracle vars nextFd c resume).1
      (l.answer oracle vars nextFd c resume).2 := by
  cases c with
  | writeBroker m =>
    refine ⟨?_, l.outstanding_write m _ hc, l.heard_write m _⟩
    have hnext := hresume (oracle (.writeBroker m))
    by_cases hprogress : m.opcode = opAgentProgress
    · simpa [Link.Orderly, Link.answer, Link.write, Agent.servingMonitor, hprogress] using hnext
    · simpa [Link.Orderly, Link.answer, Link.write, Agent.servingMonitor, hprogress] using hnext
  | recvBroker reader =>
    simp only [Link.answer]
    cases hok : (oracle (.recvBroker reader)).ok with
    | false =>
      refine ⟨?_, ?_, fun x hx => Or.inl hx⟩
      · have hnext := hresume (oracle (.recvBroker reader))
        rw [← l.served_isSome_none reader hok] at hnext
        exact hnext
      · exact (Sublist.refl _).append ((l.served_none_sublist reader).append (Sublist.refl _))
    | true =>
      cases htoAgent : l.toAgent with
      | nil => exact Link.advances_refl hl
      | cons x rest =>
        refine ⟨?_, ?_, fun x hx => Or.inl hx⟩
        · have hnext := hresume { ok := true, message := x.message, passed := x.lease }
          rw [← l.served_isSome reader x] at hnext
          exact hnext
        · exact (Sublist.refl _).append (l.outstanding_served reader htoAgent)
  | _ => exact ⟨hresume _, Sublist.refl _, fun x hx => Or.inl hx⟩

/-- A step of the agent on an orderly link. -/
theorem Link.advances_step (hl : l.Orderly) : l.Advances (l.step oracle).1 (l.step oracle).2 := by
  unfold Link.step
  cases hpending : l.prog.pending l.vars l.nextFd with
  | none => exact Link.advances_refl hl
  | some x =>
    obtain ⟨hallows, hresume⟩ := obeys_pending hl hpending
    exact l.advances_answer x.vars x.nextFd x.call x.resume hl hallows hresume

/-! ## The history -/

/-- The entry says neither that a request was sent nor that a message was read or awaited. -/
def Happening.isReply : Happening → Bool
  | .replied _ _ _ => true
  | _ => false

theorem lastExchange_replies {new : List Happening} (hnew : ∀ e ∈ new, e.isReply = true)
    (hist : List Happening) : lastExchange (new ++ hist) = lastExchange hist := by
  induction new with
  | nil => rfl
  | cons e new ih =>
    have he := hnew e mem_cons_self
    cases e with
    | replied fd serial m => exact ih fun e he => hnew e (mem_cons_of_mem _ he)
    | sent x => cases he
    | taken x => cases he
    | passed q => cases he

theorem lastExchange_taken {t : Taken} {past : List Happening} {x : Sent} {y : Option Taken}
    (h : lastExchange (.taken t :: past) = some (x, y)) : ∃ y', lastExchange past = some (x, y') := by
  obtain ⟨e, he, heq⟩ := Option.map_eq_some_iff.1 h
  exact ⟨e.2, he.trans (by rw [← (Prod.mk.inj heq).1])⟩

/-! ## The connections -/

/-- The connections of all agents are in order. After a request that was sent on an idle connection
    only that request is outstanding there, and an `AGENT_READY` that was read is its reply. -/
structure Sound (w : Pair ω) : Prop where
  orderly : ∀ fd l, w.links fd = some l → l.Orderly
  heard : ∀ fd l, w.links fd = some l → ∀ x ∈ l.toBroker, ∀ serial, x.re = some serial →
    .replied fd serial x.message ∈ w.hist
  linked : ∀ x y, lastExchange w.hist = some (x, y) → x.idle = true → (w.links x.fd).isSome = true
  outstanding : ∀ x y, lastExchange w.hist = some (x, y) → x.idle = true →
    ∀ l, w.links x.fd = some l → l.outstanding.Sublist [some x.serial]
  taken : ∀ x y, lastExchange w.hist = some (x, some y) → x.idle = true → y.fd = x.fd →
    y.message.opcode = opAgentReady → y.re = some x.serial ∧
      .replied x.fd x.serial y.message ∈ w.hist ∧
      ∀ l, w.links x.fd = some l → l.outstanding = []

theorem sound_initial (r : ω) : Sound ({ rest := r } : Pair ω) where
  orderly _ _ h := by cases h
  heard _ _ h := by cases h
  linked _ _ h := by cases h
  outstanding _ _ h := by cases h
  taken _ _ h := by cases h

theorem Sound.rest (h : Sound w) (r : ω) : Sound { w with rest := r } :=
  ⟨h.orderly, h.heard, h.linked, h.outstanding, h.taken⟩

theorem Sound.relink (h : Sound w) (fd : Fd) (l' : Link) (new : List Happening)
    (hnew : ∀ e ∈ new, e.isReply = true) (horderly : l'.Orderly)
    (hheard : ∀ x ∈ l'.toBroker, ∀ serial, x.re = some serial →
      .replied fd serial x.message ∈ new ++ w.hist)
    (hout : ∀ x y, lastExchange w.hist = some (x, y) → x.idle = true → x.fd = fd →
      l'.outstanding.Sublist [some x.serial])
    (hempty : ∀ x y, lastExchange w.hist = some (x, some y) → x.idle = true → x.fd = fd →
      y.fd = x.fd → y.message.opcode = opAgentReady → l'.outstanding = []) :
    Sound ((w.setLink fd (some l')).note new) where
  orderly fd' l hl := by
    by_cases hfd : fd' = fd
    · subst hfd
      obtain rfl : l' = l := by simpa [Pair.note, Pair.setLink] using hl
      exact horderly
    · exact h.orderly fd' l (by simpa [Pair.note, Pair.setLink, hfd] using hl)
  heard fd' l hl x hx serial hserial := by
    by_cases hfd : fd' = fd
    · subst hfd
      obtain rfl : l' = l := by simpa [Pair.note, Pair.setLink] using hl
      exact hheard x hx serial hserial
    · have hl' : w.links fd' = some l := by simpa [Pair.note, Pair.setLink, hfd] using hl
      exact mem_append_right _ (h.heard fd' l hl' x hx serial hserial)
  linked x y hx hidle := by
    have hx' : lastExchange w.hist = some (x, y) := (lastExchange_replies hnew w.hist) ▸ hx
    by_cases hfd : x.fd = fd
    · simp [Pair.note, Pair.setLink, hfd]
    · simpa [Pair.note, Pair.setLink, hfd] using h.linked x y hx' hidle
  outstanding x y hx hidle l hl := by
    have hx' : lastExchange w.hist = some (x, y) := (lastExchange_replies hnew w.hist) ▸ hx
    by_cases hfd : x.fd = fd
    · obtain rfl : l' = l := by simpa [Pair.note, Pair.setLink, hfd] using hl
      exact hout x y hx' hidle hfd
    · exact h.outstanding x y hx' hidle l (by simpa [Pair.note, Pair.setLink, hfd] using hl)
  taken x y hx hidle hyfd hready := by
    have hx' : lastExchange w.hist = some (x, some y) := (lastExchange_replies hnew w.hist) ▸ hx
    obtain ⟨hre, hreplied, hnone⟩ := h.taken x y hx' hidle hyfd hready
    refine ⟨hre, mem_append_right _ hreplied, fun l hl => ?_⟩
    by_cases hfd : x.fd = fd
    · obtain rfl : l' = l := by simpa [Pair.note, Pair.setLink, hfd] using hl
      exact hempty x y hx' hidle hfd hyfd hready
    · exact hnone l (by simpa [Pair.note, Pair.setLink, hfd] using hl)

theorem Sound.move (h : Sound w) (x : Move) : Sound (w.move x) := by
  unfold Pair.move
  cases hl : w.links x.fd with
  | none => exact h
  | some l =>
    have hadv : l.Advances (l.step x.oracle).1 (l.step x.oracle).2 :=
      Link.advances_step (h.orderly x.fd l hl)
    show Sound ((w.setLink x.fd (some (l.step x.oracle).1)).note
      ((l.step x.oracle).2.toList.map fun r => .replied x.fd r.1 r.2))
    generalize l.step x.oracle = stepped at hadv ⊢
    obtain ⟨l', reply⟩ := stepped
    refine h.relink x.fd l' _ ?_ hadv.orderly ?_ ?_ ?_
    · intro e he
      obtain ⟨r, -, rfl⟩ := mem_map.1 he
      rfl
    · intro y hy serial hserial
      rcases hadv.heard y hy with hold | hreply
      · exact mem_append_right _ (h.heard x.fd l hl y hold serial hserial)
      · refine mem_append_left _ ?_
        simp [show reply = _ from hreply serial hserial]
    · rintro y z hlast hidle hfd
      exact hadv.outstanding.trans (h.outstanding y z hlast hidle l (hfd ▸ hl))
    · rintro y z hlast hidle hfd hzfd hready
      have hnone := (h.taken y z hlast hidle hzfd hready).2.2 l (hfd ▸ hl)
      exact sublist_nil.1 (hnone ▸ hadv.outstanding)

theorem Sound.moves (h : Sound w) (xs : List Move) : Sound (xs.foldl Pair.move w) := by
  induction xs generalizing w with
  | nil => exact h
  | cons x xs ih => exact ih (h.move x)

/-! ## Calls of the broker -/

theorem Sound.join (h : Sound w) (fd : Fd) (j : Option Joining) : Sound (w.join fd j) := by
  cases j with
  | none => exact h
  | some j =>
    exact h.relink fd _ [] (by simp) (Agent.obeys_runAgent j.fuel j.pid j.vars) (by simp)
      (fun _ _ _ _ _ => by simp [Link.outstanding]) (fun _ _ _ _ _ _ _ => rfl)

/-- A message that is no request changes nothing that is outstanding; a request on an idle
    connection is the only one outstanding there. -/
theorem Sound.deliver (h : Sound w) (fd : Fd) (m : Message) (lease : Bool) :
    Sound (w.deliver fd m lease) := by
  by_cases hm : m.isAgentRequest
  · -- the new request is the last one, and nothing was read after it
    refine ⟨?_, ?_, ?_, ?_, ?_⟩
    · intro fd' l hl
      by_cases hfd : fd' = fd
      · subst hfd
        obtain ⟨l₀, hl₀, rfl⟩ : ∃ l₀, w.links fd' = some l₀ ∧
            { l₀ with toAgent := l₀.toAgent ++ [⟨w.hist.length, m, lease⟩] } = l := by
          simpa [Pair.deliver, Pair.note, Pair.setLink] using hl
        exact h.orderly fd' l₀ hl₀
      · exact h.orderly fd' l (by simpa [Pair.deliver, Pair.note, Pair.setLink, hfd] using hl)
    · intro fd' l hl x hx serial hserial
      refine mem_append_right _ ?_
      by_cases hfd : fd' = fd
      · subst hfd
        obtain ⟨l₀, hl₀, rfl⟩ : ∃ l₀, w.links fd' = some l₀ ∧
            { l₀ with toAgent := l₀.toAgent ++ [⟨w.hist.length, m, lease⟩] } = l := by
          simpa [Pair.deliver, Pair.note, Pair.setLink] using hl
        exact h.heard fd' l₀ hl₀ x hx serial hserial
      · exact h.heard fd' l (by simpa [Pair.deliver, Pair.note, Pair.setLink, hfd] using hl) x hx
          serial hserial
    · intro x y hx hidle
      obtain ⟨rfl, -⟩ : ⟨fd, w.hist.length, m, lease, w.idle fd⟩ = x ∧ none = y := by
        simpa [Pair.deliver, Pair.note, hm, lastExchange] using hx
      cases hl : w.links fd with
      | none => simp [Pair.idle, hl] at hidle
      | some l => simp [Pair.deliver, Pair.note, Pair.setLink, hl]
    · intro x y hx hidle l hl
      obtain ⟨rfl, -⟩ : ⟨fd, w.hist.length, m, lease, w.idle fd⟩ = x ∧ none = y := by
        simpa [Pair.deliver, Pair.note, hm, lastExchange] using hx
      obtain ⟨l₀, hl₀, rfl⟩ : ∃ l₀, w.links fd = some l₀ ∧
          { l₀ with toAgent := l₀.toAgent ++ [⟨w.hist.length, m, lease⟩] } = l := by
        simpa [Pair.deliver, Pair.note, Pair.setLink] using hl
      have hempty : l₀.outstanding = [] := by simpa [Pair.idle, hl₀] using hidle
      simp only [Link.outstanding, append_eq_nil_iff] at hempty
      simp [Link.outstanding, filter_append, hempty.1, hempty.2.1, hempty.2.2, hm]
    · intro x y hx
      simp [Pair.deliver, Pair.note, hm, lastExchange] at hx
  · cases hl : w.links fd with
    | none =>
      have hlinks : Function.update w.links fd none = w.links := by
        rw [← hl]
        exact Function.update_eq_self fd w.links
      have hsame : w.deliver fd m lease = w := by
        simp [Pair.deliver, Pair.note, Pair.setLink, hl, hm, hlinks]
      rw [hsame]
      exact h
    | some l =>
      have hout : Link.outstanding { l with toAgent := l.toAgent ++ [⟨w.hist.length, m, lease⟩] } =
          l.outstanding := by simp [Link.outstanding, filter_append, hm]
      have hrelinked := h.relink fd
        { l with toAgent := l.toAgent ++ [⟨w.hist.length, m, lease⟩] } []
        (by simp) (h.orderly fd l hl) (fun x hx serial hserial => h.heard fd l hl x hx serial hserial)
        (fun x y hx hidle hfd => hout ▸ h.outstanding x y hx hidle l (hfd ▸ hl))
        (fun x y hx hidle hfd hyfd hready =>
          hout ▸ (h.taken x y hx hidle hyfd hready).2.2 l (hfd ▸ hl))
      simpa [Pair.deliver, hl, hm] using hrelinked

/-- An `AGENT_READY` that is read is the reply to the oldest request that is outstanding. -/
theorem Sound.take (h : Sound w) {fd : Fd} {l : Link} {x : Unheard} {rest : List Unheard}
    (hl : w.links fd = some l) (hx : l.toBroker = x :: rest) :
    Sound ((w.setLink fd (some { l with toBroker := rest })).note [.taken ⟨fd, x.re, x.message⟩]) := by
  have hmem : x ∈ l.toBroker := by simp [hx]
  have hsub : Link.outstanding { l with toBroker := rest } |>.Sublist l.outstanding := by
    simp only [Link.outstanding, hx]
    exact (((sublist_cons_self x rest).filter _).map _).append (Sublist.refl _)
  have hbase : Sound (w.setLink fd (some { l with toBroker := rest })) :=
    h.relink fd _ [] (by simp) (h.orderly fd l hl)
      (fun y hy serial hserial => h.heard fd l hl y (by simp [hx, hy]) serial hserial)
      (fun y z hlast hidle hfd => hsub.trans (h.outstanding y z hlast hidle l (hfd ▸ hl)))
      (fun y z hlast hidle hfd hzfd hready => by
        have hnone := (h.taken y z hlast hidle hzfd hready).2.2 l (hfd ▸ hl)
        exact sublist_nil.1 (hnone ▸ hsub))
  refine ⟨hbase.orderly, fun fd' l' hl' y hy serial hserial => ?_, fun y z hlast hidle => ?_,
    fun y z hlast hidle => ?_, ?_⟩
  · exact mem_cons_of_mem _ (hbase.heard fd' l' hl' y hy serial hserial)
  · obtain ⟨z', hlast'⟩ := lastExchange_taken hlast
    exact hbase.linked y z' hlast' hidle
  · obtain ⟨z', hlast'⟩ := lastExchange_taken hlast
    exact hbase.outstanding y z' hlast' hidle
  · intro y z hlast hidle hzfd hready
    obtain ⟨⟨y', z'⟩, hlast', heq⟩ := Option.map_eq_some_iff.1 hlast
    obtain ⟨rfl, hz⟩ := Prod.mk.inj heq
    cases hz
    obtain rfl : fd = y'.fd := hzfd
    -- what was read heads the outstanding requests, so it is the only one
    have hready' : (x.message.opcode == opAgentReady) = true := beq_iff_eq.2 hready
    have hcons : l.outstanding = x.re :: Link.outstanding { l with toBroker := rest } := by
      simp [Link.outstanding, hx, hready']
    have honly := h.outstanding y' z' hlast' hidle l hl
    rw [hcons] at honly
    obtain ⟨hre, htail⟩ : x.re = some y'.serial ∧
      Link.outstanding { l with toBroker := rest } = [] := by
      have heq : x.re :: Link.outstanding { l with toBroker := rest } = [some y'.serial] :=
        honly.eq_of_length_le (by simp)
      exact List.cons.inj heq
    refine ⟨hre, mem_cons_of_mem _ (h.heard _ l hl x hmem _ hre), fun l' hl' => ?_⟩
    obtain rfl : { l with toBroker := rest } = l' := by
      simpa [Pair.note, Pair.setLink] using hl'
    exact htail

theorem Sound.passed (h : Sound w) (q : UInt16) : Sound (w.note [.passed q]) where
  orderly := h.orderly
  heard fd l hl x hx serial hserial := mem_cons_of_mem _ (h.heard fd l hl x hx serial hserial)
  linked := h.linked
  outstanding := h.outstanding
  taken x y hx hidle hyfd hready := by
    obtain ⟨hre, hreplied, hnone⟩ := h.taken x y hx hidle hyfd hready
    exact ⟨hre, mem_cons_of_mem _ hreplied, hnone⟩

/-- What a peer that is no agent says is not taken for a reply. -/
theorem Sound.other (h : Sound w) {fd : Fd} (hl : w.links fd = none) (m : Message) :
    Sound (w.note [.taken ⟨fd, none, m⟩]) where
  orderly := h.orderly
  heard fd' l hl x hx serial hserial := mem_cons_of_mem _ (h.heard fd' l hl x hx serial hserial)
  linked x y hx hidle := by
    obtain ⟨y', hx'⟩ := lastExchange_taken hx
    exact h.linked x y' hx' hidle
  outstanding x y hx hidle := by
    obtain ⟨y', hx'⟩ := lastExchange_taken hx
    exact h.outstanding x y' hx' hidle
  taken x y hx hidle hyfd _ := by
    obtain ⟨⟨x', y'⟩, hx', heq⟩ := Option.map_eq_some_iff.1 hx
    obtain ⟨rfl, hy⟩ := Prod.mk.inj heq
    cases hy
    have hlinked := h.linked x' y' hx' hidle
    rw [← show fd = x'.fd from hyfd, hl] at hlinked
    cases hlinked

end HdmiLos.Handshake
