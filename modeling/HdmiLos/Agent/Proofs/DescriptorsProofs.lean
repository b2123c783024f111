import HdmiLos.Agent.Descriptors
import HdmiLos.Agent.Proofs.HistoryProofs
import HdmiLos.Agent.Proofs.PartsProofs

/-!
# The agent closes what it is given

Most functions open and close nothing, or close what they open. The others are followed call by call,
with the names that they draw.
-/

namespace HdmiLos.Agent

open Interaction Prog List

/-! ## The conversation -/

/-- What is closed is open, and a lease is duplicated when there is no duplicate. -/
def ledgerMonitor : Monitor Io.Ans Ledger where
  allows l
    | .close fd => l.isOpen fd
    | .dup _ copy => copy = l.next ∧ l.copies = []
    | _ => True
  next l c answer := l.note c answer

variable {α : Type} {n : Nat} {v : Agent} {l : Ledger}

/-- The bookkeeping of a conversation in order. -/
structure Ledger.Sound (l : Ledger) : Prop where
  once : ∀ fd ∈ l.passed, l.closed.count fd + l.leases.count fd = 1
  leases : ∀ fd ∈ l.leases, fd ∈ l.passed
  others : ∀ fd, fd ∈ l.sockets ∨ fd ∈ l.copies → fd ∉ l.passed ∧ fd < l.next
  passed : ∀ fd ∈ l.passed, fd < l.next
  closed : ∀ fd ∈ l.closed, fd < l.next
  single : l.copies.length ≤ 1

namespace Ledger.Sound

theorem next_not_passed (h : l.Sound) : l.next ∉ l.passed :=
  fun hmem => Nat.lt_irrefl _ (h.passed _ hmem)

theorem count_next (h : l.Sound) : l.closed.count l.next = 0 ∧ l.leases.count l.next = 0 := by
  refine ⟨count_eq_zero.2 fun hmem => Nat.lt_irrefl _ (h.closed _ hmem), ?_⟩
  exact count_eq_zero.2 fun hmem => h.next_not_passed (h.leases _ hmem)

theorem named (h : l.Sound) : Ledger.Sound { l with next := l.next + 1 } where
  once := h.once
  leases := h.leases
  others fd hfd := ⟨(h.others fd hfd).1, Nat.lt_succ_of_lt (h.others fd hfd).2⟩
  passed fd hfd := Nat.lt_succ_of_lt (h.passed fd hfd)
  closed fd hfd := Nat.lt_succ_of_lt (h.closed fd hfd)
  single := h.single

theorem received (h : l.Sound) : Ledger.Sound
      { l with next := l.next + 1, passed := l.next :: l.passed, leases := l.next :: l.leases } where
  once fd hfd := by
    obtain ⟨hclosed, hleases⟩ := h.count_next
    rcases mem_cons.1 hfd with rfl | hfd
    · rw [count_cons_self, hclosed, hleases]
    · have hne : l.next ≠ fd := fun heq => h.next_not_passed (heq ▸ hfd)
      rw [count_cons_of_ne hne]
      exact h.once fd hfd
  leases fd hfd := by
    rcases mem_cons.1 hfd with rfl | hfd
    · exact mem_cons_self
    · exact mem_cons_of_mem _ (h.leases fd hfd)
  others fd hfd := by
    obtain ⟨hnot, hlt⟩ := h.others fd hfd
    exact ⟨not_mem_cons_of_ne_of_not_mem (Nat.ne_of_lt hlt) hnot, Nat.lt_succ_of_lt hlt⟩
  passed fd hfd := by
    rcases mem_cons.1 hfd with rfl | hfd
    · exact Nat.lt_succ_self _
    · exact Nat.lt_succ_of_lt (h.passed fd hfd)
  closed := h.named.closed
  single := h.single

/-- A trace socket or a duplicate is opened. -/
theorem opened (h : l.Sound) {sockets copies : List Fd} (hsingle : copies.length ≤ 1)
    (hopened : ∀ fd, fd ∈ sockets ∨ fd ∈ copies → fd = l.next ∨ fd ∈ l.sockets ∨ fd ∈ l.copies) :
    Ledger.Sound { l with next := l.next + 1, sockets := sockets, copies := copies } where
  once := h.once
  leases := h.leases
  others fd hfd := by
    rcases hopened fd hfd with rfl | hfd
    · exact ⟨h.next_not_passed, Nat.lt_succ_self _⟩
    · exact h.named.others fd hfd
  passed := h.named.passed
  closed := h.named.closed
  single := hsingle

theorem close (h : l.Sound) {fd : Fd} (hopen : l.isOpen fd) : (l.close fd).Sound := by
  have hlt : fd < l.next := by
    rcases hopen with hfd | hfd | hfd
    · exact h.passed fd (h.leases fd hfd)
    · exact (h.others fd (.inl hfd)).2
    · exact (h.others fd (.inr hfd)).2
  have hclosed : ∀ x ∈ fd :: l.closed, x < l.next := by
    intro x hx
    rcases mem_cons.1 hx with rfl | hx
    · exact hlt
    · exact h.closed x hx
  unfold Ledger.close
  split
  case isTrue hlease =>
    refine ⟨fun x hx => ?_, fun x hx => h.leases x (mem_of_mem_erase hx), h.others, h.passed,
      hclosed, h.single⟩
    by_cases hx' : fd = x
    · -- it has been opened once and is open, so it was not closed before
      subst hx'
      have honce := h.once fd hx
      have hpos : 0 < l.leases.count fd := count_pos_iff.2 hlease
      rw [count_cons_self, count_erase_self]
      omega
    · rw [count_cons_of_ne hx', count_erase_of_ne (Ne.symm hx')]
      exact h.once x hx
  case isFalse hlease =>
    have hnot : fd ∉ l.passed := by
      rcases hopen with hfd | hfd
      · exact absurd hfd hlease
      · exact (h.others fd hfd).1
    have honce : ∀ x ∈ l.passed, (fd :: l.closed).count x + l.leases.count x = 1 := by
      intro x hx
      have hne : fd ≠ x := fun heq => hnot (heq ▸ hx)
      rw [count_cons_of_ne hne]
      exact h.once x hx
    split
    · exact ⟨honce, h.leases, fun x hx => h.others x (hx.imp_left mem_of_mem_erase), h.passed,
        hclosed, h.single⟩
    · exact ⟨honce, h.leases, fun x hx => h.others x (hx.imp_right mem_of_mem_erase), h.passed,
        hclosed, Nat.le_trans (erase_sublist.length_le) h.single⟩

end Ledger.Sound

/-- A permitted call keeps the ledger sound. -/
theorem sound_next (l : Ledger) (c : Io) (answer : c.Ans) (h : l.Sound)
    (hc : ledgerMonitor.allows l c) : (ledgerMonitor.next l c answer).Sound := by
  show (l.note c answer).Sound
  cases c with
  | recvBroker reader =>
    show Ledger.Sound (if answer.ok && answer.passed then _ else l)
    split
    · exact h.received
    · exact h
  | socketpair =>
    cases answer with
    | false => exact h
    | true => exact h.opened h.single fun fd hfd => by simpa [or_assoc] using hfd
  | dup fd copy =>
    cases answer with
    | false => exact h.named
    | true =>
      refine h.opened ?_ fun fd hfd => ?_
      · rw [hc.2]
        exact Nat.le_refl 1
      · rcases hfd with hfd | hfd
        · exact .inr (.inl hfd)
        · exact (mem_cons.1 hfd).imp_right .inr
  | fork child pid => exact h.named
  | close fd => exact h.close hc
  | _ => exact h

/-! ## Functions that leave the descriptors -/

/-- The calls that take no name and close nothing. -/
def Io.nameless : Io → Bool
  | recvBroker _ => false
  | socketpair => false
  | dup _ _ => false
  | fork _ _ => false
  | close _ => false
  | _ => true

/-- The footprint of the functions that make only such calls. -/
def Nameless : Act Agent Io → Prop
  | .get => True
  | .modify f => ∀ a, (f a).trace = a.trace ∧ (f a).verifyLease = a.verifyLease
  | .fresh => False
  | .io c => c.nameless = true

/-- The open descriptors are as before, and so are the globals that have them. -/
structure SameOpen (v v' : Agent) (l l' : Ledger) : Prop where
  trace : v'.trace = v.trace
  verifyLease : v'.verifyLease = v.verifyLease
  leases : l'.leases = l.leases
  sockets : l'.sockets = l.sockets
  copies : l'.copies = l.copies
  next : l.next ≤ l'.next

theorem SameOpen.refl (v : Agent) (l : Ledger) : SameOpen v v l l :=
  ⟨rfl, rfl, rfl, rfl, rfl, Nat.le_refl _⟩

theorem SameOpen.trans {v v' v'' : Agent} {l l' l'' : Ledger} (h : SameOpen v v' l l')
    (h' : SameOpen v' v'' l' l'') : SameOpen v v'' l l'' :=
  ⟨h'.trace.trans h.trace, h'.verifyLease.trans h.verifyLease, h'.leases.trans h.leases,
    h'.sockets.trans h.sockets, h'.copies.trans h.copies, Nat.le_trans h.next h'.next⟩

/-- The function closes what it opens. The names of the ledger are those that are drawn. -/
def Tidy (α : Type) (p : AgentProg α) : Prop :=
  ∀ v l, p.Meets ledgerMonitor (fun _ v' l' k => SameOpen v v' l l' ∧ l'.next = k) v l l.next

variable {c : Io}

theorem nameless_note (hc : c.nameless = true) (l : Ledger) (answer : c.Ans) :
    l.note c answer = l := by
  cases c with
  | recvBroker reader => cases hc
  | socketpair => cases hc
  | dup fd copy => cases hc
  | fork child pid => cases hc
  | close fd => cases hc
  | _ => rfl

theorem nameless_allows (hc : c.nameless = true) (l : Ledger) : ledgerMonitor.allows l c := by
  cases c with
  | dup fd copy => cases hc
  | close fd => cases hc
  | _ => trivial

variable {p : AgentProg α}

theorem tidy_nameless (hp : p.Uses Nameless) : Tidy α p := by
  intro v l
  refine meets_invariant (M := ledgerMonitor)
    (I := fun v' l' k => SameOpen v v' l l' ∧ l'.next = k) ?_ ?_ ?_ hp ⟨SameOpen.refl v l, rfl⟩
  · intro f v' l' k hf h
    exact ⟨⟨(hf v').1.trans h.1.trace, (hf v').2.trans h.1.verifyLease, h.1.leases, h.1.sockets,
      h.1.copies, h.1.next⟩, h.2⟩
  · exact fun v' l' k hfresh _ => absurd hfresh id
  · intro c v' l' k hc h
    refine ⟨nameless_allows hc l', fun answer => ?_⟩
    have hsame : ledgerMonitor.next l' c answer = l' := nameless_note hc l' answer
    rw [hsame]
    exact h

theorem tidy_compositional : Compositional Tidy where
  pure _ v l := ⟨SameOpen.refl v l, rfl⟩
  stop _ _ := trivial
  bind hp hf v l := by
    refine meets_seq (hp v l) ?_
    rintro a v' l' k ⟨hsame, rfl⟩
    refine meets_mono (hf a v' l') ?_
    rintro b v'' l'' k' ⟨hsame', hnext⟩
    exact ⟨hsame.trans hsame', hnext⟩

theorem nameless_plain (hp : p.Uses Plain) : p.Uses Nameless := by
  refine uses_mono (fun op hop => ?_) hp
  cases op with
  | get => trivial
  | modify f => exact fun a => ⟨(hop a).trace, (hop a).verifyLease⟩
  | fresh => exact hop
  | io c =>
    cases c with
    | recvBroker reader => cases hop
    | socketpair => cases hop
    | dup fd copy => cases hop
    | fork child pid => cases hop
    | close fd => cases hop
    | _ => rfl

theorem nameless_call (hc : c.nameless = true) : (call c).Uses Nameless := uses_perform hc

theorem tidy_call (hc : c.nameless = true) : Tidy c.Ans (call c) :=
  tidy_nameless (nameless_call hc)

theorem tidy_assign {f : Agent → Agent}
    (hf : ∀ a, (f a).trace = a.trace ∧ (f a).verifyLease = a.verifyLease) : Tidy Unit (assign f) :=
  tidy_nameless (uses_perform hf)

theorem tidy_getAgent : Tidy Agent getAgent := tidy_nameless (uses_perform trivial)

theorem tidy_fork (child : Child) : Tidy (Option Pid) (fork child) := by
  intro v l
  refine ⟨trivial, fun started => ?_⟩
  cases started with
  | false => exact ⟨⟨rfl, rfl, rfl, rfl, rfl, Nat.le_succ _⟩, rfl⟩
  | true => exact ⟨⟨rfl, rfl, rfl, rfl, rfl, Nat.le_succ _⟩, rfl⟩

theorem close_lease (fd : Fd) (l : Ledger) (rest : List Fd) (h : l.leases = fd :: rest) :
    l.isOpen fd ∧ l.close fd = { l with leases := rest, closed := fd :: l.closed } := by
  have hmem : fd ∈ l.leases := h ▸ mem_cons_self
  refine ⟨.inl hmem, ?_⟩
  unfold Ledger.close
  rw [if_pos hmem, h, erase_cons_head]

theorem close_socket (fd : Fd) (l : Ledger) (rest : List Fd) (hnot : fd ∉ l.leases)
    (h : l.sockets = fd :: rest) :
    l.isOpen fd ∧ l.close fd = { l with sockets := rest, closed := fd :: l.closed } := by
  have hmem : fd ∈ l.sockets := h ▸ mem_cons_self
  refine ⟨.inr (.inl hmem), ?_⟩
  unfold Ledger.close
  rw [if_neg hnot, if_pos hmem, h, erase_cons_head]

theorem close_copy (fd : Fd) (l : Ledger) (rest : List Fd) (hnot : fd ∉ l.leases)
    (hnot' : fd ∉ l.sockets) (h : l.copies = fd :: rest) :
    l.isOpen fd ∧ l.close fd = { l with copies := rest, closed := fd :: l.closed } := by
  have hmem : fd ∈ l.copies := h ▸ mem_cons_self
  refine ⟨.inr (.inr hmem), ?_⟩
  unfold Ledger.close
  rw [if_neg hnot, if_neg hnot', h, erase_cons_head]

/-- A descriptor that comes with an acknowledgement is closed at once. -/
theorem tidy_forwardTraceRecord (record : TraceRecord) : Tidy Bool (forwardTraceRecord record) := by
  have hobserve : ∀ a, (observeScanoutRecord record a).trace = a.trace ∧
      (observeScanoutRecord record a).verifyLease = a.verifyLease := by
    intro a
    unfold observeScanoutRecord
    repeat' split
    all_goals exact ⟨rfl, rfl⟩
  refine tidy_compositional.bind (tidy_assign hobserve) fun _ => ?_
  refine tidy_compositional.bind (tidy_call rfl) fun _ => tidy_compositional.ite ?_
    (tidy_compositional.pure _)
  intro v l
  refine meets_bind ⟨trivial, fun received => ?_⟩
  show Prog.Meets ledgerMonitor _ (if received.ok && received.passed then _ else _) v
    (if received.ok && received.passed then _ else l) l.next
  by_cases hpassed : (received.ok && received.passed) = true
  · rw [if_pos hpassed, if_pos hpassed]
    obtain ⟨hopen, hclose⟩ := close_lease l.next { l with
      next := l.next + 1, passed := l.next :: l.passed, leases := l.next :: l.leases } l.leases rfl
    refine meets_fresh (meets_io hopen fun _ => ?_)
    show SameOpen v v l (Ledger.close _ l.next) ∧ (Ledger.close _ l.next).next = l.next + 1
    rw [hclose]
    exact ⟨⟨rfl, rfl, rfl, rfl, rfl, Nat.le_succ _⟩, rfl⟩
  · rw [if_neg hpassed, if_neg hpassed]
    exact ⟨SameOpen.refl v l, rfl⟩

theorem tidy_relayTraceRecord (timeoutMs : Int) : Tidy Bool (relayTraceRecord timeoutMs) := by
  have hC := tidy_compositional
  refine hC.bind tidy_getAgent fun a => ?_
  cases a.trace with
  | none => exact hC.pure true
  | some fd =>
    refine hC.bind (tidy_call rfl) fun polled => ?_
    cases polled with
    | timeout => exact hC.pure true
    | failed => exact hC.pure false
    | ready revents =>
      refine hC.ite (hC.bind (tidy_call rfl) fun record => ?_) (hC.pure _)
      cases record with
      | none => exact hC.pure false
      | some record =>
        refine hC.ite (hC.bind (tidy_forwardTraceRecord record) fun _ => hC.ite ?_ (hC.pure false))
          (hC.pure false)
        exact hC.bind tidy_getAgent fun _ => tidy_call rfl

theorem tidy_runWait (n : Nat) (tool : String) : Tidy Bool (runWait n tool) := by
  have hC := tidy_compositional
  have habandon : ∀ pid, Tidy (Unit ⊕ Bool) (abandonTool pid) := fun pid =>
    hC.bind (tidy_call rfl) fun _ => hC.bind (tidy_call rfl) fun _ => hC.pure _
  refine hC.bind (tidy_fork _) fun child => ?_
  cases child with
  | none => exact hC.pure false
  | some pid =>
    refine hC.bind (tidy_call rfl) fun now => hC.loop (fun _ => ?_) n ()
    refine hC.bind (tidy_call rfl) fun waited => ?_
    cases waited with
    | exited code => exact hC.pure _
    | interrupted => exact hC.pure _
    | failed => exact hC.pure _
    | running =>
      refine hC.bind (tidy_call rfl) fun _ => hC.ite (habandon pid) ?_
      refine hC.bind tidy_getAgent fun _ => hC.ite ?_ ?_
      · exact hC.bind (tidy_relayTraceRecord 50) fun _ => hC.ite (hC.pure _) (habandon pid)
      · exact hC.bind (tidy_call rfl) fun _ => hC.pure _

theorem quietTidy : QuietParts Tidy where
  toCompositional := tidy_compositional
  plain hp := tidy_nameless (nameless_plain hp)
  relay := tidy_relayTraceRecord
  runWait := tidy_runWait

theorem tidy_setPid (role : Role) (p : Option Pid) : Tidy Unit (assign (setPid role p)) :=
  tidy_assign fun a => by cases role <;> exact ⟨rfl, rfl⟩

theorem tidy_terminateGroup (role : Role) : Tidy Unit (terminateGroup n role) := by
  have hC := tidy_compositional
  refine hC.bind tidy_getAgent fun a => ?_
  cases pid a role with
  | none => exact hC.pure ()
  | some p =>
    refine hC.bind (quietTidy.plain (plain_signalGroup p)) fun _ => ?_
    exact hC.bind (tidy_call rfl) fun _ => tidy_setPid role none

theorem tidy_prepareBridge : Tidy Bool (prepareBridge n) := by
  have hC := tidy_compositional
  refine hC.bind (tidy_fork _) fun bridge => hC.bind (tidy_setPid .bridge bridge) fun _ => ?_
  cases bridge with
  | none => exact hC.pure false
  | some pid => exact quietTidy.awaitInput pid

theorem tidy_startRound (pid : Pid) (stop : Int) (x : Unit) :
    Tidy (Unit ⊕ Bool) (startRound n pid stop x) := by
  have hC := tidy_compositional
  have hsession : Tidy (Unit ⊕ Bool) startSession := by
    refine hC.bind (tidy_assign fun _ => ⟨rfl, rfl⟩) fun _ => hC.bind tidy_getAgent fun _ => ?_
    refine hC.ite (hC.pure _) (hC.bind (tidy_fork _) fun session => ?_)
    exact hC.bind (tidy_setPid .session session) fun _ => hC.pure _
  refine hC.bind (tidy_call rfl) fun _ => hC.ite ?_ (hC.pure _)
  refine hC.bind (tidy_call rfl) fun _ => hC.ite ?_ (hC.pure _)
  refine hC.bind (tidy_relayTraceRecord 100) fun _ => hC.ite ?_ (hC.pure _)
  refine hC.bind quietTidy.xorgReady fun _ =>
    hC.ite ?_ (hC.bind (tidy_call rfl) fun _ => hC.pure _)
  refine hC.bind tidy_getAgent fun _ => hC.ite (hC.pure _) (hC.ite ?_ ?_)
  · exact hC.bind (tidy_call rfl) fun _ => hC.pure _
  · exact hC.bind quietTidy.verifyStart fun _ => hC.ite hsession (hC.pure _)

/-! ## Functions that open and close -/

/-- The descriptors are those in the globals, and one that came with a message. -/
structure Holding (lease : Option Fd) (v : Agent) (l : Ledger) (k : Nat) : Prop where
  leases : l.leases = lease.toList
  sockets : l.sockets = v.trace.toList
  copies : l.copies = v.verifyLease.toList
  next : l.next = k
  named : ∀ fd ∈ lease, fd < l.next

section Sessions

variable {lease : Option Fd} {k : Nat}

theorem Holding.same {v' : Agent} {l' : Ledger} {k' : Nat} (h : Holding lease v l k)
    (hsame : SameOpen v v' l l') (hnext : l'.next = k') : Holding lease v' l' k' where
  leases := hsame.leases.trans h.leases
  sockets := by rw [hsame.sockets, hsame.trace, h.sockets]
  copies := by rw [hsame.copies, hsame.verifyLease, h.copies]
  next := hnext
  named fd hfd := Nat.lt_of_lt_of_le (h.named fd hfd) hsame.next

theorem Holding.vars {v' : Agent} (h : Holding lease v l k) (htrace : v'.trace = v.trace)
    (hverify : v'.verifyLease = v.verifyLease) : Holding lease v' l k :=
  h.same ⟨htrace, hverify, rfl, rfl, rfl, Nat.le_refl _⟩ h.next

theorem Holding.tidy (h : Holding lease v l k) (hp : Tidy α p) :
    p.Meets ledgerMonitor (fun _ v' l' k' => Holding lease v' l' k' ∧ v'.trace = v.trace ∧
      v'.verifyLease = v.verifyLease) v l k := by
  rw [← h.next]
  refine meets_mono (hp v l) ?_
  rintro _ v' l' k' ⟨hsame, hnext⟩
  exact ⟨h.same hsame hnext, hsame.trace, hsame.verifyLease⟩

theorem Holding.after (h : Holding lease v l k) (hp : Tidy α p) :
    p.Meets ledgerMonitor (fun _ => Holding lease) v l k :=
  meets_mono (h.tidy hp) fun _ _ _ _ h => h.1

theorem Holding.closeLease {fd : Fd} (h : Holding (some fd) v l k) :
    l.isOpen fd ∧ Holding none v (l.close fd) k := by
  obtain ⟨hopen, hclose⟩ := close_lease fd l [] h.leases
  rw [hclose]
  exact ⟨hopen, rfl, h.sockets, h.copies, h.next, nofun⟩

theorem Holding.closeSocket {fd : Fd} (h : Holding lease v l k) (htrace : v.trace = some fd)
    (hnot : fd ∉ lease) : l.isOpen fd ∧ Holding lease { v with trace := none } (l.close fd) k := by
  have hleases : fd ∉ l.leases := by
    rw [h.leases, Option.mem_toList]
    exact hnot
  obtain ⟨hopen, hclose⟩ := close_socket fd l [] hleases (by rw [h.sockets, htrace]; rfl)
  rw [hclose]
  exact ⟨hopen, h.leases, rfl, h.copies, h.next, h.named⟩

theorem meets_closeLease (h : Holding lease v l k) :
    (closeIfOpen lease).Meets ledgerMonitor (fun _ => Holding none) v l k := by
  cases lease with
  | none => exact h
  | some fd => exact ⟨h.closeLease.1, fun _ => h.closeLease.2⟩

theorem meets_closeSocket (h : Holding none v l k) : closeTrace.Meets ledgerMonitor
      (fun _ v' l' k' => Holding none v' l' k' ∧ v'.trace = none ∧
        v'.verifyLease = v.verifyLease) v l k := by
  refine meets_get ?_
  cases htrace : v.trace with
  | none =>
    refine ⟨⟨h.leases, ?_, h.copies, h.next, h.named⟩, rfl, rfl⟩
    rw [h.sockets, htrace]
  | some fd =>
    obtain ⟨hopen, hclosed⟩ := h.closeSocket htrace nofun
    exact meets_io hopen fun _ => ⟨hclosed, rfl, rfl⟩

theorem meets_closeCopy (h : Holding none v l k) (htrace : v.trace = none) :
    closeVerifyLease.Meets ledgerMonitor
      (fun _ v' l' k' => Holding none v' l' k' ∧ v'.trace = none ∧ v'.verifyLease = none) v l k := by
  refine meets_get ?_
  cases hverify : v.verifyLease with
  | none =>
    refine ⟨⟨h.leases, h.sockets, ?_, h.next, h.named⟩, htrace, rfl⟩
    rw [h.copies, hverify]
  | some fd =>
    have hnot : fd ∉ l.leases := by
      rw [h.leases]
      exact not_mem_nil
    have hnot' : fd ∉ l.sockets := by
      rw [h.sockets, htrace]
      exact not_mem_nil
    obtain ⟨hopen, hclose⟩ := close_copy fd l [] hnot hnot' (by rw [h.copies, hverify]; rfl)
    refine meets_io hopen fun _ => ?_
    show Holding none { v with verifyLease := none, traceSteady := false } (l.close fd) k ∧ _
    rw [hclose]
    exact ⟨⟨h.leases, h.sockets, rfl, h.next, by rintro fd ⟨⟩⟩, htrace, rfl⟩

/-- `cleanup_session` closes both descriptors of a session. -/
theorem meets_cleanup (h : Holding none v l k) :
    (cleanupSession n).Meets ledgerMonitor (fun _ => Holding none) v l k := by
  refine meets_seq (h.after (tidy_terminateGroup .session)) fun _ v l k h => ?_
  refine meets_seq (h.after (tidy_terminateGroup .xorg)) fun _ v l k h => ?_
  refine meets_seq (meets_closeSocket h) ?_
  rintro _ v l k ⟨h, htrace, -⟩
  refine meets_seq (meets_closeCopy h htrace) ?_
  rintro _ v l k ⟨h, -, -⟩
  refine meets_seq (h.after (tidy_terminateGroup .bridge)) fun _ v l k h => ?_
  exact h.after (tidy_call rfl)

theorem tidy_preflightRound (pid : Pid) (stop : Int) (isOpen : Bool) :
    Tidy (Bool ⊕ Option (Option Nat)) (preflightRound pid stop isOpen) := by
  have hC := tidy_compositional
  refine hC.bind (tidy_call rfl) fun _ => hC.ite (hC.bind (tidy_call rfl) fun waited => ?_)
    (hC.pure _)
  cases waited with
  | exited code => exact hC.pure _
  | failed => exact hC.pure _
  | interrupted => exact quietTidy.preflightRelay isOpen
  | running => exact quietTidy.preflightRelay isOpen

theorem tidy_preflightReap (pid : Pid) (exited : Option (Option Nat)) :
    Tidy (Option (Option Nat)) (preflightReap n pid exited) := by
  have hC := tidy_compositional
  cases exited with
  | some code => exact hC.pure _
  | none =>
    refine hC.bind (hC.loop (fun _ => ?_) n ()) fun waited => ?_
    · refine hC.bind (tidy_call rfl) fun waited => ?_
      cases waited <;> exact hC.pure _
    · cases waited with
      | some code => exact hC.pure _
      | none => exact hC.bind (tidy_call rfl) fun _ => hC.bind (tidy_call rfl) fun _ => hC.pure _

/-- With its socket in the global, the preflight is a session without a duplicate. -/
theorem meets_preflightChild (pid : Pid) (fd : Fd)
    (h : Holding none { v with trace := some fd } l k) :
    (preflightChild n pid fd).Meets ledgerMonitor (fun _ => Holding none) v l k := by
  refine meets_modify (meets_io trivial fun polled => ?_)
  refine meets_seq (h.tidy (quietTidy.preflightLoaded polled)) ?_
  rintro loaded v₁ l₁ k₁ ⟨h₁, htrace₁, -⟩
  refine meets_io trivial fun now => ?_
  refine meets_seq (h₁.tidy (tidy_compositional.loop
    (tidy_preflightRound pid (now + 3000)) n true)) ?_
  rintro exited v₂ l₂ k₂ ⟨h₂, htrace₂, -⟩
  refine meets_seq (h₂.tidy (tidy_preflightReap pid exited)) ?_
  rintro code v₃ l₃ k₃ ⟨h₃, htrace₃, -⟩
  have htrace : v₃.trace = some fd := htrace₃.trans (htrace₂.trans htrace₁)
  obtain ⟨hopen, hend⟩ := h₃.closeSocket htrace nofun
  refine meets_io hopen fun _ => meets_modify ?_
  rcases code with _ | _ | code <;> exact hend

/-- A trace socket for a child. If the child is not started, the socket is closed. -/
theorem meets_socketFork (child : Child) (h : Holding lease v l k) (htrace : v.trace = none)
    {Q : α → Agent → Ledger → Nat → Prop} {failed : AgentProg α} {started : Fd → Pid → AgentProg α}
    (hfailed : ∀ l k, Holding lease v l k → failed.Meets ledgerMonitor Q v l k)
    (hstarted : ∀ fd pid l k, Holding lease { v with trace := some fd } l k →
      (started fd pid).Meets ledgerMonitor Q v l k) :
    (do
      if ← call .socketpair then do
        let fd ← fresh
        match ← fork child with
        | none => do
          closeFd fd
          failed
        | some pid => started fd pid
      else failed : AgentProg α).Meets ledgerMonitor Q v l k := by
  obtain ⟨hleases, hsockets, hcopies, rfl, hnamed⟩ := h
  rw [htrace] at hsockets
  refine meets_io trivial fun paired => ?_
  cases paired with
  | false => exact hfailed l _ ⟨hleases, by rw [htrace]; exact hsockets, hcopies, rfl, hnamed⟩
  | true =>
    -- the socket is named after the descriptors there are, and the child after the socket
    have hpair : Holding lease { v with trace := some l.next }
        { l with next := l.next + 1 + 1, sockets := l.next :: l.sockets } (l.next + 1 + 1) := by
      refine ⟨hleases, ?_, hcopies, rfl, fun fd hfd => ?_⟩
      · show l.next :: l.sockets = [l.next]
        rw [hsockets]
        rfl
      · exact Nat.lt_succ_of_lt (Nat.lt_succ_of_lt (hnamed fd hfd))
    refine meets_fresh (meets_fresh (meets_io trivial fun forked => ?_))
    cases forked with
    | true => exact hstarted _ _ _ _ hpair
    | false =>
      obtain ⟨hopen, hclosed⟩ := hpair.closeSocket rfl fun hmem => Nat.lt_irrefl _ (hnamed _ hmem)
      exact meets_io hopen fun _ => hfailed _ _ (hclosed.vars htrace rfl)

/-- The preflight opens its own trace socket, where there is none. -/
theorem meets_preflight (h : Holding none v l k) (htrace : v.trace = none) :
    (tracePreflight n).Meets ledgerMonitor (fun _ => Holding none) v l k := by
  refine meets_io trivial fun gate => meets_ite (fun _ => ?_) fun _ => h
  refine meets_socketFork .tracer h htrace ?_ ?_
  · exact fun l k h => h
  · exact fun fd pid l k h => meets_preflightChild pid fd h

theorem meets_prepare (mode : UInt32) (h : Holding none v l k) (htrace : v.trace = none) :
    (prepareSession n mode).Meets ledgerMonitor (fun _ => Holding none) v l k := by
  refine meets_ite (fun _ => h) fun _ => ?_
  refine meets_seq (h.tidy (tidy_terminateGroup .session)) ?_
  rintro _ v₁ l₁ k₁ ⟨h₁, htrace₁, -⟩
  refine meets_seq (h₁.tidy (tidy_terminateGroup .xorg)) ?_
  rintro _ v₂ l₂ k₂ ⟨h₂, htrace₂, -⟩
  refine meets_seq (h₂.tidy (tidy_terminateGroup .bridge)) ?_
  rintro _ v₃ l₃ k₃ ⟨h₃, htrace₃, -⟩
  have h' : Holding none (resetSession v₃) l₃ k₃ := h₃.vars rfl rfl
  have htrace' : (resetSession v₃).trace = none :=
    htrace₃.trans (htrace₂.trans (htrace₁.trans htrace))
  have hruntime : (prepareRuntime n).Meets ledgerMonitor
      (fun _ => Holding none) (resetSession v₃) l₃ k₃ := by
    refine meets_io trivial fun user => meets_ite (fun _ => ?_) fun _ => h'
    refine meets_io trivial fun made => meets_ite (fun _ => ?_) fun _ => h'
    exact meets_io trivial fun _ => meets_preflight h' htrace'
  refine meets_modify (meets_seq hruntime fun ok v l k h => ?_)
  refine meets_ite (fun _ => ?_) fun _ => h
  exact h.after tidy_prepareBridge

/-- The agent's lease is closed whether or not Xorg has been started. -/
theorem meets_closeStarted (fd : Fd) (xorg : Option Pid) (h : Holding (some fd) v l k) : (do
      assign (setPid .xorg xorg)
      closeFd fd
      match xorg with
      | none => pure false
      | some pid => do
        let now ← monotonicMs
        Prog.loop (startRound n pid (now + 14000)) n () : AgentProg Bool).Meets ledgerMonitor
          (fun _ => Holding none) v l k := by
  obtain ⟨hopen, hclosed⟩ := h.closeLease
  refine meets_modify (meets_io hopen fun _ => ?_)
  have h' : Holding none (setPid .xorg xorg v) (l.close fd) k := hclosed.vars rfl rfl
  cases xorg with
  | none => exact h'
  | some pid =>
    refine meets_io trivial fun now => ?_
    exact h'.after (tidy_compositional.loop (tidy_startRound pid _) n ())

theorem meets_spawn (fd : Fd) (h : Holding (some fd) v l k) (htrace : v.trace = none) :
    (spawnXorg fd).Meets ledgerMonitor (fun _ => Holding (some fd)) v l k := by
  refine meets_socketFork (.xorg fd) h htrace ?_ ?_
  · exact fun l k h => h
  · exact fun socket pid l k h => meets_modify h

/-- Where there is no session, a duplicate of the lease and a trace socket are kept for one. -/
theorem meets_startDuplicate (fd : Fd) (h : Holding (some fd) v l k) (htrace : v.trace = none)
    (hverify : v.verifyLease = none) :
    (startProcess n fd).Meets ledgerMonitor (fun _ => Holding none) v l k := by
  obtain ⟨hleases, hsockets, hcopies, rfl, hnamed⟩ := h
  rw [hverify] at hcopies
  have hnamed' : ∀ fd' ∈ some fd, fd' < l.next + 1 :=
    fun fd' hfd => Nat.lt_succ_of_lt (hnamed fd' hfd)
  refine meets_fresh (meets_io ⟨rfl, hcopies⟩ fun copied => ?_)
  cases copied with
  | false =>
    have hkept : Holding (some fd) { v with verifyLease := none } { l with next := l.next + 1 }
        (l.next + 1) := ⟨hleases, hsockets, hcopies, rfl, hnamed'⟩
    exact meets_modify (meets_io hkept.closeLease.1 fun _ => hkept.closeLease.2)
  | true =>
    have hcopied : Holding (some fd) { v with verifyLease := some l.next }
        { l with next := l.next + 1, copies := l.next :: l.copies } (l.next + 1) := by
      refine ⟨hleases, hsockets, ?_, rfl, hnamed'⟩
      show l.next :: l.copies = [l.next]
      rw [hcopies]
      rfl
    refine meets_modify (meets_seq (meets_spawn fd hcopied htrace) ?_)
    exact fun xorg v l k h => meets_closeStarted fd xorg h

theorem meets_start (fd : Fd) (connector crtc : UInt32) (h : Holding (some fd) v l k)
    (htrace : v.trace = none) (hverify : v.verifyLease = none) :
    (startXorg n fd connector crtc).Meets ledgerMonitor (fun _ => Holding none) v l k := by
  refine meets_bind (meets_mono
    (h.tidy (quietTidy.plain (plain_configureXorg fd connector crtc))) ?_)
  rintro ok v₁ l₁ k₁ ⟨h₁, htrace₁, hverify₁⟩
  refine meets_ite (fun _ => meets_modify ?_) fun _ => ?_
  · exact meets_startDuplicate fd (h₁.vars rfl rfl) (htrace₁.trans htrace) (hverify₁.trans hverify)
  · exact meets_io h₁.closeLease.1 fun _ => h₁.closeLease.2

end Sessions

/-! ## Requests -/

section Requests

variable {request : Message} {lease : Option Fd} {k : Nat}

theorem meets_recvRequest (h : Holding none v l k) : (recvMessage .request).Meets ledgerMonitor
      (fun r v' l' k' => Holding r.2.2 v' l' k') v l k := by
  obtain ⟨hleases, hsockets, hcopies, rfl, -⟩ := h
  refine meets_io trivial fun received => ?_
  show Prog.Meets ledgerMonitor _ (if received.ok && received.passed then _ else _) v
    (if received.ok && received.passed then _ else l) l.next
  by_cases hpassed : (received.ok && received.passed) = true
  · rw [if_pos hpassed, if_pos hpassed]
    refine meets_fresh ⟨?_, hsockets, hcopies, rfl, ?_⟩
    · show l.next :: l.leases = [l.next]
      rw [hleases]
      rfl
    · rintro fd ⟨⟩
      exact Nat.lt_succ_self _
  · rw [if_neg hpassed, if_neg hpassed]
    exact ⟨hleases, hsockets, hcopies, rfl, nofun⟩

theorem meets_cleanupUnless (ok : Bool) (h : Holding none v l k) :
    (cleanupFailed n ok).Meets ledgerMonitor (fun _ => Holding none) v l k := by
  cases ok with
  | true => exact h
  | false => exact meets_cleanup h

theorem meets_prepareRequest (h : Holding none v l k) (htrace : v.trace = none) :
    (servePrepare n request).Meets ledgerMonitor (fun _ => Holding none) v l k := by
  refine meets_seq (meets_prepare request.flags h htrace) fun ok v l k h => ?_
  refine meets_seq (meets_cleanupUnless ok h) fun _ v l k h => ?_
  exact meets_modify (meets_io trivial fun _ => h.vars rfl rfl)

theorem meets_startRequest (h : Holding lease v l k) (hopcode : request.opcode = opAgentStart)
    (hproper : Asked.Proper ⟨true, request, lease, v⟩) :
    (serveStart n request lease).Meets ledgerMonitor (fun _ => Holding none) v l k := by
  have hrequested : (startRequested n request lease).Meets ledgerMonitor
    (fun _ => Holding none) v l k := by
    refine meets_get ?_
    cases lease with
    | none => exact h
    | some fd =>
      have henters := (hproper.lease rfl).2.2 hopcode
      obtain ⟨htrace, hverify⟩ := hproper.idle rfl (.inr henters)
      refine meets_ite (fun _ => meets_start fd _ _ h htrace hverify) fun hguard => ?_
      unfold Asked.entersXorg at henters
      simp only [Bool.and_eq_true] at henters hguard
      exact absurd ⟨henters.1.2, henters.2⟩ hguard
  refine meets_seq hrequested fun ok v l k h => ?_
  refine meets_seq (meets_cleanupUnless ok h) fun _ v l k h => ?_
  exact meets_get (meets_io trivial fun _ => h)

/-- A proper request leaves no descriptor but those of a session. -/
theorem meets_serve (h : Holding lease v l k) (hproper : Asked.Proper ⟨true, request, lease, v⟩) :
    (serveRequest n request lease).Meets ledgerMonitor (fun _ => Holding none) v l k := by
  refine meets_ite (fun hprepare => ?_) fun _ => meets_ite (fun hstart => ?_) fun _ =>
    meets_ite (fun _ => ?_) fun _ => ?_
  · have hopcode := beq_iff_eq.1 hprepare
    obtain ⟨htrace, -⟩ := hproper.idle rfl (.inl hopcode)
    cases lease with
    | none => exact meets_prepareRequest h htrace
    | some fd => exact absurd hopcode (hproper.lease rfl).2.1
  · exact meets_startRequest h (beq_iff_eq.1 hstart) hproper
  · refine meets_seq (meets_closeLease h) fun _ v l k h => ?_
    refine meets_seq (meets_cleanup h) fun _ v l k h => ?_
    exact meets_modify (meets_io trivial fun _ => h.vars rfl rfl)
  · exact meets_seq (meets_closeLease h) fun _ v l k h => meets_io trivial fun _ => h

theorem meets_report (registration : Message) (text : String) (h : Holding none v l k) :
    (reportFailure n registration text).Meets ledgerMonitor (fun _ => Holding none) v l k :=
  meets_seq (meets_cleanup h) fun _ _ _ _ h => meets_io trivial fun _ => h

theorem meets_between {registration : Message} {p : AgentProg Unit} (hp : Idle n registration p)
    (h : Holding none v l k) :
    p.Meets ledgerMonitor (fun _ => Holding none) v l k := by
  cases hp with
  | stopRequested => exact meets_io trivial fun _ => h
  | pollPeers trace => exact meets_io trivial fun _ => h
  | reapXorg =>
    refine meets_get ?_
    show (match v.xorg with
      | none => pure ()
      | some p => _ : AgentProg Unit).Meets ledgerMonitor _ v l k
    cases v.xorg with
    | none => exact h
    | some pid =>
      refine meets_io trivial fun waited => ?_
      cases waited with
      | exited code => exact meets_modify (meets_report registration _ (h.vars rfl rfl))
      | running => exact h
      | interrupted => exact h
      | failed => exact h
  | relayPolled revents =>
    refine meets_get (meets_ite (fun _ => ?_) fun _ => h)
    refine meets_seq (h.after (tidy_relayTraceRecord 0)) fun relayed v l k h => ?_
    exact meets_ite (fun _ => h) fun _ => meets_report registration _ h
  | reportScanout =>
    exact meets_get (meets_ite (fun _ => meets_report registration _ h) fun _ => h)
  | ending => exact meets_cleanup h

end Requests

/-! ## Histories -/

section Histories

variable {ω : Type} {env : Handler Io Io.Ans ω} {registration : Message} {s₀ s t u : AgentSys ω}
  {hs : List Handled} {xs : List Asked} {x : Asked}

theorem AllProper.init (h : AllProper (xs ++ [x])) : AllProper xs :=
  fun y hy => h y (mem_append_left _ hy)

theorem AllProper.last (h : AllProper (xs ++ [x])) : x.Proper :=
  h x (mem_append_right _ (mem_singleton.2 rfl))

theorem holding_start (h₀ : Untouched s₀.vars) :
    Holding none s₀.vars { next := s₀.nextFd } s₀.nextFd := by
  refine ⟨rfl, ?_, ?_, rfl, nofun⟩
  · rw [h₀.trace]
    rfl
  · rw [h₀.verifyLease]
    rfl

/-- Between requests the agent holds what its ledger says. -/
theorem holding_reach (h₀ : Untouched s₀.vars) (h : Reach env n registration s₀ hs s)
    (hproper : AllProper (hs.map (·.toAsked))) :
    ledgerMonitor.Admits { next := s₀.nextFd } (newCalls s₀ s) ∧
      Holding none s.vars (ledgerAfter s₀.nextFd (newCalls s₀ s)) s.nextFd := by
  induction h with
  | start =>
    rw [newCalls_self]
    exact ⟨trivial, holding_start h₀⟩
  | idle h hp ht ih =>
    obtain ⟨hadmits, hholding⟩ := ih hproper
    exact monitored_returned (Q := fun _ => Holding none) h.log hadmits (meets_between hp hholding) ht
  | handled h hu ht hreply ih =>
    rw [map_append] at hproper
    obtain ⟨hadmits, hholding⟩ := ih hproper.init
    obtain ⟨hadmits', hholding'⟩ :=
      monitored_returned h.log hadmits (meets_recvRequest hholding) hu
    exact monitored_returned (Q := fun _ => Holding none) (h.log.trans (log_of_run hu)) hadmits'
      (meets_serve hholding' hproper.last) ht
  | @refused hs s u request lease h hu ih =>
    rw [map_append] at hproper
    obtain ⟨hadmits, hholding⟩ := ih hproper.init
    obtain ⟨hadmits', hholding'⟩ :=
      monitored_returned h.log hadmits (meets_recvRequest hholding) hu
    cases lease with
    | none => exact ⟨hadmits', hholding'⟩
    | some fd => exact absurd (hproper.last.lease rfl).1 nofun

theorem admits_asked (h₀ : Untouched s₀.vars) (h : During env n registration s₀ xs t)
    (hproper : AllProper xs) : ledgerMonitor.Admits { next := s₀.nextFd } (newCalls s₀ t) := by
  cases h with
  | between h => exact (holding_reach h₀ h hproper).1
  | idle h hp ht =>
    obtain ⟨hadmits, hholding⟩ := holding_reach h₀ h hproper
    exact monitored_halted h.log hadmits (meets_between hp hholding) ht
  | receiving h ht =>
    obtain ⟨hadmits, hholding⟩ := holding_reach h₀ h hproper
    exact monitored_halted h.log hadmits (meets_recvRequest hholding) ht
  | serving h hu ht =>
    obtain ⟨hadmits, hholding⟩ := holding_reach h₀ h hproper.init
    obtain ⟨hadmits', hholding'⟩ :=
      monitored_returned h.log hadmits (meets_recvRequest hholding) hu
    exact monitored_halted (h.log.trans (log_of_run hu)) hadmits'
      (meets_serve hholding' hproper.last) ht

theorem sound_of_admits {next : Nat} {calls before : List (Answered Io.Ans)}
    (h : ledgerMonitor.Admits { next := next } calls) (hbefore : before <+: calls) :
    (ledgerAfter next before).Sound := by
  refine admits_invariant sound_next h ?_ before hbefore
  exact ⟨nofun, nofun, fun _ h => by simp at h, nofun, nofun, Nat.zero_le 1⟩

/-- With proper messages, the agent closes every descriptor that it is passed exactly once, keeps at
    most one duplicate, and leaves none open but those of its session. -/
theorem leases_linearly_owned (env : Handler Io Io.Ans ω) (n : Nat) (registration : Message)
    (s₀ : AgentSys ω) (h₀ : Untouched s₀.vars) : LinearlyOwned AllProper env n registration s₀ where
  closes xs t h hproper before fd after hcalls := by
    have hadmits := admits_asked h₀ h hproper
    rw [hcalls] at hadmits
    exact admits_split hadmits
  copies xs t h hproper calls hcalls :=
    (sound_of_admits (admits_asked h₀ h hproper) hcalls).single
  balanced hs s h hproper := by
    obtain ⟨hadmits, hholding⟩ := holding_reach h₀ h hproper
    have hsound := sound_of_admits hadmits (prefix_refl _)
    refine ⟨fun fd hfd => ?_, hholding.leases, hholding.sockets, hholding.copies⟩
    have honce := hsound.once fd hfd
    rw [hholding.leases] at honce
    exact honce

end Histories

/-! ## An agent for which everything works

Every call succeeds: the tools exit at once with zero, the display and the devices are there, and
the broker acknowledges each record. The requests and the trace records are given.
-/

/-- What the broker and Xorg still have to say. The clock stops when `spare` processes of Xorg have
    been started. -/
structure Bench where
  inbox : List Received := []
  records : List TraceRecord := []
  progress : UInt32 := 0
  spare : Nat := 1

namespace Bench

def mode : ModeInfo := { clock := 148500, hdisplay := 19, vdisplay := 10 }

def lines (texts : List String) : Option (List Text) := some (texts.map String.toList)

def env : Handler Io Io.Ans Bench
  | .stopRequested, w => some (false, w)
  | .monotonicMs, w => if w.spare = 0 then none else some (0, w)
  | .usleep _, w => some ((), w)
  | .connectBroker, w => some (true, w)
  | .pollPeers _, w => some (.ready [{ input := true }, {}], w)
  | .writeBroker m, w =>
    some (true, if m.opcode == opAgentProgress then { w with progress := m.requestId } else w)
  | .recvBroker .request, w =>
    match w.inbox with
    | [] => none
    | received :: inbox => some (received, { w with inbox := inbox })
  | .recvBroker _, w =>
    some (⟨true, { magic := hdmiLosMagic, version := hdmiLosBrokerVersion,
                   opcode := opAgentProgressAck, requestId := w.progress }, false⟩, w)
  | .close _, w => some ((), w)
  | .socketpair, w => some (true, w)
  | .fork (.xorg _) _, w => some (true, { w with spare := w.spare - 1 })
  | .fork _ _, w => some (true, w)
  | .processAlive _, w => some (true, w)
  | .leadsGroup _, w => some (true, w)
  | .kill _ _ _, w => some ((), w)
  | .waitpid _, w => some ((), w)
  | .waitNoHang _, w => some (.exited (some 0), w)
  | .pollTrace _ _, w =>
    some (if w.records.isEmpty then .timeout else .ready { input := true }, w)
  | .recvTrace _, w =>
    match w.records with
    | [] => some (none, w)
    | record :: records => some (some record, { w with records := records })
  | .sendTrace _ _, w => some (true, w)
  | .traceGate, w => some (true, w)
  | .getUser, w => some (true, w)
  | .runtimeDirectory, w => some (true, w)
  | .unlinkInputPaths, w => some ((), w)
  | .inputPaths, w =>
    some (lines ["MOUSE_EVENT=/dev/input/event1", "KEYBOARD_EVENT=/dev/input/event2"], w)
  | .displayLock, w => some (true, w)
  | .createAuthority, w => some (true, w)
  | .randomCookie, w => some (true, w)
  | .userRuntime, w => some (true, w)
  | .getConnector _ _ _, w => some (some { connected := true, counts := { modes := 1 },
                                           modes := [mode] }, w)
  | .writeXorgConfig _ _ _ _, w => some (true, w)
  | .dup _ _, w => some (true, w)
  | .getCrtc _ crtc, w => some (some { crtcId := crtc, fbId := 7, modeValid := true,
                                       mode := mode }, w)
  | .readLines .xrandr, w => some (lines ["DP-1 connected", "current 19 x 10"], w)
  | .readLines .xinput, w => some (lines ["HDMI Mouse", "HDMI Keyboard"], w)

def request (opcode : UInt16) (flags : UInt32) (passed : Bool) : Received :=
  ⟨true, { magic := hdmiLosMagic, version := hdmiLosBrokerVersion, opcode := opcode,
           flags := flags, connectorId := 5, crtcId := 6 }, passed⟩

/-- The records of a start: the preload, and a modeset that succeeds. -/
def startRecords : List TraceRecord :=
  let record : TraceRecord := { magic := traceMagic, version := traceVersion, sequence := 1,
                                request := drmModeSetCrtc }
  [{ record with phase := traceLoaded },
    { record with phase := traceBefore, argument0 := 6, argument1 := 7, argument3 := 1 },
    { record with phase := traceDetail, argument2 := 5, name := "SETCRTC_CONNECTOR" },
    { record with phase := traceAfter }]

/-- An agent that has these messages still to receive. -/
def agent (inbox : List Received) : AgentSys Bench :=
  { vars := {}, world := { inbox := inbox, records := startRecords, spare := 2 } }

/-- The next message has been received. -/
def received (s : AgentSys Bench) : AgentSys Bench :=
  ((recvMessage .request).run (processHandler env) s).2

/-- It has been served. -/
def served (message : Message) (lease : Option Fd) (s : AgentSys Bench) : AgentSys Bench :=
  ((serveRequest 9 message lease).run (processHandler env) (received s)).2

def prepare : Received := request opAgentPrepare probeXorgLegacy false

def start : Received := request opAgentStart probeXorgLegacy true

/-- A session is prepared, and started with a lease. -/
def leased : AgentSys Bench := agent [prepare, start]

def prepared : AgentSys Bench := served prepare.message none leased

/-- The lease is named after the socket and the child of the preflight, the bridge and a tool. -/
def started : AgentSys Bench := served start.message (some 4) prepared

theorem reach_prepared : ∃ reply, Reach env 9 {} leased
    [⟨⟨true, prepare.message, none, (received leased).vars⟩, reply⟩] prepared :=
  Reach.start.served (Prod.ext (by decide +kernel) rfl) (Prod.ext (by decide +kernel) rfl)

theorem reach_started :
    ∃ hs, Reach env 9 {} leased hs started ∧ AllProper (hs.map (·.toAsked)) := by
  obtain ⟨reply, h⟩ := reach_prepared
  have hreceived : (recvMessage .request).run (processHandler env) prepared =
      (some (true, start.message, some 4), received prepared) := Prod.ext (by decide +kernel) rfl
  obtain ⟨reply', h'⟩ : ∃ reply', Reach env 9 {} leased _ started :=
    h.served hreceived (Prod.ext (by decide +kernel) rfl)
  refine ⟨_, h', ?_⟩
  intro x hx
  simp only [map_cons, map_nil, cons_append, nil_append, mem_cons, not_mem_nil, or_false] at hx
  rcases hx with rfl | rfl
  · exact ⟨nofun, fun _ _ => by decide +kernel⟩
  · exact ⟨fun _ => ⟨rfl, by decide, fun _ => by decide +kernel⟩, fun _ _ => by decide +kernel⟩

end Bench

/-- With a session up, its trace socket and its duplicate of the lease are open. -/
theorem leases_linearly_owned_started : LinearlyOwned AllProper Bench.env 9 {} Bench.leased ∧
      (∃ hs, Reach Bench.env 9 {} Bench.leased hs Bench.started ∧ AllProper (hs.map (·.toAsked))) ∧
      Bench.started.vars.trace = some 6 ∧ Bench.started.vars.verifyLease = some 5 := by
  refine ⟨leases_linearly_owned Bench.env 9 {} Bench.leased ⟨rfl, rfl, rfl, rfl, rfl, rfl⟩,
    Bench.reach_started, ?_⟩
  decide +kernel

/-- A descriptor that comes with a prepare request is never closed. -/
theorem prepare_leaks_lease :
    ¬∀ (ω : Type) (env : Handler Io Io.Ans ω) (n : Nat) (registration : Message)
      (s₀ : AgentSys ω), Untouched s₀.vars → LinearlyOwned (fun _ => True) env n registration s₀ := by
  intro h
  let prepare : Received := Bench.request opAgentPrepare 0 true
  have hbalanced := (h Bench Bench.env 9 {} (Bench.agent [prepare])
    ⟨rfl, rfl, rfl, rfl, rfl, rfl⟩).balanced
  have hreceived : (recvMessage .request).run (processHandler Bench.env) (Bench.agent [prepare]) =
      (some (true, prepare.message, some 0), Bench.received (Bench.agent [prepare])) :=
    Prod.ext (by decide +kernel) rfl
  obtain ⟨reply, hreach⟩ : ∃ reply, Reach Bench.env 9 {} (Bench.agent [prepare]) _
      (Bench.served prepare.message (some 0) (Bench.agent [prepare])) :=
    Reach.start.served hreceived (Prod.ext (by decide +kernel) rfl)
  exact absurd (hbalanced _ _ hreach trivial).2.1 (by decide +kernel)

end HdmiLos.Agent
