import HdmiLos.Tracer.Line
import HdmiLos.Tracer.Proofs.PartsProofs

/-!
# Exchanges among threads

Every function of the interposer keeps to the exchange protocol: it sends, waits and receives in
turn, and calls `_exit` only after a failure. What a thread may do next is therefore known from the
calls it made, whatever the other threads do.
-/

namespace HdmiLos.Tracer

open Interaction Prog

/-! ## The interposer keeps to the protocol -/

variable {α : Type}

theorem obeys_idle_call {c : Io} (hc : c.routine = true) (v : Thread) :
    (call c).Obeys exchangeMonitor (fun _ _ m => m = .idle) v .idle := by
  refine obeys_neutral (uses_perform ?_)
  cases c <;> first | exact ⟨trivial, fun _ => rfl⟩ | cases hc

theorem obeys_library {μ : Type} {M : Monitor Io.Ans μ} {Q : α → Thread → μ → Prop}
    {p : TracerProg (α × Int)} {v : Thread} {m : μ}
    (hp : p.Obeys M (fun a v m => Q a.1 { v with errno := a.2 } m) v m) :
    (library p).Obeys M Q v m :=
  obeys_bind (obeys_mono hp fun _ _ _ h => h)

theorem obeys_receiveAck (record : TraceRecord) (v : Thread) :
    (receiveAck record).Obeys exchangeMonitor
      (fun ok _ m => m = if ok then .idle else .failed) v (.readable record) := by
  refine obeys_bind (obeys_library ⟨rfl, ?_⟩)
  rintro ⟨received, errno⟩
  cases received with
  | none => rfl
  | some ack =>
    refine obeys_ite (fun h => ?_) fun h => ?_
    · have hnext : exchangeMonitor.next (.readable record) .recv (some ack, errno) = .idle :=
        if_pos h
      rw [hnext]
      refine obeys_bind (obeys_ite (fun _ => ?_) fun _ => rfl)
      exact obeys_mono (obeys_idle_call rfl _) fun _ _ _ h => h
    · exact if_neg h

theorem obeys_exchangeOrExit (record : TraceRecord) (v : Thread) :
    (exchangeOrExit record).Obeys exchangeMonitor (fun _ _ m => m = .idle) v .idle := by
  have hexchange : (exchangeRecord record).Obeys exchangeMonitor
      (fun ok _ m => m = if ok then .idle else .failed) v .idle := by
    refine obeys_bind (obeys_library ⟨trivial, ?_⟩)
    rintro ⟨sent, errno⟩
    cases sent with
    | false => rfl
    | true =>
      refine obeys_bind (obeys_library ⟨rfl, ?_⟩)
      rintro ⟨readable, errno'⟩
      cases readable with
      | false => rfl
      | true => exact obeys_receiveAck record _
  refine obeys_bind (obeys_mono hexchange ?_)
  rintro ok v' m rfl
  cases ok with
  | true => rfl
  | false => exact obeys_bind ⟨rfl, nofun⟩

theorem idleParts :
    InterposeParts (fun _ p => ∀ v, p.Obeys exchangeMonitor (fun _ _ m => m = .idle) v .idle) where
  sequential :=
    { pure := fun _ _ => rfl
      bind := fun hp hf v => obeys_bind (obeys_mono (hp v) fun a v' _ hm => hm ▸ hf a v') }
  getThread _ := rfl
  assign _ _ := rfl
  routine _ hc := obeys_idle_call hc
  exchange record _ := obeys_exchangeOrExit record
  store _ _ _ _ := obeys_bind ⟨trivial, fun _ => rfl⟩
  getCrtc _ _ _ := ⟨trivial, fun _ => rfl⟩
  pageFlip _ _ _ _ := ⟨trivial, fun _ => rfl⟩
  fetch _ := ⟨trivial, fun _ => rfl⟩
  system _ _ _ _ := ⟨trivial, fun _ => rfl⟩

/-- Each entry keeps the order of an exchange. -/
theorem obeys_entry (cfg : Config) (entry : Entry) (v : Thread) :
    (entry.code cfg).Obeys exchangeMonitor (fun _ _ m => m = .idle) v .idle := by
  cases entry with
  | ioctl fd request argument =>
    exact idleParts.sequential.bind (idleParts.ioctl cfg fd request argument)
      (fun _ => idleParts.sequential.pure ()) v
  | getProperty fd id =>
    exact idleParts.sequential.bind (idleParts.numbering.drmModeGetPropertyHook cfg fd id)
      (fun _ => idleParts.sequential.pure ()) v
  | load => exact idleParts.traceInitialize trivial cfg v

/-! ## Steps of a thread -/

/-- The state after the answer to a call of the thread `i`. -/
structure Acted (x : Xorg) (i : Nat) (e : Event) (y : Xorg) : Prop where
  pending : ∃ p : Pending Thread Io.Ans Unit, ∃ a : p.call.Ans, (x.tasks i).pending = some p ∧
    e = ⟨p.call, a⟩ ∧ y.tasks = Function.update x.tasks i
      { x.tasks i with vars := p.vars, code := p.resume a, log := (x.tasks i).log ++ [e] }
  running : x.exited = false ∧ y.exited = false
  globals : match e.1, e.2 with
    | .shared op, a => a = (x.globals.step op).1 ∧ y.globals = (x.globals.step op).2
    | _, _ => y.globals = x.globals

theorem act_cases {x y : Xorg} {i : Nat} {oracle : (c : Io) → Option c.Ans} {label : Label}
    (h : x.act i oracle = some (label, y)) :
    ((x.tasks i).Exiting ∧ label = .exit ∧ y = { x with exited := true }) ∨
      ∃ e, label = Label.of e ∧ Acted x i e y := by
  unfold Xorg.act at h
  split at h
  case isTrue => cases h
  case isFalse hrunning =>
    split at h
    case h_1 => cases h
    case h_2 p hp =>
      have hexited : x.exited = false := by simpa using hrunning
      obtain ⟨v, n, c, k⟩ := p
      cases c with
      | shared op =>
        cases h
        exact .inr ⟨⟨.shared op, (x.globals.step op).1⟩, rfl, ⟨_, _, hp, rfl, rfl⟩,
          ⟨hexited, hexited⟩, rfl, rfl⟩
      | exit code =>
        cases h
        exact .inl ⟨⟨_, code, hp, rfl⟩, rfl, rfl⟩
      | _ =>
        obtain ⟨a, -, heq⟩ := Option.map_eq_some_iff.1 h
        obtain ⟨rfl, rfl⟩ := Prod.mk.inj heq
        exact .inr ⟨_, rfl, ⟨_, a, hp, rfl, rfl⟩, ⟨hexited, hexited⟩, rfl⟩

/-- Where the thread is in its exchanges is what its program expects. -/
def Task.Orderly (t : Task) : Prop :=
  t.code.Obeys exchangeMonitor (fun _ _ m => m = .idle) t.vars (phaseOf t.log)

theorem phaseOf_snoc (log : List Event) (e : Event) :
    phaseOf (log ++ [e]) = exchangeMonitor.next (phaseOf log) e.1 e.2 := by
  rw [phaseOf, List.foldl_append]
  rfl

section Orderly

variable {x y : Xorg} {i j : Nat} {e : Event}

theorem Acted.other (h : Acted x i e y) (hj : j ≠ i) : y.tasks j = x.tasks j := by
  obtain ⟨p, a, -, -, htasks⟩ := h.pending
  rw [htasks, Function.update_of_ne hj]

theorem Acted.log (h : Acted x i e y) : (y.tasks i).log = (x.tasks i).log ++ [e] := by
  obtain ⟨p, a, -, -, htasks⟩ := h.pending
  rw [htasks, Function.update_self]

/-- The call was in order, and the thread stays orderly. -/
theorem Acted.orderly (h : Acted x i e y) (hi : (x.tasks i).Orderly) :
    exchangeMonitor.allows (phaseOf (x.tasks i).log) e.1 ∧ (y.tasks i).Orderly := by
  obtain ⟨p, a, hp, rfl, htasks⟩ := h.pending
  obtain ⟨hallows, hresume⟩ := obeys_pending hi hp
  refine ⟨hallows, ?_⟩
  rw [htasks, Function.update_self, Task.Orderly, phaseOf_snoc]
  exact hresume a

theorem Task.Exiting.failed {t : Task} (h : t.Exiting) (ht : t.Orderly) :
    phaseOf t.log = .failed := by
  obtain ⟨p, code, hp, hcall⟩ := h
  have hallows := (obeys_pending ht hp).1
  rw [hcall] at hallows
  cases hphase : phaseOf t.log with
  | failed => rfl
  | idle => rw [hphase] at hallows; exact hallows.elim
  | sent record => rw [hphase] at hallows; cases hallows
  | readable record => rw [hphase] at hallows; cases hallows

/-- A thread that enters a function was outside an exchange, and is so then. -/
theorem enter_cases {cfg : Config} {entry : Entry} (h : x.enter cfg i entry = some y) :
    x.exited = false ∧ ∃ v, (x.tasks i).code.returned (x.tasks i).vars 0 = some ((), v) ∧
      y = x.setTask i { entry := some entry, vars := v, code := entry.code cfg } := by
  unfold Xorg.enter at h
  split at h
  case isTrue => cases h
  case isFalse hrunning =>
    split at h
    case h_1 => cases h
    case h_2 u v hreturned =>
      exact ⟨by simpa using hrunning, v, hreturned, (Option.some.inj h).symm⟩

theorem enter_orderly {cfg : Config} {entry : Entry} (h : x.enter cfg i entry = some y)
    (hi : (x.tasks i).Orderly) :
    phaseOf (x.tasks i).log = .idle ∧ phaseOf (y.tasks i).log = .idle ∧ (y.tasks i).Orderly ∧
      y.exited = false ∧ ∀ j ≠ i, y.tasks j = x.tasks j := by
  obtain ⟨hrunning, v, hreturned, rfl⟩ := enter_cases h
  have hself : (x.setTask i { entry := some entry, vars := v, code := entry.code cfg }).tasks i =
      { entry := some entry, vars := v, code := entry.code cfg } := Function.update_self ..
  refine ⟨obeys_returned hi hreturned, ?_, ?_, hrunning, fun j hj => Function.update_of_ne hj ..⟩
  · rw [hself]
    rfl
  · rw [hself]
    exact obeys_entry cfg entry v

end Orderly

end HdmiLos.Tracer
