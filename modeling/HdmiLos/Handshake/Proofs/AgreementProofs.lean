import HdmiLos.Broker.Proofs.PartsProofs
import HdmiLos.Handshake.Proofs.PairProofs

/-!
# Agreement of broker and agent

`Start` sends `AGENT_PREPARE` and waits for an `AGENT_READY`, and later does the same with
`AGENT_START`. The wait looks at the opcode of a message only, so it is the reply to the request
exactly if no other `AGENT_READY` can come first. That is so when the connection was idle at
`AGENT_PREPARE`: the reply that ends the first wait leaves it idle again for `AGENT_START`.
-/

namespace HdmiLos.Handshake

open Interaction Prog List

variable {ω α : Type} {S : Surroundings ω} {w w' : Pair ω} {s t : Sys (Pair ω)} {n : Nat}

/-! ## Steps of the environment -/

theorem moves_hist (w : Pair ω) (xs : List Move) :
    ∃ new, (xs.foldl Pair.move w).hist = new ++ w.hist ∧ ∀ e ∈ new, e.isReply = true := by
  induction xs generalizing w with
  | nil => exact ⟨[], rfl, by simp⟩
  | cons x xs ih =>
    obtain ⟨new, hnew, hreply⟩ := ih (w.move x)
    rw [foldl_cons, hnew]
    unfold Pair.move
    cases w.links x.fd with
    | none => exact ⟨new, rfl, hreply⟩
    | some l =>
      refine ⟨new ++ (l.step x.oracle).2.toList.map fun r => .replied x.fd r.1 r.2, ?_, ?_⟩
      · simp [Pair.note, Pair.setLink]
      · intro e he
        rcases mem_append.1 he with he | he
        · exact hreply e he
        · obtain ⟨r, -, rfl⟩ := mem_map.1 he
          rfl

/-- The state of the connections in which a call is answered. -/
def moved (S : Surroundings ω) (c : Io) (w : Pair ω) : Pair ω :=
  (S.moves c w.rest).foldl Pair.move w

theorem moved_exchange (S : Surroundings ω) (c : Io) (w : Pair ω) :
    lastExchange (moved S c w).hist = lastExchange w.hist := by
  obtain ⟨new, hnew, hreply⟩ := moves_hist w (S.moves c w.rest)
  rw [moved, hnew, lastExchange_replies hreply]

/-- What a call can do to the connections and to the history. -/
inductive Effect (w : Pair ω) : Io → Pair ω → Prop where
  | none (c : Io) (r : ω) : Effect w c { w with rest := r }
  | join (fd : Fd) (j : Option Joining) (r : ω) :
    Effect w (.acceptClient fd) { w.join fd j with rest := r }
  | write (fd : Fd) (m : Message) (r : ω) :
    Effect w (.writeFull fd m) { w.deliver fd m false with rest := r }
  | send (fd : Fd) (m : Message) (lease : Fd) (r : ω) :
    Effect w (.sendWithFd fd m (some lease)) { w.deliver fd m true with rest := r }
  | take (fd : Fd) (received received' : Received) (r : ω) (w' : Pair ω)
    (h : { w with rest := r }.take fd received = some (received', w')) : Effect w (.readFull fd) w'
  | log (t : Transition) (r : ω) :
    Effect w (.logTransition t) { w.note ((passedWait t).toList.map .passed) with rest := r }

variable {c : Io} {a : c.Ans}

theorem effect_of_answer (h : S.answer c w = some (a, w')) : Effect w c w' := by
  unfold Surroundings.answer at h
  split at h
  case h_1 =>
    split at h
    · cases h
    · rename_i ok r _
      obtain ⟨rfl, rfl⟩ := Prod.mk.inj (Option.some.inj h)
      cases ok with
      | true => exact .join _ _ r
      | false => exact .none _ r
  case h_2 =>
    split at h
    · cases h
    · rename_i ok r _
      obtain ⟨rfl, rfl⟩ := Prod.mk.inj (Option.some.inj h)
      cases ok with
      | true => exact .write _ _ r
      | false => exact .none _ r
  case h_3 =>
    split at h
    · cases h
    · rename_i ok r _
      obtain ⟨rfl, rfl⟩ := Prod.mk.inj (Option.some.inj h)
      cases ok with
      | true => exact .send _ _ _ r
      | false => exact .none _ r
  case h_4 =>
    split at h
    · cases h
    · rename_i received r _
      exact .take _ received _ r w' h
  case h_5 =>
    split at h
    · cases h
    · rename_i a r _
      cases h
      exact .log _ r
  case h_6 =>
    split at h
    · cases h
    · rename_i a r _
      cases h
      exact .none _ r

theorem take_cases {fd : Fd} {received received' : Received}
    (h : w.take fd received = some (received', w')) :
    (received'.ok = false ∧ w' = w) ∨
    (received'.ok = true ∧ w.links fd = none ∧ w' = w.note [.taken ⟨fd, none, received'.message⟩]) ∨
    (received'.ok = true ∧ ∃ l x rest, w.links fd = some l ∧ l.toBroker = x :: rest ∧
      received'.message = x.message ∧
      w' = (w.setLink fd (some { l with toBroker := rest })).note
        [.taken ⟨fd, x.re, x.message⟩]) := by
  unfold Pair.take at h
  split at h
  · rename_i hok
    cases h
    exact Or.inl ⟨by simpa using hok, rfl⟩
  · rename_i hok
    split at h
    · rename_i hl
      split at h
      · cases h
      · cases h
        exact Or.inr (Or.inl ⟨by simpa using hok, hl, rfl⟩)
    · rename_i l hl
      split at h
      · cases h
      · rename_i x rest hx
        cases h
        exact Or.inr (Or.inr ⟨rfl, l, x, rest, hl, hx, rfl, rfl⟩)

theorem Sound.effect (h : Sound w) (heffect : Effect w c w') : Sound w' := by
  cases heffect with
  | none c r => exact h.rest r
  | join fd j r => exact (h.join fd j).rest r
  | write fd m r => exact (h.deliver fd m false).rest r
  | send fd m lease r => exact (h.deliver fd m true).rest r
  | take fd received received' r w' htake =>
    have hr := h.rest r
    rcases take_cases htake with ⟨-, rfl⟩ | ⟨-, hl, rfl⟩ | ⟨-, l, x, rest, hl, hx, -, rfl⟩
    · exact hr
    · exact hr.other hl _
    · exact hr.take hl hx
  | log t r =>
    cases passedWait t with
    | none => exact h.rest r
    | some q => exact (h.passed q).rest r

/-! ## Calls that hand nothing over -/

/-- The entry neither ends a wait of `Start` nor hands over a lease. -/
def Happening.isCalm : Happening → Bool
  | .passed _ => false
  | .sent x => !x.lease
  | _ => true

theorem Happening.isCalm_of_isReply {e : Happening} (h : e.isReply = true) : e.isCalm = true := by
  cases e with
  | replied fd serial m => rfl
  | sent x => cases h
  | taken x => cases h
  | passed q => cases h

theorem passedWait_of_kind {t : Transition} (h : t.kind ≠ .handover) : passedWait t = none := by
  unfold passedWait
  split
  · exact absurd rfl h
  · exact absurd rfl h
  · rfl

theorem join_hist (fd : Fd) (j : Option Joining) : (w.join fd j).hist = w.hist := by
  cases j <;> rfl

theorem Effect.calm (heffect : Effect w c w') (hc : c.kind ≠ .handover) :
    ∃ new, w'.hist = new ++ w.hist ∧ ∀ e ∈ new, e.isCalm = true := by
  cases heffect with
  | none c r => exact ⟨[], rfl, by simp⟩
  | join fd j r => exact ⟨[], join_hist fd j, by simp⟩
  | write fd m r =>
    refine ⟨_, rfl, fun e he => ?_⟩
    split at he
    · obtain rfl := mem_singleton.1 he
      rfl
    · cases he
  | send fd m lease r => exact absurd rfl hc
  | take fd received received' r w' htake =>
    rcases take_cases htake with ⟨-, rfl⟩ | ⟨-, hl, rfl⟩ | ⟨-, l, x, rest, hl, hx, -, rfl⟩
    · exact ⟨[], rfl, by simp⟩
    · exact ⟨_, rfl, by simp [Happening.isCalm]⟩
    · exact ⟨_, rfl, by simp [Happening.isCalm]⟩
  | log t r => exact ⟨[], by simp [Pair.note, passedWait_of_kind hc], by simp⟩

/-- A call of the composer or of no peer leaves the exchange with the agent as it is. -/
theorem Effect.aside (heffect : Effect w c w') (hc : c.kind ∈ [IoKind.quiet, .composer]) :
    lastExchange w'.hist = lastExchange w.hist := by
  cases heffect with
  | none c r => rfl
  | join fd j r => exact congrArg lastExchange (join_hist fd j)
  | write fd m r => simp [Io.kind] at hc
  | send fd m lease r => simp [Io.kind] at hc
  | take fd received received' r w' htake => simp [Io.kind] at hc
  | log t r =>
    have ht : t.kind ≠ .handover := by
      intro h
      have hc' : t.kind ∈ [IoKind.quiet, .composer] := hc
      simp [h] at hc'
    simp [Pair.note, passedWait_of_kind ht]

/-! ## The invariant -/

variable {hist new : List Happening}

theorem IdleAtPrepare.older (h : IdleAtPrepare (new ++ hist)) : IdleAtPrepare hist :=
  fun x hx => h x (mem_append_right _ hx)

theorem Agreed.append (h : Agreed hist) (hnew : ∀ q, .passed q ∉ new) : Agreed (new ++ hist) := by
  induction new with
  | nil => exact h
  | cons e new ih =>
    intro request past hpast
    rcases suffix_cons_iff.1 hpast with heq | hsuffix
    · obtain ⟨rfl, -⟩ := List.cons.inj heq
      exact absurd mem_cons_self (hnew request)
    · exact ih (fun q hq => hnew q (mem_cons_of_mem _ hq)) request past hsuffix

theorem Agreed.calm (h : Agreed hist) (hnew : ∀ e ∈ new, e.isCalm = true) :
    Agreed (new ++ hist) := by
  refine h.append fun q hq => ?_
  cases hnew _ hq

theorem Agreed.passed {request : UInt16} (h : Agreed hist) (hconfirmed : Confirmed request hist) :
    Agreed (.passed request :: hist) := by
  intro request' past hpast
  rcases suffix_cons_iff.1 hpast with heq | hsuffix
  · obtain ⟨hrequest, rfl⟩ := List.cons.inj heq
    obtain rfl := Happening.passed.inj hrequest
    exact hconfirmed
  · exact h request' past hsuffix

theorem Started.calm (h : Started hist) (hnew : ∀ e ∈ new, e.isCalm = true) :
    Started (new ++ hist) := by
  obtain ⟨past, recent, rfl, hrecent⟩ := h
  refine ⟨past, new ++ recent, by simp, fun x hx => ?_⟩
  rcases mem_append.1 hx with hx | hx
  · simpa [Happening.isCalm] using hnew _ hx
  · exact hrecent x hx

/-- What holds in every state of a run: the connections are sound, the lease was handed over on an
    idle connection, the waits that were passed were confirmed, and an active session has passed its
    last one. -/
structure Inv (s : Sys (Pair ω)) : Prop where
  sound : Sound s.world
  handed : IdleAtPrepare s.world.hist → ∀ x, .sent x ∈ s.world.hist → x.lease = true → x.idle = true
  agreed : IdleAtPrepare s.world.hist → Agreed s.world.hist
  started : s.vars.active = true → Started s.world.hist

theorem inv_initial (r : ω) : Inv (Sys.initial ({ rest := r } : Pair ω)) where
  sound := sound_initial r
  handed _ x h := by cases h
  agreed _ request past h := by cases suffix_nil.1 h
  started h := by cases h

/-- The footprint of the functions that hand nothing over. -/
abbrev NoHandover : Op → Prop :=
  Within Broker.active [.quiet, .config, .preference, .stream, .composer]

variable {p : BrokerProg α}

theorem noHandover_calm (hp : p.Uses Calm) : p.Uses NoHandover :=
  uses_mono (fun _ => Within.mono (fun _ _ h => congrArg Prod.fst h) (by simp)) hp

theorem noHandover_files (hp : p.Uses Files) : p.Uses NoHandover :=
  uses_mono (fun _ => Within.mono (fun _ _ h => congrArg (fun v => v.1.1) h) (by simp)) hp

/-- The agents move, and then the call has its effect. -/
theorem effect_of_env (h : pairEnv S c w = some (a, w')) : Effect (moved S c w) c w' :=
  effect_of_answer h

/-- Every call of the broker keeps the pair sound. -/
theorem sound_of_env (hsound : Sound w) (h : pairEnv S c w = some (a, w')) : Sound w' :=
  (hsound.moves (S.moves c w.rest)).effect (effect_of_env h)

theorem calm_of_env (hc : c.kind ≠ .handover) (h : pairEnv S c w = some (a, w')) :
    ∃ new, w'.hist = new ++ w.hist ∧ ∀ e ∈ new, e.isCalm = true := by
  obtain ⟨new, hnew, hreply⟩ := moves_hist w (S.moves c w.rest)
  obtain ⟨new', hnew', hcalm⟩ := (effect_of_env h).calm hc
  refine ⟨new' ++ new, ?_, fun e he => ?_⟩
  · rw [hnew', moved, hnew, append_assoc]
  · rcases mem_append.1 he with he | he
    · exact hcalm e he
    · exact Happening.isCalm_of_isReply (hreply e he)

theorem Inv.step (h : Inv s) (hc : c.kind ≠ .handover)
    (hstep : pairEnv S c s.world = some (a, w')) :
    Inv { s with log := s.log ++ [⟨c, a⟩], world := w' } := by
  obtain ⟨new, hnew, hcalm⟩ := calm_of_env hc hstep
  refine ⟨sound_of_env h.sound hstep, fun hidle x hx hlease => ?_, fun hidle => ?_,
    fun hactive => ?_⟩
  · have hidle' : IdleAtPrepare (new ++ s.world.hist) := hnew ▸ hidle
    have hx' : .sent x ∈ new ++ s.world.hist := hnew ▸ hx
    rcases mem_append.1 hx' with hx' | hx'
    · have hlease' := hcalm _ hx'
      simp [Happening.isCalm, hlease] at hlease'
    · exact h.handed hidle'.older x hx' hlease
  · show Agreed w'.hist
    have hidle' : IdleAtPrepare (new ++ s.world.hist) := hnew ▸ hidle
    rw [hnew]
    exact (h.agreed hidle'.older).calm hcalm
  · show Started w'.hist
    rw [hnew]
    exact (h.started hactive).calm hcalm

theorem preserves_inv (hp : p.Uses NoHandover) : Preserves (sysHandler (pairEnv S)) Inv α p := by
  intro s hs
  refine wp_process_invariant ?_ (fun _ _ h => ⟨h.sound, h.handed, h.agreed, h.started⟩) ?_ hp hs
  · intro t f hf ht
    refine ⟨ht.sound, ht.handed, ht.agreed, fun hactive => ht.started ?_⟩
    rw [← show (f t.vars).active = t.vars.active from hf t.vars]
    exact hactive
  · intro t c a w' hc ht hstep
    refine ht.step ?_ hstep
    intro h
    have hc' : c.kind ∈ [IoKind.quiet, .config, .preference, .stream, .composer] := hc
    simp [h] at hc'

end HdmiLos.Handshake
