import HdmiLos.Tracer.Proofs.ThreadsProofs

/-!
# Threads that share the trace socket

While one exchange is made at a time, the socket carries either the record of the thread that is in
an exchange or its acknowledgement, so the thread receives what it waits for. Two threads in an
exchange at once can receive each other's acknowledgements, and then both fail.
-/

namespace HdmiLos.Tracer

open Interaction Prog

/-- The socket carries the record, or its acknowledgement. -/
def Carries (l : TraceLine) (record : TraceRecord) : Prop :=
  (l.toAgent = [record] ∧ l.fromAgent = []) ∨
    (l.toAgent = [] ∧ ∃ flags, l.fromAgent = [acknowledgement record flags])

/-- No thread is in an exchange, or one is and the socket belongs to it. -/
inductive SocketOwned (l : TraceLine) : Prop where
  | nobody : (∀ i, phaseOf (l.xorg.tasks i).log = .idle) → l.toAgent = [] → l.fromAgent = [] →
    SocketOwned l
  | owner (i : Nat) (record : TraceRecord) :
    (∀ j, j ≠ i → phaseOf (l.xorg.tasks j).log = .idle) →
    phaseOf (l.xorg.tasks i).log = .sent record ∨ phaseOf (l.xorg.tasks i).log = .readable record →
    Carries l record → SocketOwned l

/-- The invariant of the line. -/
structure LineInv (l : TraceLine) : Prop where
  running : l.xorg.exited = false
  orderly : ∀ i, (l.xorg.tasks i).Orderly
  owned : SocketOwned l

theorem acknowledges_acknowledgement (record : TraceRecord) (flags : UInt32) :
    acknowledges record (acknowledgement record flags) = true := by
  simp [acknowledges, acknowledgement]

section Phases

variable {l l' : TraceLine} {x : Xorg} {i : Nat} {e : Event}

theorem SocketOwned.phase (h : SocketOwned l) (i : Nat) :
    phaseOf (l.xorg.tasks i).log = .idle ∨ ∃ record, (phaseOf (l.xorg.tasks i).log = .sent record ∨
        phaseOf (l.xorg.tasks i).log = .readable record) ∧
      Carries l record ∧ ∀ j, j ≠ i → phaseOf (l.xorg.tasks j).log = .idle := by
  cases h with
  | nobody hidle => exact .inl (hidle i)
  | owner k record hothers hphase hcarries =>
    by_cases hik : i = k
    · subst hik
      exact .inr ⟨record, hphase, hcarries, hothers⟩
    · exact .inl (hothers i hik)

theorem SocketOwned.not_failed (h : SocketOwned l) (i : Nat) :
    phaseOf (l.xorg.tasks i).log ≠ .failed := by
  rcases h.phase i with hphase | ⟨record, hphase | hphase, -⟩ <;> rw [hphase] <;> nofun

theorem SocketOwned.empty (h : SocketOwned l) (hidle : ∀ i, phaseOf (l.xorg.tasks i).log = .idle) :
    l.toAgent = [] ∧ l.fromAgent = [] := by
  cases h with
  | nobody _ hto hfrom => exact ⟨hto, hfrom⟩
  | owner k record _ hphase _ =>
    rw [hidle k] at hphase
    rcases hphase with h | h <;> cases h

theorem SocketOwned.of_same (h : SocketOwned l)
    (hphases : ∀ i, phaseOf (l'.xorg.tasks i).log = phaseOf (l.xorg.tasks i).log)
    (hto : l'.toAgent = l.toAgent) (hfrom : l'.fromAgent = l.fromAgent) : SocketOwned l' := by
  cases h with
  | nobody hidle hto' hfrom' =>
    exact .nobody (fun i => (hphases i).trans (hidle i)) (hto.trans hto') (hfrom.trans hfrom')
  | owner i record hothers hphase hcarries =>
    refine .owner i record (fun j hj => (hphases j).trans (hothers j hj)) ?_ ?_
    · rw [hphases i]
      exact hphase
    · rw [Carries, hto, hfrom]
      exact hcarries

theorem Acted.phases (h : Acted l.xorg i e x) :
    phaseOf (x.tasks i).log = exchangeMonitor.next (phaseOf (l.xorg.tasks i).log) e.1 e.2 ∧
      ∀ j, j ≠ i → phaseOf (x.tasks j).log = phaseOf (l.xorg.tasks j).log := by
  refine ⟨?_, fun j hj => by rw [h.other hj]⟩
  rw [h.log, phaseOf_snoc]

/-- Outside an exchange, only a record that is sent changes the phase. -/
theorem next_idle (hallows : exchangeMonitor.allows .idle e.1) :
    (∃ record, Label.of e = .send record ∧
      exchangeMonitor.next .idle e.1 e.2 = .sent record) ∨ Label.of e = .fail ∨
      (Label.of e = .internal ∧ exchangeMonitor.next .idle e.1 e.2 = .idle) := by
  obtain ⟨c, a⟩ := e
  cases c with
  | send record =>
    obtain ⟨sent, errno⟩ := a
    cases sent with
    | true => exact .inl ⟨record, rfl, rfl⟩
    | false => exact .inr (.inl rfl)
  | waitReadable => exact hallows.elim
  | recv => exact hallows.elim
  | exit => exact hallows.elim
  | _ => exact .inr (.inr ⟨rfl, rfl⟩)

end Phases

/-! ## Steps -/

section Steps

variable {cfg : Config} {l l' : TraceLine} {x : Xorg} {i : Nat} {e : Event}

theorem owned_idle (h : LineInv l) (hacted : Acted l.xorg i e x)
    (hidle : phaseOf (l.xorg.tasks i).log = .idle)
    (halone : ∀ record, Label.of e = .send record →
      ∀ j, j ≠ i → phaseOf (l.xorg.tasks j).log = .idle)
    (hfollow : l.follow x (Label.of e) = some l') : SocketOwned l' := by
  have hallows := (hacted.orderly (h.orderly i)).1
  obtain ⟨hself, hothers⟩ := hacted.phases
  rw [hidle] at hallows hself
  rcases next_idle hallows with ⟨record, hlabel, hnext⟩ | hlabel | ⟨hlabel, hnext⟩
  · -- the socket was empty, and carries the record now
    have hall : ∀ j, phaseOf (l.xorg.tasks j).log = .idle := fun j => by
      by_cases hj : j = i
      · rw [hj, hidle]
      · exact halone record hlabel j hj
    obtain ⟨hto, hfrom⟩ := h.owned.empty hall
    rw [hlabel] at hfollow
    cases hfollow
    refine .owner i record (fun j hj => (hothers j hj).trans (hall j)) (.inl ?_) (.inl ⟨?_, hfrom⟩)
    · rw [hself, hnext]
    · simp [hto]
  · rw [hlabel] at hfollow
    cases hfollow
  · rw [hlabel] at hfollow
    cases hfollow
    refine h.owned.of_same (fun j => ?_) rfl rfl
    by_cases hj : j = i
    · rw [hj, hidle]
      exact hself.trans hnext
    · exact hothers j hj

theorem owned_owner (h : LineInv l) (hacted : Acted l.xorg i e x) {record : TraceRecord}
    (hphase : phaseOf (l.xorg.tasks i).log = .sent record ∨
      phaseOf (l.xorg.tasks i).log = .readable record)
    (hcarries : Carries l record) (hrest : ∀ j, j ≠ i → phaseOf (l.xorg.tasks j).log = .idle)
    (hfollow : l.follow x (Label.of e) = some l') : SocketOwned l' := by
  have hallows := (hacted.orderly (h.orderly i)).1
  obtain ⟨hself, hothers⟩ := hacted.phases
  obtain ⟨c, a⟩ := e
  rcases hphase with hphase | hphase
  · rw [hphase] at hallows hself
    obtain rfl : c = .waitReadable := hallows
    obtain ⟨readable, errno⟩ := a
    cases readable with
    | false => cases hfollow
    | true =>
      simp only [Label.of, TraceLine.follow] at hfollow
      split at hfollow
      case isTrue =>
        cases hfollow
        exact .owner i record (fun j hj => (hothers j hj).trans (hrest j hj)) (.inr hself) hcarries
      case isFalse => cases hfollow
  · rw [hphase] at hallows hself
    obtain rfl : c = .recv := hallows
    obtain ⟨received, errno⟩ := a
    cases received with
    | none => cases hfollow
    | some ack =>
      rcases hcarries with ⟨hto, hfrom⟩ | ⟨hto, flags, hfrom⟩
      · simp [Label.of, TraceLine.follow, hfrom] at hfollow
      · simp only [Label.of, TraceLine.follow, hfrom] at hfollow
        split at hfollow
        case isTrue hack =>
          cases hfollow
          have hdone : exchangeMonitor.next (.readable record) .recv (some ack, errno) = .idle :=
            if_pos (hack ▸ acknowledges_acknowledgement record flags)
          refine .nobody (fun j => ?_) hto rfl
          by_cases hj : j = i
          · rw [hj]
            exact hself.trans hdone
          · exact (hothers j hj).trans (hrest j hj)
        case isFalse => cases hfollow

theorem follow_xorg {label : Label} (h : l.follow x label = some l') : l'.xorg = x := by
  cases label with
  | fail => cases h
  | poll readable =>
    simp only [TraceLine.follow] at h
    split at h
    case isTrue => obtain rfl := Option.some.inj h; rfl
    case isFalse => cases h
  | receive record =>
    simp only [TraceLine.follow] at h
    split at h
    case h_1 => cases h
    case h_2 =>
      split at h
      case isTrue => obtain rfl := Option.some.inj h; rfl
      case isFalse => cases h
  | _ => obtain rfl := Option.some.inj h; rfl

theorem lineInv_enter {entry : Entry} (h : LineInv l) (henter : l.xorg.enter cfg i entry = some x) :
    LineInv { l with xorg := x } := by
  obtain ⟨hbefore, hafter, horderly, hrunning, hothers⟩ := enter_orderly henter (h.orderly i)
  refine ⟨hrunning, fun j => ?_, h.owned.of_same (fun j => ?_) rfl rfl⟩
  · by_cases hj : j = i
    · rw [hj]
      exact horderly
    · exact hothers j hj ▸ h.orderly j
  · by_cases hj : j = i
    · rw [hj, hbefore]
      exact hafter
    · exact congrArg (fun t => phaseOf t.log) (hothers j hj)

theorem lineInv_act {oracle : (c : Io) → Option c.Ans} {label : Label} (h : LineInv l)
    (halone : Alone l (.act i oracle)) (hact : l.xorg.act i oracle = some (label, x))
    (hfollow : l.follow x label = some l') : LineInv l' := by
  rcases act_cases hact with ⟨hexiting, -⟩ | ⟨e, rfl, hacted⟩
  · exact absurd (hexiting.failed (h.orderly i)) (h.owned.not_failed i)
  · have hxorg := follow_xorg hfollow
    refine ⟨hxorg ▸ hacted.running.2, fun j => ?_, ?_⟩
    · rw [hxorg]
      by_cases hj : j = i
      · rw [hj]
        exact (hacted.orderly (h.orderly i)).2
      · exact hacted.other hj ▸ h.orderly j
    · rcases h.owned.phase i with hidle | ⟨record, hphase, hcarries, hrest⟩
      · refine owned_idle h hacted hidle (fun record hlabel => ?_) hfollow
        exact halone record x (hlabel ▸ hact)
      · exact owned_owner h hacted hphase hcarries hrest hfollow

theorem lineInv_acknowledge {flags : UInt32} (h : LineInv l)
    (hmove : l.move cfg (.acknowledge flags) = some l') : LineInv l' := by
  simp only [TraceLine.move] at hmove
  split at hmove
  case h_1 => cases hmove
  case h_2 record rest hto =>
    cases hmove
    refine ⟨h.running, h.orderly, ?_⟩
    cases h.owned with
    | nobody _ hempty => cases hto.symm.trans hempty
    | owner i sent hothers hphase hcarries =>
      rcases hcarries with ⟨hto', hfrom⟩ | ⟨hto', -⟩
      · obtain ⟨rfl, rfl⟩ := List.cons.inj (hto.symm.trans hto')
        exact .owner i record hothers hphase (.inr ⟨rfl, flags, by simp [hfrom]⟩)
      · cases hto.symm.trans hto'

/-- A move of the line keeps the invariant. -/
theorem lineInv_step (h : LineInv l) (hstep : TraceLine.Step cfg Alone l l') : LineInv l' := by
  obtain ⟨m, halone, hmove⟩ := hstep
  cases m with
  | enter i entry =>
    obtain ⟨x, henter, rfl⟩ := Option.map_eq_some_iff.1 hmove
    exact lineInv_enter h henter
  | act i oracle =>
    obtain ⟨⟨label, x⟩, hact, hfollow⟩ := Option.bind_eq_some_iff.1 hmove
    exact lineInv_act h halone hact hfollow
  | acknowledge flags => exact lineInv_acknowledge h hmove

end Steps

theorem lineInv_start : LineInv {} :=
  ⟨rfl, fun _ => rfl, .nobody (fun _ => rfl) rfl rfl⟩

/-- As long as the threads make their exchanges one at a time, none of them fails and none ends the
    process. -/
theorem exchanges_one_at_a_time {cfg : Config} {l : TraceLine}
    (h : TraceLine.Reachable cfg Alone l) :
    l.xorg.exited = false ∧ ∀ i, phaseOf (l.xorg.tasks i).log ≠ .failed ∧
      ¬(l.xorg.tasks i).Exiting := by
  have hinv : LineInv l := by
    induction h with
    | refl => exact lineInv_start
    | tail _ hstep ih => exact lineInv_step ih hstep
  refine ⟨hinv.running, fun i => ⟨hinv.owned.not_failed i, fun hexiting => ?_⟩⟩
  exact hinv.owned.not_failed i (hexiting.failed (hinv.orderly i))

/-! ## On the bench -/

/-- The moves one after the other. -/
def lineMoves (cfg : Config) (l : TraceLine) : List LineMove → Option TraceLine
  | [] => some l
  | m :: moves => (l.move cfg m).bind fun l' => lineMoves cfg l' moves

variable {l : TraceLine} {l' : TraceLine}

/-- A script whose moves are in order and keep `I`. -/
theorem reachable_lineMoves {cfg : Config} {P : TraceLine → LineMove → Prop}
    (I : TraceLine → Prop) {moves : List LineMove} (hmoves : ∀ l, ∀ m ∈ moves, I l →
      P l m ∧ ∀ l', l.move cfg m = some l' → I l') (hI : I l)
    (hl : TraceLine.Reachable cfg P l) (hrun : lineMoves cfg l moves = some l') :
    TraceLine.Reachable cfg P l' ∧ I l' := by
  induction moves generalizing l with
  | nil =>
    cases hrun
    exact ⟨hl, hI⟩
  | cons m moves ih =>
    obtain ⟨l₁, hmove, hrun⟩ := Option.bind_eq_some_iff.1 hrun
    obtain ⟨hP, hkeeps⟩ := hmoves l m List.mem_cons_self hI
    exact ih (fun l m hm => hmoves l m (List.mem_cons_of_mem _ hm)) (hkeeps l₁ hmove)
      (hl.tail ⟨m, hP, hmove⟩) hrun

/-- Calls succeed, and the acknowledgement that is received is the given one. -/
def lineOracle (ack : TraceRecord) : (c : Io) → Option c.Ans
  | .send _ => some (true, 0)
  | .waitReadable => some (true, 0)
  | .recv => some (some ack, 0)
  | .ioctl _ _ _ => some (.ok 0)
  | _ => none

/-- The acknowledgement of the record with the given sequence number. -/
def lineAck (sequence : UInt32) : TraceRecord := acknowledgement { sequence := sequence } 0

def LineMove.isOf (i : Nat) : LineMove → Bool
  | enter j _ => j == i
  | act j _ => j == i
  | acknowledge _ => true

/-- The other threads are not in an exchange. -/
def OthersIdle (i : Nat) (l : TraceLine) : Prop := ∀ j, j ≠ i → phaseOf (l.xorg.tasks j).log = .idle

variable {i : Nat}

theorem OthersIdle.alone (h : OthersIdle i l) {m : LineMove} (hm : m.isOf i = true) :
    Alone l m := by
  cases m with
  | act k oracle =>
    obtain rfl : k = i := by simpa [LineMove.isOf] using hm
    exact fun _ _ _ => h
  | _ => trivial

theorem othersIdle_move {cfg : Config} {m : LineMove} (h : OthersIdle i l)
    (hm : m.isOf i = true) (hmove : l.move cfg m = some l') : OthersIdle i l' := by
  cases m with
  | enter k entry =>
    obtain rfl : k = i := by simpa [LineMove.isOf] using hm
    obtain ⟨x, henter, rfl⟩ := Option.map_eq_some_iff.1 hmove
    obtain ⟨-, v, -, rfl⟩ := enter_cases henter
    exact fun j hj => (congrArg (fun t : Task => phaseOf t.log)
      (Function.update_of_ne hj ..)).trans (h j hj)
  | act k oracle =>
    obtain rfl : k = i := by simpa [LineMove.isOf] using hm
    obtain ⟨⟨label, x⟩, hact, hfollow⟩ := Option.bind_eq_some_iff.1 hmove
    intro j hj
    rw [follow_xorg hfollow]
    rcases act_cases hact with ⟨-, -, rfl⟩ | ⟨e, -, hacted⟩
    · exact h j hj
    · rw [hacted.other hj]
      exact h j hj
  | acknowledge flags =>
    simp only [TraceLine.move] at hmove
    split at hmove
    case h_1 => cases hmove
    case h_2 => obtain rfl := Option.some.inj hmove; exact h

/-- The first calls of a thread that traces a request, up to the record. -/
def lineSends (i : Nat) : List LineMove :=
  .enter i (.ioctl 9 drmModeGetCrtc 0) :: List.replicate 3 (.act i (lineOracle {}))

/-- A thread receives the acknowledgement with the given sequence number. -/
def lineReceives (i : Nat) (sequence : UInt32) : List LineMove :=
  [.act i (lineOracle {}), .act i (lineOracle (lineAck sequence))]

/-- What the thread has left to do. -/
def Task.exits (t : Task) : Bool :=
  match t.pending with
  | some p => match p.call with
    | .exit _ => true
    | _ => false
  | none => false

theorem Task.exiting_of_exits {t : Task} (h : t.exits = true) : t.Exiting := by
  unfold Task.exits at h
  split at h
  case h_1 p hp =>
    split at h
    case h_1 code hcall => exact ⟨p, code, hp, hcall⟩
    case h_2 => cases h
  case h_2 => cases h

/-- The exchange of a thread, which gets the given sequence number. -/
def lineExchange (i : Nat) (sequence : UInt32) : List LineMove :=
  lineSends i ++ .acknowledge 0 :: lineReceives i sequence

theorem reachable_lineExchange {sequence : UInt32} (hothers : OthersIdle i l)
    (hl : TraceLine.Reachable {} Alone l)
    (hrun : lineMoves {} l (lineExchange i sequence) = some l') :
    TraceLine.Reachable {} Alone l' ∧ OthersIdle i l' := by
  have hmoves : ∀ m ∈ lineExchange i sequence, m.isOf i = true := by
    simp [lineExchange, lineSends, lineReceives, LineMove.isOf]
  exact reachable_lineMoves (OthersIdle i) (fun l m hm hl =>
    ⟨hl.alone (hmoves m hm), fun l' hmove => othersIdle_move hl (hmoves m hm) hmove⟩) hothers hl hrun

/-- Two threads make their exchanges, one after the other. -/
theorem exchanges_one_at_a_time_in_turn : ∃ l l' : TraceLine,
    lineMoves {} {} (lineExchange 0 1) = some l ∧ lineMoves {} l (lineExchange 1 2) = some l' ∧
      TraceLine.Reachable {} Alone l' ∧ ∀ i, ¬(l'.xorg.tasks i).Exiting := by
  have hsome : ((lineMoves {} {} (lineExchange 0 1)).bind fun l =>
      (lineMoves {} l (lineExchange 1 2)).map fun _ => phaseOf (l.xorg.tasks 0).log) = some .idle := by
    decide +kernel
  obtain ⟨l, hl, hsecond⟩ := Option.bind_eq_some_iff.1 hsome
  obtain ⟨l', hl', hidle⟩ := Option.map_eq_some_iff.1 hsecond
  obtain ⟨hreachable, hothers⟩ := reachable_lineExchange (i := 0) (fun _ _ => rfl) .refl hl
  have hothers' : OthersIdle 1 l := fun j _ => by
    by_cases hj : j = 0
    · rw [hj]
      exact hidle
    · exact hothers j hj
  obtain ⟨hreachable', -⟩ := reachable_lineExchange hothers' hreachable hl'
  exact ⟨l, l', hl, hl', hreachable', fun i => ((exchanges_one_at_a_time hreachable').2 i).2⟩

/-- Two threads send their records, and the second one receives the acknowledgement of the first:
    it calls `_exit`. -/
theorem exchanges_crossed : ∃ l : TraceLine,
    TraceLine.Reachable {} (fun _ _ => True) l ∧ (l.xorg.tasks 1).Exiting := by
  have hsome : ((lineMoves {} {} (lineSends 0 ++ lineSends 1 ++
      .acknowledge 0 :: .acknowledge 0 :: lineReceives 1 1)).map
        fun l => (l.xorg.tasks 1).exits) = some true := by
    decide +kernel
  obtain ⟨l, hl, hexits⟩ := Option.map_eq_some_iff.1 hsome
  refine ⟨l, ?_, Task.exiting_of_exits hexits⟩
  exact (reachable_lineMoves (fun _ => True) (fun _ _ _ _ => ⟨trivial, fun _ _ => trivial⟩) trivial
    .refl hl).1

end HdmiLos.Tracer
