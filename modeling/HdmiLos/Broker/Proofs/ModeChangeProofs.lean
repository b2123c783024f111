import HdmiLos.Broker.Bench
import HdmiLos.Broker.ModeChange
import HdmiLos.Broker.Proofs.CalmProofs
import HdmiLos.Broker.Proofs.TextProofs

/-!
# Changes of the configured mode

`SetMode` is the only function that changes the mode or the file. What is left to show is which
stage the functions around it come to, and that the status they return is the one the client gets.
-/

namespace HdmiLos

open Interaction Prog

variable {α ω : Type} {env : Env ω} {s t : Sys ω} {b : Broker} {x x' : ModeChange} {n : Nat}

/-- The observer of a request. -/
def modeMonitor : Monitor Io.Ans ModeChange where
  allows _ _ := True
  next := ModeChange.step

theorem obeys_modeCall {c : Io} {Q : c.Ans → Broker → ModeChange → Prop}
    (h : ∀ a, Q a b (x.step c a)) : (call c).Obeys modeMonitor Q b x :=
  ⟨trivial, h⟩

/-! ## Restart -/

theorem loads_printMode {m : Mode} (hm : (m == .native || m.inRange) = true) :
    Loads (some (printMode m)) m := by
  intro ω env s w hread
  let t : Sys ω := { s with log := s.log ++ [⟨.readText .modeConfig, some (printMode m)⟩], world := w }
  have hcall : (readText .modeConfig).run (sysHandler env) s = (some (some (printMode m)), t) :=
    run_io hread
  refine ⟨{ t with vars := t.vars.setRequestedMode m }, ?_, rfl⟩
  rw [loadConfiguredMode, run_bind, hcall]
  simp only [scanMode_printMode, hm, if_true]
  rfl

/-! ## Bystanders -/

/-- The fields that decide about a request. -/
def Broker.entry (b : Broker) : Mode × Bool × Bool × Bool :=
  (b.requestedMode, b.active, b.probing, b.armed)

/-- The footprint of a bystander: it assigns none of these fields, and uses no file and no client's
    stream. -/
abbrev Bystanding : Op → Prop := Within Broker.entry [.quiet, .composer]

theorem lasting_entry {b b' : Broker} (h : b.lasting = b'.lasting) : b.entry = b'.entry := by
  have hentry : b.lasting.entry = b'.lasting.entry := congrArg Broker.entry h
  exact hentry

theorem aside_entry {b b' : Broker} (h : b.aside = b'.aside) : b.entry = b'.entry := by
  have hentry : b.aside.entry = b'.aside.entry := congrArg Broker.entry h
  exact hentry

instance : Ordinary Bystanding := ordinary_within (fun _ _ => lasting_entry) (by simp)

instance : Exchanging Bystanding where
  get := trivial
  fresh := trivial
  modify h b := aside_entry (h b)
  connect := by simp [Within, Io.kind]
  recv _ := by simp [Within, Io.kind]
  close _ := by simp [Within, Io.kind]
  send _ _ := by simp [Within, Io.kind]

/-- The stages that a look at the gates does not change. -/
def ModeStage.settled : ModeStage → Bool
  | asked | unwritten | opened | refused => true
  | _ => false

/-- The stages behind a successful write. -/
def ModeStage.written : ModeStage → Bool
  | asked | unwritten => false
  | _ => true

variable {stage : ModeStage}

theorem ModeStage.written_of_unsettled (h : stage.settled = false) : stage.written = true := by
  cases stage <;> first | rfl | cases h

theorem ModeStage.ne_of_written (h : stage.written = true) : stage ≠ asked ∧ stage ≠ unwritten := by
  constructor <;> rintro rfl <;> cases h

variable {request : Message}

theorem ModeStage.ne_unwritten (h : stage.Through request) : stage ≠ unwritten := by
  unfold Through at h
  split_ifs at h
  · exact h.2
  · rintro rfl
    cases h

theorem step_bystanding {c : Io} (hc : c.kind = .quiet ∨ c.kind = .composer) (stage : ModeStage)
    (a : c.Ans) : (stage.settled = true → stage.step c a = stage) ∧
      (stage.written = true → (stage.step c a).written = true) := by
  cases c with
  | writeAtomicText file text => cases file <;> simp [Io.kind, TextFile.kind] at hc
  | displayCommand command => simp [Io.kind] at hc
  | access marker =>
    cases marker <;> cases stage <;>
      first | exact ⟨fun _ => rfl, id⟩ | (cases a <;> exact ⟨nofun, fun _ => rfl⟩)
  | recoveryDumpProperty =>
    cases stage with
    | diagnostic =>
      refine ⟨nofun, fun _ => ?_⟩
      show (if a == some "0" then ModeStage.opened else .refused).written = true
      split <;> rfl
    | _ => exact ⟨fun _ => rfl, id⟩
  | _ => cases stage <;> exact ⟨fun _ => rfl, id⟩

/-- What a bystander leaves of a request. -/
structure Unmoved (b : Broker) (x : ModeChange) (v : Broker) (x' : ModeChange) : Prop where
  entry : v.entry = b.entry
  config : x'.config = x.config
  settled : x.stage.settled = true → x'.stage = x.stage
  written : x.stage.written = true → x'.stage.written = true

theorem obeys_bystander {p : BrokerProg α} (hp : p.Uses Bystanding) :
    p.Obeys modeMonitor (fun _ v x' => Unmoved b x v x') b x := by
  refine obeys_invariant (I := Unmoved b x) (uses_mono (fun op hop => ?_) hp)
    ⟨rfl, rfl, fun _ => rfl, id⟩
  cases op with
  | modify f => exact fun v x' h => ⟨(hop v).trans h.entry, h.config, h.settled, h.written⟩
  | io c =>
    have hc : c.kind = .quiet ∨ c.kind = .composer := by simpa [Within] using hop
    refine fun v x' h => ⟨trivial, fun a => ?_⟩
    obtain ⟨hsettled, hwritten⟩ := step_bystanding hc x'.stage a
    refine ⟨h.entry, Eq.trans ?_ h.config, fun hx => ?_, fun hx => hwritten (h.written hx)⟩
    · cases c with
      | writeAtomicText file text => cases file <;> simp [Io.kind, TextFile.kind] at hc
      | _ => rfl
    · have hsame := h.settled hx
      exact (hsettled (hsame.symm ▸ hx)).trans hsame
  | _ => trivial

/-! ## SetMode -/

/-- What a request did: it was overlooked; or it was refused before the mode was assigned; or the
    mode was assigned, and the client is told whether the request got through. -/
inductive Outcome (request : Message) (b : Broker) (config : Option Text) (status : Int)
    (mode : Mode) (x : ModeChange) : Prop where
  | overlooked (hrequest : request.Overlooked b) (hstatus : status = statusOk)
      (hmode : mode = b.requestedMode) (hconfig : x.config = config)
  | refused (hrequest : ¬request.Overlooked b) (hstatus : status ≠ statusOk)
      (hmode : mode = b.requestedMode) (hconfig : x.config = config) (hstage : x.stage = .asked)
  | assigned (hrequest : ¬request.Overlooked b) (hstatus : status = statusOk ↔ x.stage.Through request)
      (hmode : mode = request.requestedMode)
      (haccepted : (request.requestedMode == .native || request.requestedMode.inRange) = true)
      (hstage : x.stage ≠ .asked) (hconfig : x.config =
        if x.stage = .unwritten then config else some (printMode request.requestedMode))

/-- `SetMode` refuses the request, or assigns the mode and then writes the file. -/
theorem obeys_setMode (request : Message) : (setMode request).Obeys modeMonitor (fun r v x' =>
      (r.1 ≠ statusOk ∧ v.entry = b.entry ∧ x' = x) ∨
      (v.requestedMode = request.requestedMode ∧
        (request.requestedMode == .native || request.requestedMode.inRange) = true ∧
        ((r.1 = statusOk ∧ x'.config = some (printMode request.requestedMode) ∧ x'.stage = .stored) ∨
          (r.1 ≠ statusOk ∧ x'.config = x.config ∧ x'.stage = .unwritten)))) b x := by
  refine obeys_bind (obeys_ite (fun _ => ?_) fun _ => obeys_ite (fun _ => ?_) fun hmode => ?_)
  · exact .inl ⟨(by decide : errBusy ≠ statusOk), rfl, rfl⟩
  · exact .inl ⟨(by decide : errProtocol ≠ statusOk), rfl, rfl⟩
  · have haccepted : (request.requestedMode == .native || request.requestedMode.inRange) = true := by
      cases haccepted : (request.requestedMode == .native || request.requestedMode.inRange)
      · rw [haccepted] at hmode
        exact absurd rfl hmode
      · rfl
    refine obeys_bind (obeys_bind (obeys_bind (obeys_modeCall fun (written : Bool) => ?_)))
    cases written with
    | true => exact .inr ⟨rfl, haccepted, .inl ⟨rfl, rfl, rfl⟩⟩
    | false => exact .inr ⟨rfl, haccepted, .inr ⟨(by decide : errIo ≠ statusOk), rfl, rfl⟩⟩

/-! ## Arming -/

/-- A step of `Arm` behind the write leaves the mode and the file alone, and the stage says whether
    it succeeded. -/
structure Passes (b : Broker) (x : ModeChange) (ok : Prop) (v : Broker) (x' : ModeChange) : Prop where
  mode : v.requestedMode = b.requestedMode
  config : x'.config = x.config
  stage : (ok ∧ x'.stage = .opened) ∨ (¬ok ∧ x'.stage = .refused)

theorem obeys_recoverPreferredMode_refused (hx : x.stage = .refused) :
    recoverPreferredMode.Obeys modeMonitor (fun _ v x' => Passes b x False v x') b x := by
  have : Preferring (Within (fun b => b) [.preference]) := preferring_within (by simp)
  refine obeys_invariant (I := fun v x' => Passes b x False v x')
    (uses_mono (fun op hop => ?_) (uses_recoverPreferredMode (F := Within (fun b => b) [.preference])))
    ⟨rfl, rfl, .inr ⟨id, hx⟩⟩
  cases op with
  | modify f =>
    intro v x' h
    rw [show f v = v from hop v]
    exact h
  | io c =>
    have hc : c.kind = .preference := by simpa [Within] using hop
    refine fun v x' h => ⟨trivial, fun a => ⟨h.mode, Eq.trans ?_ h.config, .inr ⟨id, ?_⟩⟩⟩
    · cases c with
      | writeAtomicText file text =>
        cases file with
        | modeConfig => simp [Io.kind, TextFile.kind] at hc
        | modeJournal => rfl
      | _ => rfl
    · obtain ⟨hok, -⟩ | ⟨-, hstage⟩ := h.stage
      · exact hok.elim
      · show x'.stage.step c a = .refused
        rw [hstage]
        cases c with
        | writeAtomicText file text =>
          cases file with
          | modeConfig => simp [Io.kind, TextFile.kind] at hc
          | modeJournal => rfl
        | access marker => cases marker <;> rfl
        | _ => rfl
  | _ => trivial

theorem obeys_overridePreferredMode (hx : x.stage = .opened) : overridePreferredMode.Obeys modeMonitor
    (fun r v x' => Passes b x (r.1 = true) v x') b x := by
  refine obeys_bind (obeys_bind (obeys_modeCall fun (answer : Bool × Text) => ?_))
  obtain ⟨applied, output⟩ := answer
  have hstage : (x.step (.displayCommand (preferenceCommand b.requestedMode))
    (applied, output)).stage =
      if applied then .opened else .refused := by
    have hset : (preferenceCommand b.requestedMode != .getPreferred) = true := by
      unfold preferenceCommand
      split <;> rfl
    show x.stage.step _ _ = _
    rw [hx]
    simp [ModeStage.step, DisplayCommand.succeeded, hset]
  cases applied with
  | true => exact ⟨rfl, rfl, .inl ⟨rfl, hstage⟩⟩
  | false =>
    refine obeys_bind (obeys_mono (obeys_recoverPreferredMode_refused hstage) fun _ v x' h => ?_)
    exact ⟨h.mode, h.config, .inr ⟨nofun, (h.stage.resolve_left fun h => h.1).2⟩⟩

theorem obeys_applyPreferredMode (hx : x.stage = .opened) : applyPreferredMode.Obeys modeMonitor
    (fun r v x' => Passes b x (r.1 = true) v x') b x := by
  refine obeys_bind (obeys_modeCall fun (answer : Bool × Text) => ?_)
  obtain ⟨ok, output⟩ := answer
  have hstage : (x.step (.displayCommand .getPreferred) (ok, output)).stage =
      if (if ok then parseSavedMode output else none).isSome then .opened else .refused := by
    show x.stage.step _ _ = _
    rw [hx]
    cases ok <;> rfl
  cases hsaved : (if ok then parseSavedMode output else none) with
  | none =>
    rw [hsaved] at hstage
    simp only [hsaved]
    exact ⟨rfl, rfl, .inr ⟨nofun, hstage⟩⟩
  | some old =>
    rw [hsaved] at hstage
    simp only [hsaved]
    refine obeys_bind (obeys_modeCall fun (written : Bool) => ?_)
    have hjournal : ((x.step (.displayCommand .getPreferred) (ok, output)).step
        (.writeAtomicText .modeJournal (printMode old)) written).stage =
          if written then .opened else .refused := by
      show (x.step _ _).stage.step _ _ = _
      rw [hstage]
      rfl
    cases written with
    | true => exact obeys_mono (obeys_overridePreferredMode hjournal) fun _ _ _ h =>
        ⟨h.mode, h.config, h.stage⟩
    | false => exact ⟨rfl, rfl, .inr ⟨nofun, hjournal⟩⟩

theorem entry_mode {v v' : Broker} (h : v.entry = v'.entry) : v.requestedMode = v'.requestedMode :=
  congrArg Prod.fst h

theorem obeys_armOpen (hx : x.stage = .opened) : (armOpen n).Obeys modeMonitor
    (fun r v x' => Passes b x (r.1 = statusOk) v x') b x := by
  refine obeys_bind (obeys_bind (obeys_modeCall fun now => obeys_bind (obeys_bind ?_)))
  have hstage : (x.step .monotonicMs now).stage = .opened := by
    show x.stage.step .monotonicMs now = _
    rw [hx]
    rfl
  refine obeys_mono (obeys_bystander (uses_composerRequest n opStatus {} false 0)) ?_
  intro reply v x₁ h₁
  have hmode : v.requestedMode = b.requestedMode := (entry_mode h₁.entry).trans rfl
  have hx₁ : x₁.stage = .opened := (h₁.settled (by rw [hstage]; rfl)).trans hstage
  have hwait : ∀ (replug : Bool) (text : String), (armWaiting replug text).Obeys modeMonitor
        (fun r v' x' => Passes b x (r.1 = statusOk) v' x') v x₁ :=
    fun replug text => ⟨hmode, h₁.config, .inl ⟨rfl, hx₁⟩⟩
  refine obeys_bind (obeys_ite (fun _ => hwait _ _) fun _ =>
    obeys_ite (fun _ => hwait _ _) fun _ => obeys_bind (obeys_bind ?_))
  refine obeys_mono (obeys_applyPreferredMode hx₁) ?_
  rintro ⟨applied, failure⟩ v₂ x₂ h₂
  have hmode₂ : v₂.requestedMode = b.requestedMode := h₂.mode.trans hmode
  have hconfig : x₂.config = x.config := h₂.config.trans h₁.config
  rcases h₂.stage with ⟨hok, hstage₂⟩ | ⟨hfailed, hstage₂⟩
  · obtain rfl : applied = true := hok
    exact ⟨hmode₂, hconfig, .inl ⟨rfl, hstage₂⟩⟩
  · obtain rfl : applied = false := Bool.eq_false_iff.2 hfailed
    exact ⟨hmode₂, hconfig, .inr ⟨(by decide : errIo ≠ statusOk), hstage₂⟩⟩

/-- `Arm` looks at the gates behind the write. -/
theorem obeys_gatesOpen_stored (hx : x.stage = .stored) : gatesOpen.Obeys modeMonitor
    (fun ok v x' => v = b ∧ x'.config = x.config ∧ x'.stage = if ok then .opened else .refused) b x := by
  refine obeys_bind (obeys_modeCall fun (present : Bool) => ?_)
  have hstage : (x.step (.access .compatibleOk) present).stage =
      if present then .compatible else .refused := by
    show x.stage.step _ _ = _
    rw [hx]
    rfl
  cases present with
  | false => exact ⟨rfl, rfl, hstage⟩
  | true =>
    refine obeys_bind (obeys_modeCall fun (only : Bool) => ?_)
    have hstage₂ : ((x.step (.access .compatibleOk) true).step (.access .diagnosticOnly) only).stage =
        if only then .diagnostic else .opened := by
      show (x.step _ _).stage.step _ _ = _
      rw [hstage]
      rfl
    cases only with
    | false => exact ⟨rfl, rfl, hstage₂⟩
    | true =>
      refine obeys_bind (obeys_modeCall fun (value : Option String) => ⟨rfl, rfl, ?_⟩)
      show ((x.step _ _).step _ _).stage.step _ _ = _
      rw [hstage₂]
      rfl

theorem obeys_armGates (hx : x.stage = .stored) : (armGates n).Obeys modeMonitor
    (fun r v x' => Passes b x (r.1 = statusOk) v x') b x := by
  refine obeys_bind (obeys_mono (obeys_gatesOpen_stored hx) ?_)
  rintro ok v x₁ ⟨rfl, hconfig, hstage⟩
  cases ok with
  | true => exact obeys_mono (obeys_armOpen hstage) fun _ _ _ h =>
      ⟨h.mode, h.config.trans hconfig, h.stage⟩
  | false => exact ⟨rfl, hconfig, .inr ⟨(by decide : errIncompatible ≠ statusOk), hstage⟩⟩

theorem obeys_arm (request : Message) (hmode : request.requestedMode ≠ .native)
    (hopcode : request.opcode ≠ opSetMode) (hx : x.stage = .asked) :
    (arm n request).Obeys modeMonitor (fun r v x' =>
      Outcome request b x.config r.1 v.requestedMode x' ∧ x'.stage.settled = true) b x := by
  have hsettled : x.stage.settled = true := by
    rw [hx]
    rfl
  refine obeys_bind (obeys_ite (fun hbusy => ⟨?_, hsettled⟩) fun hfree => ?_)
  · refine .refused (fun h => ?_) (by decide : errBusy ≠ statusOk) rfl rfl hx
    rw [h.2.1, h.2.2.1] at hbusy
    cases hbusy
  · simp only [Bool.or_eq_true, not_or, Bool.not_eq_true] at hfree
    refine obeys_ite
      (fun harmed => ⟨.overlooked ⟨hopcode, hfree.1, hfree.2, harmed⟩ rfl rfl rfl, hsettled⟩)
      fun harmed => obeys_ite (fun h => absurd (beq_iff_eq.1 h) hmode) fun _ => ?_
    have hnot : ¬request.Overlooked b := fun h => harmed h.2.2.2
    have hthrough : ∀ stage : ModeStage, stage.Through request ↔ stage = .opened := fun stage => by
      rw [ModeStage.Through, if_neg hopcode]
    refine obeys_bind (obeys_mono (obeys_setMode request) ?_)
    rintro ⟨status, text⟩ v x₁ h₁
    obtain ⟨hstatus, hentry, rfl⟩ | ⟨hassigned, haccepted, hwritten | hfailed⟩ := h₁
    · refine obeys_ite (fun _ => ⟨.refused hnot hstatus (entry_mode hentry) rfl hx, hsettled⟩)
        fun hok => ?_
      exact absurd (by simpa using hok) hstatus
    · obtain ⟨hstatus, hconfig, hstage⟩ := hwritten
      refine obeys_ite (fun h => absurd hstatus (by simpa using h)) fun _ => ?_
      refine obeys_mono (obeys_armGates hstage) fun r v' x' h => ?_
      rcases h.stage with ⟨hok, hstage'⟩ | ⟨hok, hstage'⟩
      · refine ⟨.assigned hnot (iff_of_true hok ((hthrough _).2 hstage')) (h.mode.trans hassigned)
          haccepted ?_ ?_, ?_⟩ <;> simp [hstage', h.config, hconfig, ModeStage.settled]
      · refine ⟨.assigned hnot (iff_of_false hok fun h => ?_) (h.mode.trans hassigned)
          haccepted ?_ ?_, ?_⟩
        · rw [(hthrough _).1 h] at hstage'
          cases hstage'
        all_goals simp [hstage', h.config, hconfig, ModeStage.settled]
    · obtain ⟨hstatus, hconfig, hstage⟩ := hfailed
      refine obeys_ite (fun _ => ⟨?_, ?_⟩) fun hok => absurd (by simpa using hok) hstatus
      · refine .assigned hnot (iff_of_false hstatus fun h => ?_) hassigned haccepted ?_ ?_
        · rw [(hthrough _).1 h] at hstage
          cases hstage
        all_goals simp [hstage, hconfig]
      · rw [hstage]
        rfl

/-! ## Requests -/

variable {config : Option Text} {mode : Mode} {status : Int}

theorem Outcome.of_entry {v : Broker} (hentry : v.entry = b.entry)
    (h : Outcome request v config status mode x) : Outcome request b config status mode x := by
  have hmode : v.requestedMode = b.requestedMode := entry_mode hentry
  have hrequest : request.Overlooked v ↔ request.Overlooked b := by
    simp only [Broker.entry, Prod.mk.injEq] at hentry
    rw [Message.Overlooked, Message.Overlooked, hentry.2.1, hentry.2.2.1, hentry.2.2.2]
  cases h with
  | overlooked h hstatus hm hx => exact .overlooked (hrequest.1 h) hstatus (hm.trans hmode) hx
  | refused h hstatus hm hx hstage =>
    exact .refused (mt hrequest.2 h) hstatus (hm.trans hmode) hx hstage
  | assigned h hstatus hm haccepted hstage hx =>
    exact .assigned (mt hrequest.2 h) hstatus hm haccepted hstage hx

/-- The stage and the file are what counts. -/
theorem Outcome.keep {mode' : Mode} (h : Outcome request b config status mode x)
    (hmode : mode' = mode) (hconfig : x'.config = x.config) (hstage : x'.stage = x.stage) :
    Outcome request b config status mode' x' := by
  obtain ⟨config', reply', stage'⟩ := x'
  obtain rfl : config' = x.config := hconfig
  obtain rfl : stage' = x.stage := hstage
  subst hmode
  cases h with
  | overlooked hrequest hstatus hmode hx => exact .overlooked hrequest hstatus hmode hx
  | refused hrequest hstatus hmode hx hstage => exact .refused hrequest hstatus hmode hx hstage
  | assigned hrequest hstatus hmode haccepted hstage hx =>
    exact .assigned hrequest hstatus hmode haccepted hstage hx

/-- The reply has the status of the result. Only a stage that was left at the write, as that of
    `SET_MODE` is, moves on, and it stays behind the write. -/
theorem Outcome.respond {mode' : Mode} (h : Outcome request b config status mode x)
    (hmode : mode' = mode) (hconfig : x'.config = x.config)
    (hsettled : x.stage.settled = true → x'.stage = x.stage)
    (hwritten : x.stage.written = true → x'.stage.written = true)
    (hstored : x.stage.settled = false → request.opcode = opSetMode) :
    Outcome request b config status mode' x' := by
  cases hs : x.stage.settled with
  | true => exact h.keep hmode hconfig (hsettled hs)
  | false =>
    have hx₁ := ModeStage.written_of_unsettled hs
    obtain ⟨hasked, hunwritten⟩ := ModeStage.ne_of_written hx₁
    obtain ⟨hasked', hunwritten'⟩ := ModeStage.ne_of_written (hwritten hx₁)
    subst hmode
    cases h with
    | overlooked hrequest hstatus hmode hx =>
      exact .overlooked hrequest hstatus hmode (hconfig.trans hx)
    | refused hrequest hstatus hmode hx hstage => exact absurd hstage hasked
    | assigned hrequest hstatus hmode haccepted hstage hx =>
      have hset : request.opcode = opSetMode := hstored hs
      refine .assigned hrequest ?_ hmode haccepted hasked' ?_
      · rw [hstatus, ModeStage.Through, if_pos hset, ModeStage.Through, if_pos hset]
        exact iff_of_true ⟨hasked, hunwritten⟩ ⟨hasked', hunwritten'⟩
      · rw [hconfig, hx, if_neg hunwritten, if_neg hunwritten']

/-- What `SetMode` and `Arm` return is reported. -/
theorem obeys_report {p : BrokerProg (Int × String)} (request : Message) (keep : Bool) {b' : Broker}
    (hp : p.Obeys modeMonitor (fun r v x' => Outcome request b config r.1 v.requestedMode x' ∧
      (x'.stage.settled = false → request.opcode = opSetMode)) b' x) :
    (do
      let (result, text) ← p
      respond request result text keep : BrokerProg Message).Obeys modeMonitor (fun m v x' =>
        Outcome request b config m.status v.requestedMode x') b' x := by
  refine obeys_bind (obeys_mono hp fun r v x₁ h₁ => ?_)
  refine obeys_bind (obeys_mono (obeys_bystander (uses_status _)) fun m v' x' h => ?_)
  have houtcome := h₁.1.respond (entry_mode h.entry) h.config h.settled h.written h₁.2
  exact obeys_ite (fun _ => houtcome) fun _ => houtcome

theorem obeys_setRequest (request : Message) (hset : request.opcode = opSetMode)
    (hx : x.stage = .asked) :
    (do
      let (result, text) ← setMode request
      respond request result text true : BrokerProg Message).Obeys modeMonitor (fun m v x' =>
        Outcome request b x.config m.status v.requestedMode x') b x := by
  refine obeys_report request true (obeys_mono (obeys_setMode request) fun r v x' h =>
    ⟨?_, fun _ => hset⟩)
  have hnot : ¬request.Overlooked b := fun h => h.1 hset
  have hthrough : ∀ stage : ModeStage, stage.Through request ↔ stage ≠ .asked ∧ stage ≠ .unwritten :=
    fun stage => by rw [ModeStage.Through, if_pos hset]
  obtain ⟨hstatus, hentry, rfl⟩ | ⟨hassigned, haccepted, ⟨hstatus, hconfig, hstage⟩ |
    ⟨hstatus, hconfig, hstage⟩⟩ := h
  · exact .refused hnot hstatus (entry_mode hentry) rfl hx
  · refine .assigned hnot (iff_of_true hstatus ((hthrough _).2 ?_)) hassigned haccepted ?_ ?_ <;>
      simp [hstage, hconfig]
  · refine .assigned hnot (iff_of_false hstatus fun h => ((hthrough _).1 h).2 hstage) hassigned
      haccepted ?_ ?_ <;> simp [hstage, hconfig]

theorem obeys_armRequest (request : Message) (keep : Bool) (hmode : request.requestedMode ≠ .native)
    (hopcode : request.opcode ≠ opSetMode) (hx : x.stage = .asked) :
    (do
      let (result, text) ← arm n request
      respond request result text keep : BrokerProg Message).Obeys modeMonitor (fun m v x' =>
        Outcome request b x.config m.status v.requestedMode x') b x :=
  obeys_report request keep (obeys_mono (obeys_arm request hmode hopcode hx) fun _ _ _ h =>
    ⟨h.1, fun hstage => by rw [h.2] at hstage; cases hstage⟩)

theorem obeys_serveToggle (request response : Message) (hmode : request.requestedMode ≠ .native)
    (hactive : b.active = false) (harmed : b.armed = false) (hopcode : request.opcode ≠ opSetMode)
    (hx : x.stage = .asked) :
    (serveToggle n request response).Obeys modeMonitor (fun m v x' =>
      Outcome request b x.config m.status v.requestedMode x') b x := by
  refine obeys_bind (obeys_ite (fun h => absurd h (by rw [hactive]; decide)) fun _ =>
    obeys_ite (fun h => absurd h (by rw [harmed]; decide)) fun _ => ?_)
  refine obeys_bind (obeys_modeCall fun (only : Bool) => ?_)
  have hstage : (x.step (.access .diagnosticOnly) only).stage = .asked := by
    show x.stage.step _ _ = _
    rw [hx]
    rfl
  refine obeys_ite (fun _ => ?_) fun _ => obeys_armRequest request false hmode hopcode hstage
  refine .refused (fun h => ?_) (by decide : errState ≠ statusOk) rfl rfl hstage
  rw [h.2.2.2] at harmed
  cases harmed

theorem obeys_serveRequest_mode (root : Bool) (request : Message) (hrequest : request.ChangesMode b)
    (hx : x.stage = .asked) : (serveRequest n root request).Obeys modeMonitor (fun m v x' =>
      Outcome request b x.config m.status v.requestedMode x') b x := by
  refine obeys_bind (obeys_mono (obeys_bystander (uses_status request.requestId)) ?_)
  intro response v x₁ h₁
  have hx₁ : x₁.stage = .asked := (h₁.settled (by rw [hx]; rfl)).trans hx
  have hkept : ∀ {p : BrokerProg Message}, p.Obeys modeMonitor (fun m v' x' =>
      Outcome request v x₁.config m.status v'.requestedMode x') v x₁ → p.Obeys modeMonitor
        (fun m v' x' => Outcome request b x.config m.status v'.requestedMode x') v x₁ := fun hp =>
    obeys_mono hp fun m v' x' h => Outcome.of_entry h₁.entry (h₁.config ▸ h)
  have hopcode : ∀ {k : UInt16}, request.opcode = k → ∀ {k' : UInt16}, k ≠ k' →
      ¬(request.opcode == k') = true := fun hk _ hne h => hne (hk.symm.trans (beq_iff_eq.1 h))
  rcases hrequest with hset | ⟨harm | ⟨htoggle, hactive, harmed⟩, hmode⟩
  · refine obeys_ite (fun h => absurd h (hopcode hset (by decide))) fun _ =>
      obeys_ite (fun _ => ?_) fun h => absurd (beq_iff_eq.2 hset) h
    exact hkept (obeys_setRequest request hset hx₁)
  · have hother : request.opcode ≠ opSetMode := fun h => absurd (harm.symm.trans h) (by decide)
    refine obeys_ite (fun h => absurd h (hopcode harm (by decide))) fun _ =>
      obeys_ite (fun h => absurd h (hopcode harm (by decide))) fun _ =>
        obeys_ite (fun _ => ?_) fun h => absurd (beq_iff_eq.2 harm) h
    exact hkept (obeys_armRequest request true hmode hother hx₁)
  · have hother : request.opcode ≠ opSetMode := fun h => absurd (htoggle.symm.trans h) (by decide)
    refine obeys_ite (fun _ => ?_) fun h => absurd (beq_iff_eq.2 htoggle) h
    have hactive' : v.active = false := (congrArg (·.2.1) h₁.entry).trans hactive
    have harmed' : v.armed = false := (congrArg (·.2.2.2) h₁.entry).trans harmed
    exact hkept (obeys_serveToggle request response hmode hactive' harmed' hother hx₁)

theorem obeys_serveClient_mode (client : Fd) (root : Bool) (request : Message)
    (hrequest : request.ChangesMode b) (hx : x.stage = .asked) :
    (serveClient n client root request).Obeys modeMonitor (fun _ v x' =>
      ∃ reply, x'.reply = some (client, reply) ∧
        Outcome request b x.config reply.status v.requestedMode x') b x := by
  have hregister : request.opcode ≠ opAgentRegister := by
    rcases hrequest with h | ⟨h | ⟨h, -⟩, -⟩ <;> rw [h] <;> decide
  refine obeys_ite (fun h => absurd (beq_iff_eq.1 (Bool.and_eq_true_iff.1 h).1) hregister) fun _ => ?_
  refine obeys_bind (obeys_mono (obeys_bystander (uses_composerRequest n opStatus {} false 0)) ?_)
  intro asked v x₁ h₁
  have hx₁ : x₁.stage = .asked := (h₁.settled (by rw [hx]; rfl)).trans hx
  have hrequest' : request.ChangesMode v := by
    have hactive : v.active = b.active := congrArg (·.2.1) h₁.entry
    have harmed : v.armed = b.armed := congrArg (·.2.2.2) h₁.entry
    unfold Message.ChangesMode
    rw [hactive, harmed]
    exact hrequest
  refine obeys_bind (obeys_mono (obeys_serveRequest_mode root request hrequest' hx₁) ?_)
  intro response v' x' h
  refine obeys_bind (obeys_modeCall fun sent => obeys_modeCall fun closed => ⟨response, rfl, ?_⟩)
  have hstage : ∀ (stage : ModeStage) (sent : Bool) (closed : Unit),
      (stage.step (.writeFull client response) sent).step (.close client) closed = stage := by
    rintro (_ | _) _ _ <;> rfl
  have houtcome := Outcome.of_entry h₁.entry (h₁.config ▸ h)
  exact houtcome.keep rfl rfl (hstage _ sent closed)

/-! ## All or nothing -/

theorem allOrNothing_iff {client : Fd} {reply : Message}
    (hreply : (modeChange config (callsSince s t)).reply = some (client, reply)) :
    AllOrNothing client request config s t ↔
      if reply.status = statusOk then ModeStored request.requestedMode t.vars.requestedMode
        (modeChange config (callsSince s t)).config
      else t.vars.requestedMode = s.vars.requestedMode ∧
        (modeChange config (callsSince s t)).config = config := by
  have hsame : ∀ {reply' : Message}, (modeChange config (callsSince s t)).reply =
    some (client, reply') →
      reply = reply' := fun h => congrArg Prod.snd (Option.some.inj (hreply.symm.trans h))
  constructor
  · intro h
    split_ifs with hok
    · exact h.all reply hreply hok
    · exact h.nothing reply hreply hok
  · intro h
    constructor
    · intro reply' hreply' hok
      rw [hsame hreply', if_pos hok] at h
      exact h
    · intro reply' hreply' herror
      rw [hsame hreply', if_neg herror] at h
      exact h

/-- What the outcome leaves is all or nothing exactly if nothing disturbed the request. -/
theorem Outcome.undisturbed_iff (h : Outcome request b config status mode x) :
    (if status = statusOk then ModeStored request.requestedMode mode x.config
      else mode = b.requestedMode ∧ x.config = config) ↔ Undisturbed request b config x.stage := by
  rw [Undisturbed]
  cases h with
  | overlooked hrequest hstatus hmode hconfig =>
    rw [if_pos hstatus, if_pos hrequest, hmode, hconfig]
  | refused hrequest hstatus hmode hconfig hstage =>
    rw [if_neg hstatus, if_neg hrequest]
    exact iff_of_true ⟨hmode, hconfig⟩ (.inl hstage)
  | assigned hrequest hstatus hmode haccepted hstage hconfig =>
    rw [if_neg hrequest]
    by_cases hok : status = statusOk
    · have hthrough := hstatus.1 hok
      rw [if_neg (ModeStage.ne_unwritten hthrough)] at hconfig
      rw [if_pos hok]
      exact iff_of_true ⟨hmode, hconfig, hconfig ▸ loads_printMode haccepted⟩ (.inr (.inl hthrough))
    · rw [if_neg hok, hmode, hconfig, or_iff_right hstage, or_iff_right (mt hstatus.2 hok)]
      refine and_congr eq_comm ?_
      split_ifs with hunwritten
      · exact iff_of_true rfl fun h => absurd hunwritten h
      · exact ⟨fun h _ => h.symm, fun h => (h hunwritten).symm⟩

/-- Every request changes the mode as a whole or not at all, exactly if nothing disturbs it. -/
theorem mode_change_all_or_nothing {client : Fd} {root : Bool} {request : Message}
    (config : Option Text)
    (hrun : (serveClient n client root request).run (sysHandler env) s = (some (), t))
    (hrequest : request.ChangesMode s.vars) :
    AllOrNothing client request config s t ↔
      Undisturbed request s.vars config (modeChange config (callsSince s t)).stage := by
  obtain ⟨new, hlog, reply, hreply, houtcome⟩ := wp_returned (wp_obeys
    (obeys_serveClient_mode (x := { config := config }) client root request hrequest rfl)) hrun
  have hchange : modeMonitor.after { config := config } new = modeChange config (callsSince s t) := by
    rw [callsSince_of_log hlog]
    rfl
  rw [hchange] at hreply houtcome
  exact (allOrNothing_iff hreply).trans houtcome.undisturbed_iff

/-! ## A scripted client -/

/-- A client asks for 1280x720 at 50 Hz. -/
def modeRequest (opcode : UInt16) : Message :=
  { streamScriptMessage opcode 0 with
    requestedWidth := 1280, requestedHeight := 720, requestedRefreshMillihz := 50000 }

/-- The broker after its start, with a composer that reports a plugged display. -/
def modeIdle (env : Env Bench) : Sys Bench :=
  after env runStartup (Sys.initial { composer := List.replicate 6 (granted false) })

/-- The request is served on the next descriptor. -/
def modeServed (env : Env Bench) (opcode : UInt16) (s : Sys Bench) : Sys Bench :=
  after env (serveClient 8 s.nextFd true (modeRequest opcode)) s

/-- An idle broker with a writable file stores the mode. -/
theorem mode_change_all_or_nothing_stored :
    AllOrNothing (modeIdle benchEnv).nextFd (modeRequest opSetMode) none (modeIdle benchEnv)
      (modeServed benchEnv opSetMode (modeIdle benchEnv)) ∧
    (modeServed benchEnv opSetMode (modeIdle benchEnv)).vars.requestedMode =
      (modeRequest opSetMode).requestedMode :=
  ⟨(mode_change_all_or_nothing none (run_after (by decide +kernel)) (.inl rfl)).2
    ((if_neg (by decide)).mpr (.inr (.inl ((if_pos rfl).mpr (by decide +kernel))))), by decide +kernel⟩

/-- The scripted environment with a file system that cannot be written. -/
def readOnlyEnv : Env Bench
  | .writeAtomicText _ _, w => some (false, w)
  | c, w => benchEnv c w

/-- The broker with an armed request, which did not carry a mode. -/
def modeArmed : Sys Bench :=
  after benchEnv (serveClient 8 (modeIdle benchEnv).nextFd true (streamScriptMessage opArm 0))
    (modeIdle benchEnv)

/-- The request is answered, and the answer is not what became of the mode. -/
def BreaksMode (env : Env Bench) (opcode : UInt16) (s : Sys Bench) : Prop :=
  ((serveClient 8 s.nextFd true (modeRequest opcode)).run (sysHandler env) s).1 = some () ∧
    (modeRequest opcode).ChangesMode s.vars ∧
    ¬AllOrNothing s.nextFd (modeRequest opcode) none s (modeServed env opcode s)

/-- The status of the reply. -/
def repliedStatus (s t : Sys Bench) : Option Int :=
  (modeChange none (callsSince s t)).reply.bind fun y =>
    if y.1 = s.nextFd then some y.2.status else none

theorem replied_of_status {s t : Sys Bench} (h : repliedStatus s t = some status) :
    ∃ reply, (modeChange none (callsSince s t)).reply = some (s.nextFd, reply) ∧
      reply.status = status := by
  obtain ⟨⟨fd, reply⟩, hreply, hif⟩ := Option.bind_eq_some_iff.1 h
  split at hif
  · rename_i hfd
    obtain rfl : fd = s.nextFd := hfd
    exact ⟨reply, hreply, Option.some.inj hif⟩
  · cases hif

section Breaks

variable {env : Env Bench} {opcode : UInt16} {s : Sys Bench}

theorem breaks_of_error
    (hrun : ((serveClient 8 s.nextFd true (modeRequest opcode)).run (sysHandler env) s).1 = some ())
    (hrequest : (modeRequest opcode).ChangesMode s.vars)
    (hstatus : (repliedStatus s (modeServed env opcode s)).any (· ≠ statusOk) = true)
    (hmode : (modeServed env opcode s).vars.requestedMode ≠ s.vars.requestedMode) :
    BreaksMode env opcode s := by
  obtain ⟨status, hreplied, herror⟩ := (Option.any_eq_true _ _).1 hstatus
  obtain ⟨reply, hreply, rfl⟩ := replied_of_status hreplied
  exact ⟨hrun, hrequest, fun h => hmode (h.nothing reply hreply (of_decide_eq_true herror)).1⟩

theorem breaks_of_ok
    (hrun : ((serveClient 8 s.nextFd true (modeRequest opcode)).run (sysHandler env) s).1 = some ())
    (hrequest : (modeRequest opcode).ChangesMode s.vars)
    (hstatus : repliedStatus s (modeServed env opcode s) = some statusOk)
    (hmode : (modeServed env opcode s).vars.requestedMode ≠ (modeRequest opcode).requestedMode) :
    BreaksMode env opcode s := by
  obtain ⟨reply, hreply, hok⟩ := replied_of_status hstatus
  exact ⟨hrun, hrequest, fun h => hmode (h.all reply hreply hok).memory⟩

end Breaks

/-- A file that cannot be written, and a closed gate, are reported as errors when the mode has
    already been changed; an armed request is reported as armed with the mode that it does not
    have. -/
theorem mode_change_partial : BreaksMode readOnlyEnv opSetMode (modeIdle readOnlyEnv) ∧
      BreaksMode closedEnv opArm (modeIdle closedEnv) ∧ BreaksMode benchEnv opArm modeArmed := by
  refine ⟨?_, ?_, ?_⟩
  · exact breaks_of_error (by decide +kernel) (.inl rfl) (by decide +kernel) (by decide +kernel)
  · exact breaks_of_error (by decide +kernel) (.inr ⟨.inl rfl, by decide⟩) (by decide +kernel)
      (by decide +kernel)
  · exact breaks_of_ok (by decide +kernel) (.inr ⟨.inl rfl, by decide⟩) (by decide +kernel)
      (by decide +kernel)

end HdmiLos
