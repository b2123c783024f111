import HdmiLos.Agent.Children
import HdmiLos.Agent.Proofs.DescriptorsProofs

/-!
# The agent knows its children

Tools are waited for where they are run. The processes of a session are started where none of their
kind is in the globals, and are put there. `cleanup_session` waits for all three.
-/

namespace HdmiLos.Agent

open Interaction Prog List

/-! ## The conversation -/

/-- The children, and the last message that was written to the broker. Xorg and the input bridge are
    started one at a time. -/
def childMonitor : Monitor Io.Ans (Children × Option Message) where
  allows m
    | .fork child _ =>
      (child.isXorg = true → ∀ x ∈ m.1, x.1.isXorg = false) ∧
        (child.isBridge = true → ∀ x ∈ m.1, x.1.isBridge = false)
    | _ => True
  next m
    | .writeBroker message, _ => (m.1, some message)
    | c, answer => (m.1.note c answer, m.2)

variable {α : Type} {n k : Nat} {v : Agent} {m : Children × Option Message}

theorem childMonitor_after (m : Children × Option Message) (calls : List (Answered Io.Ans)) :
    (childMonitor.after m calls).1 =
      calls.foldl (fun children x => Children.note children x.1 x.2) m.1 := by
  induction calls generalizing m with
  | nil => rfl
  | cons x calls ih =>
    obtain ⟨c, answer⟩ := x
    refine (ih (childMonitor.next m c answer)).trans ?_
    rw [foldl_cons]
    congr 1
    cases c <;> rfl

theorem reap_sublist (children : Children) (pid : Pid) : (children.reap pid).Sublist children :=
  filter_sublist

variable {children' : Children} {child : Child}

theorem reap_started {children : Children} {pid : Pid}
    (h : children'.Sublist ((child, pid) :: children)) :
    (children'.reap pid).Sublist children := by
  have hfilter := h.filter (fun x : Child × Pid => x.2 != pid)
  have hself : (((child, pid) :: children).filter (fun x : Child × Pid => x.2 != pid)) =
      children.reap pid := by
    rw [filter_cons_of_neg (by simp)]
    rfl
  rw [hself] at hfilter
  exact hfilter.trans (reap_sublist children pid)

/-- One process more of a kind of which there is none. -/
theorem countP_started {f : Child × Pid → Bool} {x : Child × Pid} {children : Children}
    (h : children.countP f ≤ 1) (hx : f x = true → ∀ y ∈ children, f y = false) :
    (x :: children).countP f ≤ 1 := by
  rw [countP_cons]
  split
  case isTrue hf =>
    have hzero : children.countP f = 0 :=
      countP_eq_zero.2 fun y hy => by rw [hx hf y hy]; exact Bool.false_ne_true
    rw [hzero]
  case isFalse => exact h

theorem single_next (m : Children × Option Message) (c : Io) (answer : c.Ans) (h : m.1.Single)
    (hc : childMonitor.allows m c) : (childMonitor.next m c answer).1.Single := by
  have hreap : ∀ pid, (m.1.reap pid).Single := fun pid =>
    ⟨Nat.le_trans (reap_sublist m.1 pid).countP_le h.xorg,
      Nat.le_trans (reap_sublist m.1 pid).countP_le h.bridge⟩
  cases c with
  | fork child pid =>
    cases answer with
    | false => exact h
    | true => exact ⟨countP_started h.xorg hc.1, countP_started h.bridge hc.2⟩
  | waitpid pid => exact hreap pid
  | waitNoHang pid =>
    cases answer with
    | exited code => exact hreap pid
    | failed => exact hreap pid
    | running => exact h
    | interrupted => exact h
  | _ => exact h

/-! ## Functions that leave the processes of the session -/

/-- The calls that neither start a process nor wait for one. -/
def Io.childless : Io → Bool
  | fork _ _ => false
  | waitpid _ => false
  | waitNoHang _ => false
  | _ => true

/-- The footprint of the functions that make only such calls. -/
def Childless : Act Agent Io → Prop
  | .modify f => ∀ a, Kept a (f a)
  | .io c => c.childless = true
  | _ => True

/-- The globals of the session are as before, and the children are among these. -/
def Worked (children : Children) (v v' : Agent) (m : Children × Option Message) : Prop :=
  Kept v v' ∧ m.1.Sublist children

/-- The function leaves the globals of the session, and no child of its own. -/
def Sparing (α : Type) (p : AgentProg α) : Prop :=
  ∀ v m k, p.Meets childMonitor (fun _ v' m' _ => Worked m.1 v v' m') v m k

theorem Kept.refl (a : Agent) : Kept a a := ⟨rfl, rfl, rfl, rfl, rfl, rfl⟩

theorem Worked.refl (v : Agent) (m : Children × Option Message) : Worked m.1 v v m :=
  ⟨Kept.refl v, Sublist.refl _⟩

theorem childless_next {c : Io} (hc : c.childless = true) (m : Children × Option Message)
    (answer : c.Ans) : childMonitor.allows m c ∧ (childMonitor.next m c answer).1 = m.1 := by
  cases c with
  | fork child pid => cases hc
  | waitpid pid => cases hc
  | waitNoHang pid => cases hc
  | _ => exact ⟨trivial, rfl⟩

variable {p : AgentProg α}

theorem sparing_childless (hp : p.Uses Childless) : Sparing α p := by
  intro v m k
  refine meets_invariant (M := childMonitor)
    (I := fun v' m' _ => Worked m.1 v v' m') ?_ ?_ ?_ hp (.refl v m)
  · exact fun f v' m' _ hf h => ⟨h.1.trans (hf v'), h.2⟩
  · exact fun v' m' _ _ h => h
  · intro c v' m' _ hc h
    refine ⟨?_, fun answer => ⟨h.1, ?_⟩⟩
    · cases c with
      | fork child pid => cases hc
      | _ => trivial
    · rw [(childless_next hc m' answer).2]
      exact h.2

theorem childless_plain (hp : p.Uses Plain) : p.Uses Childless := by
  refine uses_mono (fun op hop => ?_) hp
  cases op with
  | modify f => exact hop
  | io c =>
    cases c with
    | fork child pid => cases hop
    | waitpid pid => cases hop
    | waitNoHang pid => cases hop
    | _ => rfl
  | _ => trivial

theorem kept_observe (record : TraceRecord) (a : Agent) : Kept a (observeScanoutRecord record a) := by
  unfold observeScanoutRecord
  repeat' split
  all_goals exact ⟨rfl, rfl, rfl, rfl, rfl, rfl⟩

theorem childless_call {c : Io} (hc : c.childless = true) : (call c).Uses Childless :=
  uses_perform hc

theorem childless_closeIfOpen (fd : Option Fd) : (closeIfOpen fd).Uses Childless := by
  cases fd with
  | none => trivial
  | some fd => exact childless_call rfl

theorem childless_recvMessage (reader : Reader) : (recvMessage reader).Uses Childless := by
  refine uses_bind (childless_call rfl) fun received => uses_ite ?_ trivial
  exact uses_bind (uses_perform trivial) fun _ => trivial

theorem childless_relayReadable (fd : Fd) : (relayReadable fd).Uses Childless := by
  refine uses_bind (childless_call rfl) fun record => ?_
  cases record with
  | none => trivial
  | some record =>
    refine uses_ite (uses_bind ?_ fun _ => uses_ite ?_ trivial) trivial
    · refine uses_bind (uses_perform (kept_observe record)) fun _ => ?_
      refine uses_bind (childless_call rfl) fun _ => uses_ite ?_ trivial
      refine uses_bind (childless_recvMessage .acknowledgement) fun r => ?_
      exact uses_bind (childless_closeIfOpen _) fun _ => trivial
    · exact uses_bind (uses_perform trivial) fun _ => childless_call rfl

theorem childless_relayTraceRecord (timeoutMs : Int) :
    (relayTraceRecord timeoutMs).Uses Childless := by
  refine uses_bind (uses_perform trivial) fun a => ?_
  cases a.trace with
  | none => trivial
  | some fd =>
    refine uses_bind (childless_call rfl) fun polled => ?_
    cases polled with
    | timeout => trivial
    | failed => trivial
    | ready revents => exact uses_ite (childless_relayReadable fd) trivial

theorem sparing_compositional : Compositional Sparing where
  pure _ v m _ := .refl v m
  stop _ _ _ := trivial
  bind hp hf v m k := by
    refine meets_seq (hp v m k) ?_
    rintro a v' m' k' ⟨hkept, hsub⟩
    refine meets_mono (hf a v' m' k') ?_
    rintro b v'' m'' k'' ⟨hkept', hsub'⟩
    exact ⟨hkept.trans hkept', hsub'.trans hsub⟩

/-! ## Children that are waited for -/

variable {v₀ : Agent}

section Tools

variable {children : Children} {child : Child} {pid : Pid}

theorem Worked.sparing (hp : Sparing α p) (h : Worked children v₀ v m) :
    p.Meets childMonitor (fun _ v' m' _ => Worked children v₀ v' m') v m k := by
  refine meets_mono (hp v m k) ?_
  rintro _ v' m' _ ⟨hkept, hsub⟩
  exact ⟨h.1.trans hkept, hsub.trans h.2⟩

theorem Worked.reap (h : Worked ((child, pid) :: children) v₀ v m) :
    Worked children v₀ v (m.1.reap pid, m.2) :=
  ⟨h.1, reap_started h.2⟩

theorem Worked.reaped (h : Worked children v₀ v m) : Worked children v₀ v (m.1.reap pid, m.2) :=
  ⟨h.1, (reap_sublist _ _).trans h.2⟩

/-- A round of a loop for a child, which goes on with the child or ends without it. -/
def Waiting (children : Children) (child : Child) (pid : Pid) (v₀ : Agent) (r : Unit ⊕ Bool)
    (v : Agent) (m : Children × Option Message) (_ : Nat) : Prop :=
  Sum.elim (fun _ => Worked ((child, pid) :: children) v₀ v m) (fun _ => Worked children v₀ v m) r

theorem meets_abandonTool (h : Worked ((child, pid) :: children) v₀ v m) :
    (abandonTool pid).Meets childMonitor (Waiting children child pid v₀) v m k :=
  ⟨trivial, fun _ => ⟨trivial, fun _ => h.reap⟩⟩

theorem meets_runWaitRound (stop : Int) (x : Unit) (h : Worked ((child, pid) :: children) v₀ v m) :
    (runWaitRound pid stop x).Meets childMonitor (Waiting children child pid v₀) v m k := by
  refine ⟨trivial, fun waited => ?_⟩
  cases waited with
  | exited code => exact h.reap
  | interrupted => exact h
  | failed => exact h.reap
  | running =>
    refine ⟨trivial, fun now => meets_ite (fun _ => meets_abandonTool h) fun _ => ?_⟩
    refine meets_ite (fun _ => ?_) fun _ => ⟨trivial, fun _ => h⟩
    refine meets_seq (h.sparing (sparing_childless (childless_relayTraceRecord 50))) ?_
    intro ok v' m' k' h'
    exact meets_ite (fun _ => h') fun _ => meets_abandonTool h'

theorem sparing_runWait (n : Nat) (tool : String) : Sparing Bool (runWait n tool) := by
  intro v m k
  refine ⟨⟨nofun, nofun⟩, fun started => ?_⟩
  cases started with
  | false => exact .refl v m
  | true =>
    refine ⟨trivial, fun now => ?_⟩
    exact meets_loop (fun v' m' _ => Worked ((.tool tool, k) :: m.1) v v' m')
      (fun x _ _ _ h => meets_runWaitRound _ x h) n () ⟨Kept.refl v, Sublist.refl _⟩

theorem quietSparing : QuietParts Sparing where
  toCompositional := sparing_compositional
  plain hp := sparing_childless (childless_plain hp)
  relay timeoutMs := sparing_childless (childless_relayTraceRecord timeoutMs)
  runWait := sparing_runWait

end Tools

/-! ## The preflight -/

variable {a : Agent}

/-- The processes and the prepared mode are as before. -/
structure SamePids (a b : Agent) : Prop where
  bridge : b.bridge = a.bridge
  xorg : b.xorg = a.xorg
  session : b.session = a.session
  probeMode : b.probeMode = a.probeMode

theorem SamePids.pid {b : Agent} (h : SamePids a b) (role : Role) : pid b role = pid a role := by
  cases role with
  | bridge => exact h.bridge
  | xorg => exact h.xorg
  | session => exact h.session

theorem Kept.samePids {b : Agent} (h : Kept a b) : SamePids a b :=
  ⟨h.bridge, h.xorg, h.session, h.probeMode⟩

theorem SamePids.trans {b c : Agent} (h : SamePids a b) (h' : SamePids b c) : SamePids a c :=
  ⟨h'.bridge.trans h.bridge, h'.xorg.trans h.xorg, h'.session.trans h.session,
    h'.probeMode.trans h.probeMode⟩

section Preflight

variable {children : Children} {pid : Pid} {v₀ : Agent}

/-- The tracer, which has been waited for if a wait was answered. -/
def Traced (children : Children) (pid : Pid) (v₀ : Agent) (exited : Option (Option Nat))
    (v : Agent) (m : Children × Option Message) : Prop :=
  Worked ((.tracer, pid) :: children) v₀ v m ∧ (exited.isSome → Worked children v₀ v m)

/-- An answer to a wait for the tracer. -/
theorem Worked.traced (h : Worked ((.tracer, pid) :: children) v₀ v m) (code : Option Nat) :
    Traced children pid v₀ (some code) v (m.1.reap pid, m.2) :=
  ⟨h.reaped, fun _ => h.reap⟩

theorem meets_preflightRelay (isOpen : Bool) (h : Worked ((.tracer, pid) :: children) v₀ v m) :
    (preflightRelay isOpen).Meets childMonitor
      (fun r v' m' _ => Sum.elim (fun _ => Worked ((.tracer, pid) :: children) v₀ v' m')
        (fun exited => Traced children pid v₀ exited v' m') r) v m k := by
  refine meets_ite (fun _ => ?_) fun _ => ⟨trivial, fun _ => h⟩
  exact meets_seq (h.sparing (quietSparing.relay 50)) fun _ _ _ _ h' => h'

theorem meets_preflightRound (stop : Int) (isOpen : Bool)
    (h : Worked ((.tracer, pid) :: children) v₀ v m) :
    (preflightRound pid stop isOpen).Meets childMonitor
      (fun r v' m' _ => Sum.elim (fun _ => Worked ((.tracer, pid) :: children) v₀ v' m')
        (fun exited => Traced children pid v₀ exited v' m') r) v m k := by
  refine ⟨trivial, fun now => meets_ite (fun _ => ⟨trivial, fun waited => ?_⟩) fun _ => ⟨h, nofun⟩⟩
  cases waited with
  | exited code => exact h.traced code
  | failed => exact ⟨h.reaped, nofun⟩
  | interrupted => exact meets_preflightRelay isOpen h
  | running => exact meets_preflightRelay isOpen h

theorem meets_preflightReap (exited : Option (Option Nat)) (h : Traced children pid v₀ exited v m) :
    (preflightReap n pid exited).Meets childMonitor (fun _ v' m' _ => Worked children v₀ v' m')
      v m k := by
  cases exited with
  | some code => exact h.2 rfl
  | none =>
    refine meets_seq (meets_loop (Q := fun waited v' m' _ => Traced children pid v₀ waited v' m')
      (fun v' m' _ => Worked ((.tracer, pid) :: children) v₀ v' m') ?_ n () h.1) ?_
    · rintro x v' m' k' h'
      refine ⟨trivial, fun waited => ?_⟩
      cases waited with
      | interrupted => exact h'
      | exited code => exact h'.traced code
      | failed => exact ⟨h'.reaped, nofun⟩
      | running => exact ⟨h', nofun⟩
    · rintro waited v' m' k' ⟨h', hwaited⟩
      cases waited with
      | some code => exact hwaited rfl
      | none => exact ⟨trivial, fun _ => ⟨trivial, fun _ => h'.reap⟩⟩

theorem meets_tracePreflight (v : Agent) (m : Children × Option Message) (k : Nat) :
    (tracePreflight n).Meets childMonitor
      (fun _ v' m' _ => SamePids v v' ∧ m'.1.Sublist m.1) v m k := by
  have hsame : SamePids v v ∧ m.1.Sublist m.1 := ⟨(Kept.refl v).samePids, Sublist.refl _⟩
  refine ⟨trivial, fun gate => meets_ite (fun _ => ⟨trivial, fun paired => ?_⟩) fun _ => hsame⟩
  refine meets_ite (fun _ => ⟨⟨nofun, nofun⟩, fun started => ?_⟩) fun _ => hsame
  cases started with
  | false => exact ⟨trivial, fun _ => hsame⟩
  | true =>
    -- the child is there from here on, and the trace socket is the agent's
    have h : Worked ((.tracer, k + 1) :: m.1) { v with trace := some k } { v with trace := some k }
        ((.tracer, k + 1) :: m.1, m.2) := ⟨Kept.refl _, Sublist.refl _⟩
    refine meets_io trivial fun polled => ?_
    refine meets_seq (h.sparing (quietSparing.preflightLoaded polled)) ?_
    intro loaded v' m' k' h'
    refine meets_io trivial fun now => ?_
    refine meets_seq (meets_loop
      (fun v'' m'' _ => Worked ((.tracer, k + 1) :: m.1) { v with trace := some k } v'' m'')
      (fun isOpen _ _ _ h => meets_preflightRound _ isOpen h) n true h') ?_
    intro exited v' m' k' h'
    refine meets_seq (meets_preflightReap exited h') ?_
    rintro code v' m' k' ⟨hkept, hsub⟩
    refine ⟨trivial, fun _ => ?_⟩
    have hend : SamePids v { v' with trace := none } :=
      ⟨hkept.bridge, hkept.xorg, hkept.session, hkept.probeMode⟩
    rcases code with _ | _ | code <;> exact ⟨hend, hsub⟩

end Preflight

/-! ## The processes of a session -/

/-- The global of a child. -/
def Child.role : Child → Option Role
  | .bridge => some .bridge
  | .xorg _ => some .xorg
  | .session => some .session
  | _ => none

theorem isXorg_iff : child.isXorg = true ↔ child.role = some .xorg := by
  cases child <;> simp [Child.isXorg, Child.role]

theorem isBridge_iff : child.isBridge = true ↔ child.role = some .bridge := by
  cases child <;> simp [Child.isBridge, Child.role]

section Sessions

variable {children : Children} {role : Role}

theorem recorded_iff {x : Child × Pid} :
    Recorded a x ↔ ∃ role, x.1.role = some role ∧ pid a role = some x.2 := by
  obtain ⟨child, p⟩ := x
  cases child with
  | tracer => simp [Recorded, Child.role]
  | bridge => simp [Recorded, Child.role, pid]
  | xorg lease => simp [Recorded, Child.role, pid]
  | session => simp [Recorded, Child.role, pid]
  | tool name => simp [Recorded, Child.role]

/-- All children are in the globals. -/
def AllRecorded (a : Agent) (children : Children) : Prop := ∀ x ∈ children, Recorded a x

variable {b : Agent}

theorem AllRecorded.pids (h : AllRecorded a children) (hpids : ∀ role, pid b role = pid a role)
    (hsub : children'.Sublist children) : AllRecorded b children' := by
  intro x hx
  obtain ⟨role, hrole, hpid⟩ := recorded_iff.1 (h x (hsub.subset hx))
  exact recorded_iff.2 ⟨role, hrole, (hpids role).trans hpid⟩

theorem AllRecorded.same (h : AllRecorded a children) (hpids : SamePids a b)
    (hsub : children'.Sublist children) : AllRecorded b children' :=
  h.pids hpids.pid hsub

theorem AllRecorded.absent (h : AllRecorded a children) (hnone : pid a role = none) :
    ∀ x ∈ children, x.1.role ≠ some role := by
  intro x hx hrole
  obtain ⟨role', hrole', hpid⟩ := recorded_iff.1 (h x hx)
  rw [hrole, Option.some.injEq] at hrole'
  rw [← hrole', hnone] at hpid
  cases hpid

theorem AllRecorded.started {p : Pid} (h : AllRecorded a children)
    (role : Role) (hrole : child.role = some role) (hnone : pid a role = none) :
    AllRecorded (setPid role (some p) a) ((child, p) :: children) := by
  intro x hx
  rcases mem_cons.1 hx with rfl | hx
  · exact recorded_iff.2 ⟨role, hrole, by cases role <;> rfl⟩
  · obtain ⟨role', hrole', hpid⟩ := recorded_iff.1 (h x hx)
    refine recorded_iff.2 ⟨role', hrole', ?_⟩
    cases role <;> cases role' <;> first | exact hpid | (rw [hnone] at hpid; cases hpid)

theorem AllRecorded.setNone (h : AllRecorded a children) (hnone : pid a role = none) :
    AllRecorded (setPid role none a) children := by
  refine h.pids (fun role' => ?_) (Sublist.refl _)
  cases role <;> cases role' <;> first | rfl | exact hnone.symm

/-- One process less, and all else as before. -/
structure Ended (role : Role) (a b : Agent) : Prop where
  pid : ∀ role', Agent.pid b role' = if role' = role then none else Agent.pid a role'
  trace : b.trace = a.trace
  verifyLease : b.verifyLease = a.verifyLease
  probeMode : b.probeMode = a.probeMode

theorem ended_setPid (h : Kept a b) (role : Role) : Ended role a (setPid role none b) := by
  refine ⟨fun role' => ?_, ?_, ?_, ?_⟩
  · have hsame := h.samePids.pid role'
    cases role <;> cases role' <;> first | rfl | exact hsame
  · cases role <;> exact h.trace
  · cases role <;> exact h.verifyLease
  · cases role <;> exact h.probeMode

theorem meets_terminateGroup (role : Role) (hall : AllRecorded v m.1) :
    (terminateGroup n role).Meets childMonitor
      (fun _ v' m' _ => Ended role v v' ∧ AllRecorded v' m'.1) v m k := by
  refine meets_get ?_
  cases hpid : pid v role with
  | none =>
    refine ⟨⟨fun role' => ?_, rfl, rfl, rfl⟩, hall⟩
    by_cases hrole : role' = role
    · rw [if_pos hrole, hrole, hpid]
    · rw [if_neg hrole]
  | some p =>
    refine meets_seq (quietSparing.plain (plain_signalGroup p) v m k) ?_
    rintro _ v' m' k' ⟨hkept, hsub⟩
    refine ⟨trivial, fun _ => ?_⟩
    have hended := ended_setPid hkept role
    refine ⟨hended, ?_⟩
    intro x hx
    obtain ⟨hx, hne⟩ := mem_filter.1 hx
    obtain ⟨role', hrole', hpid'⟩ := recorded_iff.1 (hall x (hsub.subset hx))
    refine recorded_iff.2 ⟨role', hrole', ?_⟩
    have hother : role' ≠ role := by
      rintro rfl
      rw [hpid, Option.some.injEq] at hpid'
      rw [hpid'] at hne
      simp at hne
    exact ((hended.pid role').trans (if_neg hother)).trans hpid'

/-- Nothing of a session is left. -/
structure Cleared (a : Agent) (children : Children) : Prop where
  pid : ∀ role, Agent.pid a role = none
  children : children = []
  trace : a.trace = none
  verifyLease : a.verifyLease = none

theorem Cleared.setMode (h : Cleared a children) (mode : UInt32) :
    Cleared { a with probeMode := mode } children := by
  refine ⟨fun role => ?_, h.children, h.trace, h.verifyLease⟩
  have hnone := h.pid role
  cases role <;> exact hnone

theorem AllRecorded.nil (h : AllRecorded a children)
    (hnone : ∀ role, pid a role = none) : children = [] := by
  refine eq_nil_iff_forall_not_mem.2 fun x hx => ?_
  obtain ⟨role, -, hpid⟩ := recorded_iff.1 (h x hx)
  rw [hnone role] at hpid
  cases hpid

variable {Q : Unit → Agent → Children × Option Message → Nat → Prop}

theorem meets_closeIfOpen (fd : Option Fd)
    (hQ : Q () v m k) : (closeIfOpen fd).Meets childMonitor Q v m k := by
  cases fd with
  | none => exact hQ
  | some fd => exact ⟨trivial, fun _ => hQ⟩

theorem meets_closeTrace
    (hQ : Q () { v with trace := none } m k) : closeTrace.Meets childMonitor Q v m k :=
  meets_get (meets_bind (meets_closeIfOpen _ hQ))

theorem meets_closeVerifyLease
    (hQ : Q () { v with verifyLease := none, traceSteady := false } m k) :
    closeVerifyLease.Meets childMonitor Q v m k :=
  meets_get (meets_bind (meets_closeIfOpen _ hQ))

theorem meets_cleanupSession (hall : AllRecorded v m.1) : (cleanupSession n).Meets childMonitor
      (fun _ v' m' _ => Cleared v' m'.1 ∧ v'.probeMode = v.probeMode) v m k := by
  refine meets_seq (meets_terminateGroup .session hall) ?_
  rintro _ v₁ m₁ _ ⟨hsession, hall₁⟩
  refine meets_seq (meets_terminateGroup .xorg hall₁) ?_
  rintro _ v₂ m₂ _ ⟨hxorg, hall₂⟩
  refine meets_bind (meets_closeTrace (meets_bind (meets_closeVerifyLease ?_)))
  -- the globals of the descriptors are cleared, those of the processes are as before
  have hsame : SamePids v₂ { v₂ with trace := none, verifyLease := none, traceSteady := false } :=
    ⟨rfl, rfl, rfl, rfl⟩
  refine meets_seq (meets_terminateGroup .bridge (hall₂.same hsame (Sublist.refl _))) ?_
  rintro _ v₃ m₃ _ ⟨hbridge, hall₃⟩
  have hnone : ∀ role, pid v₃ role = none := by
    intro role
    rw [hbridge.pid, hsame.pid, hxorg.pid, hsession.pid]
    cases role <;> rfl
  refine ⟨trivial, fun _ => ⟨⟨hnone, hall₃.nil hnone, hbridge.trace, hbridge.verifyLease⟩, ?_⟩⟩
  rw [hbridge.probeMode, hsame.probeMode, hxorg.probeMode, hsession.probeMode]

/-- A child of the session is started where there is none of its kind. -/
theorem meets_fork {p : Pid} (hall : AllRecorded v m.1)
    (hrole : child.role = some role) (hnone : pid v role = none) :
    childMonitor.allows m (.fork child p) := by
  have habsent := hall.absent hnone
  refine ⟨fun hx x hmem => ?_, fun hb x hmem => ?_⟩
  · refine Bool.eq_false_iff.2 fun hx' => habsent x hmem ?_
    rw [isXorg_iff.1 hx', ← isXorg_iff.1 hx, hrole]
  · refine Bool.eq_false_iff.2 fun hb' => habsent x hmem ?_
    rw [isBridge_iff.1 hb', ← isBridge_iff.1 hb, hrole]

theorem meets_prepareBridge (hall : AllRecorded v m.1) (hnone : pid v .bridge = none) :
    (prepareBridge n).Meets childMonitor
      (fun _ v' m' _ => AllRecorded v' m'.1 ∧ v'.xorg = v.xorg ∧ v'.session = v.session ∧
        v'.probeMode = v.probeMode) v m k := by
  refine ⟨meets_fork hall rfl hnone, fun started => ?_⟩
  cases started with
  | false => exact ⟨hall.setNone hnone, rfl, rfl, rfl⟩
  | true =>
    have hstarted : AllRecorded (setPid .bridge (some k) v) ((.bridge, k) :: m.1) :=
      hall.started .bridge rfl hnone
    refine meets_mono (quietSparing.awaitInput k (setPid .bridge (some k) v)
      ((.bridge, k) :: m.1, m.2) (k + 1)) ?_
    rintro _ v' m' _ ⟨hkept, hsub⟩
    exact ⟨hstarted.same hkept.samePids hsub, hkept.xorg, hkept.session, hkept.probeMode⟩

/-- `prepare_session` leaves at most the input bridge. -/
theorem meets_prepareSession (mode : UInt32) (hall : AllRecorded v m.1) :
    (prepareSession n mode).Meets childMonitor
      (fun ok v' m' _ => AllRecorded v' m'.1 ∧ v'.probeMode = v.probeMode ∧
        (ok = true → v'.xorg = none ∧ v'.session = none)) v m k := by
  refine meets_ite (fun _ => ⟨hall, rfl, nofun⟩) fun _ => ?_
  refine meets_seq (meets_terminateGroup .session hall) ?_
  rintro _ v₁ m₁ _ ⟨hsession, hall₁⟩
  refine meets_seq (meets_terminateGroup .xorg hall₁) ?_
  rintro _ v₂ m₂ _ ⟨hxorg, hall₂⟩
  refine meets_seq (meets_terminateGroup .bridge hall₂) ?_
  rintro _ v₃ m₃ k₃ ⟨hbridge, hall₃⟩
  have hreset : SamePids v₃ (resetSession v₃) := ⟨rfl, rfl, rfl, rfl⟩
  have hnone : ∀ role, pid v₃ role = none := by
    intro role
    rw [hbridge.pid, hxorg.pid, hsession.pid]
    cases role <;> rfl
  have hmode : v₃.probeMode = v.probeMode := by
    rw [hbridge.probeMode, hxorg.probeMode, hsession.probeMode]
  have hruntime : (prepareRuntime n).Meets childMonitor
      (fun _ v' m' _ => SamePids v₃ v' ∧ m'.1.Sublist m₃.1) (resetSession v₃) m₃ k₃ := by
    refine ⟨trivial, fun user => meets_ite (fun _ => ⟨trivial, fun made => ?_⟩) fun _ => ?_⟩
    · refine meets_ite (fun _ => ⟨trivial, fun _ => ?_⟩) fun _ => ⟨hreset, Sublist.refl _⟩
      refine meets_mono (meets_tracePreflight (resetSession v₃) m₃ k₃) ?_
      rintro _ v' m' _ ⟨hpids, hsub⟩
      exact ⟨hreset.trans hpids, hsub⟩
    · exact ⟨hreset, Sublist.refl _⟩
  refine meets_modify (meets_seq hruntime ?_)
  rintro ok v₄ m₄ k₄ ⟨hpids, hsub⟩
  have hall₄ := hall₃.same hpids hsub
  have hpid₄ : ∀ role, pid v₄ role = none := fun role => (hpids.pid role).trans (hnone role)
  refine meets_ite (fun _ => ?_) fun _ => ⟨hall₄, hpids.probeMode.trans hmode, nofun⟩
  refine meets_mono (meets_prepareBridge hall₄ (hpid₄ .bridge)) ?_
  rintro ok' v' m' _ ⟨hall', hxorg', hsession', hmode'⟩
  exact ⟨hall', (hmode'.trans hpids.probeMode).trans hmode,
    fun _ => ⟨hxorg'.trans (hpid₄ .xorg), hsession'.trans (hpid₄ .session)⟩⟩

/-- While Xorg starts there is no session yet. -/
def Starting (v v' : Agent) (m : Children × Option Message) : Prop :=
  AllRecorded v' m.1 ∧ v'.session = none ∧ v'.probeMode = v.probeMode

theorem Starting.sparing (hp : Sparing α p) (h : Starting v₀ v m) :
    p.Meets childMonitor (fun _ v' m' _ => Starting v₀ v' m') v m k := by
  refine meets_mono (hp v m k) ?_
  rintro _ v' m' _ ⟨hkept, hsub⟩
  exact ⟨h.1.same hkept.samePids hsub, hkept.session.trans h.2.1, hkept.probeMode.trans h.2.2⟩

theorem meets_startSession (h : Starting v₀ v m) : startSession.Meets childMonitor
      (fun r v' m' _ => Sum.elim (fun _ => Starting v₀ v' m')
        (fun _ => AllRecorded v' m'.1 ∧ v'.probeMode = v₀.probeMode) r) v m k := by
  obtain ⟨hall, hsession, hmode⟩ := h
  have hsame : SamePids v { v with traceSteady := v.traceStartupOnly || v.traceSteady } :=
    ⟨rfl, rfl, rfl, rfl⟩
  have hall' := hall.same hsame (Sublist.refl _)
  refine meets_ite (fun _ => ⟨hall', hmode⟩) fun _ => ?_
  refine ⟨meets_fork hall' rfl hsession, fun started => ?_⟩
  cases started with
  | false => exact ⟨hall'.setNone hsession, hmode⟩
  | true => exact ⟨hall'.started .session rfl hsession, hmode⟩

theorem meets_startRound (pid : Pid) (stop : Int) (x : Unit) (h : Starting v₀ v m) :
    (startRound n pid stop x).Meets childMonitor
      (fun r v' m' _ => Sum.elim (fun _ => Starting v₀ v' m')
        (fun _ => AllRecorded v' m'.1 ∧ v'.probeMode = v₀.probeMode) r) v m k := by
  have hfailed : ∀ {v : Agent} {m : Children × Option Message}, Starting v₀ v m →
      AllRecorded v m.1 ∧ v.probeMode = v₀.probeMode := fun h => ⟨h.1, h.2.2⟩
  refine ⟨trivial, fun now => meets_ite (fun _ => ?_) fun _ => hfailed h⟩
  refine ⟨trivial, fun alive => meets_ite (fun _ => ?_) fun _ => hfailed h⟩
  refine meets_seq (h.sparing (quietSparing.relay 100)) fun relayed v m k h => ?_
  refine meets_ite (fun _ => ?_) fun _ => hfailed h
  refine meets_seq (h.sparing quietSparing.xorgReady) fun ready v m k h => ?_
  refine meets_ite (fun _ => ?_) fun _ => ⟨trivial, fun _ => h⟩
  show (startReady n).Meets childMonitor _ v m k
  refine meets_ite (fun _ => hfailed h) fun _ => meets_ite (fun _ => ⟨trivial, fun _ => h⟩) fun _ => ?_
  refine meets_seq (h.sparing quietSparing.verifyStart) fun verified v m k h => ?_
  exact meets_ite (fun _ => meets_startSession h) fun _ => hfailed h

theorem meets_startProcess (lease : Fd) (hall : AllRecorded v m.1) (hxorg : v.xorg = none)
    (hsession : v.session = none) :
    (startProcess n lease).Meets childMonitor
      (fun _ v' m' _ => AllRecorded v' m'.1 ∧ v'.probeMode = v.probeMode) v m k := by
  have hlease : ∀ copy, SamePids v { v with verifyLease := copy } :=
    fun copy => ⟨rfl, rfl, rfl, rfl⟩
  refine ⟨trivial, fun copied => meets_ite (fun _ => ?_) fun _ => ?_⟩
  · have hall' := hall.same (hlease (some k)) (Sublist.refl _)
    refine ⟨trivial, fun paired => meets_bind (meets_ite (fun _ => ?_) fun _ => ?_)⟩
    · refine ⟨meets_fork hall' rfl hxorg, fun started => ?_⟩
      cases started with
      | false => exact ⟨trivial, fun _ => ⟨trivial, fun _ => ⟨hall'.setNone hxorg, rfl⟩⟩⟩
      | true =>
        refine ⟨trivial, fun _ => ⟨trivial, fun now => ?_⟩⟩
        refine meets_loop (fun v' m' _ => Starting v v' m') ?_ n () ?_
        · intro x v' m' k' h
          exact meets_startRound (k + 2) _ x h
        · refine ⟨?_, hsession, rfl⟩
          have htrace : SamePids { v with verifyLease := some k }
              { v with verifyLease := some k, trace := some (k + 1) } :=
            ⟨rfl, rfl, rfl, rfl⟩
          exact (hall'.same htrace (Sublist.refl _)).started .xorg rfl hxorg
    · exact ⟨trivial, fun _ => ⟨hall'.setNone hxorg, rfl⟩⟩
  · exact ⟨trivial, fun _ => ⟨hall.same (hlease none) (Sublist.refl _), rfl⟩⟩

theorem meets_startXorg (lease : Fd) (connector crtc : UInt32) (hall : AllRecorded v m.1)
    (hxorg : v.xorg = none) (hsession : v.session = none) :
    (startXorg n lease connector crtc).Meets childMonitor
      (fun _ v' m' _ => AllRecorded v' m'.1 ∧ v'.probeMode = v.probeMode) v m k := by
  refine meets_seq (quietSparing.plain (plain_configureXorg lease connector crtc) v m k) ?_
  rintro ok v₁ m₁ k₁ ⟨hkept, hsub⟩
  have hall₁ := hall.same hkept.samePids hsub
  refine meets_ite (fun _ => ?_) fun _ => ⟨trivial, fun _ => ⟨hall₁, hkept.probeMode⟩⟩
  have hexpect : SamePids v₁ (expectScanout connector crtc v₁) :=
    ⟨rfl, rfl, rfl, rfl⟩
  refine meets_mono (meets_startProcess lease (hall₁.same hexpect (Sublist.refl _))
    (hkept.xorg.trans hxorg) (hkept.session.trans hsession)) ?_
  rintro _ v' m' _ ⟨hall', hmode⟩
  exact ⟨hall', (hmode.trans hexpect.probeMode).trans hkept.probeMode⟩

end Sessions

/-! ## Requests -/

section Requests

variable {request : Message} {lease : Option Fd}

theorem meets_cleanupFailed (ok : Bool) (hall : AllRecorded v m.1) :
    (cleanupFailed n ok).Meets childMonitor
      (fun _ v' m' _ => v'.probeMode = v.probeMode ∧ AllRecorded v' m'.1 ∧
        (ok = true → v' = v) ∧ (ok = false → Cleared v' m'.1)) v m k := by
  cases ok with
  | true => exact ⟨rfl, hall, fun _ => rfl, nofun⟩
  | false =>
    refine meets_mono (meets_cleanupSession hall) ?_
    rintro _ v' m' _ ⟨hcleared, hmode⟩
    refine ⟨hmode, ?_, nofun, fun _ => hcleared⟩
    rw [hcleared.children]
    exact forall_mem_nil _

theorem meets_servePrepare (hall : AllRecorded v m.1) : (servePrepare n request).Meets childMonitor
      (fun _ v' m' _ => ∃ ok, m'.2 = some (prepareReply request ok) ∧ AllRecorded v' m'.1 ∧
        (ok = true → v'.xorg = none ∧ v'.session = none) ∧
        (ok = false → Cleared v' m'.1 ∧ v'.probeMode = probeNone)) v m k := by
  refine meets_seq (meets_prepareSession request.flags hall) ?_
  rintro ok v₁ m₁ k₁ ⟨hall₁, -, hok⟩
  refine meets_seq (meets_cleanupFailed ok hall₁) ?_
  rintro _ v₂ m₂ k₂ ⟨-, hall₂, hsame, hfailed⟩
  refine meets_modify (meets_io trivial fun _ => ⟨ok, rfl, ?_, ?_, ?_⟩)
  · exact hall₂.pids (fun role => by cases role <;> rfl) (Sublist.refl _)
  · intro htrue
    rw [hsame htrue]
    exact hok htrue
  · intro hfalse
    refine ⟨(hfailed hfalse).setMode _, ?_⟩
    rw [hfalse]
    rfl

theorem meets_startRequested (hall : AllRecorded v m.1)
    (henter : Asked.entersXorg ⟨true, request, lease, v⟩ = true → v.xorg = none ∧ v.session = none)
    (hopcode : request.opcode = opAgentStart) :
    (startRequested n request lease).Meets childMonitor
      (fun _ v' m' _ => AllRecorded v' m'.1) v m k := by
  refine meets_get ?_
  cases lease with
  | none => exact hall
  | some fd =>
    refine meets_ite (fun hguard => ?_) fun _ => hall
    have henters : Asked.entersXorg ⟨true, request, some fd, v⟩ = true := by
      unfold Asked.entersXorg
      rw [Bool.and_eq_true] at hguard
      simp only [hopcode, beq_self_eq_true, Option.isSome_some, Bool.and_self, Bool.true_and,
        Bool.and_eq_true]
      exact hguard
    obtain ⟨hxorg, hsession⟩ := henter henters
    exact meets_mono (meets_startXorg fd _ _ hall hxorg hsession) fun _ _ _ _ h => h.1

theorem meets_serveStart (hall : AllRecorded v m.1)
    (henter : Asked.entersXorg ⟨true, request, lease, v⟩ = true → v.xorg = none ∧ v.session = none)
    (hopcode : request.opcode = opAgentStart) :
    (serveStart n request lease).Meets childMonitor
      (fun _ v' m' _ => ∃ ok a, m'.2 = some (startReply request a ok) ∧ AllRecorded v' m'.1 ∧
        (ok = false → Cleared v' m'.1)) v m k := by
  refine meets_seq (meets_startRequested hall henter hopcode) ?_
  intro ok v₁ m₁ k₁ hall₁
  refine meets_seq (meets_cleanupFailed ok hall₁) ?_
  rintro _ v₂ m₂ k₂ ⟨-, hall₂, -, hfailed⟩
  exact meets_get (meets_io trivial fun _ => ⟨ok, v₂, rfl, hall₂, hfailed⟩)

theorem meets_serveStop (hall : AllRecorded v m.1) : (serveStop n request lease).Meets childMonitor
      (fun _ v' m' _ => m'.2 ≠ none ∧ Cleared v' m'.1 ∧ v'.probeMode = probeNone) v m k := by
  refine meets_bind (meets_closeIfOpen lease ?_)
  refine meets_seq (meets_cleanupSession hall) ?_
  rintro _ v' m' k' ⟨hcleared, -⟩
  exact meets_modify (meets_io trivial fun _ => ⟨nofun, hcleared.setMode probeNone, rfl⟩)

theorem meets_serveUnknown : (serveUnknown request lease).Meets childMonitor
      (fun _ v' m' _ => m'.2 ≠ none ∧ v' = v ∧ m'.1 = m.1) v m k :=
  meets_bind (meets_closeIfOpen lease (meets_io trivial fun _ => ⟨nofun, rfl, rfl⟩))

end Requests

/-! ## Between two requests -/

section Idling

/-- The loop has done nothing to the session, or ended it. -/
def Left (v v' : Agent) (children children' : Children) : Prop :=
  (Kept v v' ∧ children'.Sublist children) ∨ (Cleared v' children' ∧ v'.probeMode = v.probeMode)

theorem Left.refl (v : Agent) (children : Children) : Left v v children children :=
  .inl ⟨Kept.refl v, Sublist.refl _⟩

theorem meets_reportFailure (registration : Message) (text : String) (hall : AllRecorded v m.1) :
    (reportFailure n registration text).Meets childMonitor
      (fun _ v' m' _ => Cleared v' m'.1 ∧ v'.probeMode = v.probeMode) v m k :=
  meets_seq (meets_cleanupSession hall) fun _ _ _ _ h =>
    meets_io trivial fun _ => h

theorem meets_reapXorg (registration : Message) (hall : AllRecorded v m.1) :
    (reapXorg n registration).Meets childMonitor (fun _ v' m' _ => Left v v' m.1 m'.1) v m k := by
  refine meets_get ?_
  cases hxorg : v.xorg with
  | none => exact .refl _ _
  | some pid =>
    refine meets_io trivial fun waited => ?_
    cases waited with
    | exited code =>
      refine meets_modify (meets_mono (meets_reportFailure registration _ ?_) ?_)
      · -- what is left is recorded without Xorg, which was waited for
        intro x hx
        obtain ⟨hx, hne⟩ := mem_filter.1 hx
        obtain ⟨role, hrole, hpid⟩ := recorded_iff.1 (hall x hx)
        refine recorded_iff.2 ⟨role, hrole, ?_⟩
        cases role with
        | bridge => exact hpid
        | session => exact hpid
        | xorg =>
          have hsame : some pid = some x.2 := hxorg.symm.trans hpid
          rw [Option.some.injEq] at hsame
          rw [hsame] at hne
          simp at hne
      · exact fun _ _ _ _ h => .inr h
    | running => exact .refl _ _
    | interrupted => exact .refl _ _
    | failed => exact .inl ⟨Kept.refl v, reap_sublist _ _⟩

theorem meets_relayPolled (registration : Message) (revents : Revents) (hall : AllRecorded v m.1) :
    (relayPolled n registration revents).Meets childMonitor
      (fun _ v' m' _ => Left v v' m.1 m'.1) v m k := by
  refine meets_get (meets_ite (fun _ => ?_) fun _ => .refl _ _)
  refine meets_seq (quietSparing.relay 0 v m k) ?_
  rintro ok v₁ m₁ k₁ ⟨hkept, hsub⟩
  refine meets_ite (fun _ => .inl ⟨hkept, hsub⟩) fun _ => ?_
  refine meets_mono (meets_reportFailure registration _ (hall.same hkept.samePids hsub)) ?_
  exact fun _ _ _ _ h => .inr ⟨h.1, h.2.trans hkept.probeMode⟩

theorem meets_reportScanout (registration : Message) (hall : AllRecorded v m.1) :
    (reportScanout n registration).Meets childMonitor
      (fun _ v' m' _ => Left v v' m.1 m'.1) v m k := by
  refine meets_get (meets_ite (fun _ => ?_) fun _ => .refl _ _)
  exact meets_mono (meets_reportFailure registration _ hall) fun _ _ _ _ h => .inr h

theorem meets_idle {registration : Message} {p : AgentProg Unit} (hp : Idle n registration p)
    (hall : AllRecorded v m.1) :
    p.Meets childMonitor (fun _ v' m' _ => Left v v' m.1 m'.1) v m k := by
  cases hp with
  | stopRequested => exact ⟨trivial, fun _ => .refl _ _⟩
  | pollPeers trace => exact ⟨trivial, fun _ => .refl _ _⟩
  | reapXorg => exact meets_reapXorg registration hall
  | relayPolled revents => exact meets_relayPolled registration revents hall
  | reportScanout => exact meets_reportScanout registration hall
  | ending => exact meets_mono (meets_cleanupSession hall) fun _ _ _ _ h => .inr h

variable {children : Children} {v' : Agent}

theorem Left.allRecorded (h : Left v v' children children') (hall : AllRecorded v children) :
    AllRecorded v' children' := by
  rcases h with ⟨hkept, hsub⟩ | ⟨hcleared, -⟩
  · exact hall.same hkept.samePids hsub
  · rw [hcleared.children]
    exact forall_mem_nil _

theorem Left.probeMode (h : Left v v' children children') : v'.probeMode = v.probeMode := by
  rcases h with ⟨hkept, -⟩ | ⟨-, hmode⟩
  · exact hkept.probeMode
  · exact hmode

theorem Left.pid_none (h : Left v v' children children') (role : Role) (hnone : pid v role = none) :
    pid v' role = none := by
  rcases h with ⟨hkept, -⟩ | ⟨hcleared, -⟩
  · exact (hkept.samePids.pid role).trans hnone
  · exact hcleared.pid role

theorem Left.cleared (h : Left v v' children children') (hcleared : Cleared v children) :
    Cleared v' children' := by
  rcases h with ⟨hkept, hsub⟩ | ⟨hcleared', -⟩
  · refine ⟨fun role => (hkept.samePids.pid role).trans (hcleared.pid role), ?_,
      hkept.trace.trans hcleared.trace, hkept.verifyLease.trans hcleared.verifyLease⟩
    rw [hcleared.children] at hsub
    exact sublist_nil.1 hsub
  · exact hcleared'

end Idling

/-! ## Histories -/

section Histories

variable {ω : Type} {env : Handler Io Io.Ans ω} {registration : Message} {s₀ s t u : AgentSys ω}
  {hs : List Handled} {h : Handled} {x : Asked} {children : Children} {a : Agent}

theorem lastServed_append (hs : List Handled) (h : Handled) :
    lastServed (hs ++ [h]) = if h.served then some h else lastServed hs := by
  unfold lastServed
  rw [filter_append, filter_cons, filter_nil]
  split
  · exact getLast?_concat
  · rw [append_nil]

theorem lastServed_served (h' : lastServed hs = some h) : h.served = true :=
  (mem_filter.1 (mem_of_getLast? h')).2

theorem filter_asked (hs : List Handled) :
    (hs.map (·.toAsked)).filter (·.served) = (hs.filter (·.served)).map (·.toAsked) :=
  filter_map

theorem Alternating.init (h : Alternating (hs.map (·.toAsked) ++ [x])) :
    Alternating (hs.map (·.toAsked)) := by
  intro earlier y z later hlist
  refine h earlier y z (later ++ [x].filter (·.served)) ?_
  rw [filter_append, hlist, append_assoc]
  rfl

/-- Two start requests do not follow each other. -/
theorem Alternating.last (halt : Alternating (hs.map (·.toAsked) ++ [x])) (hx : x.served = true)
    (hlast : lastServed hs = some h) (hstart : x.request.opcode = opAgentStart) :
    h.request.opcode ≠ opAgentStart := by
  intro hboth
  obtain ⟨earlier, hearlier⟩ := getLast?_eq_some_iff.1 hlast
  refine halt (earlier.map (·.toAsked)) h.toAsked x [] ?_ hboth hstart
  rw [filter_append, filter_asked, hearlier, filter_cons_of_pos hx, filter_nil,
    map_append, append_assoc]
  rfl

/-- The state between two messages, by the last request. -/
structure Books (last : Option Handled) (a : Agent) (children : Children) : Prop where
  recorded : AllRecorded a children
  untouched : last = none → a.probeMode = probeNone
  prepared : ∀ h, last = some h → h.request.opcode = opAgentPrepare →
    h.succeeded = true → a.xorg = none ∧ a.session = none
  unprepared : ∀ h, last = some h →
    h.request.opcode = opAgentStop ∨ h.request.opcode = opAgentPrepare ∧ h.succeeded = false →
    a.probeMode = probeNone
  stopped : ∀ h, last = some h → h.request.opcode = opAgentStop ∨ h.succeeded = false →
    Cleared a children

theorem books_start (h₀ : Untouched a) : Books none a [] := by
  refine ⟨forall_mem_nil _, fun _ => h₀.probeMode, ?_, ?_, ?_⟩ <;>
  · intro h hlast
    cases hlast

variable {last : Option Handled}

theorem Books.left {b : Agent} (hbooks : Books last a children)
    (hleft : Left a b children children') : Books last b children' where
  recorded := hleft.allRecorded hbooks.recorded
  untouched hnone := hleft.probeMode.trans (hbooks.untouched hnone)
  prepared h hlast hopcode hok := by
    obtain ⟨hxorg, hsession⟩ := hbooks.prepared h hlast hopcode hok
    exact ⟨hleft.pid_none .xorg hxorg, hleft.pid_none .session hsession⟩
  unprepared h hlast hcase := hleft.probeMode.trans (hbooks.unprepared h hlast hcase)
  stopped h hlast hcase := hleft.cleared (hbooks.stopped h hlast hcase)

/-- `start_xorg` is entered only when a session has just been prepared. -/
theorem Books.entered (hbooks : Books (lastServed hs) x.before children)
    (halt : Alternating (hs.map (·.toAsked) ++ [x])) (henter : x.entersXorg = true) :
    ∃ h, lastServed hs = some h ∧ h.request.opcode = opAgentPrepare ∧ h.succeeded = true := by
  unfold Asked.entersXorg at henter
  simp only [Bool.and_eq_true, Bool.or_eq_true, beq_iff_eq] at henter
  obtain ⟨⟨⟨⟨hvalid, hstart⟩, -⟩, hflags⟩, hmode⟩ := henter
  have hnone : x.before.probeMode ≠ probeNone := by
    intro hprobe
    rw [hprobe] at hflags
    rw [hflags] at hmode
    exact absurd hmode (by decide)
  have hx : x.served = true := by
    simp [Asked.served, hvalid, Message.isAgentRequest, hstart]
  cases hlast : lastServed hs with
  | none => exact absurd (hbooks.untouched hlast) hnone
  | some h =>
    have hserved := lastServed_served hlast
    simp only [Asked.served, Message.isAgentRequest, Bool.and_eq_true, Bool.or_eq_true,
      beq_iff_eq] at hserved
    rcases hserved.2 with (hprepare | hother) | hstop
    · cases hok : h.succeeded with
      | true => exact ⟨h, rfl, hprepare, hok⟩
      | false => exact absurd (hbooks.unprepared h hlast (.inr ⟨hprepare, hok⟩)) hnone
    · exact absurd hother (halt.last hx hlast hstart)
    · exact absurd (hbooks.unprepared h hlast (.inl hstop)) hnone

theorem written_of_last {reply : Message} {sent : Bool} (hlog : s₀.log <+: t.log)
    (hreply : t.log.getLast? = some ⟨.writeBroker reply, sent⟩)
    (hne : (childMonitor.after ([], none) (newCalls s₀ t)).2 ≠ none) :
    (childMonitor.after ([], none) (newCalls s₀ t)).2 = some reply := by
  obtain ⟨before, hbefore⟩ := getLast?_eq_some_iff.1 hreply
  rcases eq_nil_or_concat (newCalls s₀ t) with hnil | ⟨calls, y, hcalls⟩
  · rw [hnil] at hne
    exact absurd rfl hne
  · rw [concat_eq_append] at hcalls
    obtain ⟨rest, hrest⟩ := hlog
    have hnew : newCalls s₀ t = rest := by
      unfold newCalls
      rw [← hrest, drop_left]
    rw [← hrest, ← hnew, hcalls, ← append_assoc] at hbefore
    obtain ⟨-, hy⟩ := append_inj' hbefore rfl
    rw [singleton_inj] at hy
    rw [hcalls, hy, after_append]
    rfl

theorem succeeded_prepareReply (x : Asked) (request : Message) (ok : Bool) :
    Handled.succeeded ⟨x, some (prepareReply request ok)⟩ = ok := by
  cases ok <;> rfl

theorem succeeded_startReply (x : Asked) (request : Message) (ok : Bool) :
    Handled.succeeded ⟨x, some (startReply request a ok)⟩ = ok := by
  cases ok <;> rfl

variable {request : Message} {lease : Option Fd}

/-- A request is answered, and the books are those of the answer. -/
theorem meets_serveRequest (hbooks : Books (lastServed hs) v m.1)
    (halt : Alternating (hs.map (·.toAsked) ++ [⟨true, request, lease, v⟩])) :
    (serveRequest n request lease).Meets childMonitor (fun _ v' m' _ => m'.2 ≠ none ∧
      Books (lastServed (hs ++ [⟨⟨true, request, lease, v⟩, m'.2⟩])) v' m'.1) v m k := by
  have hserved : Asked.served ⟨true, request, lease, v⟩ = request.isAgentRequest := by
    simp [Asked.served]
  simp only [lastServed_append, hserved, Message.isAgentRequest]
  unfold serveRequest
  refine meets_ite (fun hprepare => ?_) fun hprepare => meets_ite (fun hstart => ?_) fun hstart =>
    meets_ite (fun hstop => ?_) fun hstop => ?_
  · refine meets_mono (meets_servePrepare hbooks.recorded) ?_
    rintro _ v' m' _ ⟨ok, hwritten, hall, hok, hfailed⟩
    have hopcode := beq_iff_eq.1 hprepare
    rw [hwritten]
    simp only [hprepare, Bool.true_or, if_true]
    refine ⟨nofun, hall, nofun, ?_, ?_, ?_⟩
    · rintro _ ⟨⟩ - h
      exact hok (succeeded_prepareReply _ _ ok ▸ h)
    · rintro _ ⟨⟩ (h | ⟨-, h⟩)
      · exact absurd (hopcode.symm.trans h) (by decide)
      · exact (hfailed (succeeded_prepareReply _ _ ok ▸ h)).2
    · rintro _ ⟨⟩ (h | h)
      · exact absurd (hopcode.symm.trans h) (by decide)
      · exact (hfailed (succeeded_prepareReply _ _ ok ▸ h)).1
  · have hopcode := beq_iff_eq.1 hstart
    refine meets_mono (meets_serveStart hbooks.recorded (fun henter => ?_) hopcode) ?_
    · obtain ⟨h, hlast, hopcode, hok⟩ := Books.entered hbooks halt henter
      exact hbooks.prepared h hlast hopcode hok
    rintro _ v' m' _ ⟨ok, b, hwritten, hall, hfailed⟩
    have hother : request.opcode ≠ opAgentPrepare := fun h => hprepare (beq_iff_eq.2 h)
    rw [hwritten]
    simp only [hstart, Bool.or_true, Bool.true_or, if_true]
    refine ⟨nofun, hall, nofun, ?_, ?_, ?_⟩
    · rintro _ ⟨⟩ h
      exact absurd h hother
    · rintro _ ⟨⟩ (h | ⟨h, -⟩)
      · exact absurd (hopcode.symm.trans h) (by decide)
      · exact absurd h hother
    · rintro _ ⟨⟩ (h | h)
      · exact absurd (hopcode.symm.trans h) (by decide)
      · exact hfailed (succeeded_startReply _ _ ok ▸ h)
  · refine meets_mono (meets_serveStop hbooks.recorded) ?_
    rintro _ v' m' _ ⟨hwritten, hcleared, hmode⟩
    simp only [hstop, Bool.or_true, if_true]
    refine ⟨hwritten, ?_, nofun, ?_, fun _ _ _ => hmode, fun _ _ _ => hcleared⟩
    · rw [hcleared.children]
      exact forall_mem_nil _
    · rintro _ ⟨⟩ h
      exact absurd (beq_iff_eq.2 h) hprepare
  · refine meets_mono meets_serveUnknown ?_
    rintro _ v' m' _ ⟨hwritten, rfl, hchildren⟩
    simp only [hprepare, hstart, hstop, Bool.or_self, hchildren]
    exact ⟨hwritten, hbooks⟩

theorem books_handled {reply : Message} {sent : Bool}
    (hbooks : Books (lastServed hs) u.vars (childMonitor.after ([], none) (newCalls s₀ u)).1)
    (hadmits : childMonitor.Admits ([], none) (newCalls s₀ u)) (hlog : s₀.log <+: u.log)
    (halt : Alternating (hs.map (·.toAsked) ++ [⟨true, request, lease, u.vars⟩]))
    (ht : (serveRequest n request lease).run (processHandler env) u = (some (), t))
    (hreply : t.log.getLast? = some ⟨.writeBroker reply, sent⟩) :
    Books (lastServed (hs ++ [⟨⟨true, request, lease, u.vars⟩, some reply⟩])) t.vars
        (childMonitor.after ([], none) (newCalls s₀ t)).1 ∧
      childMonitor.Admits ([], none) (newCalls s₀ t) := by
  obtain ⟨hadmits', hwritten, hbooks'⟩ :=
    monitored_returned hlog hadmits (meets_serveRequest hbooks halt) ht
  rw [written_of_last (hlog.trans (log_of_run ht)) hreply hwritten] at hbooks'
  exact ⟨hbooks', hadmits'⟩

theorem books_received {r : Bool × Message × Option Fd}
    (hbooks : Books last s.vars (childMonitor.after ([], none) (newCalls s₀ s)).1)
    (hadmits : childMonitor.Admits ([], none) (newCalls s₀ s)) (hlog : s₀.log <+: s.log)
    (hu : (recvMessage .request).run (processHandler env) s = (some r, u)) :
    Books last u.vars (childMonitor.after ([], none) (newCalls s₀ u)).1 ∧
      childMonitor.Admits ([], none) (newCalls s₀ u) ∧ s₀.log <+: u.log := by
  obtain ⟨hadmits', hleft⟩ := monitored_returned hlog hadmits
    (sparing_childless (childless_recvMessage .request) _ _ _) hu
  exact ⟨hbooks.left (.inl hleft), hadmits', hlog.trans (log_of_run hu)⟩

/-- The books are right in every state that is reached. -/
theorem books_reach (h₀ : Untouched s₀.vars) (h : Reach env n registration s₀ hs s)
    (halt : Alternating (hs.map (·.toAsked))) :
    Books (lastServed hs) s.vars (childMonitor.after ([], none) (newCalls s₀ s)).1 ∧
      childMonitor.Admits ([], none) (newCalls s₀ s) := by
  induction h with
  | start =>
    rw [newCalls_self]
    exact ⟨books_start h₀, trivial⟩
  | idle h hp ht ih =>
    obtain ⟨hbooks, hadmits⟩ := ih halt
    obtain ⟨hadmits', hleft⟩ :=
      monitored_returned h.log hadmits (meets_idle hp hbooks.recorded) ht
    exact ⟨hbooks.left hleft, hadmits'⟩
  | handled h hu ht hreply ih =>
    rw [map_append] at halt
    obtain ⟨hbooks, hadmits⟩ := ih halt.init
    obtain ⟨hbooks', hadmits', hlog⟩ := books_received hbooks hadmits h.log hu
    exact books_handled hbooks' hadmits' hlog halt ht hreply
  | refused h hu ih =>
    rw [map_append] at halt
    obtain ⟨hbooks, hadmits⟩ := ih halt.init
    obtain ⟨hbooks', hadmits', hlog⟩ := books_received hbooks hadmits h.log hu
    rw [lastServed_append]
    exact ⟨hbooks', hadmits'⟩

theorem admits_during {xs : List Asked} (h₀ : Untouched s₀.vars)
    (h : During env n registration s₀ xs t) (halt : Alternating xs) :
    childMonitor.Admits ([], none) (newCalls s₀ t) := by
  cases h with
  | between h => exact (books_reach h₀ h halt).2
  | idle h hp ht =>
    obtain ⟨hbooks, hadmits⟩ := books_reach h₀ h halt
    exact monitored_halted h.log hadmits (meets_idle hp hbooks.recorded) ht
  | receiving h ht =>
    obtain ⟨hbooks, hadmits⟩ := books_reach h₀ h halt
    exact monitored_halted h.log hadmits
      (sparing_childless (childless_recvMessage .request) _ _ _) ht
  | @serving hs s t u request lease h hu ht =>
    obtain ⟨hbooks, hadmits⟩ := books_reach h₀ h halt.init
    obtain ⟨hbooks', hadmits', hlog⟩ := books_received hbooks hadmits h.log hu
    exact monitored_halted hlog hadmits' (meets_serveRequest hbooks' halt) ht

end Histories

/-- In every run in which two start requests have a prepare or a stop request between them, whatever
    fails: `start_xorg` is entered only right after a prepare request that succeeded, there is at
    most one Xorg and one input bridge, every child is in the globals or has been waited for, and a
    stop request or a failed one leaves no child. If the messages are proper, it has closed every
    trace socket and every duplicate of a lease. -/
theorem children_disciplined {ω : Type} (env : Handler Io Io.Ans ω) (n : Nat)
    (registration : Message) (s₀ : AgentSys ω) (h₀ : Untouched s₀.vars) :
    Disciplined Alternating AllProper env n registration s₀ := by
  have hchildren : ∀ calls, (childMonitor.after ([], none) calls).1 = childrenAfter calls :=
    fun calls => childMonitor_after ([], none) calls
  constructor
  case entered =>
    intro hs s request lease u h hu halt henter
    obtain ⟨hbooks, hadmits⟩ := books_reach h₀ h halt.init
    exact Books.entered (books_received hbooks hadmits h.log hu).1 halt henter
  case single =>
    intro xs t h halt calls hcalls
    rw [← hchildren]
    refine admits_invariant (I := fun m => m.1.Single) single_next (admits_during h₀ h halt) ?_
      calls hcalls
    exact ⟨Nat.zero_le 1, Nat.zero_le 1⟩
  case recorded =>
    intro hs s h halt
    rw [← hchildren]
    exact (books_reach h₀ h halt).1.recorded
  case stopped =>
    intro hs s x h halt hlast hcase
    obtain ⟨hpid, hnone, htrace, hverify⟩ := (books_reach h₀ h halt).1.stopped x hlast hcase
    rw [← hchildren]
    exact ⟨hnone, htrace, hverify⟩
  case closed =>
    intro hs s x h halt hproper hlast hcase
    obtain ⟨-, -, htrace, hverify⟩ := (books_reach h₀ h halt).1.stopped x hlast hcase
    obtain ⟨-, hholding⟩ := holding_reach h₀ h hproper
    rw [hholding.sockets, hholding.copies, htrace, hverify]
    exact ⟨rfl, rfl⟩

/-- The agent of the bench, which is asked to prepare a session and then twice to start it. -/
def askedTwice : AgentSys Bench := Bench.agent [Bench.prepare, Bench.start, Bench.start]

/-- The bench after the next request. -/
def afterRequest (s : AgentSys Bench) : AgentSys Bench :=
  ((readRequest 9).run (processHandler Bench.env) s).2

theorem reach_afterRequest {s₀ s : AgentSys Bench} (h : ∃ hs, Reach Bench.env 9 {} s₀ hs s)
    (hr : ((readRequest 9).run (processHandler Bench.env) s).1 = some (Sum.inl ())) :
    ∃ hs, Reach Bench.env 9 {} s₀ hs (afterRequest s) := by
  obtain ⟨hs, h⟩ := h
  exact wp_returned (wp_readRequest h) (Prod.ext hr rfl)

/-- A session is prepared and started, and Xorg is in the globals. -/
theorem children_disciplined_started : Disciplined Alternating AllProper Bench.env 9 {} askedTwice ∧
      (∃ hs, Reach Bench.env 9 {} askedTwice hs (afterRequest (afterRequest askedTwice))) ∧
      (afterRequest (afterRequest askedTwice)).vars.xorg = some 7 := by
  refine ⟨children_disciplined Bench.env 9 {} askedTwice ⟨rfl, rfl, rfl, rfl, rfl, rfl⟩, ?_, ?_⟩
  · exact reach_afterRequest (reach_afterRequest ⟨[], .start⟩ (by decide +kernel))
      (by decide +kernel)
  · decide +kernel

/-- A second start request starts a second Xorg, and the first one is forgotten. -/
theorem children_undisciplined :
    ¬∀ (ω : Type) (env : Handler Io Io.Ans ω) (n : Nat) (registration : Message)
      (s₀ : AgentSys ω), Untouched s₀.vars →
        Disciplined (fun _ => True) (fun _ => True) env n registration s₀ := by
  intro h
  have hsingle := (h Bench Bench.env 9 {} askedTwice ⟨rfl, rfl, rfl, rfl, rfl, rfl⟩).single
  have hstart : ∃ hs, Reach Bench.env 9 {} askedTwice hs askedTwice := ⟨[], .start⟩
  obtain ⟨hs, hstarted⟩ := reach_afterRequest
    (reach_afterRequest hstart (by decide +kernel)) (by decide +kernel)
  have hcut : ((readRequest 9).run (processHandler Bench.env)
      (afterRequest (afterRequest askedTwice))).1 = none := by decide +kernel
  obtain ⟨xs, hduring⟩ := wp_halted (wp_readRequest hstarted) (Prod.ext hcut rfl)
  have hxorg := (hsingle xs _ hduring trivial _ (prefix_refl _)).xorg
  exact absurd hxorg (by decide +kernel)

end HdmiLos.Agent
