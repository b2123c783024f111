import HdmiLos.Broker.Bench
import HdmiLos.Broker.Proofs.PartsProofs
import HdmiLos.Broker.Proofs.TextProofs

/-!
# The journal preserves the user's preference

In every life of the broker the journal holds the preference that the user had, or the preference is
untouched. The one way to lose it is a snapshot that is taken while the journal of an earlier
override, whose restore failed, is still pending: `ApplyPreferredMode` then takes the broker's own
mode for the user's and overwrites the journal with it.
-/

namespace HdmiLos

open Interaction Prog

variable {ω α : Type} {render : Mode → Text} {env : Env ω} {original : Mode} {w w' : Android ω}
  {s : Sys (Android ω)}

/-! ## What the calls do -/

theorem androidEnv_other {c : Io} {a : c.Ans} (hc : c.kind ≠ .preference)
    (h : androidEnv render env c w = some (a, w')) : ∃ r, w' = { w with rest := r } := by
  unfold androidEnv at h
  split at h
  case h_6 call w _ _ _ _ _ =>
    split at h
    · rename_i r _
      exact ⟨r, by simp only [Option.some.injEq, Prod.mk.injEq] at h; exact h.2.symm⟩
    · exact absurd h (by simp)
  all_goals exact absurd rfl hc

variable {ok : Bool} {output : Text}

theorem Android.obey_cases {mode : Option Mode} {answer : Option ((Bool × Text) × ω)}
    (h : w.obey mode answer = some ((ok, output), w')) :
    ∃ r, (ok = true ∧ ∃ m, mode = some m ∧ w' = { w with preferred := m, rest := r }) ∨
      (ok = false ∧ w' = { w with rest := r }) := by
  rcases answer with _ | ⟨⟨_ | _, output'⟩, r⟩
  · exact absurd h (by simp [Android.obey])
  · simp only [Android.obey, Option.some.injEq, Prod.mk.injEq] at h
    exact ⟨r, Or.inr ⟨h.1.1.symm, h.2.symm⟩⟩
  · cases mode with
    | none =>
      simp only [Android.obey, Option.some.injEq, Prod.mk.injEq] at h
      exact ⟨r, Or.inr ⟨h.1.1.symm, h.2.symm⟩⟩
    | some m =>
      simp only [Android.obey, Option.some.injEq, Prod.mk.injEq] at h
      exact ⟨r, Or.inl ⟨h.1.1.symm, m, rfl, h.2.symm⟩⟩

theorem androidEnv_command {c : DisplayCommand} {m : Mode} (hm : c.mode = some m)
    (h : androidEnv render env (.displayCommand c) w = some ((ok, output), w')) :
    ∃ r, (ok = true ∧ w' = { w with preferred := m, rest := r }) ∨
      (ok = false ∧ w' = { w with rest := r }) := by
  have hobey : w.obey c.mode (env (.displayCommand c) w.rest) = some ((ok, output), w') := by
    cases c with
    | getPreferred => exact absurd hm (by simp [DisplayCommand.mode])
    | clearPreferred => exact h
    | setPreferred width height refresh => exact h
  rw [hm] at hobey
  obtain ⟨r, ⟨hok, m', hm', hw'⟩ | hfailed⟩ := Android.obey_cases hobey
  · cases hm'
    exact ⟨r, Or.inl ⟨hok, hw'⟩⟩
  · exact ⟨r, Or.inr hfailed⟩

theorem androidEnv_get
    (h : androidEnv render env (.displayCommand .getPreferred) w = some ((ok, output), w')) :
    ∃ r, (ok = false ∧ w' = { w with rest := r }) ∨ (ok = true ∧ output = render w.preferred ∧
      w' = { w with snapshots := ⟨w.journal, w.preferred⟩ :: w.snapshots, rest := r }) := by
  simp only [androidEnv] at h
  split at h
  · rename_i r _
    simp only [Option.some.injEq, Prod.mk.injEq] at h
    exact ⟨r, Or.inr ⟨h.1.1.symm, h.1.2.symm, h.2.symm⟩⟩
  · rename_i r _
    simp only [Option.some.injEq, Prod.mk.injEq] at h
    exact ⟨r, Or.inl ⟨h.1.1.symm, h.2.symm⟩⟩
  · exact absurd h (by simp)

theorem androidEnv_write {text : Text}
    (h : androidEnv render env (.writeAtomicText .modeJournal text) w = some (ok, w')) :
    ∃ r, w' = { w with journal := if ok then some text else w.journal, rest := r } := by
  simp only [androidEnv] at h
  split at h
  · rename_i r _
    cases h
    exact ⟨r, rfl⟩
  · rename_i r _
    cases h
    exact ⟨r, rfl⟩
  · exact absurd h (by simp)

theorem androidEnv_read {text : Option Text}
    (h : androidEnv render env (.readText .modeJournal) w = some (text, w')) :
    text = w.journal ∧ ∃ r, w' = { w with rest := r } := by
  simp only [androidEnv] at h
  split at h
  · rename_i r _
    cases h
    exact ⟨rfl, r, rfl⟩
  · exact absurd h (by simp)

theorem androidEnv_unlink (h : androidEnv render env (.unlink .modeJournal) w = some (ok, w')) :
    ∃ r, w' = { w with journal := if ok then none else w.journal, rest := r } := by
  simp only [androidEnv] at h
  split at h
  · rename_i r _
    cases h
    exact ⟨r, rfl⟩
  · rename_i r _
    cases h
    exact ⟨r, rfl⟩
  · exact absurd h (by simp)

/-! ## Snapshots -/

/-- A snapshot was taken over a pending journal. -/
def Android.Overlapped (w : Android ω) : Prop := ∃ x ∈ w.snapshots, ¬x.Clean

theorem androidEnv_snapshots {c : Io} {a : c.Ans}
    (h : androidEnv render env c w = some (a, w')) : w.snapshots ⊆ w'.snapshots := by
  unfold androidEnv at h
  split at h
  case h_2 =>
    obtain ⟨r, ⟨-, m, -, rfl⟩ | ⟨-, rfl⟩⟩ := Android.obey_cases h
    · exact List.Subset.refl _
    · exact List.Subset.refl _
  all_goals
    split at h
    all_goals first
      | obtain ⟨-, rfl⟩ := Prod.mk.inj (Option.some.inj h)
        simp
      | cases h

theorem preserves_overlapped (p : BrokerProg α) :
    Preserves (sysHandler (androidEnv render env)) (fun s => s.world.Overlapped) α p := by
  intro s hs
  refine wp_process_invariant (P := fun _ => True) (fun _ _ _ h => h) (fun _ _ h => h) ?_
    (uses_true p) hs
  intro t c a w' _ ht hstep
  obtain ⟨x, hx, hclean⟩ := ht
  exact ⟨x, androidEnv_snapshots hstep hx, hclean⟩

/-! ## Restoring -/

/-- `RecoverPreferredMode` keeps the user's preference, and restores it when it succeeds. -/
theorem wp_recoverPreferredMode (hs : s.world.Keeps original) :
    wp (sysHandler (androidEnv render env)) recoverPreferredMode
      (fun ok t => t.world.Keeps original ∧ (ok = true → t.world.preferred = original))
      s (fun t => t.world.Keeps original) := by
  unfold recoverPreferredMode
  rw [wp_bind]
  refine wp_call (.readText .modeJournal) hs fun (journal : Option Text) w hread => ?_
  obtain ⟨rfl, r, rfl⟩ := androidEnv_read hread
  rcases hs with ⟨hnone, hpreferred⟩ | hsome
  · simp only [hnone, wp_pure]
    exact ⟨Or.inl ⟨rfl, hpreferred⟩, fun _ => hpreferred⟩
  · simp only [hsome, scanMode_printMode, wp_bind]
    refine wp_call (.displayCommand (preferenceCommand original)) (Or.inr rfl)
      fun (answer : Bool × Text) w hcommand => ?_
    obtain ⟨ok, output⟩ := answer
    obtain ⟨r, ⟨rfl, rfl⟩ | ⟨rfl, rfl⟩⟩ :=
      androidEnv_command (preferenceCommand_mode original) hcommand
    · simp only [if_true, wp_bind]
      refine wp_call (.unlink .modeJournal) (Or.inr rfl) fun (ok : Bool) w hunlink => ?_
      obtain ⟨r, rfl⟩ := androidEnv_unlink hunlink
      cases ok with
      | true => exact ⟨Or.inl ⟨rfl, rfl⟩, fun _ => rfl⟩
      | false => exact ⟨Or.inr rfl, fun _ => rfl⟩
    · exact ⟨Or.inr rfl, by simp⟩

/-! ## Overriding -/

/-- Over a journal that holds the user's preference, Android's own can be overridden. -/
theorem wp_overridePreferredMode (hs : s.world.journal = some (printMode original)) :
    wp (sysHandler (androidEnv render env)) overridePreferredMode
      (fun _ t => t.world.Keeps original) s (fun t => t.world.Keeps original) := by
  unfold overridePreferredMode
  rw [wp_bind, wp_getBroker, wp_bind]
  refine wp_call (.displayCommand (preferenceCommand s.vars.requestedMode)) (Or.inr hs)
    fun (answer : Bool × Text) w hcommand => ?_
  obtain ⟨ok, output⟩ := answer
  obtain ⟨r, ⟨rfl, rfl⟩ | ⟨rfl, rfl⟩⟩ :=
    androidEnv_command (preferenceCommand_mode s.vars.requestedMode) hcommand
  · exact Or.inr hs
  · simp only [Bool.false_eq_true, if_false, wp_bind]
    have hkeeps : Android.Keeps { s.world with rest := r } original := Or.inr hs
    exact wp_post (wp_recoverPreferredMode hkeeps) fun _ t ht => ht.1

/-- The state of the preference that every life of the broker keeps. -/
def Android.Sound (original : Mode) (w : Android ω) : Prop := w.Overlapped ∨ w.Keeps original

/-- A clean snapshot of a sound state is one of the user's preference. -/
theorem Android.Keeps.preferred (hw : w.Keeps original)
    (hclean : Snapshot.Clean ⟨w.journal, w.preferred⟩) : w.preferred = original := by
  rcases hw with ⟨-, hpreferred⟩ | hsome
  · exact hpreferred
  · rcases hclean with hnone | hprinted
    · exact absurd (hsome.symm.trans hnone) (by simp)
    · exact printMode_injective (Option.some.inj (hprinted.symm.trans hsome))

section Readable

variable (hrender : ∀ m, parseSavedMode (render original) = some m → m = original)

include hrender

/-- `ApplyPreferredMode` writes the user's preference into the journal before it overrides it. -/
theorem wp_applyPreferredMode
    (hs : s.world.Keeps original) :
    wp (sysHandler (androidEnv render env)) applyPreferredMode
      (fun _ t => t.world.Sound original) s (fun t => t.world.Sound original) := by
  unfold applyPreferredMode
  rw [wp_bind]
  refine wp_call (.displayCommand .getPreferred) (Or.inr hs) fun (answer : Bool × Text) w hget => ?_
  obtain ⟨ok, output⟩ := answer
  obtain ⟨r, ⟨rfl, rfl⟩ | ⟨rfl, rfl, rfl⟩⟩ := androidEnv_get hget
  · exact Or.inr hs
  by_cases hclean : Snapshot.Clean ⟨s.world.journal, s.world.preferred⟩
  · simp only [if_true]
    cases hparsed : parseSavedMode (render s.world.preferred) with
    | none => exact Or.inr hs
    | some old =>
      have hpreferred : s.world.preferred = original := hs.preferred hclean
      obtain rfl := hrender old (hpreferred ▸ hparsed)
      simp only [wp_bind]
      refine wp_call (.writeAtomicText .modeJournal (printMode old)) (Or.inr hs)
        fun (ok : Bool) w hwrite => ?_
      obtain ⟨r, rfl⟩ := androidEnv_write hwrite
      cases ok with
      | false => exact Or.inr hs
      | true =>
        simp only [if_true]
        exact wp_mono (wp_overridePreferredMode rfl) (fun _ _ h => Or.inr h) fun _ h => Or.inr h
  · -- the snapshot overlaps with a journal, whatever the rest does
    have hover : Android.Overlapped { s.world with
        snapshots := ⟨s.world.journal, s.world.preferred⟩ :: s.world.snapshots, rest := r } :=
      ⟨_, List.mem_cons_self, hclean⟩
    exact wp_mono (preserves_overlapped _ _ hover) (fun _ _ h => Or.inl h) fun _ h => Or.inl h

/-! ## Lives of the broker -/

omit hrender in
theorem preserves_noPreference {p : BrokerProg α} (hp : p.Uses NoPreference) :
    Preserves (sysHandler (androidEnv render env)) (fun s => s.world.Sound original) α p := by
  intro s hs
  refine wp_process_invariant (fun _ _ _ h => h) (fun _ _ h => h) ?_ hp hs
  intro t c a w hc ht hstep
  have hkind : c.kind ≠ .preference := by
    intro h
    have hmem : c.kind ∈ [IoKind.quiet, .config, .stream, .handover, .composer] := hc
    simp [h] at hmem
  obtain ⟨r, rfl⟩ := androidEnv_other hkind hstep
  exact ht

/-- Every part of the broker keeps the preference sound. -/
theorem preferenceParts :
    BrokerParts (Preserves (sysHandler (androidEnv render env))
      fun s => s.world.Sound original) where
  toCompositional := preserves_compositional _ _
  calm hp := preserves_noPreference (noPreference_calm hp)
  assign _ _ hs := hs
  start n mode := preserves_noPreference (noPreference_start n mode)
  recover s hs := by
    rcases hs with hover | hkeeps
    · exact wp_mono (preserves_overlapped _ s hover) (fun _ _ h => Or.inl h) fun _ h => Or.inl h
    · exact wp_mono (wp_recoverPreferredMode hkeeps) (fun _ _ h => Or.inr h.1) fun _ h => Or.inr h
  apply s hs := by
    rcases hs with hover | hkeeps
    · exact wp_mono (preserves_overlapped _ s hover) (fun _ _ h => Or.inl h) fun _ h => Or.inl h
    · exact wp_applyPreferredMode hrender hkeeps

/-- A life of the broker, however it ends, keeps the preference safe. -/
theorem lifetime_sound
    (n : Nat) (hw : w.Sound original) : (lifetime render env n w).Sound original := by
  have hparts : BrokerParts (Preserves (sysHandler (androidEnv render env))
      fun s => s.world.Sound original) := preferenceParts hrender
  have hrun := hparts.run (n := n) (Sys.initial w) hw
  revert hrun
  simp only [lifetime, wp]
  rcases (run n).run (sysHandler (androidEnv render env)) (Sys.initial w) with ⟨_ | a, t⟩
  · exact id
  · exact id

/-- So do any number of lives. -/
theorem Reached.sound (h : Reached render original w) : w.Sound original := by
  induction h with
  | first r => exact Or.inr (Or.inl ⟨rfl, rfl⟩)
  | life env n r _ ih => exact lifetime_sound hrender n ih

end Readable

/-- If no snapshot is ever taken over a journal that holds another preference, the user's preference
    is kept in every state that any number of lives of the broker reach, and a later
    `RecoverPreferredMode` that succeeds restores it. -/
theorem preference_kept (hrender : ∀ m, parseSavedMode (render original) = some m → m = original)
    (h : Reached render original w) (hclean : ∀ x ∈ w.snapshots, x.Clean) :
    w.Keeps original ∧ ∀ (env : Env ω) (s t : Sys (Android ω)), s.world = w →
      recoverPreferredMode.run (sysHandler (androidEnv render env)) s = (some true, t) →
      t.world.preferred = original := by
  have hkeeps : w.Keeps original := by
    rcases h.sound hrender with ⟨x, hx, hover⟩ | hkeeps
    · exact absurd (hclean x hx) hover
    · exact hkeeps
  refine ⟨hkeeps, ?_⟩
  rintro env s t rfl hrun
  exact (wp_returned (wp_recoverPreferredMode hkeeps) hrun).2 rfl

/-! ## Concrete lives -/

/-- Android prints a preference as it does for `get-user-preferred-display-mode`. -/
def renderMode (m : Mode) : Text :=
  "User preferred display mode: ".toList ++
    if m = .native then "null".toList
    else decimal m.width.toNat ++ ' ' :: (decimal m.height.toNat ++
      ' ' :: printRefresh m.refreshMillihz)

/-- The scripted environment, with the results of the display commands in a list. -/
def commandEnv : Env (Bench × List Bool)
  | .displayCommand _, (w, results) =>
    match results with
    | [] => none
    | ok :: results => some ((ok, []), (w, results))
  | call, (w, results) =>
    match benchEnv call w with
    | some (a, w) => some (a, (w, results))
    | none => none

/-- The display is unplugged, and clients send the given requests. -/
def unpluggedScript (requests : List UInt16) : Bench :=
  { polls := requests.map fun _ => clientReadable
    streams := requests.map fun opcode => streamScriptMessage opcode 0
    composer := List.replicate 16 (.reply (composerScriptMessage opResponse 0) false) }

/-- The preference of a user. -/
def userMode : Mode := { width := 1280, height := 720, refreshMillihz := 59940 }

/-- The user's preference, then one life in which clients send `requests` and the display commands
    have the given results. -/
def afterRequests (requests : List UInt16) (results : List Bool) : Android (Bench × List Bool) :=
  lifetime renderMode commandEnv 16
    { preferred := userMode, rest := (unpluggedScript requests, results) }

theorem reached_afterRequests (requests : List UInt16) (results : List Bool) :
    Reached renderMode userMode (afterRequests requests results) :=
  .life commandEnv 16 _ (.first (unpluggedScript requests, results))

/-- A request is armed and disarmed, and armed again. -/
theorem preference_kept_rearmed :
    (afterRequests [opArm, opDisarm, opArm] [true, true, true, true, true]).journal ≠ none ∧
      (afterRequests [opArm, opDisarm, opArm] [true, true, true, true, true]).Keeps userMode := by
  have hrender : ∀ m, parseSavedMode (renderMode userMode) = some m → m = userMode := by
    have hparsed : parseSavedMode (renderMode userMode) = some userMode := by decide +kernel
    intro m hm
    exact (Option.some.inj (hparsed.symm.trans hm)).symm
  refine ⟨by decide +kernel, (preference_kept hrender (reached_afterRequests _ _) ?_).1⟩
  have hall : (afterRequests [opArm, opDisarm, opArm] [true, true, true, true, true]).snapshots.all
      (fun x => x.journal == none) = true := by decide +kernel
  intro x hx
  exact Or.inl (by simpa using List.all_eq_true.1 hall x hx)

/-- The restore of the first request fails, and the second one overwrites its journal. -/
theorem preference_lost_rearmed :
    Reached renderMode userMode
        (afterRequests [opArm, opDisarm, opArm] [true, true, false, true, true]) ∧
      ¬(afterRequests [opArm, opDisarm, opArm] [true, true, false, true, true]).Keeps userMode := by
  refine ⟨reached_afterRequests _ _, ?_⟩
  have hjournal : (afterRequests [opArm, opDisarm, opArm]
      [true, true, false, true, true]).journal =
        some (printMode { width := 1920, height := 1080, refreshMillihz := 60000 }) := by
    decide +kernel
  rintro (⟨hnone, -⟩ | hsome)
  · exact absurd (hjournal.symm.trans hnone) (by simp)
  · have hmode := printMode_injective (Option.some.inj (hjournal.symm.trans hsome))
    exact absurd hmode (by decide)

end HdmiLos
