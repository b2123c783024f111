import HdmiLos.Broker.Run

/-!
# Android's preferred display mode and its journal

An environment in which Android keeps one preferred mode and the file system keeps the journal, and
everything else is left to another environment. That one also decides which commands and writes
succeed and when the broker is killed. The preference changes only by the broker's own commands, a
command that fails changes nothing, and a write of the journal happens as a whole or not at all.
-/

namespace HdmiLos

open Interaction

/-! ## Commands -/

/-- The refresh rate in millihertz that a text with three decimals denotes. -/
def scanRefresh (text : Text) : Option UInt32 :=
  match text.dropWhile Char.isDigit with
  | '.' :: decimals =>
    if decimals.length = 3 ∧ decimals.all Char.isDigit then
      some (UInt32.ofNat
        (digitsValue (text.takeWhile Char.isDigit) * 1000 + digitsValue decimals))
    else none
  | _ => none

/-- The preference that a command leaves when it succeeds. -/
def DisplayCommand.mode : DisplayCommand → Option Mode
  | getPreferred => none
  | clearPreferred => some .native
  | setPreferred width height refresh => do
    let (width, _) ← scanUnsigned width
    let (height, _) ← scanUnsigned height
    let refresh ← scanRefresh refresh
    pure { width := width, height := height, refreshMillihz := refresh }

/-! ## The environment -/

/-- What was pending when the broker took a snapshot of the preference. -/
structure Snapshot where
  journal : Option Text
  preferred : Mode

/-- No journal was pending, or the preference was the one that it holds. -/
def Snapshot.Clean (x : Snapshot) : Prop :=
  x.journal = none ∨ x.journal = some (printMode x.preferred)

/-- Android's preference, the journal file, and the snapshots that were taken, latest first. -/
structure Android (ω : Type) where
  preferred : Mode
  journal : Option Text := none
  snapshots : List Snapshot := []
  rest : ω

/-- The preference is the user's, or the journal holds it. -/
def Android.Keeps {ω : Type} (w : Android ω) (original : Mode) : Prop :=
  (w.journal = none ∧ w.preferred = original) ∨ w.journal = some (printMode original)

/-- A command that sets the preference, with the answer that says whether it succeeds. -/
def Android.obey {ω : Type} (w : Android ω) (mode : Option Mode) :
    Option ((Bool × Text) × ω) → Option ((Bool × Text) × Android ω)
  | none => none
  | some ((ok, output), r) =>
    match ok, mode with
    | true, some m => some ((true, output), { w with preferred := m, rest := r })
    | _, _ => some ((false, output), { w with rest := r })

/-- The environment. `render` is the text in which Android prints its preference, and `env` answers
    everything else. -/
def androidEnv {ω : Type} (render : Mode → Text) (env : Env ω) : Env (Android ω)
  | .displayCommand .getPreferred, w =>
    match env (.displayCommand .getPreferred) w.rest with
    | some ((true, _), r) =>
      some ((true, render w.preferred),
        { w with snapshots := ⟨w.journal, w.preferred⟩ :: w.snapshots, rest := r })
    | some ((false, output), r) => some ((false, output), { w with rest := r })
    | none => none
  | .displayCommand command, w => w.obey command.mode (env (.displayCommand command) w.rest)
  | .writeAtomicText .modeJournal text, w =>
    match env (.writeAtomicText .modeJournal text) w.rest with
    | some (true, r) => some (true, { w with journal := some text, rest := r })
    | some (false, r) => some (false, { w with rest := r })
    | none => none
  | .readText .modeJournal, w =>
    match env (.readText .modeJournal) w.rest with
    | some (_, r) => some (w.journal, { w with rest := r })
    | none => none
  | .unlink .modeJournal, w =>
    match env (.unlink .modeJournal) w.rest with
    | some (true, r) => some (true, { w with journal := none, rest := r })
    | some (false, r) => some (false, { w with rest := r })
    | none => none
  | call, w =>
    match env call w.rest with
    | some (a, r) => some (a, { w with rest := r })
    | none => none

/-- What one life of the broker leaves behind, whether it returned or was cut off at a call. -/
def lifetime {ω : Type} (render : Mode → Text) (env : Env ω) (n : Nat) (w : Android ω) :
    Android ω :=
  ((run n).run (sysHandler (androidEnv render env)) (Sys.initial w)).2.world

/-- The states that are reached when the broker lives any number of times, one after the other. As a
    life can be cut off at every call, these are the states during a life as well. -/
inductive Reached {ω : Type} (render : Mode → Text) (original : Mode) : Android ω → Prop where
  | first (r : ω) : Reached render original { preferred := original, rest := r }
  | life {w : Android ω} (env : Env ω) (n : Nat) (r : ω) : Reached render original w →
    Reached render original (lifetime render env n { w with rest := r })

end HdmiLos
