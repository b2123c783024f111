import HdmiLos.Broker.Text
import HdmiLos.Separated.Fields

/-!
# The mount options that the boot gate reads

`mount-utils.sh` looks a mount point up in `/proc/self/mountinfo` with `awk` and judges the options
of the line it finds. The table is one of lines as the kernel prints them, and the functions of the
script are modelled on its text. Several lines can have the same mount point: a mount that is
stacked on another has the ID of that one as its parent ID, and the one that is nobody's parent
among them is the mount that a path lookup reaches.
-/

namespace HdmiLos.Module

open Separated

/-! ## The table -/

/-- What `awk` splits the fields of a record at. -/
def isBlank (c : Char) : Bool := c == ' ' || c == '\t' || c == '\n'

/-- The characters that the kernel writes as octal escapes in a path of `mountinfo`. -/
def isEscaped (c : Char) : Bool := isBlank c || c == '\\'

/-- A field of a line: a nonempty text without blanks. -/
structure Field where
  text : Text
  nonempty : text ≠ []
  unbroken : ∀ c ∈ text, isBlank c = false

/-- A mount point. It is an absolute path, so `awk` compares it as a text and not as a number. -/
structure MountPoint extends Field where
  absolute : text.head? = some '/'

/-- One of the options that a comma separates in the sixth field. -/
structure MountOption extends Field where
  single : ',' ∉ text

/-- One line of `mountinfo`. -/
structure MountEntry where
  mountId : Nat
  parentId : Nat
  device : Field
  root : Field
  mountPoint : MountPoint
  options : List MountOption
  optionsNonempty : options ≠ []
  /-- The optional fields before the separator, none or more of them. -/
  optional : List Field
  fsType : Field
  source : Field
  superOptions : Field

/-- The sixth field: the options of the mount. -/
def MountEntry.optionText (e : MountEntry) : Text :=
  joined ',' (e.options.map fun option => option.text)

/-- The fields of the line. -/
def MountEntry.words (e : MountEntry) : List Text :=
  [decimal e.mountId, decimal e.parentId, e.device.text, e.root.text, e.mountPoint.text,
    e.optionText] ++ e.optional.map Field.text ++
    [['-'], e.fsType.text, e.source.text, e.superOptions.text]

/-- The line as it is written. -/
def MountEntry.line (e : MountEntry) : Text := joined ' ' e.words

/-- The file. -/
def mountinfo (table : List MountEntry) : Text := terminated '\n' (table.map MountEntry.line)

/-! ## The script -/

/-- The mount point asked for. `awk -v` reads a backslash of the value as an escape, and here there
is none. -/
structure Target where
  text : Text
  plain : ∀ c ∈ text, isEscaped c = false

/-- `$n` of a record. -/
def awkField (n : Nat) (record : Text) : Text := (fields isBlank record).getD (n - 1) []

/-- `mountinfo_options_for_target`: what is printed, or nothing with a failing status. -/
def mountinfoOptionsForTarget (target : Target) (mountinfo : Text) : Option Text :=
  ((records '\n' mountinfo).find? fun record => awkField 5 record == target.text).map (awkField 6)

/-- The option is in the list. -/
def mountOptionsHave (options option : Text) : Bool :=
  containsText (',' :: option ++ [',']) (',' :: options ++ [','])

/-- Neither `nosuid` nor `noexec`. -/
def mountOptionsAllowExec (options : Text) : Bool :=
  !mountOptionsHave options "nosuid".toList && !mountOptionsHave options "noexec".toList

def mountOptionsAreReadOnly (options : Text) : Bool := mountOptionsHave options "ro".toList

/-! ## The visible mount -/

/-- The entry is a mount at the target. -/
def MountEntry.At (target : Target) (e : MountEntry) : Prop := e.mountPoint.text = target.text

/-- The entry has the option. -/
def MountEntry.Has (e : MountEntry) (option : String) : Prop :=
  ∃ o ∈ e.options, o.text = option.toList

/-- The entry is at the target, and no other entry there is stacked on it. -/
structure Topmost (table : List MountEntry) (target : Target) (e : MountEntry) : Prop where
  listed : e ∈ table
  here : e.At target
  top : ∀ e' ∈ table, e' ≠ e → e'.At target → e'.parentId ≠ e.mountId

/-- The entry is the first one at the target. -/
def First (table : List MountEntry) (target : Target) (e : MountEntry) : Prop :=
  ∃ before after, table = before ++ e :: after ∧ e.At target ∧ ∀ e' ∈ before, ¬e'.At target

/-- The first entry at the target has the options of a visible one. -/
def FirstVisible (table : List MountEntry) (target : Target) : Prop :=
  ∀ e, First table target e → ∃ top, Topmost table target top ∧ top.optionText = e.optionText

/-- The printed options are those of the mount, and both judgements about them are about it. -/
structure Judged (printed : Text) (e : MountEntry) : Prop where
  printed_eq : printed = e.optionText
  readOnly : mountOptionsAreReadOnly printed = true ↔ e.Has "ro"
  allowExec : mountOptionsAllowExec printed = true ↔ ¬e.Has "nosuid" ∧ ¬e.Has "noexec"

/-- The lookup answers with the visible mount, and fails exactly when there is no mount at the
target. -/
structure EffectiveLookup (table : List MountEntry) (target : Target) : Prop where
  effective : ∀ printed, mountinfoOptionsForTarget target (mountinfo table) = some printed →
    ∃ e, Topmost table target e ∧ Judged printed e
  fails_iff : mountinfoOptionsForTarget target (mountinfo table) = none ↔
    ∀ e ∈ table, ¬e.At target

end HdmiLos.Module
