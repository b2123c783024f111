import HdmiLos.Broker.Proofs.TextProofs
import HdmiLos.Separated.Proofs.FieldsProofs
import HdmiLos.Module.MountUtils

/-!
# What the option lookup answers

The lookup is exact on the table as a list: it answers with the first entry at the target. The
answer is about the visible mount exactly when that entry has its options.
-/

namespace HdmiLos.Module

open Separated List

/-! ## Reading the options -/

theorem containsText_iff (part text : Text) : containsText part text = true ↔ part <:+: text := by
  induction text with
  | nil => simp [containsText]
  | cons c text ih =>
    rw [containsText, Bool.or_eq_true, ih, isPrefixOf_iff_prefix, infix_cons_iff]

theorem mountOptionsHave_iff (e : MountEntry) (option : String) (hne : option.toList ≠ [])
    (hsingle : ',' ∉ option.toList) :
    mountOptionsHave e.optionText option.toList = true ↔ e.Has option := by
  have hall : ∀ piece ∈ e.options.map (fun o => o.text), ',' ∉ piece := by
    intro piece hpiece
    obtain ⟨o, -, rfl⟩ := mem_map.mp hpiece
    exact o.single
  have hp : e.options.map (fun o => o.text) ≠ [] := by
    simpa using e.optionsNonempty
  rw [mountOptionsHave, containsText_iff, MountEntry.optionText,
    bracketed_infix_iff hsingle hne hp hall, mem_map]
  rfl

theorem judged_optionText (e : MountEntry) : Judged e.optionText e where
  printed_eq := rfl
  readOnly := mountOptionsHave_iff e _ (by decide) (by decide)
  allowExec := by
    have hsuid := mountOptionsHave_iff e "nosuid" (by decide) (by decide)
    have hexec := mountOptionsHave_iff e "noexec" (by decide) (by decide)
    simp only [mountOptionsAllowExec, Bool.and_eq_true, Bool.not_eq_true', ← hsuid, ← hexec,
      Bool.not_eq_true]

/-! ## The fields of a line -/

theorem isBlank_of_isDigit {c : Char} (h : c.isDigit = true) : isBlank c = false := by
  have hspace : c ≠ ' ' := by rintro rfl; simp at h
  have htab : c ≠ '\t' := by rintro rfl; simp at h
  have hline : c ≠ '\n' := by rintro rfl; simp at h
  simp [isBlank, hspace, htab, hline]

/-- A text that can stand as a field. -/
def IsField (text : Text) : Prop := text ≠ [] ∧ ∀ c ∈ text, isBlank c = false

theorem isField_decimal (n : Nat) : IsField (decimal n) :=
  ⟨decimal_ne_nil n, fun _ hc => isBlank_of_isDigit (decimal_isDigit hc)⟩

theorem Field.isField (f : Field) : IsField f.text := ⟨f.nonempty, f.unbroken⟩

theorem isField_optionText (e : MountEntry) : IsField e.optionText := by
  constructor
  · refine joined_ne_nil (by simpa using e.optionsNonempty) ?_
    intro piece hpiece
    obtain ⟨o, -, rfl⟩ := mem_map.mp hpiece
    exact o.nonempty
  · intro c hc
    rcases mem_joined hc with rfl | ⟨piece, hpiece, hc⟩
    · decide
    · obtain ⟨o, -, rfl⟩ := mem_map.mp hpiece
      exact o.unbroken c hc

theorem isField_of_mem_words {e : MountEntry} {word : Text} (h : word ∈ e.words) :
    IsField word := by
  simp only [MountEntry.words, mem_append, mem_cons, mem_map, not_mem_nil, or_false] at h
  rcases h with ((rfl | rfl | rfl | rfl | rfl | rfl) | ⟨f, -, rfl⟩) | rfl | rfl | rfl | rfl
  · exact isField_decimal _
  · exact isField_decimal _
  · exact e.device.isField
  · exact e.root.isField
  · exact e.mountPoint.isField
  · exact isField_optionText e
  · exact f.isField
  · exact ⟨by simp, unbroken_of_any (by decide)⟩
  · exact e.fsType.isField
  · exact e.source.isField
  · exact e.superOptions.isField

theorem fields_line (e : MountEntry) : fields isBlank e.line = e.words :=
  fields_joined rfl (fun _ h => (isField_of_mem_words h).1) fun _ h => (isField_of_mem_words h).2

theorem awkField_five (e : MountEntry) : awkField 5 e.line = e.mountPoint.text := by
  rw [awkField, fields_line]
  rfl

theorem awkField_six (e : MountEntry) : awkField 6 e.line = e.optionText := by
  rw [awkField, fields_line]
  rfl

theorem records_mountinfo (table : List MountEntry) :
    records '\n' (mountinfo table) = table.map MountEntry.line := by
  refine records_terminated ?_
  intro piece hpiece hmem
  obtain ⟨e, -, rfl⟩ := mem_map.mp hpiece
  rcases mem_joined hmem with h | ⟨word, hword, hc⟩
  · exact absurd h (by decide)
  · have hblank := (isField_of_mem_words hword).2 _ hc
    exact absurd hblank (by decide)

/-! ## The lookup -/

/-- The lookup answers with the first entry at the target. -/
theorem mountinfoOptionsForTarget_eq (table : List MountEntry) (target : Target) :
    mountinfoOptionsForTarget target (mountinfo table) =
      (table.find? fun e => e.mountPoint.text == target.text).map MountEntry.optionText := by
  rw [mountinfoOptionsForTarget, records_mountinfo, find?_map, Option.map_map]
  have hfive : ((fun record => awkField 5 record == target.text) ∘ MountEntry.line) =
      fun e => e.mountPoint.text == target.text := by
    funext e
    simp only [Function.comp_apply, awkField_five]
  have hsix : awkField 6 ∘ MountEntry.line = MountEntry.optionText := funext awkField_six
  rw [hfive, hsix]

theorem mountinfoOptionsForTarget_eq_none (table : List MountEntry) (target : Target) :
    mountinfoOptionsForTarget target (mountinfo table) = none ↔ ∀ e ∈ table, ¬e.At target := by
  rw [mountinfoOptionsForTarget_eq, Option.map_eq_none_iff, find?_eq_none]
  simp [MountEntry.At]

variable {table : List MountEntry}

theorem find?_eq_some_iff_first {target : Target} {e : MountEntry} :
    (table.find? fun e => e.mountPoint.text == target.text) = some e ↔ First table target e := by
  rw [find?_eq_some_iff_append]
  simp only [beq_iff_eq, Bool.not_eq_true', beq_eq_false_iff_ne]
  constructor
  · rintro ⟨hat, before, after, htable, hbefore⟩
    exact ⟨before, after, htable, hat, hbefore⟩
  · rintro ⟨before, after, htable, hat, hbefore⟩
    exact ⟨hat, before, after, htable, hbefore⟩

theorem printed_iff {target : Target} {printed : Text} :
    mountinfoOptionsForTarget target (mountinfo table) = some printed ↔
      ∃ e, First table target e ∧ e.optionText = printed := by
  simp only [mountinfoOptionsForTarget_eq, Option.map_eq_some_iff, find?_eq_some_iff_first]

/-- The lookup fails exactly when there is no mount at the target, and otherwise it answers with the
visible mount exactly if the first entry at the target has the options of that one. -/
theorem lookup_effective (table : List MountEntry) (target : Target) :
    EffectiveLookup table target ↔ FirstVisible table target := by
  constructor
  · intro h e hfirst
    obtain ⟨top, htop, hjudged⟩ := h.effective _ (printed_iff.2 ⟨e, hfirst, rfl⟩)
    exact ⟨top, htop, hjudged.printed_eq.symm⟩
  · intro h
    refine ⟨fun printed hprinted => ?_, mountinfoOptionsForTarget_eq_none table target⟩
    obtain ⟨e, hfirst, rfl⟩ := printed_iff.1 hprinted
    obtain ⟨top, htop, hoptions⟩ := h e hfirst
    exact ⟨top, htop, hoptions ▸ judged_optionText top⟩

/-! ## Two mounts at one place -/

/-- A bind mount of a file of the module at the composer's path. -/
def bindEntry (mountId parentId : Nat) (options : List MountOption) (h : options ≠ []) :
    MountEntry where
  mountId := mountId
  parentId := parentId
  device := ⟨"254:47".toList, by decide, unbroken_of_any (by decide)⟩
  root := ⟨"/adb/modules/hdmi-los/composer".toList, by decide, unbroken_of_any (by decide)⟩
  mountPoint :=
    ⟨⟨"/vendor/bin/hw/composer".toList, by decide, unbroken_of_any (by decide)⟩, by decide⟩
  options := options
  optionsNonempty := h
  optional := [⟨"shared:46".toList, by decide, unbroken_of_any (by decide)⟩]
  fsType := ⟨"f2fs".toList, by decide, unbroken_of_any (by decide)⟩
  source := ⟨"/dev/block/dm-47".toList, by decide, unbroken_of_any (by decide)⟩
  superOptions := ⟨"rw,seclabel".toList, by decide, unbroken_of_any (by decide)⟩

def composerTarget : Target :=
  ⟨"/vendor/bin/hw/composer".toList, unbroken_of_any (by decide)⟩

def readOnlyOption : MountOption :=
  ⟨⟨"ro".toList, by decide, unbroken_of_any (by decide)⟩, by decide⟩

def writableOption : MountOption :=
  ⟨⟨"rw".toList, by decide, unbroken_of_any (by decide)⟩, by decide⟩

/-- The read-only bind mount that the gate is about. -/
def lowerEntry : MountEntry := bindEntry 65 31 [readOnlyOption] (by simp)

/-- A writable mount stacked on it. -/
def upperEntry : MountEntry := bindEntry 66 65 [writableOption] (by simp)

/-- Nothing is stacked on the upper mount. -/
theorem topmost_upperEntry (hlisted : upperEntry ∈ table)
    (htable : ∀ e ∈ table, e = upperEntry ∨ e = lowerEntry) :
    Topmost table composerTarget upperEntry := by
  refine ⟨hlisted, rfl, fun e he hne _ => ?_⟩
  obtain rfl := (htable e he).resolve_left hne
  decide

/-- The lookup is right about two mounts at one place if the visible one is listed first. -/
theorem lookup_effective_reversed : EffectiveLookup [upperEntry, lowerEntry] composerTarget ∧
      mountinfoOptionsForTarget composerTarget (mountinfo [upperEntry, lowerEntry]) =
        some upperEntry.optionText := by
  have hfind : ([upperEntry, lowerEntry].find? fun e =>
      e.mountPoint.text == composerTarget.text) = some upperEntry := rfl
  refine ⟨(lookup_effective _ _).2 fun e hfirst => ?_,
    printed_iff.2 ⟨upperEntry, find?_eq_some_iff_first.1 hfind, rfl⟩⟩
  obtain rfl := Option.some.inj (hfind.symm.trans (find?_eq_some_iff_first.2 hfirst))
  exact ⟨upperEntry, topmost_upperEntry (by simp) (by simp), rfl⟩

/-- With a writable mount on top of the read-only one, the lookup prints the options of the hidden
mount, and the visible mount passes for read-only. -/
theorem lookup_ineffective : Topmost [lowerEntry, upperEntry] composerTarget upperEntry ∧
      ¬upperEntry.Has "ro" ∧
      (∃ printed, mountinfoOptionsForTarget composerTarget
          (mountinfo [lowerEntry, upperEntry]) = some printed ∧
        mountOptionsAreReadOnly printed = true) ∧
      ¬EffectiveLookup [lowerEntry, upperEntry] composerTarget := by
  have htop : Topmost [lowerEntry, upperEntry] composerTarget upperEntry :=
    topmost_upperEntry (by simp) (by simp)
  have hwritable : ¬upperEntry.Has "ro" := by
    rintro ⟨o, ho, htext⟩
    have : o = writableOption := by simpa [upperEntry, bindEntry] using ho
    subst this
    exact absurd htext (by decide)
  have hprinted : mountinfoOptionsForTarget composerTarget (mountinfo [lowerEntry, upperEntry]) =
      some lowerEntry.optionText := by
    rw [mountinfoOptionsForTarget_eq]
    rfl
  have hro : mountOptionsAreReadOnly lowerEntry.optionText = true := by decide
  refine ⟨htop, hwritable, ⟨_, hprinted, hro⟩, ?_⟩
  intro h
  obtain ⟨e, he, hjudged⟩ := h.effective _ hprinted
  -- the lower mount is the parent of the upper one, so only the upper one can be the visible one
  have heq : e = upperEntry := by
    by_contra hne
    have hlower : e = lowerEntry := by simpa [hne] using he.listed
    subst hlower
    exact he.top upperEntry (by simp) (fun h => hne h.symm) rfl rfl
  subst heq
  exact hwritable (hjudged.readOnly.mp hro)

end HdmiLos.Module
