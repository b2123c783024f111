import HdmiLos.Agent.Scanout
import Mathlib.Data.List.Induction
import Mathlib.Data.List.Sublists

/-!
# What a confirmed scanout means

Once the scanout is confirmed, the flags speak about the modeset of the CRTC that began last. One
that has only begun already changes the framebuffer although the scanout stays confirmed, and one
that is overtaken by another can fail unnoticed.
-/

namespace HdmiLos.Agent

open List

section Records

variable {crtc connector : UInt32} {record : TraceRecord}

theorem enables_iff : enables crtc record = true ↔ record.request = drmModeSetCrtc ∧
    record.phase = traceBefore ∧ record.argument0 = crtc.toUInt64 ∧ record.argument1 ≠ 0 ∧
    record.argument3 ≠ 0 := by
  simp [enables, and_assoc]

theorem ends_iff : ends record = true ↔
    record.request = drmModeSetCrtc ∧ record.phase = traceAfter := by
  simp [ends]

end Records

/-! ## One record -/

section Observe

variable {a : Agent} {record : TraceRecord}

/-- The agent starts to watch a modeset. -/
def watch (record : TraceRecord) (a : Agent) : Agent :=
  { a with scanoutSequence := record.sequence, scanoutFb := record.argument1.toUInt32,
           scanoutConnectorSeen := false }

theorem observe_enables (hcrtc : a.expectedCrtc ≠ 0) (h : enables a.expectedCrtc record = true)
    (hready : a.scanoutSequence = 0 ∨ a.scanoutConfirmed = true) :
    observeScanoutRecord record a = watch record a := by
  obtain ⟨hrequest, hphase, hargument, hfb, hmode⟩ := enables_iff.1 h
  have hbegins : beginsScanout a record = true := by
    simp [beginsScanout, hphase, hargument, hfb, hmode, hready]
  unfold observeScanoutRecord
  rw [if_neg (by simp [hcrtc, hrequest]), if_pos hbegins]
  rfl

theorem observe_other (h : enables a.expectedCrtc record = false)
    (hsequence : record.request = drmModeSetCrtc → record.sequence ≠ a.scanoutSequence) :
    observeScanoutRecord record a = a := by
  unfold observeScanoutRecord
  split
  · rfl
  case isFalse hlooked =>
    have hrequest : record.request = drmModeSetCrtc := by
      simp only [Bool.or_eq_true, bne_iff_ne, not_or, not_not] at hlooked
      exact hlooked.2
    have hbegins : ¬beginsScanout a record = true := fun hbegins => by
      simp only [beginsScanout, Bool.and_eq_true, beq_iff_eq, bne_iff_ne] at hbegins
      have henables : enables a.expectedCrtc record = true :=
        enables_iff.2 ⟨hrequest, hbegins.1.1.1.1, hbegins.1.1.1.2, hbegins.1.1.2, hbegins.1.2⟩
      rw [henables] at h
      cases h
    rw [if_neg hbegins, if_pos (by simpa using hsequence hrequest)]

theorem observe_watched (hcrtc : a.expectedCrtc ≠ 0) (h : enables a.expectedCrtc record = false)
    (hrequest : record.request = drmModeSetCrtc)
    (hsequence : record.sequence = a.scanoutSequence) :
    observeScanoutRecord record a =
      if namesConnector a.expectedConnector record then { a with scanoutConnectorSeen := true }
      else if ends record then
        if record.result = 0 ∧ a.scanoutConnectorSeen = true then
          { a with scanoutConfirmed := true }
        else { a with scanoutFailed := true, scanoutFailure := scanoutFailureText record }
      else a := by
  have hlooked : ¬(a.expectedCrtc == 0 || record.request != drmModeSetCrtc) = true := by
    simp [hcrtc, hrequest]
  have hbegins : ¬beginsScanout a record = true := fun hbegins => by
    simp only [beginsScanout, Bool.and_eq_true, beq_iff_eq, bne_iff_ne] at hbegins
    have henables : enables a.expectedCrtc record = true :=
      enables_iff.2 ⟨hrequest, hbegins.1.1.1.1, hbegins.1.1.1.2, hbegins.1.1.2, hbegins.1.2⟩
    rw [henables] at h
    cases h
  unfold observeScanoutRecord
  rw [if_neg hlooked, if_neg hbegins, if_neg (by simpa using hsequence)]
  simp [namesConnector, ends, hrequest, and_assoc]

/-- A record does not change what is expected, and no flag is taken back. -/
theorem observe_keeps (record : TraceRecord) (a : Agent) :
    (observeScanoutRecord record a).expectedConnector = a.expectedConnector ∧
    (observeScanoutRecord record a).expectedCrtc = a.expectedCrtc ∧
    (a.scanoutConfirmed = true → (observeScanoutRecord record a).scanoutConfirmed = true) ∧
    (a.scanoutFailed = true → (observeScanoutRecord record a).scanoutFailed = true) := by
  unfold observeScanoutRecord
  repeat' split
  all_goals exact ⟨rfl, rfl, by simp, by simp⟩

/-- The modeset that is watched changes only when one of the CRTC begins. -/
theorem observe_quiet (h : enables a.expectedCrtc record = false) :
    (observeScanoutRecord record a).scanoutSequence = a.scanoutSequence ∧
      (observeScanoutRecord record a).scanoutFb = a.scanoutFb := by
  by_cases hsequence : record.request = drmModeSetCrtc → record.sequence ≠ a.scanoutSequence
  · rw [observe_other h hsequence]
    exact ⟨rfl, rfl⟩
  by_cases hcrtc : a.expectedCrtc = 0
  · rw [observeScanoutRecord, if_pos (by simp [hcrtc])]
    exact ⟨rfl, rfl⟩
  obtain ⟨hrequest, hsame⟩ := Classical.not_imp.1 hsequence
  rw [observe_watched hcrtc h hrequest (not_not.1 hsame)]
  repeat' split
  all_goals exact ⟨rfl, rfl⟩

/-- The end of the modeset that is watched. -/
theorem observe_ends (hcrtc : a.expectedCrtc ≠ 0) (hends : ends record = true)
    (hsequence : record.sequence = a.scanoutSequence) :
    observeScanoutRecord record a =
      if record.result = 0 ∧ a.scanoutConnectorSeen = true then { a with scanoutConfirmed := true }
      else { a with scanoutFailed := true, scanoutFailure := scanoutFailureText record } := by
  obtain ⟨hrequest, hphase⟩ := ends_iff.1 hends
  have hafter : traceAfter ≠ traceBefore ∧ traceAfter ≠ traceDetail := by decide
  have henables : enables a.expectedCrtc record = false := by
    simp [enables, hphase, hafter.1]
  have hnames : ¬namesConnector a.expectedConnector record = true := by
    simp [namesConnector, hphase, hafter.2]
  rw [observe_watched hcrtc henables hrequest hsequence, if_neg hnames, if_pos hends]

/-- A modeset that begins before the first one is confirmed is not looked at. -/
theorem observe_unready (h : enables a.expectedCrtc record = true) (hzero : a.scanoutSequence ≠ 0)
    (hnot : a.scanoutConfirmed = false) : observeScanoutRecord record a = a := by
  obtain ⟨-, hphase, -⟩ := enables_iff.1 h
  have hbefore : traceBefore ≠ traceDetail ∧ traceBefore ≠ traceAfter := by decide
  have hbegins : ¬beginsScanout a record = true := by
    simp [beginsScanout, hzero, hnot]
  simp [observeScanoutRecord, hbegins, hphase, hbefore.1, hbefore.2]

end Observe

/-! ## Traces -/

section Traces

variable {crtc connector : UInt32} {records later : List TraceRecord} {record before : TraceRecord}
  {a : Agent}

theorem observeRecords_append (records more : List TraceRecord) (a : Agent) :
    observeRecords (records ++ more) a = observeRecords more (observeRecords records a) := by
  rw [observeRecords, foldl_append]
  rfl

theorem observeRecords_cons (record : TraceRecord) (records : List TraceRecord) (a : Agent) :
    observeRecords (record :: records) a = observeRecords records (observeScanoutRecord record a) :=
  rfl

theorem observeRecords_keeps (records : List TraceRecord) (a : Agent) :
    (observeRecords records a).expectedConnector = a.expectedConnector ∧
    (observeRecords records a).expectedCrtc = a.expectedCrtc ∧
    (a.scanoutConfirmed = true → (observeRecords records a).scanoutConfirmed = true) ∧
    (a.scanoutFailed = true → (observeRecords records a).scanoutFailed = true) := by
  induction records generalizing a with
  | nil => exact ⟨rfl, rfl, id, id⟩
  | cons record records ih =>
    obtain ⟨hconnector, hcrtc, hconfirmed, hfailed⟩ := ih (observeScanoutRecord record a)
    have hrecord := observe_keeps record a
    exact ⟨hconnector.trans hrecord.1, hcrtc.trans hrecord.2.1,
      fun h => hconfirmed (hrecord.2.2.1 h), fun h => hfailed (hrecord.2.2.2 h)⟩

theorem observeRecords_quiet (h : ∀ record ∈ later, enables a.expectedCrtc record = false) :
    (observeRecords later a).scanoutSequence = a.scanoutSequence ∧
      (observeRecords later a).scanoutFb = a.scanoutFb := by
  induction later generalizing a with
  | nil => exact ⟨rfl, rfl⟩
  | cons record later ih =>
    obtain ⟨hsequence, hfb⟩ := observe_quiet (h record mem_cons_self)
    obtain ⟨hsequence', hfb'⟩ := ih (a := observeScanoutRecord record a) (by
      intro x hx
      rw [(observe_keeps record a).2.1]
      exact h x (mem_cons_of_mem _ hx))
    exact ⟨hsequence'.trans hsequence, hfb'.trans hfb⟩

/-- Once the scanout is confirmed, the modeset that is watched is the one that began last. -/
theorem observeRecords_rearmed (hcrtc : a.expectedCrtc ≠ 0) (hconfirmed : a.scanoutConfirmed = true)
    (h : enables a.expectedCrtc before = true)
    (hlater : ∀ record ∈ later, enables a.expectedCrtc record = false) :
    (observeRecords (before :: later) a).scanoutSequence = before.sequence ∧
      (observeRecords (before :: later) a).scanoutFb = before.argument1.toUInt32 := by
  rw [observeRecords_cons, observe_enables hcrtc h (.inr hconfirmed)]
  exact observeRecords_quiet (a := watch before a) hlater

/-- The agent that expects no CRTC looks at nothing. -/
theorem observeRecords_idle (h : a.expectedCrtc = 0) : observeRecords records a = a := by
  induction records with
  | nil => rfl
  | cons record records ih =>
    rw [observeRecords_cons, observeScanoutRecord, if_pos (by simp [h]), ih]

theorem CommitShown.snoc {fb sequence : UInt32}
    (h : CommitShown connector crtc fb sequence records) (record : TraceRecord) :
    CommitShown connector crtc fb sequence (records ++ [record]) := by
  obtain ⟨before, detail, after, hsub, hshown⟩ := h
  exact ⟨before, detail, after, hsub.trans (sublist_append_left _ _), hshown⟩

variable {earlier : List TraceRecord}

/-- The end of a modeset stands behind its beginning. -/
theorem Interleaved.after_mem {after : TraceRecord} (h : Interleaved (earlier ++ before :: later))
    (hafter : after ∈ earlier ++ before :: later) (hbefore : enables crtc before = true)
    (hends : ends after = true) (hsame : after.sequence = before.sequence) : after ∈ later := by
  have hphase := (enables_iff.1 hbefore).2.1
  rcases mem_append.1 hafter with hearlier | hrest
  · have horder := (pairwise_append.1 h.ordered).2.2 after hearlier before mem_cons_self
    exact absurd hphase (horder hsame).1
  · rcases mem_cons.1 hrest with rfl | hlater
    · rw [(ends_iff.1 hends).2] at hphase
      cases hphase
    · exact hlater

/-! ## The modeset that is watched -/

/-- The modeset that is watched, where no failure was noticed. `a` expects the scanout. -/
structure Watched (a : Agent) (earlier : List TraceRecord) (before : TraceRecord)
    (later : List TraceRecord) (b : Agent) : Prop where
  begun : enables a.expectedCrtc before = true
  sequence : b.scanoutSequence = before.sequence
  fb : b.scanoutFb = before.argument1.toUInt32
  seen : b.scanoutConnectorSeen = true → ∃ detail ∈ later,
    namesConnector a.expectedConnector detail = true ∧ detail.sequence = before.sequence
  ended : ∀ after ∈ later, ends after = true → after.sequence = before.sequence →
    CommitShown a.expectedConnector a.expectedCrtc before.argument1.toUInt32 before.sequence
      (earlier ++ before :: later)
  /-- It began last, or it is the one that was confirmed. -/
  last : if (observeRecords earlier a).scanoutConfirmed = true then
      ∀ record ∈ later, enables a.expectedCrtc record = false
    else b.scanoutConfirmed = true →
      ∃ after ∈ later, ends after = true ∧ after.sequence = before.sequence

/-- None is watched, or the one that is stands in the trace. -/
def Watching (a : Agent) (records : List TraceRecord) (b : Agent) : Prop :=
  (b.scanoutSequence = 0 ∧ b.scanoutFb = 0) ∨
    ∃ earlier before later, records = earlier ++ before :: later ∧ Watched a earlier before later b

theorem Watched.begins (hcrtc : a.expectedCrtc ≠ 0) (h : enables a.expectedCrtc record = true)
    (hready : (observeRecords records a).scanoutSequence = 0 ∨
      (observeRecords records a).scanoutConfirmed = true) :
    Watched a records record [] (observeRecords (records ++ [record]) a) := by
  have hexpected := (observeRecords_keeps records a).2.1
  have hwatch : observeRecords (records ++ [record]) a = watch record (observeRecords records a) := by
    rw [observeRecords_append]
    exact observe_enables (by rwa [hexpected]) (by rwa [hexpected]) hready
  rw [hwatch]
  refine ⟨h, rfl, rfl, nofun, nofun, ?_⟩
  split
  case isTrue => exact nofun
  case isFalse hnot => exact fun hconfirmed => absurd hconfirmed hnot

variable {b : Agent}

theorem Watched.last_snoc {b' : Agent} (h : Watched a earlier before later b)
    (hlast : (observeRecords earlier a).scanoutConfirmed = true →
      enables a.expectedCrtc record = false)
    (hconfirmed : b'.scanoutConfirmed = true → b.scanoutConfirmed = true ∨
      ends record = true ∧ record.sequence = before.sequence) :
    if (observeRecords earlier a).scanoutConfirmed = true then
      ∀ x ∈ later ++ [record], enables a.expectedCrtc x = false
    else b'.scanoutConfirmed = true →
      ∃ after ∈ later ++ [record], ends after = true ∧ after.sequence = before.sequence := by
  have hold := h.last
  split
  case isTrue hearlier =>
    rw [if_pos hearlier] at hold
    intro x hx
    rcases mem_append.1 hx with hx | hx
    · exact hold x hx
    · rw [mem_singleton.1 hx]
      exact hlast hearlier
  case isFalse hearlier =>
    rw [if_neg hearlier] at hold
    intro hconfirmed'
    rcases hconfirmed hconfirmed' with hwas | hends
    · obtain ⟨after, hafter, hends⟩ := hold hwas
      exact ⟨after, mem_append_left _ hafter, hends⟩
    · exact ⟨record, mem_append_right _ mem_cons_self, hends⟩

/-- A record of another kind, or of another modeset. -/
theorem Watched.skips (h : Watched a earlier before later b)
    (hends : ends record = true → record.sequence ≠ before.sequence)
    (hlast : (observeRecords earlier a).scanoutConfirmed = true →
      enables a.expectedCrtc record = false) : Watched a earlier before (later ++ [record]) b := by
  refine ⟨h.begun, h.sequence, h.fb, fun hseen => ?_, fun after hafter hend hsame => ?_,
    h.last_snoc hlast .inl⟩
  · obtain ⟨detail, hdetail, hnames⟩ := h.seen hseen
    exact ⟨detail, mem_append_left _ hdetail, hnames⟩
  · rcases mem_append.1 hafter with hafter | hafter
    · have hshown := (h.ended after hafter hend hsame).snoc record
      rwa [append_assoc, cons_append] at hshown
    · obtain rfl := mem_singleton.1 hafter
      exact absurd hsame (hends hend)

/-- A record that does not begin a modeset of the CRTC. -/
theorem Watched.quiet (h : Watched a earlier before later b)
    (hexpected : b.expectedCrtc = a.expectedCrtc ∧ b.expectedConnector = a.expectedConnector)
    (hcrtc : a.expectedCrtc ≠ 0) (hquiet : enables a.expectedCrtc record = false)
    (hfailed : (observeScanoutRecord record b).scanoutFailed = false) :
    Watched a earlier before (later ++ [record]) (observeScanoutRecord record b) := by
  have hcrtc' : b.expectedCrtc ≠ 0 := by rwa [hexpected.1]
  have hquiet' : enables b.expectedCrtc record = false := by rwa [hexpected.1]
  by_cases hown : record.request = drmModeSetCrtc ∧ record.sequence = b.scanoutSequence
  · have hsame : record.sequence = before.sequence := hown.2.trans h.sequence
    by_cases hends : ends record = true
    · -- its end, which was a success as no failure was noticed
      rw [observe_ends hcrtc' hends hown.2] at hfailed ⊢
      by_cases hok : record.result = 0 ∧ b.scanoutConnectorSeen = true
      · obtain ⟨detail, hdetail, hnames, hnumber⟩ := h.seen hok.2
        rw [if_pos hok]
        have hshown : CommitShown a.expectedConnector a.expectedCrtc before.argument1.toUInt32
            before.sequence (earlier ++ before :: (later ++ [record])) := by
          refine ⟨before, detail, record, ?_, h.begun, rfl, rfl, hnames, hnumber, hends, hsame,
            hok.1⟩
          refine Sublist.trans ?_ (sublist_append_right earlier _)
          exact ((singleton_sublist.2 hdetail).append (Sublist.refl [record])).cons_cons _
        exact ⟨h.begun, h.sequence, h.fb,
          fun _ => ⟨detail, mem_append_left _ hdetail, hnames, hnumber⟩,
          fun _ _ _ _ => hshown, h.last_snoc (fun _ => hquiet) fun _ => .inr ⟨hends, hsame⟩⟩
      · rw [if_neg hok] at hfailed
        cases hfailed
    · rw [observe_watched hcrtc' hquiet' hown.1 hown.2] at hfailed ⊢
      split
      case isTrue hnames =>
        rw [hexpected.2] at hnames
        have hold := h.skips (fun hend => absurd hend hends) fun _ => hquiet
        exact { hold with
          seen := fun _ =>
            ⟨record, mem_append_right _ mem_cons_self, hnames, hsame⟩ }
      case isFalse =>
        exact h.skips (fun hend => absurd hend hends) fun _ => hquiet
  · rw [observe_other hquiet' fun hrequest hsame => hown ⟨hrequest, hsame⟩]
    refine h.skips (fun hend hsame => hown ⟨(ends_iff.1 hend).1, ?_⟩) fun _ => hquiet
    exact hsame.trans h.sequence.symm

theorem watching_records (hcrtc : a.expectedCrtc ≠ 0)
    (hstart : a.scanoutSequence = 0 ∧ a.scanoutFb = 0)
    (hfailed : (observeRecords records a).scanoutFailed = false) :
    Watching a records (observeRecords records a) := by
  induction records using List.reverseRecOn with
  | nil => exact .inl hstart
  | append_singleton records record ih =>
    have hkeeps := observeRecords_keeps records a
    have hold : (observeRecords records a).scanoutFailed = false := by
      by_contra hold
      rw [observeRecords_append] at hfailed
      have hstays := (observeRecords_keeps [record] (observeRecords records a)).2.2.2
      rw [hstays (by simpa using hold)] at hfailed
      cases hfailed
    have hwatching := ih hold
    by_cases hready : enables a.expectedCrtc record = true ∧
        ((observeRecords records a).scanoutSequence = 0 ∨
          (observeRecords records a).scanoutConfirmed = true)
    · exact .inr ⟨records, record, [], rfl, .begins hcrtc hready.1 hready.2⟩
    rw [observeRecords_append] at hfailed ⊢
    show Watching a _ (observeScanoutRecord record (observeRecords records a))
    cases henables : enables a.expectedCrtc record with
    | false =>
      rcases hwatching with ⟨hsequence, hfb⟩ | ⟨earlier, before, later, rfl, hwatched⟩
      · rw [← hkeeps.2.1] at henables
        obtain ⟨hsequence', hfb'⟩ := observe_quiet henables
        exact .inl ⟨hsequence'.trans hsequence, hfb'.trans hfb⟩
      · refine .inr ⟨earlier, before, later ++ [record], by simp, ?_⟩
        exact hwatched.quiet ⟨hkeeps.2.1, hkeeps.1⟩ hcrtc henables hfailed
    | true =>
      have hnot := not_or.1 fun h => hready ⟨henables, h⟩
      rw [Bool.not_eq_true] at hnot
      rw [observe_unready (by rwa [hkeeps.2.1]) hnot.1 hnot.2]
      rcases hwatching with ⟨hsequence, -⟩ | ⟨earlier, before, later, rfl, hwatched⟩
      · exact absurd hsequence hnot.1
      · refine .inr ⟨earlier, before, later ++ [record], by simp, hwatched.skips ?_ ?_⟩
        · intro hends
          have hphase := (enables_iff.1 henables).2.1
          rw [(ends_iff.1 hends).2] at hphase
          cases hphase
        · intro hearlier
          have hconfirmed := (observeRecords_keeps (before :: later)
            (observeRecords earlier a)).2.2.1 hearlier
          rw [← observeRecords_append, hnot.2] at hconfirmed
          cases hconfirmed

/-- A modeset that began after the confirmation and fails before the next one begins is noticed. -/
theorem failure_noticed {between : List TraceRecord} {after : TraceRecord}
    (hconfirmed : a.scanoutConfirmed = true) (hcrtc : a.expectedCrtc ≠ 0)
    (hbefore : enables a.expectedCrtc before = true) (hends : ends after = true)
    (hsame : after.sequence = before.sequence) (hresult : after.result ≠ 0)
    (hbetween : ∀ record ∈ between, enables a.expectedCrtc record = false) :
    (observeRecords (before :: (between ++ after :: later)) a).scanoutFailed = true := by
  have hexpected := (observeRecords_keeps (before :: between) a).2.1
  obtain ⟨hsequence, -⟩ := observeRecords_rearmed hcrtc hconfirmed hbefore hbetween
  rw [← cons_append, observeRecords_append, observeRecords_cons]
  refine (observeRecords_keeps later _).2.2.2 ?_
  rw [observe_ends (by rwa [hexpected]) hends (hsame.trans hsequence.symm),
    if_neg fun hok => hresult hok.1]

end Traces

/-- A confirmed scanout is shown by the trace, and a later modeset that fails is noticed, exactly if
    a failure is noticed or the modesets that began since the confirmation are accounted for. -/
theorem scanout_sound (connector crtc : UInt32) (a : Agent) {records : List TraceRecord}
    (hrecords : Interleaved records) :
    ScanoutSound connector crtc (expectScanout connector crtc a) records ↔
      ((observeRecords records (expectScanout connector crtc a)).scanoutFailed = false →
        Accounted connector crtc (expectScanout connector crtc a) records) := by
  generalize ha : expectScanout connector crtc a = a₀
  obtain ⟨rfl, rfl, hsequence, hfb, hnot⟩ : a₀.expectedConnector = connector ∧
      a₀.expectedCrtc = crtc ∧ a₀.scanoutSequence = 0 ∧ a₀.scanoutFb = 0 ∧
      a₀.scanoutConfirmed = false := by
    subst ha
    exact ⟨rfl, rfl, rfl, rfl, rfl⟩
  by_cases hcrtc : a₀.expectedCrtc = 0
  · -- nothing is ever confirmed
    have hnever : ∀ records, ¬(observeRecords records a₀).scanoutConfirmed = true := by
      intro records
      rw [observeRecords_idle hcrtc, hnot]
      exact Bool.false_ne_true
    refine ⟨fun _ _ => ⟨?_, ?_⟩, fun _ => ⟨?_, ?_⟩⟩
    · exact fun _ _ _ _ h => absurd h (hnever _)
    · exact fun _ _ _ _ _ _ h => absurd h (hnever _)
    · exact fun h => absurd h (hnever _)
    · exact fun _ _ _ _ h => absurd h (hnever _)
  constructor
  · intro hsound hfailed
    refine ⟨?_, ?_⟩
    · rintro earlier before later rfl hconfirmed hbefore hlater hzero
      have hexpected := (observeRecords_keeps earlier a₀).2.1
      have hfb' : (observeRecords (earlier ++ before :: later) a₀).scanoutFb =
          before.argument1.toUInt32 := by
        rw [observeRecords_append]
        rw [← hexpected] at hcrtc hbefore hlater
        exact (observeRecords_rearmed hcrtc hconfirmed hbefore hlater).2
      have hlast : (observeRecords (earlier ++ before :: later) a₀).scanoutConfirmed = true := by
        rw [observeRecords_append]
        exact (observeRecords_keeps _ _).2.2.1 hconfirmed
      obtain ⟨sequence, hshown⟩ := hsound.confirmed hlast hfailed (by rwa [hfb'])
      rw [hfb'] at hshown
      by_cases hsame : sequence = before.sequence
      · subst hsame
        obtain ⟨_, _, after, hsub, -, -, -, -, -, hends, hnumber, -⟩ := hshown
        refine .inl ⟨after, ?_, hends, hnumber⟩
        exact hrecords.after_mem (hsub.subset (by simp)) hbefore hends hnumber
      · exact .inr ⟨sequence, hsame, hshown⟩
    · rintro earlier before between after later rfl hconfirmed hbefore hends hsame hresult
      have hnoticed := hsound.failed earlier before _ rfl hconfirmed hbefore after (by simp) hends
        hsame hresult
      rw [hfailed] at hnoticed
      cases hnoticed
  · intro haccounted
    cases hfailed : (observeRecords records a₀).scanoutFailed with
    | true =>
      refine ⟨fun _ h => ?_, fun _ _ _ _ _ _ _ _ _ _ _ => hfailed⟩
      rw [hfailed] at h
      cases h
    | false =>
      have haccounted := haccounted hfailed
      refine ⟨fun hconfirmed _ hzero => ?_, ?_⟩
      · rcases watching_records hcrtc ⟨hsequence, hfb⟩ hfailed with ⟨-, hnone⟩ |
          ⟨earlier, before, later, rfl, hwatched⟩
        · exact absurd hnone hzero
        · rw [hwatched.fb] at hzero ⊢
          have hlast := hwatched.last
          split at hlast
          case isTrue hearlier =>
            rcases haccounted.last earlier before later rfl hearlier hwatched.begun hlast hzero with
              ⟨after, hafter, hends, hsame⟩ | ⟨sequence, -, hshown⟩
            · exact ⟨_, hwatched.ended after hafter hends hsame⟩
            · exact ⟨sequence, hshown⟩
          case isFalse =>
            obtain ⟨after, hafter, hends, hsame⟩ := hlast hconfirmed
            exact ⟨_, hwatched.ended after hafter hends hsame⟩
      · rintro earlier before later rfl hconfirmed hbefore after hafter hends hsame hresult
        obtain ⟨between, rest, rfl⟩ := append_of_mem hafter
        have hbetween := haccounted.inTurn earlier before between after rest rfl hconfirmed hbefore
          hends hsame hresult
        have hexpected := (observeRecords_keeps earlier a₀).2.1
        rw [observeRecords_append]
        exact failure_noticed hconfirmed (by rwa [hexpected]) (by rwa [hexpected]) hends hsame
          hresult (by rwa [hexpected])

/-! ## Traces on the bench -/

/-- The records of a modeset of the CRTC 31 with the connector 42. -/
def benchBefore (sequence : UInt32) (fb : UInt64) : TraceRecord :=
  { magic := traceMagic, version := traceVersion, phase := traceBefore, sequence := sequence,
    request := drmModeSetCrtc, argument0 := 31, argument1 := fb, argument3 := 1 }

def benchDetail (sequence : UInt32) : TraceRecord :=
  { magic := traceMagic, version := traceVersion, phase := traceDetail, sequence := sequence,
    request := drmModeSetCrtc, name := "SETCRTC_CONNECTOR", argument2 := 42 }

def benchAfter (sequence : UInt32) (result : Int) : TraceRecord :=
  { magic := traceMagic, version := traceVersion, phase := traceAfter, sequence := sequence,
    request := drmModeSetCrtc, result := result }

/-- A modeset that succeeds. -/
def committed : List TraceRecord := [benchBefore 1 5, benchDetail 1, benchAfter 1 0]

/-- Two modesets that succeed. -/
def recommitted : List TraceRecord :=
  committed ++ [benchBefore 2 6, benchDetail 2, benchAfter 2 0]

theorem accounted_recommitted : Accounted 42 31 (expectScanout 42 31 {}) recommitted := by
  have hsucceed : recommitted.all (·.result == 0) = true := rfl
  constructor
  · intro earlier before later hsplit hconfirmed hbefore _ _
    -- the second modeset is the only one that begins behind the confirmation
    rcases earlier with _ | ⟨_, _ | ⟨_, _ | ⟨_, _ | ⟨_, earlier⟩⟩⟩⟩
    · cases hsplit
      cases hconfirmed
    · cases hsplit
      cases hconfirmed
    · cases hsplit
      cases hconfirmed
    · cases hsplit
      exact .inl ⟨benchAfter 2 0, by simp, rfl, rfl⟩
    · have hrest : [benchDetail 2, benchAfter 2 0] = earlier ++ before :: later :=
        congrArg (List.drop 4) hsplit
      have hmem : before ∈ [benchDetail 2, benchAfter 2 0] := by
        rw [hrest]
        simp
      rcases mem_pair.1 hmem with rfl | rfl
      · cases hbefore
      · cases hbefore
  · rintro earlier before between after later hsplit - - - - hresult
    have hmem : after ∈ recommitted := by
      rw [hsplit]
      simp
    exact absurd (by simpa using all_eq_true.1 hsucceed after hmem) hresult

theorem scanout_sound_committed : ∃ sequence, CommitShown 42 31 6 sequence recommitted :=
  ((scanout_sound 42 31 {} ⟨by decide, by decide⟩).2 fun _ => accounted_recommitted).confirmed
    (by decide) (by decide) (by decide)

/-- A second modeset that has only begun: the scanout is confirmed with its framebuffer. -/
def rearmed : List TraceRecord := committed ++ [benchBefore 2 6]

/-- Two modesets at once, of which the first one fails. -/
def overtaken : List TraceRecord :=
  committed ++ [benchBefore 2 6, benchBefore 3 7, benchAfter 2 (-1)]

/-- A modeset with the framebuffer and two more records. -/
def isCommit (crtc fb : UInt32) : List TraceRecord → Bool
  | [before, _, _] => enables crtc before && before.argument1.toUInt32 == fb
  | _ => false

theorem not_commitShown {connector crtc fb sequence : UInt32} {records : List TraceRecord}
    (h : records.sublists.any (isCommit crtc fb) = false) :
    ¬CommitShown connector crtc fb sequence records := by
  rintro ⟨before, detail, after, hsub, henables, hfb, -⟩
  have hnot := any_eq_false.1 h _ (mem_sublists.2 hsub)
  simp [isCommit, henables, hfb] at hnot

/-- A confirmed scanout with a framebuffer that no modeset has shown, and a modeset that fails
    unnoticed. -/
theorem scanout_unsound :
    (Interleaved rearmed ∧ ¬ScanoutSound 42 31 (expectScanout 42 31 {}) rearmed) ∧
      Interleaved overtaken ∧ ¬ScanoutSound 42 31 (expectScanout 42 31 {}) overtaken := by
  refine ⟨⟨⟨by decide, by decide⟩, fun hsound => ?_⟩, ⟨by decide, by decide⟩, fun hsound => ?_⟩
  · obtain ⟨sequence, hshown⟩ := hsound.confirmed (by decide) (by decide) (by decide)
    exact not_commitShown (by decide) hshown
  · have hfailed := hsound.failed committed (benchBefore 2 6) [benchBefore 3 7, benchAfter 2 (-1)]
      rfl (by decide) (by decide) (benchAfter 2 (-1)) (by decide) (by decide) rfl (by decide)
    revert hfailed
    decide

end HdmiLos.Agent
