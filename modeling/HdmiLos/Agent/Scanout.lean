import HdmiLos.Agent.Session

/-!
# The scanout that Xorg reports

`start_xorg` waits until the trace shows that Xorg has enabled the expected CRTC with the leased
connector. What the agent concludes from a trace is compared here with what the trace contains.
-/

namespace HdmiLos.Agent

/-- The agent after it has observed the records. -/
def observeRecords (records : List TraceRecord) (a : Agent) : Agent :=
  records.foldl (fun a record => observeScanoutRecord record a) a

/-- A modeset that enables the CRTC is about to be made. -/
def enables (crtc : UInt32) (record : TraceRecord) : Bool :=
  record.request == drmModeSetCrtc && record.phase == traceBefore &&
    record.argument0 == crtc.toUInt64 && record.argument1 != 0 && record.argument3 != 0

/-- A modeset has the connector. -/
def namesConnector (connector : UInt32) (record : TraceRecord) : Bool :=
  record.request == drmModeSetCrtc && record.phase == traceDetail &&
    record.name == "SETCRTC_CONNECTOR" && record.argument2 == connector.toUInt64

/-- A modeset has been made. -/
def ends (record : TraceRecord) : Bool :=
  record.request == drmModeSetCrtc && record.phase == traceAfter

/-- The records of several requests at once. Those of one request, which have its sequence number,
    are in order. -/
structure Interleaved (records : List TraceRecord) : Prop where
  valid : ∀ record ∈ records, validTraceRecord record = true
  ordered : records.Pairwise fun x y =>
    x.sequence = y.sequence → y.phase ≠ traceBefore ∧ x.phase ≠ traceAfter

/-- The trace shows a successful modeset of the CRTC and the connector with the framebuffer. -/
def CommitShown (connector crtc fb sequence : UInt32) (records : List TraceRecord) : Prop :=
  ∃ before detail after, [before, detail, after].Sublist records ∧
    enables crtc before = true ∧ before.argument1.toUInt32 = fb ∧ before.sequence = sequence ∧
    namesConnector connector detail = true ∧ detail.sequence = sequence ∧
    ends after = true ∧ after.sequence = sequence ∧ after.result = 0

/-- What the agent may conclude: a confirmed scanout is shown by the trace, and a later modeset that
    fails is noticed. -/
structure ScanoutSound (connector crtc : UInt32) (a : Agent) (records : List TraceRecord) :
    Prop where
  confirmed : (observeRecords records a).scanoutConfirmed = true →
    (observeRecords records a).scanoutFailed = false → (observeRecords records a).scanoutFb ≠ 0 →
    ∃ sequence, CommitShown connector crtc (observeRecords records a).scanoutFb sequence records
  failed : ∀ earlier before later, records = earlier ++ before :: later →
    (observeRecords earlier a).scanoutConfirmed = true → enables crtc before = true →
    ∀ after ∈ later, ends after = true → after.sequence = before.sequence → after.result ≠ 0 →
    (observeRecords records a).scanoutFailed = true

/-- The modesets of the CRTC that began since the scanout was confirmed are all accounted for. -/
structure Accounted (connector crtc : UInt32) (a : Agent) (records : List TraceRecord) : Prop where
  /-- The one that began last has ended, or another one has shown its framebuffer. -/
  last : ∀ earlier before later, records = earlier ++ before :: later →
    (observeRecords earlier a).scanoutConfirmed = true → enables crtc before = true →
    (∀ record ∈ later, enables crtc record = false) → before.argument1.toUInt32 ≠ 0 →
    (∃ after ∈ later, ends after = true ∧ after.sequence = before.sequence) ∨
      ∃ sequence ≠ before.sequence,
        CommitShown connector crtc before.argument1.toUInt32 sequence records
  /-- One that fails has ended before the next one begins. -/
  inTurn : ∀ earlier before between after later,
    records = earlier ++ before :: (between ++ after :: later) →
    (observeRecords earlier a).scanoutConfirmed = true → enables crtc before = true →
    ends after = true → after.sequence = before.sequence → after.result ≠ 0 →
    ∀ record ∈ between, enables crtc record = false

end HdmiLos.Agent
