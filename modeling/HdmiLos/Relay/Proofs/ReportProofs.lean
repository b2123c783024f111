import HdmiLos.Relay.Chain
import HdmiLos.Tracer.Proofs.ThreadsProofs

/-!
# What a thread reports

Every function of the interposer sends records of one sequence number only, which it takes once. When
it passes a traced request to the kernel it has sent the record that precedes the request and the
details of a modeset, and all of them have been acknowledged.
-/

namespace HdmiLos.Relay

open Interaction Prog Tracer List

/-- The calls that are in order after a report. -/
def reportMonitor : Monitor Tracer.Io.Ans Report where
  allows r c := exchangeMonitor.allows r.phase c ∧ match c with
    | .send record => record.sequence = r.sequence.getD 0
    | .shared .fetchAddSequence => r.sequence = none ∧ r.sent = []
    | .ioctl _ request argument => r.Announces request argument (· ∈ r.sent)
    | _ => True
  next r c a := r.next ⟨c, a⟩

/-- Between two exchanges, with the sequence number `n` if one has been taken. -/
structure Numbered (n : Option UInt32) (r : Report) : Prop where
  phase : r.phase = .idle
  sequence : r.sequence = n

/-! ## Parts -/

variable {c : Tracer.Io}

section Parts

variable {α : Type} {n : Option UInt32} {r : Report}

/-- What an exchange adds to a report. -/
def Report.exchanged (r : Report) (record : TraceRecord) : Report :=
  { r with sent := r.sent ++ [record] }

theorem obeys_receiveAck_report {Q : Bool → Thread → Report → Prop} (record : TraceRecord)
    (v : Thread) (hphase : r.phase = .readable record)
    (hok : ∀ v', v'.inTrace = v.inTrace → Q true v' { r with phase := .idle })
    (hfailed : ∀ v', Q false v' { r with phase := .failed }) :
    (receiveAck record).Obeys reportMonitor Q v r := by
  have hallows : reportMonitor.allows r .recv := ⟨by rw [hphase]; rfl, trivial⟩
  refine obeys_bind (obeys_library ⟨hallows, ?_⟩)
  rintro ⟨received, errno⟩
  have hnext : reportMonitor.next r .recv (received, errno) =
      { r with phase := exchangeMonitor.next r.phase .recv (received, errno) } := rfl
  rw [hnext, hphase]
  cases received with
  | none => exact hfailed _
  | some ack =>
    refine obeys_ite (fun h => ?_) fun h => ?_
    · have hidle : exchangeMonitor.next (.readable record) .recv (some ack, errno) = .idle :=
        if_pos h
      rw [hidle]
      refine obeys_bind (obeys_ite (fun _ => ?_) fun _ => hok _ rfl)
      exact ⟨⟨trivial, trivial⟩, fun _ => hok _ rfl⟩
    · have hfail : exchangeMonitor.next (.readable record) .recv (some ack, errno) = .failed :=
        if_neg h
      rw [hfail]
      exact hfailed _

theorem obeys_exchange_report {record : TraceRecord} (v : Thread) (hr : Numbered n r)
    (hn : record.sequence = n.getD 0) :
    (exchangeOrExit record).Obeys reportMonitor
      (fun _ v' r' => r' = r.exchanged record ∧ v'.inTrace = v.inTrace) v r := by
  obtain ⟨hphase, hsequence⟩ := hr
  have hexchange : (exchangeRecord record).Obeys reportMonitor
      (fun ok v' r' => if ok then r' = r.exchanged record ∧ v'.inTrace = v.inTrace
        else r'.phase = .failed) v r := by
    have hallows : reportMonitor.allows r (.send record) :=
      ⟨by rw [hphase]; trivial, by rw [hsequence]; exact hn⟩
    refine obeys_bind (obeys_library ⟨hallows, ?_⟩)
    rintro ⟨sent, errno⟩
    cases sent with
    | false =>
      show exchangeMonitor.next r.phase (.send record) (false, errno) = .failed
      rw [hphase]
      rfl
    | true =>
      have hnext : reportMonitor.next r (.send record) (true, errno) = { r.exchanged record with
            phase := exchangeMonitor.next r.phase (.send record) (true, errno) } := rfl
      rw [hnext, hphase]
      refine obeys_bind (obeys_library ⟨⟨rfl, trivial⟩, ?_⟩)
      rintro ⟨readable, errno'⟩
      cases readable with
      | false => rfl
      | true =>
        refine obeys_receiveAck_report record _ rfl (fun v' hv' => ⟨?_, hv'⟩) fun v' => rfl
        show { r.exchanged record with phase := .idle } = r.exchanged record
        rw [← hphase]
        rfl
  refine obeys_bind (obeys_mono hexchange ?_)
  intro ok v' r' h
  cases ok with
  | true => exact h
  | false =>
    have hallows : reportMonitor.allows r' (.exit 125) := ⟨by rw [h]; rfl, trivial⟩
    exact obeys_bind ⟨hallows, nofun⟩

theorem Numbered.exchanged (hr : Numbered n r) (record : TraceRecord) :
    Numbered n (r.exchanged record) := ⟨hr.phase, hr.sequence⟩

/-- The calls that belong to no exchange, take no sequence number and pass no request on. -/
def aside : Tracer.Io → Bool
  | .shared .fetchAddSequence => false
  | .send _ => false
  | .waitReadable => false
  | .recv => false
  | .ioctl _ _ _ => false
  | .exit _ => false
  | _ => true

theorem aside_of_routine (hc : c.routine = true) : aside c = true := by
  cases c with
  | shared op => cases op <;> first | rfl | cases hc
  | _ => first | rfl | cases hc

theorem allows_aside (hc : aside c = true) (hr : Numbered n r) : reportMonitor.allows r c := by
  refine ⟨?_, ?_⟩
  · rw [hr.phase]
    cases c <;> trivial
  · cases c with
    | shared op => cases op <;> trivial
    | _ => trivial

theorem note_phase (r : Report) (e : Tracer.Event) : (r.note e).phase = r.phase := by
  unfold Report.note
  split <;> rfl

theorem next_aside (hc : aside c = true) (hr : Numbered n r) (a : c.Ans) :
    r.next ⟨c, a⟩ = r.note ⟨c, a⟩ := by
  have hphase : exchangeMonitor.next .idle c a = .idle := by
    cases c <;> first | rfl | cases hc
  have hnote : (r.note ⟨c, a⟩).phase = .idle := (note_phase r _).trans hr.phase
  rw [Report.next, hr.phase, hphase, ← hnote]

theorem note_aside (hc : aside c = true) (a : c.Ans) :
    (r.note ⟨c, a⟩).sequence = r.sequence ∧ (r.note ⟨c, a⟩).sent = r.sent := by
  cases c with
  | shared op => cases op <;> first | exact ⟨rfl, rfl⟩ | cases hc
  | copyCrtc source => rcases a with ⟨_ | _, _⟩ <;> exact ⟨rfl, rfl⟩
  | copyU32 source count => rcases a with ⟨_ | _, _⟩ <;> exact ⟨rfl, rfl⟩
  | _ => first | exact ⟨rfl, rfl⟩ | cases hc

theorem numbered_aside (hc : aside c = true) (hr : Numbered n r) (a : c.Ans) :
    Numbered n (r.next ⟨c, a⟩) := by
  rw [next_aside hc hr a]
  exact ⟨(note_phase r _).trans hr.phase, (note_aside hc a).1.trans hr.sequence⟩

/-- Between two exchanges, when the records `X` have been sent. -/
structure Holding (n : Option UInt32) (X : List TraceRecord) (r : Report) : Prop
    extends Numbered n r where
  sent : X ⊆ r.sent

theorem obeys_aside {X : List TraceRecord} (hc : aside c = true) (v : Thread) (hr : Holding n X r) :
    (Tracer.call c).Obeys reportMonitor (fun _ _ r' => Holding n X r') v r := by
  refine ⟨allows_aside hc hr.toNumbered, fun a => ⟨numbered_aside hc hr.toNumbered a, ?_⟩⟩
  have hsent : (reportMonitor.next r c a).sent = r.sent := (note_aside hc a).2
  rw [hsent]
  exact hr.sent

/-- The functions that report, and what follows the kernel call, keep to one sequence number. -/
theorem holdingParts (n : Option UInt32) (X : List TraceRecord) :
    FallbackParts (· = n.getD 0) (fun _ p => ∀ v r, Holding n X r →
      p.Obeys reportMonitor (fun _ _ r' => Holding n X r') v r) where
  sequential :=
    { pure := fun _ _ _ hr => hr
      bind := fun hp hf v r hr => obeys_bind (obeys_mono (hp v r hr) fun a v' r' => hf a v' r') }
  getThread _ _ hr := hr
  assign _ _ _ hr := hr
  routine _ hc v _ hr := obeys_aside (aside_of_routine hc) v hr
  exchange record hn v _ hr :=
    obeys_mono (obeys_exchange_report v hr.toNumbered hn) fun _ _ _ h => h.1 ▸
      ⟨hr.toNumbered.exchanged record, List.Subset.trans hr.sent (subset_append_left _ _)⟩
  store _ _ _ v _ hr := obeys_bind (obeys_aside rfl v hr)
  getCrtc _ _ v _ hr := obeys_aside rfl v hr
  pageFlip _ _ _ v _ hr := obeys_aside rfl v hr

end Parts

/-! ## Before the kernel call -/

/-- The calls with which a request is decoded, or found to change nothing. -/
def decodes : Tracer.Io → Bool
  | .shared (.cacheIsNoop _ _ _) => true
  | .copyCrtc _ => true
  | .copyObjProperties _ => true
  | .copySetProperty _ => true
  | .copyPageFlip _ => true
  | .copyAtomic _ => true
  | .describe _ _ => true
  | _ => false

/-- Neither sends nor receives. -/
def Decoding : Act Thread Tracer.Io → Prop
  | .io c => decodes c = true
  | _ => True

/-- The report is the same but for the modeset that was copied. -/
structure Alike (n : Option UInt32) (r r' : Report) : Prop extends Numbered n r' where
  steady : r'.steady = r.steady
  sent : r'.sent = r.sent

variable {request : UInt64} {m : UInt32}

section Before

variable {α : Type} {n : Option UInt32} {r : Report}

theorem Numbered.alike (hr : Numbered n r) : Alike n r r := ⟨hr, rfl, rfl⟩

theorem note_decodes (hc : decodes c = true) (a : c.Ans) :
    r.note ⟨c, a⟩ = { r with modeset := (r.note ⟨c, a⟩).modeset } := by
  cases c with
  | shared op => cases op <;> first | rfl | cases hc
  | copyCrtc source => rcases a with ⟨_ | _, _⟩ <;> rfl
  | _ => first | rfl | cases hc

theorem aside_of_decodes (hc : decodes c = true) : aside c = true := by
  cases c with
  | shared op => cases op <;> first | rfl | cases hc
  | _ => first | rfl | cases hc

/-- A function that only decodes leaves the report alike. -/
theorem obeys_decoding {p : TracerProg α} (hp : p.Uses Decoding) (v : Thread) (hr : Numbered n r) :
    p.Obeys reportMonitor (fun _ _ r' => Alike n r r') v r := by
  refine obeys_invariant (I := fun _ r' => Alike n r r') (uses_mono (fun op hop => ?_) hp) hr.alike
  cases op with
  | modify f => exact fun _ _ h => h
  | io c =>
    intro _ r' hr'
    have hc := aside_of_decodes hop
    refine ⟨allows_aside hc hr'.toNumbered, fun a => ?_⟩
    have hnote : r'.note ⟨c, a⟩ = { r' with modeset := (r'.note ⟨c, a⟩).modeset } :=
      note_decodes hop a
    exact ⟨numbered_aside hc hr'.toNumbered a, (congrArg Report.steady hnote).trans hr'.steady,
      (congrArg Report.sent hnote).trans hr'.sent⟩
  | _ => trivial

theorem uses_decoding_call (c : Tracer.Io) (hc : decodes c = true) :
    (Tracer.call c).Uses Decoding := uses_perform hc

variable {p : TracerProg (Option α × Int)}

theorem uses_safeCopy_decoding (source : UInt64)
    (hp : p.Uses Decoding) : (safeCopy source p).Uses Decoding := by
  unfold safeCopy
  exact uses_ite trivial (uses_library (fun _ => trivial) hp)

theorem uses_decodeCopy (source : UInt64) (hp : p.Uses Decoding)
    (decode : α → Decoded) : (decodeCopy source p decode).Uses Decoding := by
  refine uses_bind (uses_safeCopy_decoding source hp) fun copied => ?_
  cases copied <;> trivial

theorem uses_decodeRequest (request argument : UInt64) :
    (decodeRequest request argument).Uses Decoding := by
  unfold decodeRequest
  refine uses_ite trivial (uses_ite (uses_decodeCopy _
    (uses_decoding_call (.copyCrtc argument) rfl) _) ?_)
  refine uses_ite (uses_decodeCopy _ (uses_decoding_call (.copyObjProperties argument) rfl) _) ?_
  refine uses_ite (uses_decodeCopy _ (uses_decoding_call (.copySetProperty argument) rfl) _) ?_
  refine uses_ite (uses_decodeCopy _ (uses_decoding_call (.copyPageFlip argument) rfl) _) ?_
  refine uses_ite (uses_decodeCopy _ (uses_decoding_call (.copyAtomic argument) rfl) _) ?_
  exact uses_library (fun _ => trivial) (uses_decoding_call (.describe request argument) rfl)

theorem uses_suppressedBy (cfg : Tracer.Config) (request argument : UInt64) :
    (suppressedBy cfg request argument).Uses Decoding := by
  refine uses_ite (uses_ite ?_ trivial) trivial
  refine uses_bind (uses_safeCopy_decoding _ (uses_decoding_call (.copySetProperty argument) rfl))
    fun copied => ?_
  cases copied with
  | none => trivial
  | some value => exact uses_bind (uses_perform rfl) fun _ => uses_ite trivial trivial

theorem obeys_exchangeDecoded {record : TraceRecord} (argument : UInt64) (v : Thread)
    (hr : Numbered n r) (hn : record.sequence = n.getD 0) :
    (exchangeDecoded record argument).Obeys reportMonitor (fun _ _ r' => Numbered n r' ∧
      ∃ before ∈ r'.sent, before.phase = record.phase ∧ before.sequence = n.getD 0 ∧
        before.request = record.request) v r := by
  unfold exchangeDecoded decodeRecord
  rw [bind_bind]
  refine obeys_bind (obeys_mono (obeys_decoding (uses_decodeRequest _ _) v hr) ?_)
  intro d v' r' hr'
  refine obeys_mono (obeys_exchange_report v' hr'.toNumbered hn) ?_
  rintro _ v'' r'' ⟨rfl, -⟩
  exact ⟨hr'.toNumbered.exchanged _, _, mem_append_right _ mem_cons_self, rfl, hn, rfl⟩

theorem obeys_emitDetails {f : α → TraceRecord} (hf : ∀ x, (f x).sequence = n.getD 0) (xs : List α)
    (v : Thread) (hr : Numbered n r) :
    (emitDetails (fun x => exchangeOrExit (f x)) xs).Obeys reportMonitor
      (fun _ _ r' => r' = { r with sent := r.sent ++ xs.map f }) v r := by
  induction xs generalizing v r with
  | nil => simp [emitDetails, Obeys, pure]
  | cons x xs ih =>
    refine obeys_bind (obeys_mono (obeys_exchange_report v hr (hf x)) ?_)
    rintro _ v' _ ⟨rfl, -⟩
    refine obeys_mono (ih v' (hr.exchanged (f x))) ?_
    rintro _ _ _ rfl
    simp [Report.exchanged]

/-- The record before a request with the sequence number `n` has been sent. -/
def BeforeSent (n : UInt32) (request : UInt64) (r : Report) : Prop :=
  ∃ before ∈ r.sent, before.phase = traceBefore ∧ before.sequence = n ∧ before.request = request

theorem BeforeSent.mono {n : UInt32} {r' : Report}
    (h : BeforeSent n request r) (hsent : r.sent ⊆ r'.sent) : BeforeSent n request r' := by
  obtain ⟨before, hmem, hbefore⟩ := h
  exact ⟨before, hsent hmem, hbefore⟩

/-- The detail of a connector has been sent. -/
def ConnectorSent (n : UInt32) (request : UInt64) (r : Report) (value : DrmCrtc) (i : Nat)
    (connector : UInt32) : Prop :=
  ∃ detail, detail.IsDetail n request "SETCRTC_CONNECTOR"
      (value.crtcId.toUInt64, i.toUInt64, connector.toUInt64, 0) ∧
    detail.detail.toList =
      ("index=" ++ toString i ++ " connector=" ++ toString connector).toList.take 63 ∧
    detail ∈ r.sent

variable {argument : UInt64}

theorem obeys_copyCrtc {Q : Option DrmCrtc → Thread → Report → Prop} (v : Thread)
    (hr : Numbered n r) (hnull : argument = 0 → Q none v r)
    (hcopied : ∀ value v', Q value v' { r with modeset := .copied value }) :
    (safeCopy argument (Tracer.call (.copyCrtc argument))).Obeys reportMonitor Q v r := by
  unfold safeCopy
  refine obeys_ite (fun h => hnull (by simpa using h)) fun _ =>
    obeys_library ⟨allows_aside rfl hr, ?_⟩
  rintro ⟨copied, errno⟩
  have hnext : reportMonitor.next r (.copyCrtc argument) (copied, errno) = _ :=
    next_aside rfl hr _
  rw [hnext]
  exact hcopied copied _

theorem obeys_copyConnectors {value : DrmCrtc}
    {Q : Option (Fin value.countConnectors.toNat → UInt32) → Thread → Report → Prop} (v : Thread)
    (hr : Numbered n r) (hmodeset : r.modeset = .copied (some value))
    (hnull : value.setConnectors = 0 → Q none v r)
    (hcopied : ∀ connectors v', Q connectors v'
      { r with modeset := .connectors value (connectors.map ofFn) }) :
    (safeCopy value.setConnectors (Tracer.call (.copyU32 value.setConnectors
      value.countConnectors.toNat))).Obeys reportMonitor Q v r := by
  unfold safeCopy
  refine obeys_ite (fun h => hnull (by simpa using h)) fun _ =>
    obeys_library ⟨allows_aside rfl hr, ?_⟩
  rintro ⟨copied, errno⟩
  have hnext : reportMonitor.next r (.copyU32 value.setConnectors value.countConnectors.toNat)
      (copied, errno) = _ := next_aside rfl hr _
  have hread : r.modeset.readArray value.setConnectors value.countConnectors.toNat
      (copied.map ofFn) = .connectors value (copied.map ofFn) := by
    simp [Modeset.readArray, hmodeset]
  have hnote : r.note ⟨.copyU32 value.setConnectors value.countConnectors.toNat,
      (copied, errno)⟩ = { r with modeset := .connectors value (copied.map ofFn) } :=
    congrArg (fun m => { r with modeset := m }) hread
  rw [hnext, hnote]
  exact hcopied copied _

theorem connectorSent_mem {value : DrmCrtc} {i : Nat} {connector : UInt32}
    (h : connectorRecord m request value i connector ∈ r.sent) :
    ConnectorSent m request r value i connector :=
  ⟨_, ⟨rfl, rfl, rfl, rfl, rfl⟩, String.toList_ofList, h⟩

/-- The connectors of a modeset are read and reported. -/
theorem obeys_emitSetcrtcDetails (v : Thread) (hr : Numbered (some m) r) :
    (emitSetcrtcDetails m request argument).Obeys reportMonitor
      (fun _ _ r' => Numbered (some m) r' ∧ r.sent ⊆ r'.sent ∧
        r'.modeset.Described argument (ConnectorSent m request r')) v r := by
  have hr' : ∀ modeset, Numbered (some m) { r with modeset := modeset } :=
    fun _ => ⟨hr.phase, hr.sequence⟩
  refine obeys_bind (obeys_copyCrtc v hr (fun hnull => ?_) fun copied v' => ?_)
  · exact ⟨hr, List.Subset.refl _, .inl hnull⟩
  cases copied with
  | none => exact ⟨hr' _, List.Subset.refl _, .inr trivial⟩
  | some value =>
    refine obeys_ite (fun hcount => ?_) fun _ => ?_
    · refine ⟨hr' _, List.Subset.refl _, .inr ?_⟩
      rcases Bool.or_eq_true_iff.1 hcount with hcount | hcount
      · exact .inl (beq_iff_eq.1 hcount)
      · exact .inr (.inl (of_decide_eq_true hcount))
    refine obeys_bind (obeys_copyConnectors v' (hr' _) rfl (fun hnull => ?_) fun copied v'' => ?_)
    · exact ⟨hr' _, List.Subset.refl _, .inr (.inr (.inr hnull))⟩
    cases copied with
    | none => exact ⟨hr' _, List.Subset.refl _, .inr trivial⟩
    | some connectors =>
      refine obeys_mono (obeys_emitDetails (n := some m) (fun _ => rfl) _ v'' (hr' _)) ?_
      rintro _ _ _ rfl
      refine ⟨⟨hr.phase, hr.sequence⟩, subset_append_left _ _,
        .inr ⟨length_ofFn, fun i connector hi => ?_⟩⟩
      rw [List.getElem?_ofFn] at hi
      split at hi
      case isFalse => cases hi
      case isTrue hlt =>
        cases hi
        refine connectorSent_mem (mem_append_right _ ?_)
        exact mem_map.2 ⟨⟨i, hlt⟩, mem_finRange _, rfl⟩

/-- What has been sent when a traced request goes to the kernel. -/
structure Prepared (m : UInt32) (request argument : UInt64) (r : Report) : Prop
    extends Numbered (some m) r where
  before : BeforeSent m request r
  details : request = drmModeSetCrtc → r.modeset.Described argument (ConnectorSent m request r)

theorem Prepared.alike {r' : Report} (hr : Prepared m request argument r)
    (h : Alike (some m) r r') (hsame : request = drmModeSetCrtc → r' = r) :
    Prepared m request argument r' := by
  refine ⟨h.toNumbered, hr.before.mono (by rw [h.sent]; exact List.Subset.refl _), fun hset => ?_⟩
  rw [hsame hset]
  exact hr.details hset

theorem Prepared.announces (hr : Prepared m request argument r) :
    r.Announces request argument (· ∈ r.sent) := by
  obtain ⟨before, hsent, hphase, hnumber, hrequest⟩ := hr.before
  exact fun _ => ⟨m, hr.sequence, ⟨before, hphase, hnumber, hrequest, hsent⟩, hr.details⟩

theorem obeys_emitRequestDetails (v : Thread) (hr : Numbered (some m) r)
    (hbefore : BeforeSent m request r) :
    (emitRequestDetails m request argument).Obeys reportMonitor
      (fun _ _ r' => Prepared m request argument r') v r := by
  unfold emitRequestDetails
  refine obeys_ite (fun _ => ?_) fun hrequest => ?_
  · refine obeys_mono (obeys_emitSetcrtcDetails v hr) ?_
    rintro _ v' r' ⟨hr', hsent, hdetails⟩
    exact ⟨hr', hbefore.mono hsent, fun _ => hdetails⟩
  · -- the other details are not those of a modeset
    have hother : ∀ r', Holding (some m) r.sent r' → Prepared m request argument r' :=
      fun r' hr' =>
        ⟨hr'.toNumbered, hbefore.mono hr'.sent, fun h => absurd (beq_iff_eq.2 h) hrequest⟩
    have hholding : Holding (some m) r.sent r := ⟨hr, List.Subset.refl _⟩
    refine obeys_ite (fun _ => ?_) fun _ => hother r hholding
    exact obeys_mono ((holdingParts (some m) r.sent).emitAtomicDetails rfl request argument v r
      hholding) fun _ _ r' hr' => hother r' hr'

theorem obeys_traceBeforeCall (v : Thread) (hr : Numbered none r) (hsent : r.sent = []) :
    (traceBeforeCall true request argument).Obeys reportMonitor
      (fun m _ r' => Prepared m request argument r') v r := by
  have hfetch : reportMonitor.allows r (.shared .fetchAddSequence) :=
    ⟨by rw [hr.phase]; trivial, hr.sequence, hsent⟩
  refine obeys_bind ⟨hfetch, fun m => ?_⟩
  have hr' : Numbered (some m) (r.next ⟨.shared .fetchAddSequence, m⟩) :=
    ⟨congrArg (exchangeMonitor.next · (.shared .fetchAddSequence) m) hr.phase, rfl⟩
  refine obeys_bind (obeys_mono (obeys_exchangeDecoded argument v hr' rfl) ?_)
  rintro _ v' r'' ⟨hr'', before, hmem, hphase, hnumber, hrequest⟩
  refine obeys_bind (obeys_mono (obeys_emitRequestDetails v' hr''
    ⟨before, hmem, hphase, hnumber, hrequest⟩) fun _ _ _ h => h)

end Before

/-! ## The entry points -/

section Entries

variable {cfg : Tracer.Config} {n : Option UInt32} {r : Report} {v : Thread}

/-- A thread has left the interposer. -/
def Left (v : Thread) (r : Report) : Prop := r.phase = .idle ∧ v.inTrace = false

variable {argument : UInt64} {traced : Bool}

/-- A request is passed to the kernel after what is to be sent before it. -/
theorem obeys_passRequest {fd : Int} (hr : Numbered n r) (hm : m = n.getD 0)
    (hannounces : r.Announces request argument (· ∈ r.sent)) :
    (passRequest cfg traced m fd request argument).Obeys reportMonitor
      (fun _ v' r' => Left v' r') v r := by
  have hallows : reportMonitor.allows r (.ioctl fd request argument) :=
    ⟨by rw [hr.phase]; trivial, hannounces⟩
  have hparts := holdingParts n []
  have hkernel : (kernelCall fd request argument).Obeys reportMonitor
      (fun _ _ r' => Holding n [] r') v r := by
    refine obeys_bind (obeys_bind ⟨hallows, fun answer => ?_⟩)
    have hr' : Holding n [] (r.next ⟨.ioctl fd request argument, answer⟩) :=
      ⟨⟨congrArg (exchangeMonitor.next · (.ioctl fd request argument) answer) hr.phase,
        hr.sequence⟩, nil_subset _⟩
    cases answer with
    | ok result => exact hr'
    | error errno => exact obeys_bind hr'
  refine obeys_bind (obeys_mono hkernel fun kernel v₁ r₁ h₁ => ?_)
  refine obeys_bind (obeys_mono (hparts.fallBack cfg fd request argument hm _ _ v₁ r₁ h₁) ?_)
  intro fallback v₂ r₂ h₂
  refine obeys_bind (obeys_mono (hparts.traceAfterCall traced hm request argument _ _ v₂ r₂ h₂) ?_)
  intro _ v₃ r₃ h₃
  exact ⟨h₃.phase, rfl⟩

theorem obeys_answerSuppressed {suppressed : SetProperty} (hr : Numbered n r) (hm : m = n.getD 0) :
    (answerSuppressed traced m request argument suppressed).Obeys reportMonitor
      (fun _ v' r' => Left v' r') v r := by
  have hparts := holdingParts n []
  have htrace : ∀ v r, Holding n [] r → (traceSuppressed m request argument suppressed).Obeys
      reportMonitor (fun _ _ r' => Holding n [] r') v r :=
    hparts.sequential.bind (hparts.exchange _ hm) fun _ => hparts.exchangeDecoded hm argument
  have honly : (onlyIf traced (traceSuppressed m request argument suppressed)).Obeys
      reportMonitor (fun _ _ r' => Holding n [] r') v r :=
    hparts.onlyIf htrace v r ⟨hr, nil_subset _⟩
  refine obeys_bind (obeys_mono honly fun _ v' r' h => ?_)
  exact ⟨h.phase, rfl⟩

/-- The part of `ioctl` behind the first record. -/
theorem obeys_answered {fd : Int} (hr : Numbered n r) (hm : m = n.getD 0)
    (hannounces : ∀ r', Alike n r r' → (request = drmModeSetCrtc → r' = r) →
      r'.Announces request argument (· ∈ r'.sent)) :
    (suppressedBy cfg request argument >>= fun suppressed =>
      match suppressed with
      | some suppressed => answerSuppressed traced m request argument suppressed
      | none => passRequest cfg traced m fd request argument).Obeys reportMonitor
        (fun _ v' r' => Left v' r') v r := by
  by_cases hset : request = drmModeSetCrtc
  · -- a modeset sets no property
    subst hset
    exact obeys_passRequest hr hm (hannounces r hr.alike fun _ => rfl)
  · refine obeys_bind (obeys_mono (obeys_decoding (uses_suppressedBy cfg request argument) v hr) ?_)
    intro suppressed v' r' hr'
    cases suppressed with
    | some suppressed => exact obeys_answerSuppressed hr'.toNumbered hm
    | none => exact obeys_passRequest hr'.toNumbered hm (hannounces r' hr' fun h => absurd h hset)

theorem isDrmRequest_setCrtc : isDrmRequest drmModeSetCrtc = true := by decide

/-- `ioctl` reports a call before it makes it. -/
theorem obeys_ioctl_report (htraced : cfg.traced = true) (fd : Int) (request argument : UInt64)
    (hv : v.inTrace = false) :
    (ioctl cfg fd request argument).Obeys reportMonitor (fun _ v' r' => Left v' r') v {} := by
  refine obeys_bind (obeys_ite (fun hplain => ?_) fun _ => ?_)
  · -- a request that is not the display's is no modeset
    have hrequest : request ≠ drmModeSetCrtc := by
      rintro rfl
      rw [htraced, hv, isDrmRequest_setCrtc] at hplain
      cases hplain
    have hannounces : Report.Announces {} request argument (· ∈ []) := by
      rintro (h | h)
      · cases h
      · exact absurd h hrequest
    refine obeys_bind ⟨⟨trivial, hannounces⟩, fun answer => ?_⟩
    cases answer with
    | ok result => exact ⟨rfl, hv⟩
    | error errno => exact obeys_bind ⟨rfl, hv⟩
  · refine obeys_bind (obeys_bind (obeys_bind ⟨⟨trivial, trivial⟩, fun steady => ?_⟩))
    have hr : Numbered none (Report.next {} ⟨.shared .loadSteady, steady⟩) := ⟨rfl, rfl⟩
    show Obeys _ _ (traceBeforeCall (!steady || request == drmModeSetCrtc) request argument >>= _)
      _ (Report.next {} ⟨.shared .loadSteady, steady⟩)
    cases htrace : (!steady || request == drmModeSetCrtc) with
    | true =>
      refine obeys_bind (obeys_mono (obeys_traceBeforeCall _ hr rfl) fun m v' r' hr' => ?_)
      exact obeys_answered hr'.toNumbered rfl fun r'' h hsame => (hr'.alike h hsame).announces
    | false =>
      refine obeys_bind (obeys_answered hr rfl fun r'' h _ => ?_)
      rw [Bool.or_eq_false_iff] at htrace
      rintro (hsteady | hrequest)
      · rw [h.steady] at hsteady
        cases hsteady
        cases htrace.1
      · rw [hrequest] at htrace
        cases htrace.2

theorem obeys_traceIgnored (property : Property) (reason : String) (hr : r = {})
    (hv : v.inTrace = false) :
    (traceIgnored cfg property reason).Obeys reportMonitor (fun _ v' r' => Left v' r') v r := by
  subst hr
  refine obeys_bind (obeys_ite (fun _ => ?_) fun _ => ⟨rfl, hv⟩)
  refine obeys_bind (obeys_bind ⟨⟨trivial, trivial⟩, fun steady => ?_⟩)
  refine obeys_ite (fun _ => obeys_bind (obeys_bind ?_)) fun _ => ⟨rfl, hv⟩
  refine ⟨⟨trivial, rfl, rfl⟩, fun m => obeys_bind (obeys_mono (obeys_exchange_report
    (n := some m) _ ⟨rfl, rfl⟩ rfl) ?_)⟩
  rintro _ v' r' ⟨rfl, -⟩
  exact ⟨rfl, rfl⟩

theorem obeys_getProperty_report (fd : Int) (id : UInt32) (hv : v.inTrace = false) :
    (drmModeGetPropertyHook cfg fd id).Obeys reportMonitor (fun _ v' r' => Left v' r') v {} := by
  refine obeys_bind (obeys_library ⟨⟨trivial, trivial⟩, ?_⟩)
  rintro ⟨found, errno⟩
  cases found with
  | none => exact ⟨rfl, hv⟩
  | some property =>
    change Obeys reportMonitor (fun (_ : Option Property) v' r' => Left v' r') _ _ _
    dsimp only
    cases ignoredReason cfg property with
    | none => exact ⟨rfl, hv⟩
    | some reason =>
      refine obeys_bind (obeys_mono (obeys_traceIgnored property reason rfl hv) ?_)
      rintro _ v' r' ⟨hphase, hv'⟩
      refine obeys_bind (obeys_library ⟨⟨by rw [hphase]; trivial, trivial⟩, fun a => ?_⟩)
      exact ⟨congrArg (exchangeMonitor.next · (.freeProperty property) a) hphase, hv'⟩

theorem obeys_load_report (hv : v.inTrace = false) :
    (traceInitialize cfg).Obeys reportMonitor (fun _ v' r' => Left v' r') v {} := by
  refine obeys_ite (fun _ => ?_) fun _ => ⟨rfl, hv⟩
  refine obeys_mono (obeys_exchange_report (n := none) v ⟨rfl, rfl⟩ rfl) ?_
  rintro _ v' r' ⟨rfl, hv'⟩
  exact ⟨rfl, hv'.trans hv⟩

/-- Whatever a thread enters, it keeps to what is to be reported. -/
theorem obeys_entry_report (htraced : cfg.traced = true) (entry : Entry) (hv : v.inTrace = false) :
    (entry.code cfg).Obeys reportMonitor (fun _ v' r' => Left v' r') v {} := by
  cases entry with
  | ioctl fd request argument =>
    exact obeys_bind (obeys_mono (obeys_ioctl_report htraced fd request argument hv)
      fun _ _ _ h => h)
  | getProperty fd id =>
    exact obeys_bind (obeys_mono (obeys_getProperty_report fd id hv) fun _ _ _ h => h)
  | load => exact obeys_load_report hv

end Entries

end HdmiLos.Relay
