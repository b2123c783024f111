import HdmiLos.Tracer.Atomic
import HdmiLos.Tracer.Proofs.FallbackProofs

/-!
# The trace of an atomic request

The check before the walk compares each count with what is left up to the bound, so the total in 32
bits is the exact one. Both walks over the counts then agree: the flat index of a property is the
number of properties of the objects before it plus its index in its object.
-/

namespace HdmiLos.Tracer

open Interaction Prog AtomicArgument List

namespace AtomicArgument

variable (a : AtomicArgument)

theorem offset_succ (i : Nat) : a.offset (i + 1) = a.offset i + (a.counts i).toNat := by
  simp [offset, range_succ]

variable {i : Nat}

theorem offset_mono {j : Nat} (h : i ≤ j) : a.offset i ≤ a.offset j := by
  induction h with
  | refl => exact Nat.le_refl _
  | step _ ih =>
    rw [offset_succ]
    omega

/-! ## The total -/

/-- The sum of the counts of a list. -/
def sumOf (counts : List UInt32) : Nat := (counts.map UInt32.toNat).sum

variable {total : UInt32}

theorem bound_sub (h : total.toNat ≤ kMaxAtomicProperties.toNat) :
    (kMaxAtomicProperties - total).toNat = kMaxAtomicProperties.toNat - total.toNat :=
  UInt32.toNat_sub_of_le _ _ (UInt32.le_iff_toNat_le.mpr h)

theorem toNat_add_of_fits {count : UInt32}
    (h : total.toNat + count.toNat ≤ kMaxAtomicProperties.toNat) :
    (total + count).toNat = total.toNat + count.toNat := by
  have hbound : kMaxAtomicProperties.toNat < 2 ^ 32 := by decide
  rw [UInt32.toNat_add]
  exact Nat.mod_eq_of_lt (by omega)

theorem exceeds_iff {count : UInt32} (h : total.toNat ≤ kMaxAtomicProperties.toNat) :
    count > kMaxAtomicProperties - total ↔
      kMaxAtomicProperties.toNat < total.toNat + count.toNat := by
  rw [gt_iff_lt, UInt32.lt_iff_toNat_lt, bound_sub h]
  omega

theorem atomicTotal_go (counts : List UInt32) (index : Nat) (total : UInt32)
    (h : total.toNat ≤ kMaxAtomicProperties.toNat) :
    if total.toNat + sumOf counts ≤ kMaxAtomicProperties.toNat then
      ∃ t, atomicTotal.go index total counts = .ok t ∧ t.toNat = total.toNat + sumOf counts
    else ∃ e, atomicTotal.go index total counts = .error e := by
  induction counts generalizing index total with
  | nil => simpa [sumOf, atomicTotal.go] using h
  | cons count counts ih =>
    have hsum : sumOf (count :: counts) = count.toNat + sumOf counts := by simp [sumOf]
    rw [hsum, atomicTotal.go]
    by_cases hexceeds : count > kMaxAtomicProperties - total
    · have hlt := (exceeds_iff h).mp hexceeds
      rw [if_pos hexceeds, if_neg (by omega)]
      exact ⟨_, rfl⟩
    · have hle := mt (exceeds_iff h).mpr hexceeds
      have hadd : (total + count).toNat = total.toNat + count.toNat :=
        toNat_add_of_fits (by omega)
      have hrest := ih (index + 1) (total + count) (by omega)
      rw [hadd, Nat.add_assoc] at hrest
      rw [if_neg hexceeds]
      exact hrest

theorem sumOf_counts (i : Nat) : sumOf ((range i).map a.counts) = a.offset i := by
  rw [sumOf, offset, map_map]
  rfl

/-- The running total is the exact number as long as it is within the bound, and there is none
    beyond. -/
theorem running_spec (i : Nat) : if a.offset i ≤ kMaxAtomicProperties.toNat then
      ∃ t, a.running i = .ok t ∧ t.toNat = a.offset i
    else ∃ e, a.running i = .error e := by
  have h := atomicTotal_go ((range i).map a.counts) 0 0 (by decide)
  rw [sumOf_counts] at h
  simpa [running, atomicTotal] using h

theorem running_ok (h : a.running i = .ok total) :
    total.toNat = a.offset i ∧ a.offset i ≤ kMaxAtomicProperties.toNat := by
  have hspec := a.running_spec i
  split at hspec
  case isTrue hle =>
    obtain ⟨t, ht, hexact⟩ := hspec
    rw [ht] at h
    cases h
    exact ⟨hexact, hle⟩
  case isFalse =>
    obtain ⟨e, he⟩ := hspec
    rw [he] at h
    cases h

/-! ## The walk -/

variable {α : Type}

theorem getElem?_buffer (array : Nat → α) {n : Nat} (h : i < n) :
    (buffer array n)[i]? = some (array i) := by
  simp [buffer, h]

theorem toNat_succ {x : UInt32} {n : Nat} (hx : x.toNat = n) (h : n < 1000) :
    (x + 1).toNat = n + 1 := by
  rw [UInt32.toNat_add, hx]
  exact Nat.mod_eq_of_lt (by simp; omega)

/-- The rounds of the inner loop from the `j`-th on. -/
theorem walkProperties_eq {j remaining : Nat} {objectIndex localIndex propertyIndex : UInt32}
    (hfits : a.Fits) (hi : i < a.size) (hobject : objectIndex.toNat = i)
    (hj : j + remaining = (a.counts i).toNat) (hlocal : localIndex.toNat = j)
    (hproperty : propertyIndex.toNat = a.offset i + j) :
    ∃ after : UInt32, after.toNat = a.offset (i + 1) ∧
      walkProperties (buffer a.objects a.size) (buffer a.properties a.total)
        (buffer a.values a.total) objectIndex remaining localIndex propertyIndex =
      some ((range' j remaining).map fun j =>
        ⟨a.objects i, a.properties (a.offset i + j), a.values (a.offset i + j), j.toUInt32⟩,
        after) := by
  have hlast : a.offset (i + 1) = a.offset i + (a.counts i).toNat := a.offset_succ i
  have htotal : a.offset (i + 1) ≤ a.total := a.offset_mono hi
  have hbound : a.total ≤ 128 := hfits.2
  induction remaining generalizing j localIndex propertyIndex with
  | zero => exact ⟨propertyIndex, by omega, rfl⟩
  | succ remaining ih =>
    have hlocal' : (localIndex + 1).toNat = j + 1 := toNat_succ hlocal (by omega)
    have hproperty' : (propertyIndex + 1).toNat = a.offset i + (j + 1) := by
      rw [toNat_succ hproperty (by omega), Nat.add_assoc]
    obtain ⟨after, hafter, hrest⟩ := ih (by omega) hlocal' hproperty'
    refine ⟨after, hafter, ?_⟩
    have hhere : localIndex = j.toUInt32 := UInt32.toNat_inj.mp (by
      rw [hlocal]
      exact (Nat.mod_eq_of_lt (by omega)).symm)
    rw [walkProperties, hobject, hproperty, getElem?_buffer _ hi, getElem?_buffer _ (by omega),
      getElem?_buffer _ (by omega), hrest, hhere]
    rfl

/-- The rounds of the outer loop from the `i`-th on. -/
theorem walkObjects_eq {remaining : Nat} {objectIndex propertyIndex : UInt32} (hfits : a.Fits)
    (hi : i + remaining = a.size) (hobject : objectIndex.toNat = i)
    (hproperty : propertyIndex.toNat = a.offset i) :
    walkObjects (buffer a.objects a.size) (buffer a.counts a.size)
        (buffer a.properties a.total) (buffer a.values a.total) remaining objectIndex
        propertyIndex =
      some ((range' i remaining).flatMap a.detailsOf) := by
  have hsize : a.size ≤ 32 := hfits.1
  induction remaining generalizing i objectIndex propertyIndex with
  | zero => rfl
  | succ remaining ih =>
    have hzero : (0 : UInt32).toNat = 0 := rfl
    obtain ⟨after, hafter, hhere⟩ :=
      a.walkProperties_eq hfits (by omega) hobject (Nat.zero_add _) hzero hproperty
    have hrest := ih (i := i + 1) (by omega) (toNat_succ hobject (by omega)) hafter
    rw [walkObjects, hobject, getElem?_buffer _ (by omega)]
    simp only [Option.bind_eq_bind, Option.bind_some, hhere, hrest]
    rw [range'_succ, flatMap_cons, detailsOf, range_eq_range']
    rfl

theorem walk_eq (hfits : a.Fits) : a.walk = some a.details := by
  rw [walk, a.walkObjects_eq hfits (i := 0) (Nat.zero_add _) rfl rfl, details, range_eq_range']

theorem ofFn_buffer (array : Nat → α) (n : Nat) :
    ofFn (fun i : Fin n => array i) = buffer array n := by
  refine ext_getElem (by simp [buffer]) ?_
  intro i _ _
  simp [buffer]

end AtomicArgument

/-! ## Exchanges -/

section Exchanges

variable {ω : Type} {env : Env ω} {s : Sys ω}

@[simp] theorem sent_append (log log' : List Event) : sent (log ++ log') = sent log ++ sent log' :=
  filterMap_append

/-- The operations that send no record. -/
def Unsent : Act Thread Io → Prop
  | .io c => ∀ record, c ≠ .send record
  | _ => True

theorem sent_other {c : Io} (hc : ∀ record, c ≠ .send record) (ans : c.Ans) :
    sent [⟨c, ans⟩] = [] := by
  cases c with
  | send record => exact absurd rfl (hc record)
  | _ => rfl

theorem wp_unsent {p : TracerProg α} (hp : p.Uses Unsent) (s : Sys ω) :
    wp (sysHandler env) p (fun _ t => sent t.log = sent s.log)
      s (fun t => sent t.log = sent s.log) := by
  refine wp_process_invariant (I := fun t => sent t.log = sent s.log) (fun _ _ _ h => h)
    (fun _ _ h => h) ?_ hp rfl
  intro t c ans w hc ht _
  rw [sent_append, ht, sent_other hc, append_nil]

/-- What follows the sending of a record. -/
def awaitAck (record : TraceRecord) (ok : Bool) : TracerProg Bool :=
  if ok then do
    if ← library (call .waitReadable) then receiveAck record else pure false
  else pure false

theorem exchangeOrExit_eq (record : TraceRecord) :
    exchangeOrExit record = library (call (.send record)) >>= fun ok =>
      awaitAck record ok >>= fun acknowledged => if acknowledged then pure () else exit := by
  rw [exchangeOrExit, exchangeRecord, bind_bind]
  rfl

theorem uses_awaitAck (record : TraceRecord) (ok : Bool) : (awaitAck record ok).Uses Unsent := by
  have hassign : ∀ f, Unsent (.modify f) := fun _ => trivial
  have hack : (receiveAck record).Uses Unsent := by
    refine uses_bind (uses_library hassign (uses_perform (nofun : ∀ r, Io.recv ≠ .send r)))
      fun received => ?_
    cases received with
    | none => trivial
    | some ack => exact uses_ite (uses_bind (uses_ite (uses_perform
        (nofun : ∀ r, Io.shared .storeSteady ≠ .send r)) trivial) fun _ => trivial) trivial
  refine uses_ite ?_ trivial
  exact uses_bind (uses_library hassign (uses_perform (nofun : ∀ r, Io.waitReadable ≠ .send r)))
    fun _ => uses_ite hack trivial

/-- An exchange sends its record and nothing else. -/
theorem wp_exchangeOrExit_sent (record : TraceRecord) (s : Sys ω) :
    wp (sysHandler env) (exchangeOrExit record) (fun _ t => sent t.log = sent s.log ++ [record])
      s (fun t => sent t.log <+: sent s.log ++ [record]) := by
  rw [exchangeOrExit_eq, wp_bind, wp_library]
  refine wp_call (.send record) (prefix_append _ _) fun (a : Bool × Int) w _ => ?_
  have hsent : sent (s.log ++ [⟨.send record, a⟩]) = sent s.log ++ [record] := sent_append _ _
  have hrest : (awaitAck record a.1 >>= fun acknowledged =>
      if acknowledged then pure () else exit).Uses Unsent :=
    uses_bind (uses_awaitAck record a.1) fun _ => uses_ite trivial
      (uses_bind (uses_perform (nofun : ∀ r, Io.exit 125 ≠ .send r)) nofun)
  refine wp_mono (wp_unsent hrest _) ?_ ?_
  · intro _ t ht
    exact ht.trans hsent
  · intro t ht
    have heq : sent t.log = sent s.log ++ [record] := ht.trans hsent
    exact ⟨[], by simp [heq]⟩

theorem wp_exchangeOrExit_acknowledged {record : TraceRecord}
    (hack : Acknowledging env record.sequence) (s : Sys ω) :
    wp (sysHandler env) (exchangeOrExit record) (fun _ _ => True) s (fun _ => False) := by
  rw [exchangeOrExit_eq, wp_bind, wp_library]
  obtain ⟨errno, w, hsend⟩ := hack.send record s.world
  refine wp_io_answered hsend ?_
  simp only [awaitAck, if_true, wp_bind, wp_library]
  obtain ⟨errno', w', hwait⟩ := hack.waitReadable w
  refine wp_io_answered hwait ?_
  simp only [if_true, receiveAck, wp_bind, wp_library]
  obtain ⟨ack, errno'', w'', hrecv, hacks⟩ := hack.recv w'
  refine wp_io_answered hrecv ?_
  simp only [hacks record rfl, if_true, wp_bind, onlyIf, wp_ite, wp_pure]
  split
  · obtain ⟨w₃, hsteady⟩ := hack.storeSteady w''
    exact wp_io_answered hsteady trivial
  · trivial

/-- Only the agent can cut an exchange off. -/
theorem wp_exchangeOrExit_cut {sequence : UInt32} {record : TraceRecord}
    (hrecord : record.sequence = sequence) (s : Sys ω) :
    wp (sysHandler env) (exchangeOrExit record) (fun _ t => sent t.log = sent s.log ++ [record])
      s (fun t => ¬Acknowledging env sequence ∧ sent t.log <+: sent s.log ++ [record]) := by
  have hsent := @wp_exchangeOrExit_sent _ env record s
  by_cases hack : Acknowledging env sequence
  · rw [← hrecord] at hack
    exact wp_mono (wp_and hsent (wp_exchangeOrExit_acknowledged hack s)) (fun _ _ h => h.1)
      fun _ h => h.2.elim
  · exact wp_mono hsent (fun _ _ h => h) fun _ h => ⟨hack, h⟩

/-- The records of a list are exchanged one after the other. -/
theorem wp_emitDetails_sent {sequence : UInt32} {f : α → TraceRecord}
    (hf : ∀ x, (f x).sequence = sequence) (xs : List α) (s : Sys ω) :
    wp (sysHandler env) (emitDetails (fun x => exchangeOrExit (f x)) xs)
      (fun _ t => sent t.log = sent s.log ++ xs.map f)
      s (fun t => ¬Acknowledging env sequence ∧ sent t.log <+: sent s.log ++ xs.map f) := by
  induction xs generalizing s with
  | nil => simp [emitDetails]
  | cons x xs ih =>
    rw [emitDetails, wp_bind]
    refine wp_mono (wp_exchangeOrExit_cut (hf x) s) ?_ ?_
    · intro _ t ht
      have hrest := ih t
      rw [ht] at hrest
      simpa using hrest
    · rintro t ⟨hack, hprefix⟩
      exact ⟨hack, hprefix.trans ⟨xs.map f, by simp⟩⟩

end Exchanges

/-! ## Reading the arrays -/

section Reading

variable {ω α : Type} {env : Env ω} {H : Sys ω → Prop} {s : Sys ω} {source : UInt64}

theorem wp_safeCopy_read {p : TracerProg (Option α × Int)} {value : α}
    {Q : Option α → Sys ω → Prop} (hsource : source ≠ 0)
    (hp : wp (sysHandler env) p (fun a t => a.1 = some value ∧ sent t.log = sent s.log) s H)
    (hQ : ∀ t, sent t.log = sent s.log → Q (some value) t) :
    wp (sysHandler env) (safeCopy source p) Q s H := by
  refine wp_safeCopy (fun hnull => absurd hnull hsource) fun _ => wp_mono hp ?_ fun _ h => h
  rintro ⟨_, errno⟩ t ⟨rfl, ht⟩
  exact hQ _ ht

end Reading

/-! ## The request -/

section Request

variable {ω : Type} {env : Env ω} {a : AtomicArgument} {sequence : UInt32} {request : UInt64}
  {argument : UInt64} {s t : Sys ω}

/-- The program returns after the records that describe the request, counted from `s`, or the agent
    cuts it off. -/
def Traced (env : Env ω) (a : AtomicArgument) (sequence : UInt32) (request : UInt64) (s : Sys ω)
    (p : TracerProg Unit) (t : Sys ω) : Prop :=
  wp (sysHandler env) p (fun _ t => ∃ records, a.Describes sequence request records ∧
      sent t.log = sent s.log ++ records)
    t (fun t => ¬Acknowledging env sequence ∧ ∃ records, a.Describes sequence request records ∧
      sent t.log <+: sent s.log ++ records)

/-- The one record that says that the request is beyond the bounds. -/
theorem traced_truncated (ht : sent t.log = sent s.log) (hsize : a.size ≠ 0) (hfits : ¬a.Fits)
    (a0 a1 a2 a3 : UInt64) (detail : String) :
    Traced env a sequence request s
      (emitDetail sequence request "ATOMIC_TRUNCATED" a0 a1 a2 a3 detail) t := by
  have hsent := @wp_exchangeOrExit_cut _ env sequence
    (detailRecord sequence request "ATOMIC_TRUNCATED" a0 a1 a2 a3 detail) rfl t
  have hdescribes : a.Describes sequence request
      [detailRecord sequence request "ATOMIC_TRUNCATED" a0 a1 a2 a3 detail] := by
    rw [AtomicArgument.Describes, if_neg hsize, if_neg hfits]
    exact ⟨_, rfl, rfl, rfl, rfl, rfl⟩
  rw [ht] at hsent
  exact wp_mono hsent (fun _ _ h => ⟨_, hdescribes, h⟩) fun _ h => ⟨h.1, _, hdescribes, h.2⟩

theorem traced_emitAtomicWalk (ht : sent t.log = sent s.log) (hsize : a.size ≠ 0) (hfits : a.Fits) :
    Traced env a sequence request s
      (emitAtomicWalk sequence request (buffer a.objects a.size) (buffer a.counts a.size)
        (buffer a.properties a.total) (buffer a.values a.total)) t := by
  have hwalk := a.walk_eq hfits
  have hlength : (buffer a.objects a.size).length = a.size := by simp [buffer]
  have hdescribes : a.Describes sequence request
      (a.details.map (atomicRecord sequence request)) := by
    rw [AtomicArgument.Describes, if_neg hsize, if_pos hfits, forall₂_map_left_iff]
    exact forall₂_same.2 fun d _ => ⟨rfl, rfl, rfl, rfl, rfl⟩
  have hsent := @wp_emitDetails_sent _ env _ sequence (atomicRecord sequence request)
    (fun _ => rfl) a.details t
  rw [AtomicArgument.walk] at hwalk
  rw [ht] at hsent
  rw [emitAtomicWalk, hlength, hwalk]
  exact wp_mono hsent (fun _ _ h => ⟨_, hdescribes, h⟩) fun _ h => ⟨h.1, _, hdescribes, h.2⟩

/-- The properties of a request within the bounds, once its objects and counts were read. -/
theorem traced_emitAtomicProperties (hread : Readable env argument a)
    (ht : sent t.log = sent s.log) (hsize : a.size ≠ 0) (hfits : a.Fits) {total : UInt32}
    (htotal : total.toNat = a.total) :
    Traced env a sequence request s
      (emitAtomicProperties sequence request a.value (buffer a.objects a.size)
        (buffer a.counts a.size) total) t := by
  rw [emitAtomicProperties]
  by_cases hzero : total = 0
  · have hnone : a.total = 0 := by
      rw [← htotal, hzero]
      rfl
    have hwalk : Traced env a sequence request s _ t := traced_emitAtomicWalk ht hsize hfits
    rw [if_pos (by simpa using hzero)]
    rw [hnone] at hwalk
    exact hwalk
  · have hsome : a.total ≠ 0 := by
      rw [← htotal]
      exact fun h => hzero (UInt32.toNat_inj.mp h)
    have hproperties := hread.properties hsome
    have hvalues := hread.values hsome
    rw [← htotal] at hproperties hvalues
    rw [if_neg (by simpa using hzero), Traced, wp_bind]
    obtain ⟨_, _, hcopied⟩ := hproperties.2 t.world
    refine wp_safeCopy_read hproperties.1 (wp_io_answered hcopied ⟨rfl, by simp [sent]⟩)
      fun u hu => ?_
    rw [wp_bind]
    obtain ⟨_, _, hcopied'⟩ := hvalues.2 u.world
    refine wp_safeCopy_read hvalues.1 (wp_io_answered hcopied' ⟨rfl, by simp [sent]⟩) fun v hv => ?_
    dsimp only
    rw [ofFn_buffer, ofFn_buffer, htotal]
    exact traced_emitAtomicWalk (hv.trans (hu.trans ht)) hsize hfits

theorem traced_emitAtomicDetails (hread : Readable env argument a) :
    Traced env a sequence request s (emitAtomicDetails sequence request argument) s := by
  rw [Traced, emitAtomicDetails, wp_bind]
  obtain ⟨_, _, hcopied⟩ := hread.value s.world
  refine wp_safeCopy_read hread.nonnull (wp_io_answered hcopied ⟨rfl, by simp [sent]⟩)
    fun t ht => ?_
  dsimp only
  by_cases hzero : a.value.countObjs = 0
  · have hsize : a.size = 0 := by rw [AtomicArgument.size, hzero]; rfl
    rw [if_pos (by simpa using hzero), wp_pure]
    exact ⟨[], by rw [AtomicArgument.Describes, if_pos hsize], by simpa using ht⟩
  have hsize : a.size ≠ 0 := fun h => hzero (UInt32.toNat_inj.mp h)
  rw [if_neg (by simpa using hzero)]
  by_cases hmany : a.value.countObjs > kMaxAtomicObjects
  · have hfits : ¬a.Fits := fun h =>
      absurd (UInt32.lt_iff_toNat_lt.mp hmany) (Nat.not_lt.mpr h.1)
    rw [if_pos hmany]
    exact traced_truncated ht hsize hfits _ _ _ _ _
  have hfew : a.size ≤ kMaxAtomicObjects.toNat :=
    Nat.not_lt.mp fun h => hmany (UInt32.lt_iff_toNat_lt.mpr h)
  have hreadsObjects : ReadsU32 env a.value.objs a.value.countObjs.toNat a.objects :=
    hread.objects hsize
  have hreadsCounts : ReadsU32 env a.value.countProps a.value.countObjs.toNat a.counts :=
    hread.counts hsize
  rw [if_neg hmany, wp_bind]
  obtain ⟨_, _, hcopied⟩ := hreadsObjects.2 t.world
  refine wp_safeCopy_read hreadsObjects.1 (wp_io_answered hcopied ⟨rfl, by simp [sent]⟩)
    fun u hu => ?_
  rw [wp_bind]
  obtain ⟨_, _, hcopied'⟩ := hreadsCounts.2 u.world
  refine wp_safeCopy_read hreadsCounts.1 (wp_io_answered hcopied' ⟨rfl, by simp [sent]⟩)
    fun v hv => ?_
  have hobjects : ofFn (fun i : Fin a.value.countObjs.toNat => a.objects i) =
      buffer a.objects a.size := ofFn_buffer a.objects a.size
  have hcounts : ofFn (fun i : Fin a.value.countObjs.toNat => a.counts i) =
      buffer a.counts a.size := ofFn_buffer a.counts a.size
  simp only [hobjects, hcounts]
  have hlog : sent v.log = sent s.log := hv.trans (hu.trans ht)
  have hspec := a.running_spec a.size
  split at hspec
  case isTrue hle =>
    obtain ⟨total, hrunning, htotal⟩ := hspec
    rw [AtomicArgument.running] at hrunning
    rw [show buffer a.counts a.size = (range a.size).map a.counts from rfl, hrunning]
    exact traced_emitAtomicProperties hread hlog hsize ⟨hfew, hle⟩ htotal
  case isFalse hgt =>
    obtain ⟨e, hrunning⟩ := hspec
    rw [AtomicArgument.running] at hrunning
    rw [show buffer a.counts a.size = (range a.size).map a.counts from rfl, hrunning]
    exact traced_truncated hlog hsize (fun h => hgt h.2) _ _ _ _ _

/-- The trace of an atomic request whose arrays can be read has one record for each property, in
    the order of the flattened arrays, or one that says that the request is beyond the bounds. -/
theorem atomic_exactly_traced (hread : Readable env argument a) :
    ExactlyTraced env argument a sequence request s where
  emitted := traced_emitAtomicDetails hread
  inBounds := a.walk_eq
  unwrapped _ _ _ h := a.running_ok h

end Request

/-! ## Two objects -/

/-- Two objects, the first with one property and the second with two. -/
def twoObjects : AtomicArgument where
  value := { countObjs := 2, objs := 0x100, countProps := 0x200, props := 0x300, propValues := 0x400 }
  objects i := if i = 0 then 31 else 42
  counts i := if i = 0 then 1 else 2
  properties i := 20 + i.toUInt32
  values i := i.toUInt64

/-- The memory that holds them, and an agent that acknowledges every record of request 7. -/
def twoObjectsEnv : Env Unit
  | .copyAtomic _, w => some ((some twoObjects.value, 0), w)
  | .copyU32 source _, w =>
    if source = 0x100 then some ((some fun i => twoObjects.objects i, 0), w)
    else if source = 0x200 then some ((some fun i => twoObjects.counts i, 0), w)
    else some ((some fun i => twoObjects.properties i, 0), w)
  | .copyU64 _ _, w => some ((some fun i => twoObjects.values i, 0), w)
  | .send _, w => some ((true, 0), w)
  | .waitReadable, w => some ((true, 0), w)
  | .recv, w => some ((some (initializeRecord traceAck 7 drmModeAtomic ""), 0), w)
  | .shared .storeSteady, w => some ((), w)
  | _, _ => none

theorem acknowledging_twoObjectsEnv : Acknowledging twoObjectsEnv 7 where
  send _ w := ⟨0, w, rfl⟩
  waitReadable w := ⟨0, w, rfl⟩
  recv w := ⟨_, 0, w, rfl, by
    intro record hrecord
    simp [acknowledges, initializeRecord, hrecord]⟩
  storeSteady w := ⟨w, rfl⟩

theorem atomic_exactly_traced_two : twoObjects.Fits ∧ Acknowledging twoObjectsEnv 7 ∧
    ExactlyTraced twoObjectsEnv 0x500 twoObjects 7 drmModeAtomic { vars := {}, world := () } :=
  ⟨by decide, acknowledging_twoObjectsEnv, atomic_exactly_traced {
    nonnull := by decide
    value := fun w => ⟨0, w, rfl⟩
    objects := fun _ => ⟨by decide, fun w => ⟨0, w, rfl⟩⟩
    counts := fun _ => ⟨by decide, fun w => ⟨0, w, rfl⟩⟩
    properties := fun _ => ⟨by decide, fun w => ⟨0, w, rfl⟩⟩
    values := fun _ => ⟨by decide, fun w => ⟨0, w, rfl⟩⟩ }⟩

end HdmiLos.Tracer
