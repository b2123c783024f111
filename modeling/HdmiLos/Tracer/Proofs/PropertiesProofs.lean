import HdmiLos.Tracer.Proofs.CacheProofs
import HdmiLos.Tracer.Proofs.FallbackProofs

/-!
# The cache of connector properties

As long as the cache holds only values that the kernel holds, a request that is answered from it
changes nothing, and the properties are those the kernel would have without the interposer. The
cache stays right if no request changes a property behind its back: the interposer fills it when
properties are read, but a request to set one that goes through leaves it as it is.
-/

namespace HdmiLos.Tracer

open Interaction Prog

/-! ## The cache as a map -/

variable {new : SetProperty}

section Cache

variable {cache : PropertyCache} {connector property c p : UInt32} {value v : UInt64}

/-- The cache holds only values that the kernel holds. -/
def Coherent (cache : PropertyCache) (map : PropertyMap) : Prop :=
  ∀ connector property value, cache.lookup connector property = some value →
    map connector property = value

variable {map : PropertyMap}

theorem Coherent.store (h : Coherent cache map) (hvalue : map connector property = value) :
    Coherent (cache.store connector property value).2 map := by
  intro c p v hv
  unfold PropertyCache.store at hv
  split at hv
  case h_1 cache' hreplace =>
    rw [PropertyCache.lookup_replace hreplace] at hv
    split at hv
    case isTrue heq =>
      obtain ⟨rfl, rfl⟩ := heq
      exact hvalue.trans (Option.some.inj hv)
    case isFalse => exact h c p v hv
  case h_2 =>
    split at hv
    case isTrue => exact h c p v hv
    case isFalse =>
      rw [PropertyCache.lookup_append] at hv
      rcases Option.or_eq_some_iff.1 hv with hold | ⟨-, hnew⟩
      · exact h c p v hold
      · obtain ⟨hfor, hvalue'⟩ := Option.ite_none_right_eq_some.1 hnew
        obtain ⟨rfl, rfl⟩ := isFor_iff.1 hfor
        exact hvalue.trans (Option.some.inj hvalue')

/-- A property that is set is no trouble if its value does not change, or if it is not cached. -/
theorem Coherent.set (h : Coherent cache map) (hnew : map new.connectorId new.propId ≠ new.value →
      cache.lookup new.connectorId new.propId = none) : Coherent cache (map.set new) := by
  intro c p v hv
  unfold PropertyMap.set
  split
  case isTrue heq =>
    obtain ⟨rfl, rfl⟩ := heq
    by_cases hsame : map new.connectorId new.propId = new.value
    · exact hsame.symm.trans (h _ _ v hv)
    · rw [hnew hsame] at hv
      cases hv
  case isFalse => exact h c p v hv

theorem PropertyMap.set_same
    (h : map new.connectorId new.propId = new.value) : map.set new = map := by
  funext c p
  unfold PropertyMap.set
  split
  case isTrue heq =>
    obtain ⟨rfl, rfl⟩ := heq
    exact h.symm
  case isFalse => rfl

end Cache

/-! ## Reports leave the properties alone -/

section Steps

variable {ρ α : Type} {k : PropertyKernel} {outside : Env ρ} {cfg : Config}

/-- The world where the properties are `m`, the request in memory is `request`, and the cache is
    `cache`. -/
structure Settled (m : PropertyMap) (n : Nat) (request : PropertyCall) (cache : PropertyCache)
    (w : PropertyWorld ρ) : Prop where
  map : w.map = m
  index : w.index = n
  current : w.current = request
  cache : w.globals.connectorProperties = cache

/-- The footprint of the functions that neither ask the kernel nor store into the cache. -/
def Keeping : Act Thread Io → Prop
  | .io (.shared (.cacheStore _ _ _)) => False
  | .io c => c.kernel = false
  | _ => True

theorem keepingParts : NumberingParts (fun _ p => p.Uses Keeping) :=
  usesParts trivial (fun _ => trivial) (fun c hc => by
    cases c with
    | shared op => cases op <;> first | rfl | simp [Io.routine, Io.exchanges] at hc
    | _ => first | rfl | simp [Io.routine, Io.exchanges] at hc) rfl

/-- The parts of the world that matter are the same. -/
structure SameProperties (w w' : PropertyWorld ρ) : Prop where
  map : w'.map = w.map
  index : w'.index = w.index
  current : w'.current = w.current
  cache : w'.globals.connectorProperties = w.globals.connectorProperties

variable {w w' : PropertyWorld ρ} {β : Type}

theorem copy_same {γ : Type} {content : Option β} {answer : Option ((Option γ × Int) × ρ)}
    {a : Option β × Int} (h : w.copy content answer = some (a, w')) : SameProperties w w' := by
  obtain ⟨⟨⟨copied, errno⟩, rest⟩, -, heq⟩ := Option.map_eq_some_iff.1 h
  obtain ⟨-, rfl⟩ := Prod.mk.inj heq
  exact ⟨rfl, rfl, rfl, rfl⟩

theorem outside_same {answer : Option (β × ρ)} {a : β}
    (h : answer.map (fun (a, rest) => (a, { w with rest := rest })) = some (a, w')) :
    SameProperties w w' := by
  obtain ⟨⟨a', rest⟩, -, heq⟩ := Option.map_eq_some_iff.1 h
  obtain ⟨-, rfl⟩ := Prod.mk.inj heq
  exact ⟨rfl, rfl, rfl, rfl⟩

/-- Calls in the footprint change neither the properties nor the request, and not the cache. -/
theorem propertyEnv_same (c : Io) (hc : Keeping (.io c)) {a : c.Ans}
    (henv : propertyEnv k outside c w = some (a, w')) : SameProperties w w' := by
  cases c with
  | shared op =>
    obtain ⟨-, rfl⟩ := Prod.mk.inj (Option.some.inj henv)
    cases op with
    | cacheStore => exact hc.elim
    | _ => exact ⟨rfl, rfl, rfl, rfl⟩
  | copySetProperty => exact copy_same henv
  | copyObjProperties => exact copy_same henv
  | copyU32 => exact copy_same henv
  | copyU64 => exact copy_same henv
  | ioctl => cases hc
  | getCrtc => cases hc
  | pageFlip => cases hc
  | _ => exact outside_same henv

/-- What was copied is what lies in the memory. -/
theorem copy_content {γ : Type} {content : Option β} {copied : β}
    {answer : Option ((Option γ × Int) × ρ)} {errno : Int}
    (h : w.copy content answer = some ((some copied, errno), w')) : content = some copied := by
  obtain ⟨⟨⟨found, errno'⟩, rest⟩, -, heq⟩ := Option.map_eq_some_iff.1 h
  have hcopied := congrArg (fun a => a.1.1) heq
  cases found with
  | none => cases hcopied
  | some _ => exact hcopied

variable {m : PropertyMap} {n : Nat} {request : PropertyCall} {cache : PropertyCache}
  {w w' : PropertyWorld ρ} {s : Sys (PropertyWorld ρ)} {fd : Int} {argument : UInt64}

theorem Settled.answered (h : Settled m n request cache w) (hsame : SameProperties w w') :
    Settled m n request cache w' where
  map := hsame.map.trans h.map
  index := hsame.index.trans h.index
  current := hsame.current.trans h.current
  cache := hsame.cache.trans h.cache

theorem wp_settled {p : TracerProg α} (hp : p.Uses Keeping)
    (hs : Settled m n request cache s.world) :
    wp (sysHandler (propertyEnv k outside)) p (fun _ t => Settled m n request cache t.world) s :=
  wp_returns (wp_process_invariant (I := fun t => Settled m n request cache t.world)
    (fun _ _ _ h => h) (fun _ _ h => h)
    (fun _ _ _ _ hc hs henv => hs.answered (propertyEnv_same _ hc henv)) hp hs)
    fun _ _ h => h

/-! ## The kernel call -/

variable {request' : UInt64}

theorem wp_kernel {Q : Except Int Nat → Sys (PropertyWorld ρ) → Prop}
    (hs : Settled m n request cache s.world)
    (hrefused : ∀ errno t, k.refuses n m request = some errno →
      Settled m n request cache t.world → Q (.error errno) t)
    (hperformed : ∀ t, k.refuses n m request = none →
      Settled (k.perform m request).1 n (k.perform m request).2 cache t.world → Q (.ok 0) t) :
    wp (sysHandler (propertyEnv k outside)) (call (.ioctl fd request' argument)) Q s := by
  refine wp_call (.ioctl fd request' argument) trivial fun (a : Except Int Nat) w henv => ?_
  simp only [propertyEnv, hs.index, hs.map, hs.current] at henv
  split at henv
  case h_1 errno hrefuses =>
    cases henv
    exact hrefused errno _ hrefuses hs
  case h_2 hrefuses =>
    cases henv
    exact hperformed _ hrefuses ⟨rfl, rfl, rfl, hs.cache⟩

/-- After a request: the properties are the kernel's, and the cache is right. -/
structure Kept (k : PropertyKernel) (m : PropertyMap) (n : Nat) (request : PropertyCall)
    (w : PropertyWorld ρ) : Prop where
  map : w.map = k.after n m request
  index : w.index = n
  coherent : Coherent w.globals.connectorProperties (k.after n m request)

theorem Settled.kept {m' : PropertyMap} {request' : PropertyCall}
    (h : Settled m' n request' cache w) (hmap : k.after n m request = m')
    (hcoherent : Coherent cache m') : Kept k m n request w where
  map := h.map.trans hmap.symm
  index := h.index
  coherent := h.cache ▸ hmap ▸ hcoherent

theorem PropertyKernel.after_refused {errno : Int} (h : k.refuses n m request = some errno) :
    k.after n m request = m := by
  simp [PropertyKernel.after, h]

theorem PropertyKernel.after_performed (h : k.refuses n m request = none) :
    k.after n m request = (k.perform m request).1 := by
  simp [PropertyKernel.after, h]

theorem wp_plainCall_kept (hs : Settled m n request cache s.world) (hcoherent : Coherent cache m)
    (hperformed : k.refuses n m request = none → Coherent cache (k.perform m request).1) :
    wp (sysHandler (propertyEnv k outside)) (plainCall fd request' argument)
      (fun _ t => Kept k m n request t.world) s := by
  rw [plainCall, wp_bind]
  refine wp_kernel hs (fun errno t hrefuses ht => ?_) fun t hrefuses ht => ?_
  · exact ht.kept (PropertyKernel.after_refused hrefuses) hcoherent
  · exact ht.kept (PropertyKernel.after_performed hrefuses) (hperformed hrefuses)

/-- A request that is passed on, if what is reported afterwards keeps the cache right. -/
theorem wp_pass_kept (hother : request' ≠ drmModeSetCrtc) (traced : Bool) (sequence : UInt32)
    (hs : Settled m n request cache s.world)
    (hrefused : ∀ errno t, k.refuses n m request = some errno → Settled m n request cache t.world →
      wp (sysHandler (propertyEnv k outside))
        (traceAfterCall traced sequence request' argument (-1) errno)
        (fun _ u => Kept k m n request u.world) t)
    (hperformed : ∀ t, k.refuses n m request = none →
      Settled (k.perform m request).1 n (k.perform m request).2 cache t.world →
      wp (sysHandler (propertyEnv k outside)) (traceAfterCall traced sequence request' argument 0 0)
        (fun _ u => Kept k m n request u.world) t) :
    wp (sysHandler (propertyEnv k outside)) (passRequest cfg traced sequence fd request' argument)
      (fun _ u => Kept k m n request u.world) s := by
  have hfallBack : ∀ result errno : Int,
      fallBack cfg fd request' argument sequence result errno = pure (result, errno) := by
    intro result errno
    simp [fallBack, hother]
  simp only [passRequest, kernelCall, hfallBack, wp_bind, wp_setErrno, wp_pure]
  refine wp_kernel hs (fun errno t hrefuses ht => ?_) fun t hrefuses ht => ?_
  · rw [wp_bind, wp_setErrno, wp_pure]
    exact wp_post (hrefused errno _ hrefuses ht) fun _ u hu => hu
  · rw [wp_pure]
    exact wp_post (hperformed t hrefuses ht) fun _ u hu => hu

/-! ## Setting a property -/

/-- A property is suppressed only if the cache holds the value that is to be set. -/
theorem wp_suppressedBy (hs : Settled m n (.set new) cache s.world) :
    wp (sysHandler (propertyEnv k outside)) (suppressedBy cfg drmModeSetProperty argument)
      (fun suppressed t => Settled m n (.set new) cache t.world ∧ (suppressed.isSome = true →
        cache.lookup new.connectorId new.propId = some new.value)) s := by
  simp only [suppressedBy, beq_self_eq_true, if_true, shouldSuppressConnectorPropertyNoop]
  rw [wp_ite]
  split
  case isFalse => exact ⟨hs, nofun⟩
  case isTrue =>
    rw [wp_bind]
    refine wp_safeCopy (fun _ => ⟨hs, nofun⟩) fun _ => wp_call (.copySetProperty argument) trivial ?_
    rintro ⟨copied, errno⟩ w henv
    have ht := hs.answered (copy_same henv)
    cases copied with
    | none => exact ⟨ht, nofun⟩
    | some value =>
      obtain rfl : new = value := by
        have hcontent := copy_content henv
        rw [hs.current] at hcontent
        exact Option.some.inj hcontent
      dsimp only
      rw [wp_bind]
      refine wp_call (.shared (.cacheIsNoop new.connectorId new.propId new.value)) trivial
        fun (isNoop : Bool) w' henv' => ?_
      have hu := ht.answered (propertyEnv_same (.shared (.cacheIsNoop _ _ _)) rfl henv')
      obtain ⟨hnoop, -⟩ := Prod.mk.inj (Option.some.inj henv')
      cases isNoop with
      | false => exact ⟨hu, nofun⟩
      | true =>
        refine ⟨hu, fun _ => PropertyCache.isNoop_iff.1 ?_⟩
        rw [← ht.cache]
        exact hnoop

theorem wp_set_kept (hs : Settled m n (.set new) cache s.world) (hcoherent : Coherent cache m)
    (hperformed : k.refuses n m (.set new) = none → Coherent cache (m.set new)) :
    wp (sysHandler (propertyEnv k outside)) (ioctl cfg fd drmModeSetProperty argument)
      (fun _ t => Kept k m n (.set new) t.world) s := by
  simp only [ioctl, wp_bind, wp_getThread]
  rw [wp_ite]
  split
  case isTrue => exact wp_plainCall_kept hs hcoherent hperformed
  case isFalse =>
    simp only [wp_bind, wp_assign]
    refine wp_post (wp_settled (keepingParts.shouldTraceRequest _) hs) fun traced t ht => ?_
    refine wp_post (wp_settled (keepingParts.traceBeforeCall traced _ argument) ht)
      fun sequence u hu => ?_
    refine wp_post (wp_suppressedBy hu) fun suppressed v hsuppressed => ?_
    obtain ⟨hv, hcached⟩ := hsuppressed
    cases suppressed with
    | some value =>
      -- the kernel holds the value already, whether it would refuse the request or not
      have hsame := hcoherent _ _ _ (hcached rfl)
      have hafter : k.after n m (.set new) = m := by
        cases hrefuses : k.refuses n m (.set new) with
        | some errno => exact PropertyKernel.after_refused hrefuses
        | none => exact (PropertyKernel.after_performed hrefuses).trans (PropertyMap.set_same hsame)
      exact wp_post (wp_settled (keepingParts.answerSuppressed traced trivial _ argument value) hv)
        fun _ x hx => hx.kept hafter hcoherent
    | none =>
      refine wp_pass_kept (by decide) traced sequence hv (fun errno x hrefuses hx => ?_)
        fun x hrefuses hx => ?_
      · exact wp_post (wp_settled (keepingParts.traceAfterCall_other traced trivial argument _ _
          (by decide)) hx) fun _ y hy => hy.kept (PropertyKernel.after_refused hrefuses) hcoherent
      · exact wp_post (wp_settled (keepingParts.traceAfterCall_other traced trivial argument _ _
          (by decide)) hx) fun _ y hy =>
            hy.kept (PropertyKernel.after_performed hrefuses) (hperformed hrefuses)

/-! ## Reading the properties of an object -/

variable {memory : GetProperties}

/-- The arrays hold what the kernel holds, wherever the interposer reads them. -/
theorem fill_value {i : Nat} (hconnector : memory.value.objType = drmModeObjectConnector)
    (hroom : (k.properties memory.value.objId memory.value.objType).length ≤
      memory.value.countProps.toNat)
    (hi : i < (k.fill m memory).value.countProps.toNat) :
    m memory.value.objId ((k.fill m memory).ids i) = (k.fill m memory).values i := by
  have hlength : i < (k.properties memory.value.objId memory.value.objType).length := by
    refine Nat.lt_of_lt_of_le hi ?_
    simp only [PropertyKernel.fill, UInt32.toNat_ofNat']
    exact Nat.mod_le _ _
  have hwritten : i < memory.value.countProps.toNat := Nat.lt_of_lt_of_le hlength hroom
  simp only [PropertyKernel.fill, List.getElem?_eq_getElem hlength, if_pos hwritten]
  simp only [PropertyKernel.valueOf, hconnector, beq_self_eq_true, if_true]

/-- The properties and the request stay, and the cache stays right. -/
def Reading (m : PropertyMap) (n : Nat) (request : PropertyCall) (w : PropertyWorld ρ) : Prop :=
  ∃ cache, Settled m n request cache w ∧ Coherent cache m

theorem wp_reading {p : TracerProg α} (hp : p.Uses Keeping) (hs : Reading m n request s.world) :
    wp (sysHandler (propertyEnv k outside)) p (fun _ t => Reading m n request t.world) s :=
  let ⟨cache, hsettled, hcoherent⟩ := hs
  wp_post (wp_settled hp hsettled) fun _ _ h => ⟨cache, h, hcoherent⟩

/-- One property: its value is stored if the object is a connector. -/
theorem wp_emitObjectProperty {value : ObjProperties} {property : UInt32} {propertyValue : UInt64}
    (sequence : UInt32) (request' : UInt64) (i : Nat) (hs : Reading m n request s.world)
    (hvalue : value.objType = drmModeObjectConnector → m value.objId property = propertyValue) :
    wp (sysHandler (propertyEnv k outside))
      (emitObjectProperty sequence request' value i property propertyValue)
      (fun _ t => Reading m n request t.world) s := by
  rw [emitObjectProperty, wp_bind, onlyIf, wp_ite]
  split
  case isFalse => exact wp_reading (keepingParts.exchange _ trivial) hs
  case isTrue hconnector =>
    rw [cacheProperty, wp_bind]
    refine wp_call (.shared (.cacheStore value.objId property propertyValue)) trivial
      fun _ w henv => ?_
    obtain ⟨-, rfl⟩ := Prod.mk.inj (Option.some.inj henv)
    obtain ⟨cache, hsettled, hcoherent⟩ := hs
    refine wp_reading (keepingParts.exchange _ trivial) ⟨_, ⟨hsettled.map, hsettled.index,
      hsettled.current, rfl⟩, ?_⟩
    have hcache : Coherent s.world.globals.connectorProperties m := hsettled.cache ▸ hcoherent
    exact hcache.store (hvalue (by simpa using hconnector))

theorem wp_emitDetails_reading {emit : β → TracerProg Unit} (xs : List β)
    (hemit : ∀ x (s : Sys (PropertyWorld ρ)), Reading m n request s.world →
      wp (sysHandler (propertyEnv k outside)) (emit x) (fun _ t => Reading m n request t.world)
        s) (hs : Reading m n request s.world) :
    wp (sysHandler (propertyEnv k outside)) (emitDetails emit xs)
      (fun _ t => Reading m n request t.world) s := by
  induction xs generalizing s with
  | nil => exact hs
  | cons x xs ih =>
    rw [emitDetails]
    exact wp_seq (hemit x s hs) fun _ t ht => ih ht

/-- A copy of what lies in the memory of the request, from a pointer that is not null. -/
theorem wp_copy_reading {source : UInt64} {copy : TracerProg (Option β × Int)} {value : β}
    {Q : Option β → Sys (PropertyWorld ρ) → Prop}
    (hcopy : wp (sysHandler (propertyEnv k outside)) copy (fun a t =>
      SameProperties s.world t.world ∧ ∀ x, a.1 = some x → x = value) s)
    (hs : Reading m n request s.world) (hnone : ∀ t, Reading m n request t.world → Q none t)
    (hsome : ∀ t, source ≠ 0 → Reading m n request t.world → Q (some value) t) :
    wp (sysHandler (propertyEnv k outside)) (safeCopy source copy) Q s := by
  refine wp_safeCopy (fun _ => hnone s hs) fun hsource => wp_post hcopy ?_
  obtain ⟨cache, hsettled, hcoherent⟩ := hs
  rintro ⟨copied, errno⟩ t ⟨hsame, hvalue⟩
  have ht : Reading m n request t.world := ⟨cache, hsettled.answered hsame, hcoherent⟩
  cases copied with
  | none => exact hnone _ ht
  | some x =>
    obtain rfl := hvalue x rfl
    exact hsome _ hsource ht

/-- The copies of the request and of its arrays. -/
theorem copied_reading {γ : Type} {f : GetProperties → β} {a : Option β × Int}
    {answer : Option ((Option γ × Int) × ρ)} (hs : Reading m n (.get memory) w)
    (henv : w.copy (w.current.memory?.map f) answer = some (a, w')) :
    SameProperties w w' ∧ ∀ x, a.1 = some x → x = f memory := by
  refine ⟨copy_same henv, fun x hx => ?_⟩
  obtain ⟨copied, errno⟩ := a
  obtain rfl : copied = some x := hx
  obtain ⟨cache, hsettled, -⟩ := hs
  have hcontent := copy_content henv
  rw [hsettled.current] at hcontent
  exact (Option.some.inj hcontent).symm

theorem wp_emitObjectPropertyDetails (sequence : UInt32) (request' : UInt64)
    (hroom : memory.value.objType = drmModeObjectConnector →
      memory.value.props = 0 ∨ memory.value.propValues = 0 ∨
        (k.properties memory.value.objId memory.value.objType).length ≤
          memory.value.countProps.toNat)
    (hs : Reading m n (.get (k.fill m memory)) s.world) :
    wp (sysHandler (propertyEnv k outside)) (emitObjectPropertyDetails sequence request' argument)
      (fun _ t => Reading m n (.get (k.fill m memory)) t.world) s := by
  rw [emitObjectPropertyDetails, wp_bind]
  refine wp_copy_reading (wp_call (.copyObjProperties argument) trivial fun _ _ henv =>
    copied_reading (f := (·.value)) hs henv) hs (fun t ht => ht) fun t _ ht => ?_
  dsimp only
  rw [wp_ite]
  split
  case isTrue => exact ht
  case isFalse =>
    rw [wp_ite]
    split
    case isTrue => exact wp_reading (keepingParts.exchange _ trivial) ht
    case isFalse =>
      rw [wp_bind]
      refine wp_copy_reading (wp_call (.copyU32 _ _) trivial fun _ _ henv =>
        copied_reading ht henv) ht (fun u hu => hu) fun u hids hu => ?_
      dsimp only
      rw [wp_bind]
      refine wp_copy_reading (wp_call (.copyU64 _ _) trivial fun _ _ henv =>
        copied_reading hu henv) hu (fun v hv => hv) fun v hvalues hv => ?_
      refine wp_emitDetails_reading _ (fun i x hx => ?_) hv
      refine wp_emitObjectProperty sequence request' i hx fun hconnector => ?_
      have hlength := ((hroom hconnector).resolve_left hids).resolve_left hvalues
      exact fill_value hconnector hlength i.isLt

theorem wp_get_kept (hs : Settled m n (.get memory) cache s.world) (hcoherent : Coherent cache m)
    (hroom : memory.value.objType = drmModeObjectConnector →
      memory.value.props = 0 ∨ memory.value.propValues = 0 ∨
        (k.properties memory.value.objId memory.value.objType).length ≤
          memory.value.countProps.toNat) :
    wp (sysHandler (propertyEnv k outside)) (ioctl cfg fd drmModeObjGetProperties argument)
      (fun _ t => Kept k m n (.get memory) t.world) s := by
  have hafter : k.after n m (.get memory) = m := by
    cases hrefuses : k.refuses n m (.get memory) with
    | some errno => exact PropertyKernel.after_refused hrefuses
    | none => exact PropertyKernel.after_performed hrefuses
  simp only [ioctl, wp_bind, wp_getThread]
  rw [wp_ite]
  split
  case isTrue => exact wp_plainCall_kept hs hcoherent fun _ => hcoherent
  case isFalse =>
    simp only [wp_bind, wp_assign]
    refine wp_post (wp_settled (keepingParts.shouldTraceRequest _) hs) fun traced t ht => ?_
    refine wp_post (wp_settled (keepingParts.traceBeforeCall traced _ argument) ht)
      fun sequence u hu => ?_
    have hkind : suppressedBy cfg drmModeObjGetProperties argument = pure none := rfl
    rw [hkind, wp_pure]
    refine wp_pass_kept (by decide) traced sequence hu (fun errno x _ hx => ?_) fun x _ hx => ?_
    · -- nothing is reported in detail after a failure
      rw [traceAfterCall, wp_ite]
      split
      case isFalse => exact hx.kept hafter hcoherent
      case isTrue =>
        exact wp_seq (wp_settled (keepingParts.exchangeDecoded trivial argument) hx)
          fun _ y hy => hy.kept hafter hcoherent
    · rw [traceAfterCall, wp_ite]
      split
      case isFalse => exact hx.kept hafter hcoherent
      case isTrue =>
        refine wp_seq (wp_settled (keepingParts.exchangeDecoded trivial argument) hx) fun _ y hy => ?_
        have hdetails : onlyIf (decide ((0 : Int) ≥ 0) && drmModeObjGetProperties ==
            drmModeObjGetProperties) (emitObjectPropertyDetails sequence drmModeObjGetProperties
              argument) = emitObjectPropertyDetails sequence drmModeObjGetProperties argument := rfl
        rw [hdetails]
        refine wp_post (wp_emitObjectPropertyDetails sequence _ hroom ⟨cache, hy, hcoherent⟩)
          fun _ z hz => ?_
        obtain ⟨cache', hsettled, hcoherent'⟩ := hz
        exact hsettled.kept hafter hcoherent'

/-- One call keeps the cache faithful. -/
theorem kept_of_run {call : PropertyCall} {result : Int} {u : Sys (PropertyWorld ρ)}
    (hcoherent : Coherent s.world.globals.connectorProperties s.world.map)
    (hkeeps : KeepsCache k s.world call)
    (hrun : (ioctl cfg fd call.request argument).run (sysHandler (propertyEnv k outside))
      (issue s call) = (some result, u)) :
    Kept k s.world.map s.world.index call u.world := by
  have hs : Settled s.world.map s.world.index call s.world.globals.connectorProperties
      (issue s call).world := ⟨rfl, rfl, rfl, rfl⟩
  cases call with
  | set new =>
    refine wp_returned (wp_set_kept hs hcoherent fun hrefuses => ?_) hrun
    exact hcoherent.set (hkeeps hrefuses)
  | get memory => exact wp_returned (wp_get_kept hs hcoherent hkeeps) hrun

theorem PropertyKernel.run_snoc (k : PropertyKernel) (n : Nat) (m : PropertyMap)
    (calls : List PropertyCall) (call : PropertyCall) :
    k.run n m (calls ++ [call]) = k.after (n + calls.length) (k.run n m calls) call := by
  induction calls generalizing n m with
  | nil => rfl
  | cons c calls ih =>
    rw [List.cons_append, PropertyKernel.run, PropertyKernel.run, ih, List.length_cons]
    congr 1
    omega

/-- The requests so far left the kernel's own properties, and a cache that is right. -/
structure Faithful (k : PropertyKernel) (s : Sys (PropertyWorld ρ)) (calls : List PropertyCall)
    (t : Sys (PropertyWorld ρ)) : Prop where
  map : t.world.map = k.run s.world.index s.world.map calls
  index : t.world.index = s.world.index + calls.length
  coherent : Coherent t.world.globals.connectorProperties t.world.map

variable {calls : List PropertyCall}

/-- The cache is faithful after any calls. -/
theorem faithful_of_run {t : Sys (PropertyWorld ρ)}
    (hempty : s.world.globals.connectorProperties = [])
    (hrun : PropertyRun cfg k outside (KeepsCache k) s calls t) : Faithful k s calls t := by
  induction hrun with
  | nil =>
    refine ⟨rfl, rfl, ?_⟩
    rw [hempty]
    intro connector property value hlookup
    cases hlookup
  | snoc _ hkeeps hstep ih =>
    have hkept := kept_of_run ih.coherent hkeeps hstep
    refine ⟨?_, ?_, ?_⟩
    · rw [PropertyKernel.run_snoc, ← ih.map, ← ih.index]
      exact hkept.map
    · rw [List.length_append, List.length_singleton, ← Nat.add_assoc, ← ih.index, ← hkept.index]
      rfl
    · have hcoherent := hkept.coherent
      rw [← hkept.map] at hcoherent
      exact hcoherent

/-- Suppression is invisible in the properties: in every sequence of requests in which none changes
    a cached property, and every caller that reads a connector has room for its properties, the
    kernel's properties are those that it would have without the interposer. -/
theorem properties_as_without_interposer {calls : List PropertyCall} {t : Sys (PropertyWorld ρ)}
    (hempty : s.world.globals.connectorProperties = [])
    (hrun : PropertyRun cfg k outside (KeepsCache k) s calls t) :
    t.world.map = k.run s.world.index s.world.map calls :=
  (faithful_of_run hempty hrun).map

end Steps

/-! ## On the bench -/

/-- An agent that acknowledges every record, and memory that can be read. -/
def propertyBenchOutside : Env TraceRecord
  | .send record, _ => some ((true, 0), record)
  | .waitReadable, record => some ((true, 0), record)
  | .recv, record => some ((some { record with phase := traceAck, flags := 0 }, 0), record)
  | .copySetProperty _, record => some ((some {}, 0), record)
  | .copyObjProperties _, record => some ((some {}, 0), record)
  | .copyU32 _ _, record => some ((some fun _ => 0, 0), record)
  | .copyU64 _ _, record => some ((some fun _ => 0, 0), record)
  | _, _ => none

/-- A kernel in which connector 79 has the property 53 and nothing is refused. -/
def propertyBenchKernel : PropertyKernel :=
  { properties := fun object _ => if object = 79 then [53] else []
    others := fun _ _ _ => 0
    refuses := fun _ _ _ => none }

def propertyBenchConfig : Config := { suppressConnectorPropertyNoops := true }

def propertyBenchSet (value : UInt64) : PropertyCall :=
  .set { connectorId := 79, propId := 53, value := value }

def propertyBenchGet : PropertyCall :=
  .get { value := { props := 4096, propValues := 8192, countProps := 1, objId := 79
                    objType := drmModeObjectConnector }
         ids := fun _ => 0
         values := fun _ => 0 }

def propertyBenchStart : Sys (PropertyWorld TraceRecord) :=
  { vars := {}, world := { map := fun _ _ => 0, current := propertyBenchSet 0, rest := {} } }

/-- The bench after one more request, if it returns zero. -/
def propertyBenchNext (s : Sys (PropertyWorld TraceRecord)) (call : PropertyCall) :
    Sys (PropertyWorld TraceRecord) :=
  advance ((ioctl propertyBenchConfig 9 call.request 16).run
    (sysHandler (propertyEnv propertyBenchKernel propertyBenchOutside)) (issue s call)).2

theorem propertyBench_snoc {P : PropertyWorld TraceRecord → PropertyCall → Prop}
    {s t : Sys (PropertyWorld TraceRecord)} (call : PropertyCall)
    (h : PropertyRun propertyBenchConfig propertyBenchKernel propertyBenchOutside P s calls t)
    (hP : P t.world call)
    (hreturned : ((ioctl propertyBenchConfig 9 call.request 16).run
      (sysHandler (propertyEnv propertyBenchKernel propertyBenchOutside)) (issue t call)).1 =
        some 0) :
    PropertyRun propertyBenchConfig propertyBenchKernel propertyBenchOutside P s (calls ++ [call])
      (propertyBenchNext t call) :=
  .snoc h hP (Prod.ext hreturned rfl)

/-- The property is set, read, and set again to the same value, which is suppressed. -/
theorem properties_as_without_interposer_suppressed : ∃ t : Sys (PropertyWorld TraceRecord),
      PropertyRun propertyBenchConfig propertyBenchKernel propertyBenchOutside
        (KeepsCache propertyBenchKernel) propertyBenchStart
        [propertyBenchSet 5, propertyBenchGet, propertyBenchSet 5] t ∧
      t.world.map = propertyBenchKernel.run 0 (fun _ _ => 0)
        [propertyBenchSet 5, propertyBenchGet, propertyBenchSet 5] := by
  have hset := propertyBench_snoc (P := KeepsCache propertyBenchKernel) (propertyBenchSet 5)
    (.nil : PropertyRun _ _ _ _ propertyBenchStart [] _) (fun _ _ => rfl) (by decide +kernel)
  have hget := propertyBench_snoc propertyBenchGet hset (fun _ => .inr (.inr (by decide)))
    (by decide +kernel)
  have hagain := propertyBench_snoc (propertyBenchSet 5) hget
    (fun _ hne => absurd (by decide +kernel) hne) (by decide +kernel)
  exact ⟨_, hagain, properties_as_without_interposer rfl hagain⟩

/-- The property is read, set, and set back: the last request is suppressed although the kernel
    holds another value by then. -/
theorem properties_set_back : ∃ t : Sys (PropertyWorld TraceRecord),
      PropertyRun propertyBenchConfig propertyBenchKernel propertyBenchOutside
        (fun _ _ => True) propertyBenchStart
        [propertyBenchGet, propertyBenchSet 5, propertyBenchSet 0] t ∧
      propertyBenchStart.world.globals.connectorProperties = [] ∧
      t.world.map 79 53 = 5 ∧ propertyBenchKernel.run 0 (fun _ _ => 0)
        [propertyBenchGet, propertyBenchSet 5, propertyBenchSet 0] 79 53 = 0 := by
  have hget := propertyBench_snoc (P := fun _ _ => True) propertyBenchGet
    (.nil : PropertyRun _ _ _ _ propertyBenchStart [] _) trivial (by decide +kernel)
  have hset := propertyBench_snoc (propertyBenchSet 5) hget trivial (by decide +kernel)
  have hback := propertyBench_snoc (propertyBenchSet 0) hset trivial (by decide +kernel)
  exact ⟨_, hback, rfl, by decide +kernel, by decide +kernel⟩

end HdmiLos.Tracer
