import HdmiLos.Tracer.Properties
import Mathlib.Data.List.Nodup

/-!
# The property cache is a map

The first 512 distinct keys that are stored have the value of their most recent store, and no other
key has a value. One store keeps this, so it holds of the cache after every sequence of stores, full
or not.
-/

namespace HdmiLos.Tracer

open List

variable {cache : PropertyCache} {connector property c p : UInt32} {value v : UInt64}

/-! ## Entries and values -/

theorem isFor_iff {e : CacheEntry} :
    e.isFor connector property = true ↔ e.connectorId = connector ∧ e.propertyId = property := by
  simp [CacheEntry.isFor]

theorem PropertyCache.lookup_cons (e : CacheEntry) :
    PropertyCache.lookup (e :: cache) connector property =
      if e.isFor connector property then some e.value else cache.lookup connector property := by
  unfold PropertyCache.lookup
  rw [find?_cons]
  split <;> simp_all

theorem PropertyCache.isNoop_iff : cache.isNoop connector property value = true ↔
      cache.lookup connector property = some value := by
  unfold PropertyCache.isNoop PropertyCache.lookup
  cases cache.find? fun e => e.isFor connector property with
  | none => simp
  | some e => simp

variable {cache' : PropertyCache}

theorem PropertyCache.lookup_replace
    (h : PropertyCache.replace connector property value cache = some cache') :
    cache'.lookup c p = if c = connector ∧ p = property then some value else cache.lookup c p := by
  induction cache generalizing cache' with
  | nil => cases h
  | cons e cache ih =>
    rw [PropertyCache.replace] at h
    split at h
    case isTrue he =>
      cases h
      obtain ⟨hconnector, hproperty⟩ := isFor_iff.1 he
      rw [PropertyCache.lookup_cons, PropertyCache.lookup_cons]
      by_cases hcp : c = connector ∧ p = property
      · obtain ⟨rfl, rfl⟩ := hcp
        simp [CacheEntry.isFor, hconnector, hproperty]
      · have hne : e.isFor c p = false := by
          refine Bool.eq_false_iff.2 fun hfor => hcp ?_
          obtain ⟨hc, hp⟩ := isFor_iff.1 hfor
          exact ⟨hc.symm.trans hconnector, hp.symm.trans hproperty⟩
        have hne' : CacheEntry.isFor { e with value := value } c p = false := hne
        simp [hne, hne', hcp]
    case isFalse he =>
      obtain ⟨rest, hrest, rfl⟩ := Option.map_eq_some_iff.1 h
      rw [PropertyCache.lookup_cons, PropertyCache.lookup_cons, ih hrest]
      by_cases hcp : c = connector ∧ p = property
      · obtain ⟨rfl, rfl⟩ := hcp
        simp [he]
      · simp [hcp]

theorem PropertyCache.lookup_append (e : CacheEntry) : PropertyCache.lookup (cache ++ [e]) c p =
      (cache.lookup c p).or (if e.isFor c p then some e.value else none) := by
  unfold PropertyCache.lookup
  rw [find?_append, find?_singleton]
  cases cache.find? fun e => e.isFor c p with
  | none => cases h : e.isFor c p <;> simp
  | some e' => simp

/-! ## Keys -/

theorem isFor_iff_key {e : CacheEntry} :
    e.isFor connector property = true ↔ e.key = (connector, property) := by
  rw [isFor_iff, CacheEntry.key, Prod.mk.injEq]

theorem PropertyCache.lookup_eq_none_iff :
    cache.lookup connector property = none ↔ (connector, property) ∉ cache.map (·.key) := by
  rw [PropertyCache.lookup, Option.map_eq_none_iff, find?_eq_none]
  simp only [isFor_iff_key, mem_map, not_exists, not_and]

/-- Exactly the keys of the cache are found by the loop of a store. -/
theorem PropertyCache.replace_eq_none_iff :
    PropertyCache.replace connector property value cache = none ↔
      (connector, property) ∉ cache.map (·.key) := by
  induction cache with
  | nil => simp [PropertyCache.replace]
  | cons e cache ih =>
    rw [PropertyCache.replace, map_cons, mem_cons, not_or, ← ih]
    split
    case isTrue he => simp [isFor_iff_key.1 he]
    case isFalse he =>
      have hne : (connector, property) ≠ e.key := fun h => he (isFor_iff_key.2 h.symm)
      simp [hne]

theorem PropertyCache.keys_replace
    (h : PropertyCache.replace connector property value cache = some cache') :
    cache'.map (·.key) = cache.map (·.key) := by
  induction cache generalizing cache' with
  | nil => cases h
  | cons e cache ih =>
    rw [PropertyCache.replace] at h
    split at h
    case isTrue =>
      cases h
      rfl
    case isFalse =>
      obtain ⟨rest, hrest, rfl⟩ := Option.map_eq_some_iff.1 h
      rw [map_cons, map_cons, ih hrest]

/-- The three ways of a store: the key is there, the cache is full, or the key is appended. -/
theorem PropertyCache.store_cases (cache : PropertyCache) (connector property : UInt32)
    (value : UInt64) :
    ((connector, property) ∈ cache.map (·.key) ∧
      ∃ cache', PropertyCache.replace connector property value cache = some cache' ∧
        cache.store connector property value = (true, cache')) ∨
    ((connector, property) ∉ cache.map (·.key) ∧ maxCachedConnectorProperties ≤ cache.length ∧
      cache.store connector property value = (false, cache)) ∨
    ((connector, property) ∉ cache.map (·.key) ∧ cache.length < maxCachedConnectorProperties ∧
      cache.store connector property value = (true, cache ++ [⟨connector, property, value⟩])) := by
  unfold PropertyCache.store
  cases hreplace : PropertyCache.replace connector property value cache with
  | some cache' =>
    have hmem : (connector, property) ∈ cache.map (·.key) := by
      by_contra hnot
      rw [PropertyCache.replace_eq_none_iff.2 hnot] at hreplace
      cases hreplace
    exact .inl ⟨hmem, cache', rfl, rfl⟩
  | none =>
    have hnot := PropertyCache.replace_eq_none_iff.1 hreplace
    by_cases hfull : maxCachedConnectorProperties ≤ cache.length
    · exact .inr (.inl ⟨hnot, hfull, if_pos hfull⟩)
    · exact .inr (.inr ⟨hnot, Nat.lt_of_not_le hfull, if_neg hfull⟩)

/-! ## Stores -/

section Stores

variable {stores : List CacheEntry} {e : CacheEntry}

theorem distinctKeys_snoc (stores : List CacheEntry) (e : CacheEntry) :
    distinctKeys (stores ++ [e]) = if e.key ∈ distinctKeys stores then distinctKeys stores
      else distinctKeys stores ++ [e.key] := by
  unfold distinctKeys
  rw [map_append, eraseDups_append]
  generalize stores.map (·.key) = keys
  by_cases hmem : e.key ∈ keys
  · simp [List.removeAll, hmem]
  · simp [List.removeAll, hmem, eraseDups_cons]

theorem latestValue_snoc (stores : List CacheEntry) (e : CacheEntry) (key : UInt32 × UInt32) :
    latestValue (stores ++ [e]) key =
      if e.key = key then some e.value else latestValue stores key := by
  unfold latestValue
  rw [filter_append]
  by_cases hkey : e.key = key
  · simp [hkey]
  · simp [hkey]

/-- The cache after `stores`: the keys that came first, each with its most recent value. -/
structure FirstCome (stores : List CacheEntry) (cache : PropertyCache) : Prop where
  keys : cache.map (·.key) = (distinctKeys stores).take maxCachedConnectorProperties
  nodup : (cache.map (·.key)).Nodup
  values : ∀ connector property, (connector, property) ∈ cache.map (·.key) →
    cache.lookup connector property = latestValue stores (connector, property)

section Stores

variable (h : FirstCome stores cache)

include h

theorem FirstCome.length :
    cache.length = min maxCachedConnectorProperties (distinctKeys stores).length := by
  rw [← length_map CacheEntry.key, h.keys, length_take]

theorem FirstCome.unstored
    (hroom : cache.length < maxCachedConnectorProperties) :
    cache.map (·.key) = distinctKeys stores := by
  have hlength := h.length
  rw [h.keys, take_of_length_le (by omega)]

theorem FirstCome.replaced
    (hmem : e.key ∈ cache.map (·.key))
    (hreplace : PropertyCache.replace e.connectorId e.propertyId e.value cache = some cache') :
    FirstCome (stores ++ [e]) cache' := by
  have hkeys := PropertyCache.keys_replace hreplace
  have hdistinct : distinctKeys (stores ++ [e]) = distinctKeys stores := by
    rw [h.keys] at hmem
    rw [distinctKeys_snoc, if_pos (mem_of_mem_take hmem)]
  refine ⟨?_, ?_, fun c p hcp => ?_⟩
  · rw [hkeys, hdistinct, h.keys]
  · rw [hkeys]
    exact h.nodup
  · rw [hkeys] at hcp
    rw [PropertyCache.lookup_replace hreplace, latestValue_snoc, h.values c p hcp]
    simp only [CacheEntry.key, Prod.mk.injEq, eq_comm]

theorem FirstCome.dropped (hnot : e.key ∉ cache.map (·.key))
    (hfull : maxCachedConnectorProperties ≤ cache.length) : FirstCome (stores ++ [e]) cache := by
  refine ⟨?_, h.nodup, fun c p hcp => ?_⟩
  · have hlength := h.length
    rw [h.keys, distinctKeys_snoc]
    split
    case isTrue => rfl
    case isFalse => rw [take_append_of_le_length (by omega)]
  · have hne : e.key ≠ (c, p) := fun heq => hnot (heq ▸ hcp)
    rw [latestValue_snoc, if_neg hne]
    exact h.values c p hcp

theorem FirstCome.appended (hnot : e.key ∉ cache.map (·.key))
    (hroom : cache.length < maxCachedConnectorProperties) :
    FirstCome (stores ++ [e]) (cache ++ [e]) := by
  have hkeys := h.unstored hroom
  have hmap : (cache ++ [e]).map (·.key) = distinctKeys stores ++ [e.key] := by
    rw [map_append, hkeys]
    rfl
  have hnew : e.key ∉ distinctKeys stores := hkeys ▸ hnot
  refine ⟨?_, ?_, fun c p hcp => ?_⟩
  · have hlength : (distinctKeys stores).length = cache.length := by
      rw [← hkeys, length_map]
    rw [hmap, distinctKeys_snoc, if_neg hnew, take_of_length_le]
    simp only [length_append, length_singleton]
    omega
  · rw [hmap, ← hkeys]
    exact nodup_append.2 ⟨h.nodup, nodup_singleton _, fun a ha b hb heq =>
      hnot (mem_singleton.1 hb ▸ heq ▸ ha)⟩
  · rw [PropertyCache.lookup_append, latestValue_snoc]
    by_cases heq : e.key = (c, p)
    · have hnone : cache.lookup c p = none := PropertyCache.lookup_eq_none_iff.2 (heq ▸ hnot)
      rw [hnone, if_pos heq, if_pos (isFor_iff_key.2 heq)]
      rfl
    · have hold : (c, p) ∈ cache.map (·.key) := by
        rw [hmap, ← hkeys] at hcp
        rcases mem_append.1 hcp with hold | hlast
        · exact hold
        · exact absurd (mem_singleton.1 hlast).symm heq
      have hother : e.isFor c p = false := Bool.eq_false_iff.2 fun hfor => heq (isFor_iff_key.1 hfor)
      rw [if_neg heq, hother, h.values c p hold]
      simp

theorem FirstCome.store (e : CacheEntry) :
    FirstCome (stores ++ [e]) (cache.store e.connectorId e.propertyId e.value).2 := by
  rcases cache.store_cases e.connectorId e.propertyId e.value with
    ⟨hmem, cache', hreplace, hstore⟩ | ⟨hnot, hfull, hstore⟩ | ⟨hnot, hroom, hstore⟩
  · rw [hstore]
    exact h.replaced hmem hreplace
  · rw [hstore]
    exact h.dropped hnot hfull
  · rw [hstore]
    exact h.appended hnot hroom

end Stores

theorem FirstCome.foldl {done : List CacheEntry} (stores : List CacheEntry)
    (h : FirstCome done cache) : FirstCome (done ++ stores)
      (stores.foldl (fun cache e => (cache.store e.connectorId e.propertyId e.value).2) cache) := by
  induction stores generalizing done cache with
  | nil =>
    rw [append_nil]
    exact h
  | cons e stores ih =>
    rw [append_cons]
    exact ih (h.store e)

theorem firstCome_storeAll (stores : List CacheEntry) :
    FirstCome stores (PropertyCache.storeAll stores) := by
  have hempty : FirstCome [] [] := ⟨rfl, nodup_nil, fun _ _ h => absurd h not_mem_nil⟩
  exact hempty.foldl stores

theorem property_cache_is_map (stores : List CacheEntry) :
    ((PropertyCache.storeAll stores).map (·.key)).Nodup ∧
    (PropertyCache.storeAll stores).length ≤ 512 ∧
    (∀ connector property value,
      (PropertyCache.storeAll stores).isNoop connector property value = true ↔
        (connector, property) ∈ (distinctKeys stores).take 512 ∧
          latestValue stores (connector, property) = some value) ∧
    ∀ connector property value,
      (((PropertyCache.storeAll stores).store connector property value).1 = false ↔
        (connector, property) ∉ (PropertyCache.storeAll stores).map (·.key) ∧
          (PropertyCache.storeAll stores).length = 512) ∧
      (((PropertyCache.storeAll stores).store connector property value).1 = false →
        ((PropertyCache.storeAll stores).store connector property value).2 =
          PropertyCache.storeAll stores) := by
  have h := firstCome_storeAll stores
  have hle : (PropertyCache.storeAll stores).length ≤ 512 := h.length ▸ Nat.min_le_left _ _
  refine ⟨h.nodup, hle, fun c p v => ?_, fun c p v => ?_⟩
  · rw [PropertyCache.isNoop_iff]
    show _ ↔ (c, p) ∈ (distinctKeys stores).take maxCachedConnectorProperties ∧ _
    rw [← h.keys]
    by_cases hmem : (c, p) ∈ (PropertyCache.storeAll stores).map (·.key)
    · rw [h.values c p hmem]
      exact (and_iff_right hmem).symm
    · rw [PropertyCache.lookup_eq_none_iff.2 hmem]
      exact ⟨nofun, fun hv => absurd hv.1 hmem⟩
  · rcases (PropertyCache.storeAll stores).store_cases c p v with
      ⟨hmem, cache', -, hstore⟩ | ⟨hnot, hfull, hstore⟩ | ⟨hnot, hroom, hstore⟩
    · rw [hstore]
      exact ⟨⟨nofun, fun hv => absurd hmem hv.1⟩, nofun⟩
    · rw [hstore]
      exact ⟨⟨fun _ => ⟨hnot, Nat.le_antisymm hle hfull⟩, fun _ => rfl⟩, fun _ => rfl⟩
    · rw [hstore]
      exact ⟨⟨nofun, fun hv => absurd hv.2 (Nat.ne_of_lt hroom)⟩, nofun⟩

end Stores

end HdmiLos.Tracer
