import HdmiLos.Tracer.Interpose

/-!
# Connector properties with and without the interposer

A kernel that keeps the values of the connectors' properties, the memory of a caller that sets and
reads them, and the two ways of issuing the same requests: to the kernel directly, and through the
interposed `ioctl`, which answers some of them itself.
-/

namespace HdmiLos.Tracer

open Interaction

/-- The value of each property of each connector. -/
abbrev PropertyMap := UInt32 → UInt32 → UInt64

/-- A value is set. -/
def PropertyMap.set (map : PropertyMap) (value : SetProperty) : PropertyMap :=
    fun connector property =>
  if connector = value.connectorId ∧ property = value.propId then value.value
  else map connector property

/-- The memory of a caller that reads the properties of an object: the structure, whose count is the
    room in the arrays, and what lies at the arrays. -/
structure GetProperties where
  value : ObjProperties
  ids : Nat → UInt32
  values : Nat → UInt64

/-- A request, as it stands in the memory of the caller. -/
inductive PropertyCall where
  | set (value : SetProperty)
  | get (memory : GetProperties)

/-- The request's number. -/
def PropertyCall.request : PropertyCall → UInt64
  | set _ => drmModeSetProperty
  | get _ => drmModeObjGetProperties

/-! ## The kernel -/

/-- The properties of each object of each type, the values of those that are not connectors, and
    which request is refused with which error: that may depend on its place in the sequence, on the
    properties and on the request. -/
structure PropertyKernel where
  properties : UInt32 → UInt32 → List UInt32
  others : UInt32 → UInt32 → UInt32 → UInt64
  refuses : Nat → PropertyMap → PropertyCall → Option Int

namespace PropertyKernel

/-- The kernel's value. -/
def valueOf (k : PropertyKernel) (map : PropertyMap) (object type property : UInt32) : UInt64 :=
  if type == drmModeObjectConnector then map object property else k.others object type property

/-- The arrays are filled as far as there is room, and the count becomes that of the properties. -/
def fill (k : PropertyKernel) (map : PropertyMap) (memory : GetProperties) : GetProperties :=
  let v := memory.value
  let properties := k.properties v.objId v.objType
  { value := { v with countProps := UInt32.ofNat properties.length }
    ids := fun i => match properties[i]? with
      | some property => if i < v.countProps.toNat then property else memory.ids i
      | none => memory.ids i
    values := fun i => match properties[i]? with
      | some property =>
        if i < v.countProps.toNat then k.valueOf map v.objId v.objType property else memory.values i
      | none => memory.values i }

/-- A request that is not refused. -/
def perform (k : PropertyKernel) (map : PropertyMap) : PropertyCall → PropertyMap × PropertyCall
  | .set value => (map.set value, .set value)
  | .get memory => (map, .get (k.fill map memory))

/-- The properties after a request. -/
def after (k : PropertyKernel) (index : Nat) (map : PropertyMap) (call : PropertyCall) :
    PropertyMap :=
  match k.refuses index map call with
  | some _ => map
  | none => (k.perform map call).1

/-- The properties after a sequence of requests, without the interposer. -/
def run (k : PropertyKernel) : Nat → PropertyMap → List PropertyCall → PropertyMap
  | _, map, [] => map
  | index, map, call :: calls => run k (index + 1) (k.after index map call) calls

end PropertyKernel

/-! ## Through the interposer -/

/-- The world of a thread that issues such requests. -/
structure PropertyWorld (ρ : Type) where
  globals : Globals := {}
  map : PropertyMap
  index : Nat := 0
  current : PropertyCall
  rest : ρ

/-- The structure in the memory of the caller, if the copy succeeds. -/
def PropertyWorld.copy {ρ α β : Type} (w : PropertyWorld ρ) (content : Option β)
    (answer : Option ((Option α × Int) × ρ)) : Option ((Option β × Int) × PropertyWorld ρ) :=
  answer.map fun ((copied, errno), rest) =>
    ((copied.bind fun _ => content, errno), { w with rest := rest })

def PropertyCall.setProperty? : PropertyCall → Option SetProperty
  | set value => some value
  | get _ => none

def PropertyCall.memory? : PropertyCall → Option GetProperties
  | set _ => none
  | get memory => some memory

/-- The kernel, the shared variables and the memory of the caller; the rest of the environment, and
    whether a copy fails, is up to `outside`. -/
def propertyEnv {ρ : Type} (k : PropertyKernel) (outside : Env ρ) : Env (PropertyWorld ρ)
  | .shared op, w => some ((w.globals.step op).1, { w with globals := (w.globals.step op).2 })
  | .copySetProperty source, w =>
    w.copy w.current.setProperty? (outside (.copySetProperty source) w.rest)
  | .copyObjProperties source, w =>
    w.copy (w.current.memory?.map (·.value)) (outside (.copyObjProperties source) w.rest)
  | .copyU32 source n, w =>
    w.copy (w.current.memory?.map fun memory (i : Fin n) => memory.ids i)
      (outside (.copyU32 source n) w.rest)
  | .copyU64 source n, w =>
    w.copy (w.current.memory?.map fun memory (i : Fin n) => memory.values i)
      (outside (.copyU64 source n) w.rest)
  | .ioctl _ _ _, w =>
    match k.refuses w.index w.map w.current with
    | some errno => some (.error errno, w)
    | none =>
      let (map, call) := k.perform w.map w.current
      some (.ok 0, { w with map := map, current := call })
  | call, w => (outside call w.rest).map fun (a, rest) => (a, { w with rest := rest })

/-- The thread with its next request in memory. -/
def issue {ρ : Type} (s : Sys (PropertyWorld ρ)) (call : PropertyCall) : Sys (PropertyWorld ρ) :=
  { s with world := { s.world with current := call } }

/-- The thread with the place of its next request. -/
def advance {ρ : Type} (s : Sys (PropertyWorld ρ)) : Sys (PropertyWorld ρ) :=
  { s with world := { s.world with index := s.world.index + 1 } }

/-- A thread issues the requests one after the other, and each of them meets `P` where it is issued.
    A process that exits issues no more requests. -/
inductive PropertyRun {ρ : Type} (cfg : Config) (k : PropertyKernel) (outside : Env ρ)
    (P : PropertyWorld ρ → PropertyCall → Prop) (s : Sys (PropertyWorld ρ)) :
    List PropertyCall → Sys (PropertyWorld ρ) → Prop where
  | nil : PropertyRun cfg k outside P s [] s
  | snoc {calls : List PropertyCall} {t u : Sys (PropertyWorld ρ)} {call : PropertyCall} {fd : Int}
    {argument : UInt64} {result : Int} : PropertyRun cfg k outside P s calls t →
    P t.world call →
    (ioctl cfg fd call.request argument).run (sysHandler (propertyEnv k outside)) (issue t call) =
      (some result, u) →
    PropertyRun cfg k outside P s (calls ++ [call]) (advance u)

/-! ## When the cache is right -/

/-- The value of a property in the cache. -/
def PropertyCache.lookup (cache : PropertyCache) (connector property : UInt32) : Option UInt64 :=
  (cache.find? fun e => e.isFor connector property).map (·.value)

/-- Where a request meets this, the cache stays right: a request that changes a property is refused
    or the property is not in the cache, and a caller that reads a connector has room for all of its
    properties, or gives no arrays. -/
def KeepsCache {ρ : Type} (k : PropertyKernel) (w : PropertyWorld ρ) : PropertyCall → Prop
  | .set value =>
    k.refuses w.index w.map (.set value) = none →
    w.map value.connectorId value.propId ≠ value.value →
    w.globals.connectorProperties.lookup value.connectorId value.propId = none
  | .get memory =>
    memory.value.objType = drmModeObjectConnector →
    memory.value.props = 0 ∨ memory.value.propValues = 0 ∨
      (k.properties memory.value.objId memory.value.objType).length ≤ memory.value.countProps.toNat

/-! ## The cache as a map -/

/-- The property of an entry. -/
def CacheEntry.key (e : CacheEntry) : UInt32 × UInt32 := (e.connectorId, e.propertyId)

/-- The cache after a sequence of calls of `hdmi_los_property_cache_store`. -/
def PropertyCache.storeAll (stores : List CacheEntry) : PropertyCache :=
  stores.foldl (fun cache e => (cache.store e.connectorId e.propertyId e.value).2) []

/-- The keys that were stored, in the order in which each came first. -/
def distinctKeys (stores : List CacheEntry) : List (UInt32 × UInt32) :=
  (stores.map (·.key)).eraseDups

/-- The value of the most recent store for a key. -/
def latestValue (stores : List CacheEntry) (key : UInt32 × UInt32) : Option UInt64 :=
  (stores.filter fun e => e.key == key).getLast?.map (·.value)

end HdmiLos.Tracer
