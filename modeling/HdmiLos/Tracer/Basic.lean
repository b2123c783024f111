import HdmiLos.Interaction.Machine
import HdmiLos.Trace

/-!
# The interposer's state and its environment

`drmtrace.so` is loaded into Xorg and replaces `ioctl`. Every thread of Xorg runs its functions, so
a function is an interaction program over the variables of one thread, and what the threads share
is reached by calls, each of them atomic: the sequence counter, the steady flag and the cache of
connector properties. The caller's memory is read by `process_vm_readv`, which may fail, and belongs
to the environment too.
-/

namespace HdmiLos.Tracer

open Interaction

/-- What the constructor reads from the environment variables. -/
structure Config where
  traced : Bool := true
  suppressConnectorPropertyNoops : Bool := false
  ignoreXorgBitmaskProperties : Bool := false
  ignoreXorgPointerProperties : Bool := false
  sameModePageflipFallback : Bool := false
  expectedConnector : UInt32 := 0
  expectedCrtc : UInt32 := 0

/-- The variables of a thread. -/
structure Thread where
  inTrace : Bool := false
  errno : Int := 0

def eio : Int := 5
def einval : Int := 22

def kMaxAtomicObjects : UInt32 := 32
def kMaxAtomicProperties : UInt32 := 128
def kMaxCrtcConnectors : UInt32 := 16
def kMaxObjectProperties : UInt32 := 128

def drmModeObjectConnector : UInt32 := 0xc0c0c0c0
def drmModePropBitmask : UInt32 := 32

/-! ## What the threads share -/

/-- `struct hdmi_los_property_cache_entry`. -/
structure CacheEntry where
  connectorId : UInt32
  propertyId : UInt32
  value : UInt64
  deriving DecidableEq, Repr

/-- `struct hdmi_los_property_cache`: the entries that are in use. -/
abbrev PropertyCache := List CacheEntry

def maxCachedConnectorProperties : Nat := 512

/-- The entry is that of the given property. -/
def CacheEntry.isFor (e : CacheEntry) (connector property : UInt32) : Bool :=
  e.connectorId == connector && e.propertyId == property

namespace PropertyCache

/-- The loop of `hdmi_los_property_cache_store` that looks for an entry. -/
def replace (connector property : UInt32) (value : UInt64) : PropertyCache → Option PropertyCache
  | [] => none
  | e :: cache =>
    if e.isFor connector property then some ({ e with value := value } :: cache)
    else (replace connector property value cache).map (e :: ·)

/-- Stores a value if there is room. -/
def store (cache : PropertyCache) (connector property : UInt32) (value : UInt64) :
    Bool × PropertyCache :=
  match replace connector property value cache with
  | some cache' => (true, cache')
  | none =>
    if cache.length ≥ maxCachedConnectorProperties then (false, cache)
    else (true, cache ++ [⟨connector, property, value⟩])

/-- The value is the stored one. -/
def isNoop (cache : PropertyCache) (connector property : UInt32) (value : UInt64) : Bool :=
  match cache.find? fun e => e.isFor connector property with
  | some e => e.value == value
  | none => false

end PropertyCache

/-- The variables that all threads share. -/
structure Globals where
  sequence : UInt32 := 1
  traceSteady : Bool := false
  connectorProperties : PropertyCache := []

/-- The atomic operations on them. The cache is used under its lock. -/
inductive Shared where
  | fetchAddSequence
  | loadSteady
  | storeSteady
  | cacheStore (connector property : UInt32) (value : UInt64)
  | cacheIsNoop (connector property : UInt32) (value : UInt64)

abbrev Shared.Ans : Shared → Type
  | fetchAddSequence => UInt32
  | loadSteady => Bool
  | storeSteady => Unit
  | cacheStore _ _ _ => Bool
  | cacheIsNoop _ _ _ => Bool

/-- An operation on the globals. -/
def Globals.step (g : Globals) : (op : Shared) → op.Ans × Globals
  | .fetchAddSequence => (g.sequence, { g with sequence := g.sequence + 1 })
  | .loadSteady => (g.traceSteady, g)
  | .storeSteady => ((), { g with traceSteady := true })
  | .cacheStore connector property value =>
    let (stored, cache) := g.connectorProperties.store connector property value
    (stored, { g with connectorProperties := cache })
  | .cacheIsNoop connector property value =>
    (g.connectorProperties.isNoop connector property value, g)

/-! ## Structures in the caller's memory -/

/-- `struct drm_mode_connector_set_property`. -/
structure SetProperty where
  connectorId : UInt32 := 0
  propId : UInt32 := 0
  value : UInt64 := 0
  deriving DecidableEq, Repr

/-- `struct drm_mode_obj_get_properties`. -/
structure ObjProperties where
  props : UInt64 := 0
  propValues : UInt64 := 0
  countProps : UInt32 := 0
  objId : UInt32 := 0
  objType : UInt32 := 0
  deriving DecidableEq, Repr

/-- `struct drm_mode_atomic`. -/
structure AtomicRequest where
  flags : UInt32 := 0
  countObjs : UInt32 := 0
  objs : UInt64 := 0
  countProps : UInt64 := 0
  props : UInt64 := 0
  propValues : UInt64 := 0
  userData : UInt64 := 0
  deriving DecidableEq, Repr

/-- `struct drm_mode_crtc_page_flip`. -/
structure PageFlip where
  crtcId : UInt32 := 0
  fbId : UInt32 := 0
  flags : UInt32 := 0
  deriving DecidableEq, Repr

/-- What `decode_record` makes of a request. -/
structure Decoded where
  argument0 : UInt64 := 0
  argument1 : UInt64 := 0
  argument2 : UInt64 := 0
  argument3 : UInt64 := 0
  detail : String := ""

/-- `drmModePropertyRes`, with the fields that are read. -/
structure Property where
  propId : UInt32
  flags : UInt32
  name : String

/-! ## Calls -/

/-- The calls of a thread. `send`, `waitReadable` and `recv` are on the trace socket and repeated
    when they are interrupted. A `copy` is a `process_vm_readv` of the caller's memory, and
    `describe` is what `decode_record` makes of the requests that nobody looks at. `realGetProperty` and
    `freeProperty` include the search for the function: without it, there is no property and
    `errno` is `ENOSYS`, or nothing is freed. -/
inductive Io where
  | shared (op : Shared)
  | send (record : TraceRecord)
  | waitReadable
  | recv
  | copyCrtc (source : UInt64)
  | copySetProperty (source : UInt64)
  | copyObjProperties (source : UInt64)
  | copyAtomic (source : UInt64)
  | copyPageFlip (source : UInt64)
  | copyU32 (source : UInt64) (count : Nat)
  | copyU64 (source : UInt64) (count : Nat)
  | describe (request source : UInt64)
  | ioctl (fd : Int) (request argument : UInt64)
  | getCrtc (fd : Int) (crtc : UInt32)
  | pageFlip (fd : Int) (crtc fb : UInt32)
  | usleep (microseconds : Nat)
  | realGetProperty (fd : Int) (property : UInt32)
  | freeProperty (property : Property)
  | exit (code : Int)

/-- The answers. With the value of a library function comes the `errno` that it leaves; a system
    call has a result, or fails with an error number. `_exit` does not return. -/
abbrev Io.Ans : Io → Type
  | shared op => op.Ans
  | send _ => Bool × Int
  | waitReadable => Bool × Int
  | recv => Option TraceRecord × Int
  | copyCrtc _ => Option DrmCrtc × Int
  | copySetProperty _ => Option SetProperty × Int
  | copyObjProperties _ => Option ObjProperties × Int
  | copyAtomic _ => Option AtomicRequest × Int
  | copyPageFlip _ => Option PageFlip × Int
  | copyU32 _ count => Option (Fin count → UInt32) × Int
  | copyU64 _ count => Option (Fin count → UInt64) × Int
  | describe _ _ => Decoded × Int
  | ioctl _ _ _ => Except Int Nat
  | getCrtc _ _ => Except Int DrmCrtc
  | pageFlip _ _ _ => Except Int Unit
  | usleep _ => Unit × Int
  | realGetProperty _ _ => Option Property × Int
  | freeProperty _ => Unit × Int
  | exit _ => Empty

end HdmiLos.Tracer

namespace HdmiLos

open Interaction

abbrev TracerProg := Machine Tracer.Thread Tracer.Io.Ans

namespace Tracer

/-- A call and its answer. -/
abbrev Event := Answered Io.Ans

abbrev Env (ω : Type) := Handler Io Io.Ans ω

/-- A thread in its environment, with the calls it has made so far. -/
abbrev Sys (ω : Type) := Process Thread Io.Ans ω

/-- The meaning of the operations for a thread in the environment `env`. -/
abbrev sysHandler {ω : Type} (env : Env ω) : Handler (Act Thread Io) (Act.Ans Io.Ans) (Sys ω) :=
  processHandler env

/-! ## Primitives -/

def getThread : TracerProg Thread := Prog.perform Act.get

def assign (f : Thread → Thread) : TracerProg Unit := Prog.perform (Act.modify f)

def setErrno (errno : Int) : TracerProg Unit := assign fun v => { v with errno := errno }

def call (c : Io) : TracerProg c.Ans := Prog.perform (Act.io c)

def shared (op : Shared) : TracerProg op.Ans := call (.shared op)

/-- A library function leaves its `errno`. -/
def library {α : Type} (p : TracerProg (α × Int)) : TracerProg α := do
  let (a, errno) ← p
  setErrno errno
  pure a

/-- An `if` without `else`. -/
def onlyIf (condition : Bool) (p : TracerProg Unit) : TracerProg Unit :=
  if condition then p else pure ()

/-- `safe_copy`: nothing is read at the null pointer. -/
def safeCopy {α : Type} (source : UInt64) (p : TracerProg (Option α × Int)) :
    TracerProg (Option α) :=
  if source == 0 then pure none else library p

/-- `_exit(125)`. -/
def exit {α : Type} : TracerProg α := do
  let e ← call (.exit 125)
  nomatch e

end Tracer

end HdmiLos
