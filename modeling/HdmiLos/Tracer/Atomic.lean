import HdmiLos.Tracer.Interpose
import Mathlib.Algebra.Ring.Nat
import Mathlib.Data.List.Forall2

/-!
# Atomic requests in the trace

What `emit_atomic_details` is to report of an atomic request whose arrays can be read: one record
for each property, in the order in which the kernel walks the flattened arrays, or one record that
says that the request is beyond the bounds.
-/

namespace HdmiLos.Tracer

open Interaction

/-- The records that were sent. -/
def sent (log : List Event) : List TraceRecord :=
  log.filterMap fun e =>
    match e with
    | ⟨.send record, _⟩ => some record
    | _ => none

/-- An atomic request in the caller's memory: its arrays by position. -/
structure AtomicArgument where
  value : AtomicRequest
  objects : Nat → UInt32
  counts : Nat → UInt32
  properties : Nat → UInt32
  values : Nat → UInt64

namespace AtomicArgument

variable (a : AtomicArgument)

def size : Nat := a.value.countObjs.toNat

/-- The number of properties of the first `i` objects: the place of the next object's properties in
    the flattened arrays. -/
def offset (i : Nat) : Nat := ((List.range i).map fun k => (a.counts k).toNat).sum

/-- The number of properties of all objects, as an exact number. -/
def total : Nat := a.offset a.size

/-- The objects and their properties are within the bounds of the trace. -/
def Fits : Prop := a.size ≤ kMaxAtomicObjects.toNat ∧ a.total ≤ kMaxAtomicProperties.toNat

instance : Decidable a.Fits := inferInstanceAs (Decidable (_ ∧ _))

/-- The properties of the `i`-th object. -/
def detailsOf (i : Nat) : List AtomicDetail :=
  (List.range (a.counts i).toNat).map fun j =>
    ⟨a.objects i, a.properties (a.offset i + j), a.values (a.offset i + j), j.toUInt32⟩

/-- The details of all objects. -/
def details : List AtomicDetail := (List.range a.size).flatMap a.detailsOf

/-- The record of a property: the object, the property, the value and the index of the property
    among those of the object. -/
def IsProperty (sequence : UInt32) (request : UInt64) (record : TraceRecord) (d : AtomicDetail) :
    Prop :=
  record.IsDetail sequence request "ATOMIC_PROPERTY"
    (d.object.toUInt64, d.property.toUInt64, d.value, d.localIndex.toUInt64)

/-- The records that describe the request. -/
def Describes (sequence : UInt32) (request : UInt64) (records : List TraceRecord) : Prop :=
  if a.size = 0 then records = []
  else if a.Fits then List.Forall₂ (IsProperty sequence request) records a.details
  else ∃ record, records = [record] ∧ record.phase = traceDetail ∧ record.sequence = sequence ∧
    record.request = request ∧ record.name = "ATOMIC_TRUNCATED"

/-- The running total of `emit_atomic_details` after the first `i` objects. -/
def running (i : Nat) : Except (Nat × UInt32) UInt32 :=
  atomicTotal ((List.range i).map a.counts)

/-- The first `n` elements of an array, as they are read into a buffer. -/
def buffer {α : Type} (array : Nat → α) (n : Nat) : List α := (List.range n).map array

/-- The walk over the buffers. -/
def walk : Option (List AtomicDetail) :=
  walkObjects (buffer a.objects a.size) (buffer a.counts a.size) (buffer a.properties a.total)
    (buffer a.values a.total) a.size 0 0

end AtomicArgument

section Environment

variable {ω : Type} (env : Env ω)

/-- The environment reads the elements of an array of words. -/
def ReadsU32 (source : UInt64) (count : Nat) (array : Nat → UInt32) : Prop :=
  source ≠ 0 ∧ ∀ w, ∃ errno w',
    env (.copyU32 source count) w = some ((some fun i : Fin count => array i, errno), w')

/-- The copies read the array. -/
def ReadsU64 (source : UInt64) (count : Nat) (array : Nat → UInt64) : Prop :=
  source ≠ 0 ∧ ∀ w, ∃ errno w',
    env (.copyU64 source count) w = some ((some fun i : Fin count => array i, errno), w')

/-- The request and its arrays can be read. -/
structure Readable (argument : UInt64) (a : AtomicArgument) : Prop where
  nonnull : argument ≠ 0
  value : ∀ w, ∃ errno w', env (.copyAtomic argument) w = some ((some a.value, errno), w')
  objects : a.size ≠ 0 → ReadsU32 env a.value.objs a.size a.objects
  counts : a.size ≠ 0 → ReadsU32 env a.value.countProps a.size a.counts
  properties : a.total ≠ 0 → ReadsU32 env a.value.props a.total a.properties
  values : a.total ≠ 0 → ReadsU64 env a.value.propValues a.total a.values

/-- The agent acknowledges every record with the sequence number. -/
structure Acknowledging (sequence : UInt32) : Prop where
  send : ∀ record w, ∃ errno w', env (.send record) w = some ((true, errno), w')
  waitReadable : ∀ w, ∃ errno w', env .waitReadable w = some ((true, errno), w')
  recv : ∀ w, ∃ ack errno w', env .recv w = some ((some ack, errno), w') ∧
    ∀ record : TraceRecord, record.sequence = sequence → acknowledges record ack = true
  storeSteady : ∀ w, ∃ w', env (.shared .storeSteady) w = some ((), w')

end Environment

/-- The trace of an atomic request is exact and bounded. -/
structure ExactlyTraced {ω : Type} (env : Env ω) (argument : UInt64) (a : AtomicArgument)
    (sequence : UInt32) (request : UInt64) (s : Sys ω) : Prop where
  /-- A call that returns has sent the records that describe the request, and one that does not
      return has sent the first of them at most; it can only be cut off by the agent. -/
  emitted : Prog.wp (sysHandler env) (emitAtomicDetails sequence request argument)
    (fun _ t => ∃ records, a.Describes sequence request records ∧
      sent t.log = sent s.log ++ records) s
    fun t => ¬Acknowledging env sequence ∧ ∃ records, a.Describes sequence request records ∧
      sent t.log <+: sent s.log ++ records
  /-- Every property of a request within the bounds is found at an index within the arrays. -/
  inBounds : a.Fits → a.walk = some a.details
  /-- Every running total that is computed is the exact number. -/
  unwrapped : ∀ i ≤ a.size, ∀ total, a.running i = .ok total →
    total.toNat = a.offset i ∧ a.offset i ≤ kMaxAtomicProperties.toNat

end HdmiLos.Tracer
