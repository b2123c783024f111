import HdmiLos.Input.Bridge
import Mathlib.Data.List.Nodup

/-!
# One pass of the poll loop

`run` walks the array of sources from its end next to the array that it gave to `poll`, and
`disconnect_physical` closes the gap of a source that goes away while the walk goes on. Here the
sources are the pointers of the source code, in an array of which the first `source_count` slots are
in use, and what they point to is in a heap.
-/

namespace HdmiLos.Input

open List

abbrev Pointer := Nat

/-- `memmove` of `n` elements within an array. -/
def memmove {α : Type} (array : List α) (target source n : Nat) : List α :=
  array.take target ++ ((array.drop source).take n ++ array.drop (target + n))

theorem memmove_next {α : Type} {array : List α} {i count : Nat} (hi : i < count)
    (hcount : count ≤ array.length) :
    (memmove array i (i + 1) (count - i - 1)).take (count - 1) = (array.take count).eraseIdx i := by
  have hfront : (array.take i ++ (array.drop (i + 1)).take (count - i - 1)).length = count - 1 := by
    simp only [length_append, length_take, length_drop]
    omega
  rw [memmove, ← append_assoc, take_append_of_le_length (by omega),
    take_of_length_le (by omega), eraseIdx_eq_take_drop_succ, take_take,
    drop_take, Nat.min_eq_left (by omega), Nat.sub_sub]

theorem length_memmove_next {α : Type} {array : List α} {i count : Nat} (hi : i < count)
    (hcount : count ≤ array.length) :
    (memmove array i (i + 1) (count - i - 1)).length = array.length := by
  simp only [memmove, length_append, length_take, length_drop]
  omega

/-- `sources` and `source_count`. What is behind the slots in use is left over from earlier. -/
structure SourceTable where
  slots : List Pointer
  count : Nat
  bound : count ≤ slots.length
  distinct : (slots.take count).Nodup

namespace SourceTable

/-- The slots in use. -/
def live (t : SourceTable) : List Pointer := t.slots.take t.count

/-- The end of `disconnect_physical`. -/
def removeAt (t : SourceTable) (i : Nat) (hi : i < t.count) : SourceTable where
  slots := memmove t.slots i (i + 1) (t.count - i - 1)
  count := t.count - 1
  bound := by
    rw [length_memmove_next hi t.bound]
    exact Nat.le_trans (Nat.sub_le _ _) t.bound
  distinct := by
    rw [memmove_next hi t.bound]
    exact t.distinct.sublist (eraseIdx_sublist _ _)

end SourceTable

/-- `struct pollfd`. -/
structure PollFd where
  fd : Fin (2 ^ 31)
  revents : Revents := {}

/-- What `poll` tells: the `revents` of each entry, that it was interrupted, or an error. -/
inductive Polled where
  | reported (revents : Nat → Revents)
  | interrupted
  | failed

/-- A call of `forward_events`, with what it returned. -/
structure Forwarded where
  source : Pointer
  polled : PollFd
  ok : Bool

/-- The variables of the pass, with the calls made so far. -/
structure Round where
  table : SourceTable
  heap : Pointer → Physical
  outputs : Outputs
  forwarded : List Forwarded := []
  disconnected : List Pointer := []
  ended : Bool := false

namespace Round

/-- `disconnect_physical`; nothing if the index is not that of a source. -/
def disconnectPhysical (r : Round) (i : Nat) : Option Round :=
  if hi : i < r.table.count then
    r.table.live[i]?.map fun source =>
      { r with
        table := r.table.removeAt i hi
        outputs := (Port.letGo ⟨r.heap source, r.outputs⟩).outputs
        disconnected := r.disconnected ++ [source] }
  else none

/-- The call of `forward_events` for one source; the events that it reads are in `events`. -/
def forward (r : Round) (source : Pointer) (polled : PollFd)
    (events : List (InputEvent × Option (List UInt8))) (drained : Bool) : Bool × Round :=
  let (ok, p) := Port.forwardEvents ⟨r.heap source, r.outputs⟩ polled.revents events drained
  (ok, { r with
    heap := Function.update r.heap source p.source
    outputs := p.outputs
    forwarded := r.forwarded ++ [⟨source, polled, ok⟩] })

/-- One turn of the loop over the sources, for the index `i`. -/
def serve (fds : List PollFd) (reads : Nat → List (InputEvent × Option (List UInt8)) × Bool)
    (i : Nat) (r : Round) : Option Round := do
  let source ← r.table.live[i]?
  let polled ← fds[i]?
  match r.forward source polled (reads i).1 (reads i).2 with
  | (true, r) => some r
  | (false, r) => r.disconnectPhysical i

/-- The loop, down from the last source. -/
def serveAll (fds : List PollFd) (reads : Nat → List (InputEvent × Option (List UInt8)) × Bool) :
    Nat → Round → Option Round
  | 0, r => some r
  | i + 1, r => (r.serve fds reads i).bind (serveAll fds reads i)

/-- The array that `poll` is given. -/
def pollSet (r : Round) : List PollFd := r.table.live.map fun source => { fd := (r.heap source).fd }

/-- A pass of the loop of `run` from the allocation of that array on. `poll` returns the number of
    entries that have a result, and the sources are served only if there is one. -/
def pass (r : Round) (polled : Polled)
    (reads : Nat → List (InputEvent × Option (List UInt8)) × Bool) : Option Round :=
  match polled with
  | .reported revents =>
    let fds := r.pollSet.mapIdx fun i entry => { entry with revents := revents i }
    if fds.any (·.revents != {}) then r.serveAll fds reads r.table.count else some r
  | .interrupted => some r
  | .failed => some { r with ended := true }

/-- Passes one after the other, with what `poll` reports and what is read in each. -/
def passAll (r : Round)
    (passes : List (Polled × (Nat → List (InputEvent × Option (List UInt8)) × Bool))) :
    Option Round :=
  passes.foldlM (fun r x => r.pass x.1 x.2) r

/-- The bridge whose sources are those in use. -/
def bridge (r : Round) : Bridge where
  sources := r.table.live.map r.heap
  outputs := r.outputs

end Round

end HdmiLos.Input
