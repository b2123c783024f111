import HdmiLos.Input.Bridge

/-!
# Dropped frames

A source whose queue has overrun says `SYN_DROPPED`, and what it says up to the next `SYN_REPORT` is
not complete. The bridge is followed here event by event, however the events are split into reads.
Beside each source stand what it has said and what it has sent to each virtual device since it last
flushed its frames, taken from what is written and not from the flags of the source.
-/

namespace HdmiLos.Input

namespace InputEvent

/-- Events were lost. -/
def isDropped (event : InputEvent) : Bool := event.type == evSyn && event.code == synDropped

/-- A frame ends. -/
def isReport (event : InputEvent) : Bool := event.type == evSyn && event.code == synReport

end InputEvent

/-! ## What a source has done -/

/-- What a source delivered and what was sent. -/
structure Past where
  seen : List InputEvent := []
  sent : Device → List InputEvent := fun _ => []

/-- What is written to `d` between `o` and `o'`. -/
def Outputs.between (o o' : Outputs) (d : Device) : List InputEvent :=
  (o' d).emitted.drop (o d).emitted.length

namespace Past

/-- The source has said one more event, and the virtual devices went from `o` to `o'` at it. -/
def next (past : Past) (event : InputEvent) (o o' : Outputs) : Past where
  seen := past.seen ++ [event]
  sent d := if event.isReport then [] else past.sent d ++ o.between o' d

/-- There was a `SYN_DROPPED`, and no `SYN_REPORT` since. -/
def Dropped (past : Past) : Prop :=
  ∃ earlier event later, past.seen = earlier ++ event :: later ∧ event.isDropped = true ∧
    ∀ e ∈ later, e.isReport = false

end Past

/-! ## Event by event -/

/-- The bridge with the past of each of its sources. -/
structure Watched where
  bridge : Bridge
  pasts : List Past := []

/-- One event of a source, or one of the other things that `run` does. -/
inductive Tick where
  | scan (found : List Candidate)
  | event (i : Nat) (event : InputEvent) (keys : Option (List UInt8))
  | disconnect (i : Nat)
  | finish

namespace Watched

/-- `scan_physical` adds its sources after the others. -/
def scan (w : Watched) (found : List Candidate) : Watched :=
  let bridge := w.bridge.scanPhysical found
  ⟨bridge, w.pasts ++ List.replicate (bridge.sources.length - w.bridge.sources.length) ({} : Past)⟩

/-- The source `i` goes. -/
def disconnect (w : Watched) (i : Nat) : Watched :=
  ⟨w.bridge.disconnectPhysical i, w.pasts.eraseIdx i⟩

/-- One event of the source `i`. When `forward_events` returns false at it, `run` disconnects the
    source. -/
def event (w : Watched) (i : Nat) (event : InputEvent) (keys : Option (List UInt8)) : Watched :=
  match w.bridge.sources[i]?, w.pasts[i]? with
  | some source, some past =>
    match Port.forwardEvent ⟨source, w.bridge.outputs⟩ event keys with
    | (true, p) =>
      ⟨{ w.bridge with sources := w.bridge.sources.set i p.source, outputs := p.outputs },
        w.pasts.set i (past.next event w.bridge.outputs p.outputs)⟩
    | (false, _) => w.disconnect i
  | _, _ => w

/-- A tick. -/
def step (w : Watched) (t : Tick) : Watched :=
  if w.bridge.ended then w
  else match t with
    | .scan found => w.scan found
    | .event i event keys => w.event i event keys
    | .disconnect i => w.disconnect i
    | .finish => ⟨w.bridge.finish, []⟩

end Watched

/-- The bridge watched from its start. -/
def watch (hiresWheel hiresHwheel : Bool) (ticks : List Tick) : Watched :=
  ticks.foldl Watched.step ⟨Bridge.start hiresWheel hiresHwheel, []⟩

/-! ## What is to hold -/

/-- Some source holds the key. -/
def Bridge.holding (b : Bridge) (d : Device) (code : Nat) : Bool :=
  b.sources.any (Physical.holds d code)

/-- The key events of a device at which its keys go from `before` to `after`. -/
def edges (codes : List Nat) (before after : Nat → Bool) : List InputEvent :=
  (codes.filter fun code => before code != after code).map fun code =>
    { type := evKey, code := UInt16.ofNat code, value := if after code then 1 else 0 }

/-- The bridge goes from `b` to `b'` with nothing but the edges of the keys on each device. A device
    that got one of them, or had something from the source since its last flush, is told by one
    `SYN_REPORT` that the frame is over, and another device is not. -/
def Settles (past : Past) (b b' : Bridge) : Prop :=
  ∀ d, let keys := edges (List.range keyCnt) (b.holding d) (b'.holding d)
    (b'.outputs d).emitted = (b.outputs d).emitted ++ keys ++
      if past.sent d = [] ∧ keys = [] then [] else [{ type := evSyn, code := synReport }]

/-- The source `s` at `i`, in the middle of a dropped frame. -/
structure Resynchronises (w : Watched) (i : Nat) (s : Physical) (past : Past) : Prop where
  /-- Nothing is forwarded before the next `SYN_REPORT`. -/
  quiet : ∀ event keys, event.isReport = false → (w.event i event keys).bridge = w.bridge
  /-- At the `SYN_REPORT` the keys are those that the kernel answers with. -/
  matched : ∀ event bits, event.isReport = true →
    ∃ s', (w.event i event (some bits)).bridge.sources = w.bridge.sources.set i s' ∧
      s'.roles = s.roles ∧ s'.dropping = false ∧
      ∀ code, (keyTarget s.roles code).isSome → s'.pressed code = Port.keyBit bits code
  settled : ∀ event bits, event.isReport = true →
    Settles past w.bridge (w.event i event (some bits)).bridge
  /-- Without an answer the source goes, and so do its keys and frames. -/
  lost : ∀ event, event.isReport = true →
    (w.event i event none).bridge.sources = w.bridge.sources.eraseIdx i ∧
      Settles past w.bridge (w.event i event none).bridge

end HdmiLos.Input
