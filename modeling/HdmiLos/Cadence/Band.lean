import HdmiLos.Gray.Code

/-!
# The frame counter on the screen

`sdl-frame-pacing` draws the number of each frame as a band of 20 bars: four bars that alternate
between white and black, and sixteen bars for bits of the Gray code of the counter.
`analyze-cadence.py` finds the bars again in a captured image, decodes the number, and counts from
one shown number to the next what was skipped. The levels of an image are those of one channel of 8
bits; what `numpy` computes with floating-point numbers is exact here.
-/

namespace HdmiLos.Cadence

/-! ## Drawing -/

/-- A rectangle of pixels. -/
structure Rect where
  x : Int
  y : Int
  width : Int
  height : Int

/-- The pixel is in the rectangle. -/
def Rect.contains (r : Rect) (column row : Int) : Bool :=
  r.x ≤ column && column < r.x + r.width && r.y ≤ row && row < r.y + r.height

/-- What is drawn to: the scissor rectangle, and the level of each pixel. -/
structure Surface where
  scissor : Rect
  pixel : (column row : Int) → Nat

/-- `glScissor`. A negative size is an error and leaves the rectangle as it was. -/
def Surface.setScissor (s : Surface) (r : Rect) : Surface :=
  if r.width < 0 || r.height < 0 then s else { s with scissor := r }

/-- `glClear` within the scissor. -/
def Surface.clear (s : Surface) (level : Nat) : Surface :=
  { s with
    pixel := fun column row => if s.scissor.contains column row then level else s.pixel column row }

/-- Fills a rectangle. -/
def clearRect (x y width height : Int) (level : Nat) (s : Surface) : Surface :=
  (s.setScissor ⟨x, y, width, height⟩).clear level

def level (white : Bool) : Nat := if white then 255 else 0

/-- `bar * (unsigned)width / bars`: the left border of a bar, computed in 32 bits. -/
def border (bar : UInt32) (width : Int) : Int := ((bar * UInt32.ofInt width) / 20).toNat

/-- The colour of a bar of the band. -/
def barIsWhite (frame bar : UInt32) : Bool :=
  let gray := frame ^^^ (frame >>> 1)
  if bar < 4 then (bar &&& 1) == 0 else (gray &&& (1 <<< (bar - 4))) != 0

/-- One round of the loop of `draw_code_band`. -/
def drawBar (frame : UInt32) (width y height : Int) (s : Surface) (bar : Nat) : Surface :=
  let x := border bar.toUInt32 width
  let next := border (bar.toUInt32 + 1) width
  clearRect x y (next - x) height (level (barIsWhite frame bar.toUInt32)) s

/-- Draws the twenty bars. -/
def drawCodeBand (frame : UInt32) (width y height : Int) (s : Surface) : Surface :=
  (List.range 20).foldl (drawBar frame width y height) s

/-! ## Decoding -/

/-- An image in levels of gray. -/
structure Image where
  height : Nat
  width : Nat
  pixel : (row column : Nat) → Nat

/-- The ideal capture of a surface. -/
def Surface.capture (s : Surface) (width height : Nat) : Image where
  height := height
  width := width
  pixel row column := s.pixel column row

def grayToBinary (gray : Nat) : Nat := Gray.decode gray

/-- `np.median`: the middle of the sorted levels, or the mean of the two in the middle. -/
def median (levels : List Nat) : Rat :=
  let sorted := levels.mergeSort
  let half := sorted.length / 2
  if sorted.length % 2 = 1 then sorted.getD half 0
  else ((sorted.getD (half - 1) 0 : Rat) + sorted.getD half 0) / 2

/-- `gray[top:bottom, left:right]`, within the image. -/
def Image.patch (gray : Image) (top bottom left right : Nat) : List Nat :=
  (List.range' top (bottom - top)).flatMap fun row =>
    (List.range' left (right - left)).map fun column => gray.pixel row column

/-- The level of a bar, from the middle of it. -/
def barValue (gray : Image) (width x y bandHeight bar : Nat) : Option Rat :=
  let marginY := max 1 (bandHeight / 4)
  let left := x + bar * width / 20
  let right := x + (bar + 1) * width / 20
  let marginX := max 1 ((right - left) / 4)
  let patch := gray.patch (y + marginY) (y + bandHeight - marginY) (left + marginX)
    (right - marginX)
  if patch.isEmpty then none else some (median patch)

/-- The loop that sets the bits of the code. -/
def encodedBits (threshold : Rat) (values : List Rat) : Nat :=
  values.zipIdx.foldl
    (fun encoded (value, bit) => if value > threshold then encoded ||| (1 <<< bit) else encoded) 0

/-- The end of `decode_band`: from the levels of the bars. -/
def decodeValues (values : List Rat) : Option Nat :=
  let value := fun i => values.getD i 0
  let white := (value 0 + value 2) / 2
  let black := (value 1 + value 3) / 2
  if white - black < 100 then none
  else
    let threshold := (white + black) / 2
    if !(value 0 > threshold && value 1 < threshold && value 2 > threshold &&
        value 3 < threshold) then none
    else some (grayToBinary (encodedBits threshold (values.drop 4)))

/-- The number a band shows. -/
def decodeBand (gray : Image) (width : Nat) (x y : Int) (bandHeight : Nat) : Option Nat :=
  if x < 0 || y < 0 || x + width > gray.width || y + bandHeight > gray.height then none
  else ((List.range 20).mapM (barValue gray width x.toNat y.toNat bandHeight)).bind decodeValues

/-! ## Reporting -/

/-- The loop of `report` over the captured numbers: the changes from one number to the next, from
    the number `hold` on. -/
def transitions (hold : Nat) : List Nat → List (Nat × Nat)
  | [] => []
  | current :: ids =>
    if current = hold then transitions hold ids else (hold, current) :: transitions current ids

/-- What `report` counts. -/
structure Tally where
  sourceSkips : Nat := 0
  discontinuities : Nat := 0
  deriving DecidableEq, Repr

/-- Counts a change of frame. -/
def Tally.count (t : Tally) : Nat × Nat → Tally
  | (previous, current) =>
    let delta := (((current : Int) - previous) % 65536).toNat
    if 1 ≤ delta ∧ delta < 0x8000 then { t with sourceSkips := t.sourceSkips + (delta - 1) }
    else { t with discontinuities := t.discontinuities + 1 }

/-- The tally of the changes. -/
def tally (changes : List (Nat × Nat)) : Tally := changes.foldl Tally.count {}

/-! ## The round trip -/

/-- The number that is decoded from an ideal image of the band of a frame, in a window of the given
    size. -/
def shown (frame : UInt32) (width height : Nat) (s : Surface) : Option Nat :=
  let bandHeight := height / 8
  decodeBand ((drawCodeBand frame width 0 bandHeight s).capture width bandHeight) width 0 0
    bandHeight

/-- The band of the frame decodes to the lower 16 bits of its number. -/
def Decodes (frame : UInt32) (width height : Nat) (s : Surface) : Prop :=
  shown frame width height s = some (frame.toNat % 65536)

/-- The change from the frame to the next one is by one, and counts as no skip and no
    discontinuity. -/
def CountsNothing (frame : UInt32) (width height : Nat) (s : Surface) : Prop :=
  ∃ id id', shown frame width height s = some id ∧ shown (frame + 1) width height s = some id' ∧
    ((id' : Int) - id) % 65536 = 1 ∧ tally (transitions id [id']) = {}

end HdmiLos.Cadence
