import Mathlib.Data.Rat.Defs
import Mathlib.Tactic.Ring
import HdmiLos.Cadence.Band
import HdmiLos.Gray.Proofs.CodeProofs

/-!
# The round trip of the frame counter

The borders of the bars are the same numbers in both programs, so the middle of a bar has the
colour of the bar, and what is decoded are the 16 bits that were drawn. These are the lower bits of
the Gray code of the whole counter.
-/

namespace HdmiLos.Cadence

open List

/-! ## The borders of the bars -/

/-- The left border of a bar as an exact number. -/
def edge (width bar : Nat) : Nat := bar * width / 20

variable {bar : Nat}

theorem edge_mono (width : Nat) {bar' : Nat} (h : bar ≤ bar') : edge width bar ≤ edge width bar' :=
  Nat.div_le_div_right (Nat.mul_le_mul_right width h)

variable {width : Nat}

/-- A bar of a window of at least 60 columns has at least three columns. -/
theorem edge_succ (hwidth : 60 ≤ width) (bar : Nat) :
    edge width bar + 3 ≤ edge width (bar + 1) := by
  rw [edge, edge, Nat.succ_mul]
  omega

theorem border_eq (hbar : bar ≤ 20) (hwidth : width < 2 ^ 32) (hproduct : bar * width < 2 ^ 32) :
    border bar.toUInt32 width = edge width bar := by
  have hw : (UInt32.ofInt width).toNat = width := by
    simp only [UInt32.ofInt, UInt32.toNat_ofNat']
    omega
  have hb : bar.toUInt32.toNat = bar := Nat.mod_eq_of_lt (by omega)
  rw [border, UInt32.toNat_div, UInt32.toNat_mul, hw, hb, Nat.mod_eq_of_lt hproduct]
  rfl

/-! ## Drawing -/

/-- The columns of a bar as a rectangle. -/
def barRect (width height bar : Nat) : Rect :=
  ⟨edge width bar, 0, (edge width (bar + 1) : Int) - edge width bar, height⟩

variable {height : Nat} {column row : Nat}

theorem barRect_contains (hrow : row < height) :
    (barRect width height bar).contains column row = true ↔
      edge width bar ≤ column ∧ column < edge width (bar + 1) := by
  simp [Rect.contains, barRect]
  omega

/-- A bar whose borders are exact paints its own columns. -/
theorem drawBar_eq (frame : UInt32) (s : Surface) (hbar : bar < 20)
    (hproduct : (bar + 1) * width < 2 ^ 32) :
    drawBar frame width 0 height s bar = { s with scissor := barRect width height bar }.clear
        (level (barIsWhite frame bar.toUInt32)) := by
  have hle : bar * width + width < 2 ^ 32 := by rwa [Nat.succ_mul] at hproduct
  have hx : border bar.toUInt32 width = edge width bar :=
    border_eq (by omega) (by omega) (by omega)
  have hnext : border (bar.toUInt32 + 1) width = edge width (bar + 1) := by
    have hsucc : bar.toUInt32 + 1 = (bar + 1).toUInt32 := by simp
    rw [hsucc]
    exact border_eq (by omega) (by omega) hproduct
  have hmono : edge width bar ≤ edge width (bar + 1) := edge_mono width (Nat.le_succ bar)
  have hset : ¬((edge width (bar + 1) : Int) - edge width bar < 0 ∨ (height : Int) < 0) := by omega
  simp only [drawBar, hx, hnext, clearRect, Surface.setScissor, Bool.or_eq_true,
    decide_eq_true_eq, if_neg hset]
  rfl

theorem drawn_pixel (frame : UInt32) (s : Surface) {n : Nat} (hn : n ≤ 20)
    (hproduct : n * width < 2 ^ 32) (hbar : bar < n)
    (hleft : edge width bar ≤ column) (hright : column < edge width (bar + 1))
    (hrow : row < height) :
    ((range n).foldl (drawBar frame width 0 height) s).pixel column row =
      level (barIsWhite frame bar.toUInt32) := by
  induction n with
  | zero => omega
  | succ n ih =>
    rw [range_succ, foldl_append, foldl_cons, foldl_nil,
      drawBar_eq frame _ (by omega) hproduct, Surface.clear]
    dsimp only
    rcases Nat.lt_succ_iff_lt_or_eq.mp hbar with hlt | rfl
    · have hbefore : edge width (bar + 1) ≤ edge width n := edge_mono width hlt
      rw [if_neg (by rw [barRect_contains hrow]; omega)]
      exact ih (by omega) (by rw [Nat.succ_mul] at hproduct; omega) hlt
    · rw [if_pos ((barRect_contains hrow).mpr ⟨hleft, hright⟩)]

theorem drawn_outside (frame : UInt32) (s : Surface) {n : Nat} (hn : n ≤ 20)
    (hproduct : n * width < 2 ^ 32) (hleft : edge width n ≤ column)
    (hrow : row < height) :
    ((range n).foldl (drawBar frame width 0 height) s).pixel column row =
      s.pixel column row := by
  induction n with
  | zero => rfl
  | succ n ih =>
    have hmono : edge width n ≤ edge width (n + 1) := edge_mono width (Nat.le_succ n)
    rw [range_succ, foldl_append, foldl_cons, foldl_nil,
      drawBar_eq frame _ (by omega) hproduct, Surface.clear]
    dsimp only
    rw [if_neg (by rw [barRect_contains hrow]; omega)]
    exact ih (by omega) (by rw [Nat.succ_mul] at hproduct; omega) (by omega)

/-! ## The middle of a bar -/

variable {gray : Image}

theorem mem_patch {top bottom left right v : Nat} (h : v ∈ gray.patch top bottom left right) :
    ∃ row column, top ≤ row ∧ row < bottom ∧ left ≤ column ∧ column < right ∧
      v = gray.pixel row column := by
  simp only [Image.patch, mem_flatMap, mem_map, mem_range'_1] at h
  obtain ⟨row, hrow, column, hcolumn, rfl⟩ := h
  exact ⟨row, column, by omega, by omega, by omega, by omega, rfl⟩

theorem patch_ne_nil (gray : Image) {top bottom left right : Nat} (hrows : top < bottom)
    (hcolumns : left < right) : gray.patch top bottom left right ≠ [] := by
  have hmem : gray.pixel top left ∈ gray.patch top bottom left right := by
    simp only [Image.patch, mem_flatMap, mem_map, mem_range'_1]
    exact ⟨top, by omega, left, by omega, rfl⟩
  exact ne_nil_of_mem hmem

theorem median_constant {levels : List Nat} {v : Nat} (hne : levels ≠ [])
    (hall : ∀ x ∈ levels, x = v) : median levels = v := by
  have hlength : levels.mergeSort.length = levels.length := length_mergeSort levels
  have hpos : 0 < levels.length := length_pos_iff.mpr hne
  have hget : ∀ i < levels.length, levels.mergeSort.getD i 0 = v := by
    intro i hi
    have hi' : i < levels.mergeSort.length := hlength ▸ hi
    rw [getD_eq_getElem _ _ hi']
    exact hall _ ((mergeSort_perm levels _).mem_iff.mp (getElem_mem hi'))
  rw [median]
  rw [hlength, hget _ (by omega), hget _ (by omega)]
  split
  · rfl
  · ring

/-- The level found in the middle of a bar whose columns all have one level. -/
theorem barValue_constant {v : Nat} (hwidth : 60 ≤ width) (hheight : 3 ≤ height)
    (h : ∀ column row, edge width bar ≤ column → column < edge width (bar + 1) → row < height →
      gray.pixel row column = v) : barValue gray width 0 0 height bar = some (v : Rat) := by
  have hthree : edge width bar + 3 ≤ edge width (bar + 1) := edge_succ hwidth bar
  rw [barValue]
  simp only [Nat.zero_add, ← edge.eq_def]
  have hrows : max 1 (height / 4) < height - max 1 (height / 4) := by omega
  have hcolumns : edge width bar + max 1 ((edge width (bar + 1) - edge width bar) / 4) <
      edge width (bar + 1) - max 1 ((edge width (bar + 1) - edge width bar) / 4) := by omega
  have hne := patch_ne_nil gray hrows hcolumns
  rw [if_neg (by simpa using hne), Option.some_inj]
  refine median_constant hne ?_
  intro x hx
  obtain ⟨row, column, -, hrow, hleft, hright, rfl⟩ := mem_patch hx
  exact h column row (by omega) (by omega) (by omega)

/-! ## The bits of the code -/

theorem mapM_some {α β : Type} {f : α → Option β} {g : α → β} {l : List α}
    (h : ∀ x ∈ l, f x = some (g x)) : l.mapM f = some (l.map g) := by
  induction l with
  | nil => rfl
  | cons x l ih =>
    rw [mapM_cons, h x (by simp), ih fun y hy => h y (mem_cons_of_mem _ hy)]
    rfl

theorem testBit_encodedBits (white : Nat → Bool) (n i : Nat) :
    (encodedBits (255 / 2) ((range n).map fun k => (level (white k) : Rat))).testBit i =
      (decide (i < n) && white i) := by
  induction n with
  | zero => simp [encodedBits]
  | succ n ih =>
    have hstep : encodedBits (255 / 2) ((range (n + 1)).map fun k => (level (white k) : Rat)) =
        if (level (white n) : Rat) > 255 / 2 then
          encodedBits (255 / 2) ((range n).map fun k => (level (white k) : Rat)) ||| (1 <<< n)
        else encodedBits (255 / 2) ((range n).map fun k => (level (white k) : Rat)) := by
      simp [encodedBits, range_succ, zipIdx_append]
    rw [hstep]
    by_cases hi : i = n
    · subst hi
      cases hwhite : white i with
      | true =>
        rw [if_pos (by decide +kernel), Nat.testBit_or, Nat.shiftLeft_eq, Nat.one_mul]
        simp
      | false =>
        rw [if_neg (by decide +kernel), ih]
        simp [hwhite]
    · have hlt : i < n + 1 ↔ i < n := by omega
      have hother : (1 <<< n).testBit i = false := by
        rw [Nat.shiftLeft_eq, Nat.one_mul, Nat.testBit_two_pow]
        simpa using fun h => hi h.symm
      split
      · rw [Nat.testBit_or, hother, Bool.or_false, ih]
        simp only [hlt]
      · rw [ih]
        simp only [hlt]

/-- A bar of the code has the colour of its bit of the Gray code. -/
theorem barIsWhite_code (frame : UInt32) {i : Nat} (hi : i < 16) :
    barIsWhite frame (i + 4).toUInt32 = (Gray.encode frame.toNat).testBit i := by
  have hgray : (frame ^^^ (frame >>> 1)).toNat = Gray.encode frame.toNat := by
    rw [UInt32.toNat_xor, UInt32.toNat_shiftRight]
    rfl
  have hshift : ((1 : UInt32) <<< ((i + 4).toUInt32 - 4)).toNat = 2 ^ i := by
    revert i
    decide
  have hbar : ¬(i + 4).toUInt32 < 4 := by
    revert i
    decide
  rw [barIsWhite, if_neg hbar, ← hgray]
  have hand : ((frame ^^^ (frame >>> 1)) &&& (1 <<< ((i + 4).toUInt32 - 4))).toNat =
      ((frame ^^^ (frame >>> 1)).toNat.testBit i).toNat * 2 ^ i := by
    rw [UInt32.toNat_and, hshift, Nat.and_two_pow]
  cases hbit : (frame ^^^ (frame >>> 1)).toNat.testBit i with
  | true =>
    rw [hbit] at hand
    have hpos : 0 < 2 ^ i := Nat.two_pow_pos i
    refine bne_iff_ne.mpr fun hzero => ?_
    rw [hzero] at hand
    simp at hand
    omega
  | false =>
    rw [hbit] at hand
    have hzero : (frame ^^^ (frame >>> 1)) &&& (1 <<< ((i + 4).toUInt32 - 4)) = 0 :=
      UInt32.toNat_inj.mp (by simpa using hand)
    rw [hzero]
    rfl

/-- The levels of the bars of a drawn band. -/
def drawnValues (frame : UInt32) : List Rat :=
  (range 20).map fun bar => (level (barIsWhite frame bar.toUInt32) : Rat)

theorem drawnValues_eq (frame : UInt32) : drawnValues frame = [255, 0, 255, 0] ++
      (range 16).map fun i => (level ((Gray.encode frame.toNat).testBit i) : Rat) := by
  have hcode : (range 16).map (fun i => (level ((Gray.encode frame.toNat).testBit i) : Rat)) =
      (range 16).map fun i => (level (barIsWhite frame (i + 4).toUInt32) : Rat) := by
    refine map_congr_left fun i hi => ?_
    rw [barIsWhite_code frame (mem_range.mp hi)]
  rw [hcode]
  rfl

/-- What is decoded of the levels: the 16 bars of the code. -/
theorem decodeValues_drawn (frame : UInt32) :
    decodeValues (drawnValues frame) = some (Gray.decode (Gray.encode frame.toNat % 2 ^ 16)) := by
  have hbits : encodedBits (255 / 2) ((range 16).map fun i =>
      (level ((Gray.encode frame.toNat).testBit i) : Rat)) = Gray.encode frame.toNat % 2 ^ 16 := by
    refine Nat.eq_of_testBit_eq fun i => ?_
    rw [testBit_encodedBits, Nat.testBit_mod_two_pow]
  rw [drawnValues_eq, decodeValues]
  simp only [cons_append, nil_append, getD_cons_zero, getD_cons_succ, drop_succ_cons, drop_zero]
  rw [if_neg (by decide +kernel), show ((255 + 255 : Rat) / 2 + (0 + 0) / 2) / 2 = 255 / 2 by
    decide +kernel, if_neg (by decide +kernel), grayToBinary, hbits]

theorem decodeBand_constant (levels : Nat → Nat) (hwidth : 60 ≤ width) (hheight : 3 ≤ height)
    (hgray : gray.width = width) (hgray' : gray.height = height)
    (h : ∀ bar < 20, ∀ column row, edge width bar ≤ column → column < edge width (bar + 1) →
      row < height → gray.pixel row column = levels bar) :
    decodeBand gray width 0 0 height =
      decodeValues ((range 20).map fun bar => (levels bar : Rat)) := by
  have hvalues : (range 20).mapM (barValue gray width 0 0 height) =
      some ((range 20).map fun bar => (levels bar : Rat)) := by
    refine mapM_some fun bar hbar => ?_
    exact barValue_constant hwidth hheight (h bar (mem_range.mp hbar))
  rw [decodeBand, if_neg (by simp [hgray, hgray'])]
  exact congrArg (Option.bind · decodeValues) hvalues

/-- The number that a frame is decoded to: its lower 16 bits, or their complement. -/
theorem shown_eq (frame : UInt32) (s : Surface) (hwidth : 60 ≤ width) (hheight : 24 ≤ height)
    (hproduct : 20 * width < 2 ^ 32) :
    shown frame width height s = some (Gray.lower frame.toNat 16) := by
  have hband : 3 ≤ height / 8 := by omega
  rw [← Gray.decode_encode_mod]
  refine (decodeBand_constant (fun bar => level (barIsWhite frame bar.toUInt32)) hwidth hband rfl
    rfl ?_).trans (decodeValues_drawn frame)
  intro bar hbar column row hleft hright hrow
  exact drawn_pixel frame s (Nat.le_refl 20) hproduct hbar hleft hright hrow

/-! ## The round trip -/

variable {frame : UInt32}

/-- The band decodes to the lower 16 bits of the counter exactly while bit 16 is clear. -/
theorem decodes_iff (s : Surface) (hwidth : 60 ≤ width) (hheight : 24 ≤ height)
    (hproduct : 20 * width < 2 ^ 32) :
    Decodes frame width height s ↔ frame.toNat.testBit 16 = false := by
  rw [Decodes, shown_eq frame s hwidth hheight hproduct, Option.some.injEq, Gray.lower]
  cases frame.toNat.testBit 16 with
  | false => simp
  | true =>
    simp only [if_true, Bool.true_eq_false, iff_false]
    omega

theorem count_succ (t : Tally) {id id' : Nat} (h : ((id' : Int) - id) % 65536 = 1) :
    t.count (id, id') = t := by
  rw [Tally.count, h]
  rfl

theorem foldl_count_steady (t : Tally) {hold : Nat} {ids : List Nat}
    (h : (hold :: ids).IsChain fun (id id' : Nat) => id' = id ∨ ((id' : Int) - id) % 65536 = 1) :
    (transitions hold ids).foldl Tally.count t = t := by
  induction ids generalizing hold with
  | nil => rfl
  | cons current ids ih =>
    rw [isChain_cons_cons] at h
    obtain ⟨hstep, hrest⟩ := h
    rw [transitions]
    by_cases heq : current = hold
    · subst heq
      rw [if_pos rfl]
      exact ih hrest
    · rw [if_neg heq, foldl_cons, count_succ t (hstep.resolve_left heq)]
      exact ih hrest

theorem toNat_next (hclear : frame.toNat.testBit 16 = false) :
    (frame + 1).toNat = frame.toNat + 1 := by
  have hne : frame ≠ 0xffffffff := by
    rintro rfl
    exact absurd hclear (by decide)
  have hlt : frame.toNat < 2 ^ 32 := frame.toNat_lt
  have hmax : frame.toNat ≠ 0xffffffff := fun h => hne (UInt32.toNat_inj.mp h)
  rw [UInt32.toNat_add]
  exact Nat.mod_eq_of_lt (by simp; omega)

theorem step_of_clear {frame' : UInt32} (hclear : frame.toNat.testBit 16 = false)
    (h : frame' = frame ∨ frame' = frame + 1) :
    frame'.toNat % 65536 = frame.toNat % 65536 ∨
      (((frame'.toNat % 65536 : Nat) : Int) - (frame.toNat % 65536 : Nat)) % 65536 = 1 := by
  rcases h with rfl | rfl
  · exact .inl rfl
  · right
    rw [toNat_next hclear]
    omega

/-- A capture of frames that follow each other, each of them shown for one or more captured images,
is reported without skips and discontinuities as long as bit 16 of the counter is clear. -/
theorem capture_counts_nothing {width height : Nat} (s : Surface) (hwidth : 60 ≤ width)
    (hheight : 24 ≤ height) (hproduct : 20 * width < 2 ^ 32) {first : UInt32} {rest : List UInt32}
    (hclear : ∀ frame ∈ first :: rest, frame.toNat.testBit 16 = false)
    (hchain : (first :: rest).IsChain fun frame frame' => frame' = frame ∨ frame' = frame + 1) :
    ∃ ids, rest.mapM (fun frame => shown frame width height s) = some ids ∧
      tally (transitions (first.toNat % 65536) ids) = {} := by
  refine ⟨rest.map fun frame => frame.toNat % 65536, mapM_some ?_, foldl_count_steady {} ?_⟩
  · intro frame hframe
    exact (decodes_iff s hwidth hheight hproduct).2 (hclear frame (mem_cons_of_mem _ hframe))
  · clear hwidth hheight hproduct
    induction rest generalizing first with
    | nil => exact .singleton _
    | cons next rest ih =>
      rw [isChain_cons_cons] at hchain
      rw [map_cons, isChain_cons_cons]
      exact ⟨step_of_clear (hclear first (by simp)) hchain.1,
        ih (fun frame hframe => hclear frame (mem_cons_of_mem _ hframe)) hchain.2⟩

/-- The change to the next frame is by one exactly if bit 16 is clear in both. -/
theorem lower_succ_iff (frame : UInt32) :
    ((Gray.lower (frame + 1).toNat 16 : Int) - Gray.lower frame.toNat 16) % 65536 = 1 ↔
      frame.toNat.testBit 16 = false ∧ (frame + 1).toNat.testBit 16 = false := by
  have hlt : frame.toNat < 2 ^ 32 := frame.toNat_lt
  have hnext : (frame + 1).toNat = (frame.toNat + 1) % 2 ^ 32 := UInt32.toNat_add frame 1
  rw [hnext, Gray.lower, Gray.lower, Nat.testBit_eq_decide_div_mod_eq,
    Nat.testBit_eq_decide_div_mod_eq]
  simp only [decide_eq_true_eq, decide_eq_false_iff_not]
  split <;> split <;> omega

/-- The band of a frame decodes to the lower 16 bits of the counter exactly if bit 16 is clear, and
the change to the next frame counts as nothing exactly if it is clear in both. -/
theorem frame_round_trip (frame : UInt32) (width height : Nat) (s : Surface)
    (hwidth : 60 ≤ width) (hheight : 24 ≤ height) (hproduct : 20 * width < 2 ^ 32) :
    (Decodes frame width height s ↔ frame.toNat.testBit 16 = false) ∧
      (CountsNothing frame width height s ↔
        frame.toNat.testBit 16 = false ∧ (frame + 1).toNat.testBit 16 = false) := by
  refine ⟨decodes_iff s hwidth hheight hproduct, ?_⟩
  have hshown := fun frame => shown_eq frame s hwidth hheight hproduct
  rw [← lower_succ_iff]
  constructor
  · rintro ⟨id, id', hid, hid', hdelta, -⟩
    obtain rfl := Option.some.inj (hid.symm.trans (hshown frame))
    obtain rfl := Option.some.inj (hid'.symm.trans (hshown (frame + 1)))
    exact hdelta
  · intro hdelta
    refine ⟨_, _, hshown frame, hshown (frame + 1), hdelta, foldl_count_steady {} ?_⟩
    rw [isChain_cons_cons]
    exact ⟨.inr hdelta, .singleton _⟩

/-- A blank window. -/
def blank : Surface := ⟨⟨0, 0, 0, 0⟩, fun _ _ => 0⟩

theorem frame_round_trip_smallest : Decodes 41 60 24 blank ∧ CountsNothing 41 60 24 blank := by
  have h := frame_round_trip 41 60 24 blank (by decide) (by decide) (by decide)
  exact ⟨h.1.2 (by decide), h.2.2 (by decide)⟩

/-- A capture in which one frame is shown twice. -/
theorem capture_counts_nothing_repeated :
    ∃ ids, [8, 8, 9].mapM (fun frame => shown frame 60 24 blank) = some ids ∧
      tally (transitions 7 ids) = {} := by
  have hclear : ∀ frame ∈ [7, 8, 8, 9], (frame : UInt32).toNat.testBit 16 = false := by
    simp only [forall_mem_cons]
    exact ⟨rfl, rfl, rfl, rfl, forall_mem_nil _⟩
  have hchain : [7, 8, 8, 9].IsChain fun frame frame' : UInt32 =>
      frame' = frame ∨ frame' = frame + 1 := by decide
  exact capture_counts_nothing blank (by decide) (by decide) (by decide) hclear hchain

/-! ## A window that is too wide -/

/-- In this window the product of the last border wraps, so the last bar has a negative width and is
painted over the bar before it. -/
theorem drawBar_wrapped (frame : UInt32) (s : Surface) :
    drawBar frame (214748365 : Nat) 0 (3 : Nat) s 19 = s.clear (level (barIsWhite frame 19)) := by
  have hnegative : border ((19 : Nat).toUInt32 + 1) (214748365 : Nat) -
      border (19 : Nat).toUInt32 (214748365 : Nat) < 0 := by decide
  simp only [drawBar, clearRect, Surface.setScissor, Bool.or_eq_true, decide_eq_true hnegative,
    true_or, if_true]
  rfl

/-- The colours that the bars of a frame have in that window: the code ends with the colour of the
last bar in the place of the bar before it, and with what was in the window. -/
def wrappedLevel (frame : UInt32) (bar : Nat) : Nat :=
  if bar = 19 then 0 else if bar = 18 then level (barIsWhite frame 19)
  else level (barIsWhite frame bar.toUInt32)

theorem shown_wrapped (frame : UInt32) : shown frame 214748365 24 blank =
      decodeValues ((range 20).map fun bar => (wrappedLevel frame bar : Rat)) := by
  refine decodeBand_constant (wrappedLevel frame) (by decide) (Nat.le_refl 3) rfl rfl ?_
  intro bar hbar column row hleft hright hrow
  let drawn := (range 19).foldl (drawBar frame (214748365 : Nat) 0 (3 : Nat)) blank
  have hscissor : drawn.scissor = barRect 214748365 3 18 :=
    congrArg Surface.scissor (drawBar_eq frame _ (by decide) (by decide))
  have hlast : drawCodeBand frame (214748365 : Nat) 0 (3 : Nat) blank =
      drawn.clear (level (barIsWhite frame 19)) := drawBar_wrapped frame drawn
  show (drawCodeBand frame (214748365 : Nat) 0 (3 : Nat) blank).pixel column row = _
  rw [hlast, Surface.clear, hscissor]
  dsimp only
  rw [wrappedLevel]
  by_cases heighteen : bar = 18
  · subst heighteen
    rw [if_pos ((barRect_contains hrow).mpr ⟨hleft, hright⟩)]
    rfl
  have hother : ¬(barRect 214748365 3 18).contains column row = true := by
    rw [barRect_contains hrow]
    rcases Nat.lt_or_gt_of_ne heighteen with hlt | hgt
    · have := edge_mono 214748365 (show bar + 1 ≤ 18 by omega)
      omega
    · have := edge_mono 214748365 (show 18 + 1 ≤ bar by omega)
      omega
  rw [if_neg hother, if_neg heighteen]
  by_cases hnineteen : bar = 19
  · subst hnineteen
    rw [if_pos rfl]
    exact drawn_outside frame blank (by decide) (by decide) hleft hrow
  · rw [if_neg hnineteen]
    exact drawn_pixel frame blank (by decide) (by decide) (by omega) hleft hright hrow

/-- From frame 65536 on the decoded numbers run backwards: frame 65536 decodes to the number of the
frame before it, and the change to frame 65537 counts as a discontinuity. In a window that is too
wide, frame 32767 decodes to 0. -/
theorem frame_round_trip_lost :
    shown 65536 60 24 blank = some 65535 ∧ shown 65537 60 24 blank = some 65534 ∧
      ¬Decodes 65536 60 24 blank ∧ ¬CountsNothing 65535 60 24 blank ∧
      ¬CountsNothing 65536 60 24 blank ∧ ¬Decodes 32767 214748365 24 blank := by
  have hshown : ∀ frame : UInt32, shown frame 60 24 blank = some (Gray.lower frame.toNat 16) :=
    fun frame => shown_eq frame blank (by decide) (by decide) (by decide)
  have hlast : shown 65535 60 24 blank = some 65535 := by rw [hshown]; decide
  have hfirst : shown 65536 60 24 blank = some 65535 := by rw [hshown]; decide
  have hsecond : shown 65537 60 24 blank = some 65534 := by rw [hshown]; decide
  have hwide : shown 32767 214748365 24 blank = some 0 := by
    rw [shown_wrapped]
    decide +kernel
  refine ⟨hfirst, hsecond, ?_, ?_, ?_, ?_⟩
  · rw [Decodes, hfirst]
    decide
  · rintro ⟨id, id', hid, hid', hdelta, -⟩
    rw [hlast] at hid
    rw [show (65535 : UInt32) + 1 = 65536 by decide, hfirst] at hid'
    cases hid
    cases hid'
    exact absurd hdelta (by decide)
  · rintro ⟨id, id', hid, hid', hdelta, -⟩
    rw [hfirst] at hid
    rw [show (65536 : UInt32) + 1 = 65537 by decide, hsecond] at hid'
    cases hid
    cases hid'
    exact absurd hdelta (by decide)
  · rw [Decodes, hwide]
    decide

end HdmiLos.Cadence
