import HdmiLos.Broker.Basic
import Mathlib.Algebra.Ring.Nat

/-!
# Texts that the broker prints and scans

The `snprintf` and `sscanf` formats of the broker: display modes in the configuration file, in the
recovery journal and in the arguments and output of `cmd display`, and the lines of
`packages.list`. A `%f` is read as the nearest single-precision number, as `parse_saved_mode`
computes with `float`; the spellings of infinities, hexadecimal numbers and values beyond the range
of `float` are not modelled.
-/

namespace HdmiLos

/-- A display mode, or the absence of one when all three fields are zero. -/
structure Mode where
  width : UInt32 := 0
  height : UInt32 := 0
  refreshMillihz : UInt32 := 0
  deriving DecidableEq, Repr

/-- Whatever Android prefers. -/
def Mode.native : Mode := {}

/-! ## Printing -/

def decimal (n : Nat) : Text := Nat.toDigits 10 n

/-- `"%u %u %u\n"`. -/
def printMode (m : Mode) : Text :=
  decimal m.width.toNat ++ ' ' :: (decimal m.height.toNat ++
    ' ' :: (decimal m.refreshMillihz.toNat ++ ['\n']))

/-- `"%.3f"` of a frequency in millihertz divided by 1000. -/
def printRefresh (millihz : UInt32) : Text :=
  let fraction := millihz.toNat % 1000
  decimal (millihz.toNat / 1000) ++ '.' ::
    (decimal (fraction / 100) ++ decimal (fraction / 10 % 10) ++ decimal (fraction % 10))

/-! ## Scanning integers -/

/-- `isspace` of the C locale. -/
def isSpace (c : Char) : Bool :=
  c == ' ' || (9 ≤ c.toNat && c.toNat ≤ 13)

/-- The number that a list of decimal digits denotes. -/
def digitsValue (digits : Text) : Nat :=
  digits.foldl (fun value c => value * 10 + (c.toNat - '0'.toNat)) 0

/-- An optional sign: whether it is negative, and the rest. -/
def scanSign : Text → Bool × Text
  | '-' :: rest => (true, rest)
  | '+' :: rest => (false, rest)
  | text => (false, text)

/-- `%u`: leading space, a sign, digits. The value is one of 64 bits and is then cut to 32. A number
    of more than 64 bits becomes the largest one, whatever its sign. -/
def scanUnsigned (text : Text) : Option (UInt32 × Text) :=
  let (negative, text) := scanSign (text.dropWhile isSpace)
  let digits := text.takeWhile Char.isDigit
  if digits.isEmpty then none
  else
    let value := digitsValue digits
    let value := if 2 ^ 64 ≤ value then 2 ^ 64 - 1 else if negative then 2 ^ 64 - value else value
    some (UInt32.ofNat value, text.dropWhile Char.isDigit)

/-- `sscanf(text, "%u %u %u", ...) == 3`. -/
def scanMode (text : Text) : Option Mode := do
  let (width, text) ← scanUnsigned text
  let (height, text) ← scanUnsigned text
  let (refresh, _) ← scanUnsigned text
  pure { width := width, height := height, refreshMillihz := refresh }

/-! ## Single-precision numbers -/

/-- A nonnegative number as a fraction. The denominator is positive. -/
structure Fraction where
  num : Nat
  den : Nat
  deriving Repr

/-- The fraction rounded to the integer nearest, ties to even. -/
def Fraction.roundEven (x : Fraction) : Nat :=
  let quotient := x.num / x.den
  let rest := 2 * (x.num % x.den)
  if rest > x.den || (rest == x.den && quotient % 2 == 1) then quotient + 1 else quotient

/-- The fraction times a power of two. -/
def Fraction.scale (x : Fraction) : Int → Fraction
  | .ofNat k => { x with num := x.num * 2 ^ k }
  | .negSucc k => { x with den := x.den * 2 ^ (k + 1) }

/-- The single-precision number nearest to a fraction. -/
def Fraction.single (x : Fraction) : Fraction :=
  if x.num == 0 then x
  else
    -- the significand has 24 bits; the first estimate of the exponent can be one too large
    let shift : Int := 23 - (Int.ofNat x.num.log2 - Int.ofNat x.den.log2)
    let scaled := x.scale shift
    let shift := if scaled.num < 2 ^ 23 * scaled.den then shift + 1 else shift
    Fraction.scale { num := (x.scale shift).roundEven, den := 1 } (-shift)

/-- `lroundf(x * 1000.0f)` for a single-precision `x`. -/
def Fraction.millis (x : Fraction) : Nat :=
  let product := Fraction.single { x with num := x.num * 1000 }
  (2 * product.num + product.den) / (2 * product.den)

/-- The digits after a decimal point, if there is one. -/
def scanPoint : Text → Text × Text
  | '.' :: rest => (rest.takeWhile Char.isDigit, rest.dropWhile Char.isDigit)
  | text => ([], text)

/-- A decimal exponent, if there is one. -/
def scanExponent (text : Text) : Int × Text :=
  match text with
  | c :: rest =>
    if c == 'e' || c == 'E' then
      let (negative, digits) := scanSign rest
      let power := digits.takeWhile Char.isDigit
      if power.isEmpty then (0, text)
      else (if negative then -digitsValue power else digitsValue power,
        digits.dropWhile Char.isDigit)
    else (0, text)
  | [] => (0, text)

/-- `%f`: whether the number is negative, its absolute value as a `float`, and the rest. -/
def scanFloat (text : Text) : Option (Bool × Fraction × Text) :=
  let (negative, text) := scanSign (text.dropWhile isSpace)
  let whole := text.takeWhile Char.isDigit
  let (fraction, text) := scanPoint (text.dropWhile Char.isDigit)
  if whole.isEmpty && fraction.isEmpty then none
  else
    let (exponent, text) := scanExponent text
    let digits := digitsValue (whole ++ fraction)
    let power : Int := exponent - fraction.length
    let value : Fraction :=
      match power with
      | .ofNat k => { num := digits * 10 ^ k, den := 1 }
      | .negSucc k => { num := digits, den := 10 ^ (k + 1) }
    some (negative, value.single, text)

/-! ## The printed preference of Android -/

/-- A literal character of a format. -/
def scanChar (c : Char) : Text → Option Text
  | d :: rest => if d == c then some rest else none
  | [] => none

/-- `sscanf(value, " %u %u %f", ...) == 3`. -/
def scanSpaced (text : Text) : Option (UInt32 × UInt32 × Bool × Fraction) := do
  let (width, text) ← scanUnsigned text
  let (height, text) ← scanUnsigned text
  let (negative, refresh, _) ← scanFloat text
  pure (width, height, negative, refresh)

/-- `sscanf(value, " %ux%u@%f", ...) == 3`. -/
def scanCrossed (text : Text) : Option (UInt32 × UInt32 × Bool × Fraction) := do
  let (width, text) ← scanUnsigned text
  let (height, text) ← scanUnsigned (← scanChar 'x' text)
  let (negative, refresh, _) ← scanFloat (← scanChar '@' text)
  pure (width, height, negative, refresh)

/-- The text after the first colon, or all of it. -/
def afterColon (text : Text) : Text :=
  match text.dropWhile (· != ':') with
  | _ :: rest => rest
  | [] => text

/-- `strstr(text, part)`. -/
def containsText (part : Text) : Text → Bool
  | [] => part.isEmpty
  | c :: text => part.isPrefixOf (c :: text) || containsText part text

/-- `parse_saved_mode`. -/
def parseSavedMode (text : Text) : Option Mode :=
  let value := afterColon text
  if containsText "null".toList value then some .native
  else
    match (scanSpaced value).orElse fun _ => scanCrossed value with
    | none => none
    | some (width, height, negative, refresh) =>
      if width == 0 || height == 0 || negative || refresh.num < refresh.den then none
      else some { width := width, height := height,
                  refreshMillihz := UInt32.ofNat refresh.millis }

/-! ## The package list -/

/-- One `fgets` of at most `room` bytes: the chunk and the rest of the file. -/
def fgets : Nat → Text → Text × Text
  | _, [] => ([], [])
  | 0, text => ([], text)
  | room + 1, c :: text =>
    if c == '\n' then ([c], text)
    else
      let (chunk, rest) := fgets room text
      (c :: chunk, rest)

/-- The chunks that successive `fgets` calls read, at most `n` of them. -/
def fgetsChunks (size : Nat) : Nat → Text → List Text
  | 0, _ => []
  | _ + 1, [] => []
  | n + 1, text =>
    let (chunk, rest) := fgets (size - 1) text
    chunk :: fgetsChunks size n rest

/-- `sscanf(line, "%255s %u", package, &uid) == 2`. -/
def scanPackage (line : Text) : Option (Text × UInt32) :=
  let line := line.dropWhile isSpace
  let name := (line.takeWhile fun c => !isSpace c).take 255
  if name.isEmpty then none
  else (scanUnsigned (line.drop name.length)).map fun (uid, _) => (name, uid)

def noUid : UInt32 := 0xffffffff

/-- `tile_uid`: the uid of the tile's package in `packages.list`. -/
def tileUid (packages : Option Text) : UInt32 :=
  match packages with
  | none => noUid
  | some text =>
    match (fgetsChunks 1024 text.length text).filterMap scanPackage |>.find?
        fun (name, _) => name == "dev.kiraly.hdmilos".toList with
    | some (_, uid) => uid
    | none => noUid

end HdmiLos
