import Mathlib.Data.Nat.Bitwise
import HdmiLos.Gray.Code

/-!
# Decoding what was encoded

The decoder inverts the encoder on all numbers. The lower bits of a code are the code of the lower
bits of the number, or of their complement if the bit above them is set.
-/

namespace Gray

theorem encode_shiftRight (n : Nat) : encode n >>> 1 = encode (n >>> 1) := by
  rw [encode, encode, Nat.shiftRight_xor_distrib]

theorem encode_eq_zero_iff (n : Nat) : encode n = 0 ↔ n = 0 := by
  constructor
  · intro h
    have hhalf : n = n >>> 1 := Nat.xor_eq_zero_iff.mp h
    rw [Nat.shiftRight_eq_div_pow] at hhalf
    omega
  · rintro rfl
    rfl

theorem testBit_encode (n i : Nat) : (encode n).testBit i = (n.testBit i ^^ n.testBit (i + 1)) := by
  rw [encode, Nat.testBit_xor, Nat.testBit_shiftRight, Nat.add_comm 1 i]

theorem half_le {n k : Nat} (h : n ≤ k + 1) : n >>> 1 ≤ k := by
  rw [Nat.shiftRight_eq_div_pow]
  omega

/-- More fuel than the value of the code changes nothing. -/
theorem decodeFrom_succ {fuel code : Nat} (value : Nat) (h : code ≤ fuel) :
    decodeFrom (fuel + 1) code value = decodeFrom fuel code value := by
  induction fuel generalizing code value with
  | zero =>
    obtain rfl : code = 0 := by omega
    simp [decodeFrom]
  | succ fuel ih =>
    by_cases hcode : code = 0
    · simp [decodeFrom, hcode]
    · rw [decodeFrom, if_neg hcode, ih _ (half_le h), decodeFrom, if_neg hcode]

theorem decodeFrom_add {fuel code : Nat} (value : Nat) (h : code ≤ fuel) (k : Nat) :
    decodeFrom (fuel + k) code value = decodeFrom fuel code value := by
  induction k with
  | zero => rfl
  | succ k ih => rw [← Nat.add_assoc, decodeFrom_succ value (by omega), ih]

/-- The exclusive ors telescope. -/
theorem decodeFrom_encode (n value : Nat) {fuel : Nat} (h : n ≤ fuel) :
    decodeFrom fuel (encode n) value = value ^^^ n := by
  induction fuel generalizing n value with
  | zero =>
    obtain rfl : n = 0 := by omega
    simp [decodeFrom]
  | succ fuel ih =>
    rw [decodeFrom]
    by_cases hn : n = 0
    · subst hn
      simp [encode]
    · rw [if_neg (mt (encode_eq_zero_iff n).mp hn), encode_shiftRight, ih _ _ (half_le h), encode,
        Nat.xor_assoc, Nat.xor_assoc, Nat.xor_self, Nat.xor_zero]

/-- Decoding undoes encoding. -/
theorem decode_encode (n : Nat) : decode (encode n) = n := by
  rw [decode, ← decodeFrom_add 0 (Nat.le_refl _) n,
    decodeFrom_encode n 0 (Nat.le_add_left _ _), Nat.zero_xor]

/-- The number whose code is the lower bits of the code of `n`: the lower bits of `n`, or their
    complement if the bit above them is set. -/
def lower (n w : Nat) : Nat := if n.testBit w then 2 ^ w - (n % 2 ^ w + 1) else n % 2 ^ w

theorem testBit_lower (n w i : Nat) :
    (lower n w).testBit i = (decide (i < w) && (n.testBit i ^^ n.testBit w)) := by
  rw [lower]
  cases hbit : n.testBit w with
  | false => simp [Nat.testBit_mod_two_pow]
  | true =>
    have hlt : n % 2 ^ w < 2 ^ w := Nat.mod_lt _ (Nat.two_pow_pos w)
    rw [if_pos rfl, Nat.testBit_two_pow_sub_succ hlt, Nat.testBit_mod_two_pow]
    by_cases hi : i < w <;> simp [hi]

theorem encode_mod_two_pow (n w : Nat) : encode n % 2 ^ w = encode (lower n w) := by
  refine Nat.eq_of_testBit_eq fun i => ?_
  rw [Nat.testBit_mod_two_pow, testBit_encode, testBit_encode, testBit_lower, testBit_lower]
  rcases Nat.lt_trichotomy (i + 1) w with hlt | heq | hgt
  · cases n.testBit w <;> simp [hlt, Nat.lt_of_succ_lt hlt]
  · subst heq
    simp
  · have hi : ¬i < w := by omega
    have hi' : ¬i + 1 < w := by omega
    simp [hi, hi']

theorem decode_encode_mod (n w : Nat) : decode (encode n % 2 ^ w) = lower n w := by
  rw [encode_mod_two_pow, decode_encode]

end Gray
