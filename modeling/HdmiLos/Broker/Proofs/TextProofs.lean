import HdmiLos.Broker.Preference

/-!
# Modes survive being printed and scanned

The journal and the arguments of `cmd display` are texts. Scanning what was printed gives the mode
back, so the journal determines the mode it was written for.
-/

namespace HdmiLos

open List

/-! ## Numbers -/

theorem digitsValue_eq (text : Text) : digitsValue text = Nat.ofDigitChars 10 text 0 := by
  rw [Nat.ofDigitChars_eq_foldl, digitsValue]
  congr 1
  funext value c
  rw [Nat.mul_comm]

theorem digitsValue_decimal (n : Nat) : digitsValue (decimal n) = n := by
  rw [digitsValue_eq, decimal, Nat.ofDigitChars_ten_toDigits]

theorem digitsValue_append (a b : Text) :
    digitsValue (a ++ b) = 10 ^ b.length * digitsValue a + digitsValue b := by
  simp only [digitsValue_eq, Nat.ofDigitChars_append]
  rw [Nat.ofDigitChars_eq_ofDigitChars_zero]

variable {c : Char}

theorem decimal_isDigit {n : Nat} (hc : c ∈ decimal n) : c.isDigit = true :=
  Nat.isDigit_of_mem_toDigits (by omega) (by omega) hc

theorem decimal_ne_nil (n : Nat) : decimal n ≠ [] := Nat.toDigits_ne_nil

theorem takeWhile_digits {digits : Text} (rest : Text) (hd : ∀ c ∈ digits, c.isDigit = true)
    (hr : rest.head?.any Char.isDigit = false) :
    (digits ++ rest).takeWhile Char.isDigit = digits ∧
      (digits ++ rest).dropWhile Char.isDigit = rest := by
  have hstop : rest.takeWhile Char.isDigit = [] ∧ rest.dropWhile Char.isDigit = rest := by
    cases rest with
    | nil => exact ⟨rfl, rfl⟩
    | cons c rest =>
      have hc : c.isDigit = false := by simpa using hr
      simp [hc]
  rw [takeWhile_append_of_pos hd, dropWhile_append_of_pos hd, hstop.1, hstop.2]
  simp

theorem digit_not_space (hc : c.isDigit = true) : isSpace c = false := by
  have hrange : 48 ≤ c.toNat := by
    simp only [Char.isDigit, Bool.and_eq_true, decide_eq_true_eq] at hc
    exact hc.1
  have hne : (c == ' ') = false := by
    rw [beq_eq_false_iff_ne]
    rintro rfl
    exact absurd hrange (by decide)
  have hle : ¬c.toNat ≤ 13 := by omega
  simp [isSpace, hne, hle]

theorem digit_not_sign (hc : c.isDigit = true) (rest : Text) :
    scanSign (c :: rest) = (false, c :: rest) := by
  unfold scanSign
  split
  · rename_i heq
    obtain ⟨rfl, -⟩ := List.cons.inj heq
    exact absurd hc (by decide)
  · rename_i heq
    obtain ⟨rfl, -⟩ := List.cons.inj heq
    exact absurd hc (by decide)
  · rfl

/-- `%u` reads a printed number back, with or without a space in front of it. -/
theorem scanUnsigned_decimal (n : UInt32) (rest : Text) (hr : rest.head?.any Char.isDigit = false) :
    scanUnsigned (decimal n.toNat ++ rest) = some (n, rest) := by
  obtain ⟨c, digits, hdecimal⟩ := exists_cons_of_ne_nil (decimal_ne_nil n.toNat)
  have hc : c.isDigit = true := decimal_isDigit (n := n.toNat) (by simp [hdecimal])
  have hspace : (decimal n.toNat ++ rest).dropWhile isSpace = decimal n.toNat ++ rest := by
    rw [hdecimal, cons_append, dropWhile_cons_of_neg (by simp [digit_not_space hc])]
  have hsign : scanSign (decimal n.toNat ++ rest) = (false, decimal n.toNat ++ rest) := by
    rw [hdecimal, cons_append, digit_not_sign hc]
  have hdigits := takeWhile_digits rest (fun _ => decimal_isDigit (n := n.toNat)) hr
  have hsmall : ¬2 ^ 64 ≤ n.toNat := by
    have := n.toNat_lt
    omega
  have hsome : (decimal n.toNat).isEmpty = false := by simp [decimal_ne_nil]
  unfold scanUnsigned
  simp only [hspace, hsign, hdigits.1, hdigits.2, hsome, digitsValue_decimal, hsmall,
    Bool.false_eq_true, if_false, UInt32.ofNat_toNat]

theorem scanUnsigned_space (text : Text) : scanUnsigned (' ' :: text) = scanUnsigned text := by
  simp [scanUnsigned, isSpace]

/-! ## Modes -/

theorem scanMode_printMode (m : Mode) : scanMode (printMode m) = some m := by
  simp [scanMode, printMode, scanUnsigned_decimal, scanUnsigned_space, Char.isDigit]

theorem printMode_injective {m m' : Mode} (h : printMode m = printMode m') : m = m' := by
  have hscan := scanMode_printMode m
  rw [h, scanMode_printMode] at hscan
  exact (Option.some.inj hscan).symm

theorem decimal_digit {d : Nat} (hd : d < 10) : (decimal d).length = 1 := by
  rw [decimal, Nat.toDigits_of_lt_base hd]
  rfl

theorem scanRefresh_printRefresh (r : UInt32) : scanRefresh (printRefresh r) = some r := by
  let fraction := r.toNat % 1000
  let decimals := decimal (fraction / 100) ++ decimal (fraction / 10 % 10) ++ decimal (fraction % 10)
  have hprint : printRefresh r = decimal (r.toNat / 1000) ++ '.' :: decimals := rfl
  have hfraction : fraction < 1000 := Nat.mod_lt _ (by omega)
  have hlen : decimals.length = 3 := by
    simp only [decimals, length_append]
    rw [decimal_digit (by omega), decimal_digit (by omega), decimal_digit (by omega)]
  have hall : decimals.all Char.isDigit = true := by
    rw [all_eq_true]
    intro c hc
    simp only [decimals, mem_append] at hc
    rcases hc with (hc | hc) | hc
    · exact decimal_isDigit hc
    · exact decimal_isDigit hc
    · exact decimal_isDigit hc
  have hvalue : digitsValue decimals = fraction := by
    simp only [decimals, digitsValue_append, digitsValue_decimal]
    rw [decimal_digit (by omega), decimal_digit (by omega)]
    omega
  have hdigits := takeWhile_digits ('.' :: decimals)
    (fun _ => decimal_isDigit (n := r.toNat / 1000)) (by simp [Char.isDigit])
  have hsum : r.toNat / 1000 * 1000 + fraction = r.toNat := by
    simp only [fraction]
    omega
  rw [hprint, scanRefresh, hdigits.1, hdigits.2]
  simp [hlen, hall, hvalue, digitsValue_decimal, hsum]

/-- A command that the broker prints for a mode makes Android take that mode. -/
theorem preferenceCommand_mode (m : Mode) : (preferenceCommand m).mode = some m := by
  unfold preferenceCommand
  split
  · rename_i h
    rw [h]
    rfl
  · have hunsigned : ∀ n : UInt32, scanUnsigned (decimal n.toNat) = some (n, []) := fun n => by
      simpa using scanUnsigned_decimal n [] rfl
    simp [DisplayCommand.mode, hunsigned, scanRefresh_printRefresh]

end HdmiLos
