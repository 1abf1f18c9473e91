/-
# ChainShell.Proofs.Text.Numeral — written numbers read back

The ASCII digits are the first script of the table, so the decimal numeral of a number is
a row of decimal digits with the values one expects, and reads as the number it was
written for unless it is too long (`numeral_ofNat`).
-/
import ChainShell.Text.Numeral
import Mathlib.Data.List.Basic
import Mathlib.Data.List.TakeWhile

set_option autoImplicit false

namespace ChainShell.Text

theorem decimalValue?_of_isDigit {c : Char} (digit : c.isDigit = true) :
    decimalValue? c = some (c.toNat - '0'.toNat) := by
  have bounds : 0x30 ≤ c.toNat ∧ c.toNat ≤ 0x39 := by
    simpa [Char.isDigit, UInt32.le_iff_toNat_le] using digit
  have first : decimalZeros.find? (fun first => first ≤ c.toNat && c.toNat < first + 10) =
      some 0x30 := by
    rw [decimalZeros, List.find?_cons_of_pos]
    simp only [Bool.and_eq_true, decide_eq_true_eq]
    omega
  rw [decimalValue?, first]
  rfl

theorem isDecimal_of_isDigit {c : Char} (digit : c.isDigit = true) : isDecimal c = true := by
  rw [isDecimal, decimalValue?_of_isDigit digit]
  rfl

theorem isDigit_of_mem_ofNat {n : Nat} {c : Char} (member : c ∈ ofNat n) : c.isDigit = true :=
  Nat.isDigit_of_mem_toDigits (by decide) (by decide) member

/-- On ASCII digits the value of a row is the one that the standard library gives it. -/
theorem digitsValue_eq {digits : Text} (ascii : ∀ c ∈ digits, c.isDigit = true) :
    digitsValue digits = Nat.ofDigitChars 10 digits 0 := by
  apply List.foldl_ext
  intro n c member
  rw [decimalValue?_of_isDigit (ascii c member)]
  rfl

/-- A row of decimal digits is a numeral if it is not too long. -/
theorem numeral_of_readable {t : Text} (decimal : ∀ c ∈ t, isDecimal c = true)
    (short : t.length ≤ maxDigits) : numeral t = .ok (digitsValue t) := by
  have whole : t.takeWhile isDecimal = t := List.takeWhile_eq_self_iff.2 decimal
  simp only [numeral, whole, if_neg (Nat.not_lt.2 short), if_true]

/-- No other text is a numeral. -/
theorem numeral_of_unreadable {t : Text}
    (unreadable : (∃ c ∈ t, isDecimal c = false) ∨ maxDigits < t.length) :
    ∃ e, numeral t = .error e := by
  rw [numeral]
  split
  · exact ⟨_, rfl⟩
  · rename_i short
    split
    · rename_i whole
      have decimal : ∀ c ∈ t, isDecimal c = true := List.takeWhile_eq_self_iff.1 whole
      rw [whole] at short
      rcases unreadable with ⟨c, member, other⟩ | long
      · simp [decimal c member] at other
      · exact absurd long short
    · exact ⟨_, rfl⟩

/-- The numeral of a number reads as the number if it is short enough to be read. -/
theorem numeral_ofNat {n : Nat} (short : (ofNat n).length ≤ maxDigits) :
    numeral (ofNat n) = .ok n := by
  have value : digitsValue (ofNat n) = n := by
    rw [digitsValue_eq fun c member => isDigit_of_mem_ofNat member]
    exact Nat.ofDigitChars_toDigits (by decide) (by decide)
  have decimal : ∀ c ∈ ofNat n, isDecimal c = true :=
    fun c member => isDecimal_of_isDigit (isDigit_of_mem_ofNat member)
  rw [numeral_of_readable decimal short, value]

end ChainShell.Text
