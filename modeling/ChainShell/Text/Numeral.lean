/-
# ChainShell.Text.Numeral — numbers written in decimal digits

A numeral is a row of decimal digits of any script, of at most `maxDigits` digits,
leading zeros included.  A longer row is refused for its length before what follows
it is looked at.
-/
import ChainShell.Text.Digit
import ChainShell.Text.Quoted

set_option autoImplicit false

namespace ChainShell

/-- Why a text is no numeral. -/
inductive NumeralError where
  /-- The text opens with more digits than a numeral may have. -/
  | tooLong (digits : Nat)
  /-- A character of the text is no decimal digit. -/
  | invalid (text : Text)
  deriving DecidableEq, Repr

namespace Text

/-- The number of digits that a numeral may have. -/
def maxDigits : Nat := 4300

/-- The number of characters of a refused text that its message shows. -/
def shownDigits : Nat := 200

/-- The number that a row of decimal digits stands for. -/
def digitsValue (digits : Text) : Nat :=
  digits.foldl (fun n c => 10 * n + (decimalValue? c).getD 0) 0

/-- The number that a text stands for. -/
def numeral (t : Text) : Except NumeralError Nat :=
  let digits := t.takeWhile isDecimal
  if maxDigits < digits.length then .error (.tooLong digits.length)
  else if digits = t then .ok (digitsValue t)
  else .error (.invalid t)

end Text

def NumeralError.message : NumeralError → Text
  | tooLong digits =>
    "Exceeds the limit (".toList ++ Text.ofNat Text.maxDigits ++
      " digits) for integer string conversion: value has ".toList ++ Text.ofNat digits ++
      " digits; use sys.set_int_max_str_digits() to increase the limit".toList
  | invalid text =>
    "invalid literal for int() with base 10: ".toList ++ (Text.quote text).take Text.shownDigits

end ChainShell
