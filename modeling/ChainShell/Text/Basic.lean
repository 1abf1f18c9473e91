/-
# ChainShell.Text.Basic — text as a list of characters

Command lines, variable values, messages and everything typed at the terminal
are `Text`: a list of characters, counted and cut in characters.
-/

set_option autoImplicit false

namespace ChainShell

/-- Text, counted in characters. -/
abbrev Text := List Char

namespace Text

/-- The decimal numeral of a natural number. -/
def ofNat (n : Nat) : Text := Nat.toDigits 10 n

/-- The decimal numeral of an integer, with a minus sign below zero. -/
def ofInt : Int → Text
  | .ofNat n => ofNat n
  | .negSucc n => '-' :: ofNat (n + 1)

end Text

end ChainShell
