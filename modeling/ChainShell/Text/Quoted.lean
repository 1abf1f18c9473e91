/-
# ChainShell.Text.Quoted — text as a quoted literal

`quote` is how messages show a piece of text so that every character can be told
apart: between single quotes, or between double quotes when that saves escapes;
backslash and the delimiter are escaped, line feed, carriage return and tab have
their letters, and all else that is not printable is written by its code in two,
four or eight hexadecimal digits.
-/
import ChainShell.Text.Printable

set_option autoImplicit false

namespace ChainShell.Text

/-- The code of a character as `width` hexadecimal digits or more. -/
def hex (width n : Nat) : Text := (Nat.toDigits 16 n).leftpad width '0'

/-- One character inside a literal delimited by `delimiter`. -/
def escapeChar (delimiter c : Char) : Text :=
  if c = delimiter ∨ c = '\\' then ['\\', c]
  else if c = '\n' then ['\\', 'n']
  else if c = '\r' then ['\\', 'r']
  else if c = '\t' then ['\\', 't']
  else if isPrintable c then [c]
  else if c.toNat < 0x100 then '\\' :: 'x' :: hex 2 c.toNat
  else if c.toNat < 0x10000 then '\\' :: 'u' :: hex 4 c.toNat
  else '\\' :: 'U' :: hex 8 c.toNat

/-- Double quotes when the text holds a single quote and no double quote. -/
def delimiterFor (t : Text) : Char :=
  if t.contains '\'' && !t.contains '"' then '"' else '\''

/-- The quoted literal that stands for a text. -/
def quote (t : Text) : Text :=
  let delimiter := delimiterFor t
  delimiter :: t.flatMap (escapeChar delimiter) ++ [delimiter]

end ChainShell.Text
