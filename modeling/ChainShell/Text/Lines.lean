/-
# ChainShell.Text.Lines — cutting text into lines

`splitLines` cuts at every line break; a carriage return and the line feed after it
are one break, and a break at the end starts no further line.  `trim` drops white
space at both ends.  `unifyNewlines` writes each of the three conventional line ends
(CR LF, CR, LF) as a line feed and touches no other break.
-/
import ChainShell.Text.Class

set_option autoImplicit false

namespace ChainShell.Text

def consFirst (c : Char) : List Text → List Text
  | [] => [[c]]
  | line :: lines => (c :: line) :: lines

/-- The lines of a text, without their breaks. -/
def splitLines : Text → List Text
  | [] => []
  | '\r' :: '\n' :: rest => [] :: splitLines rest
  | c :: rest => if isLineBreak c then [] :: splitLines rest else consFirst c (splitLines rest)

/-- The text without the white space at its two ends. -/
def trim (t : Text) : Text :=
  ((t.dropWhile isSpace).reverse.dropWhile isSpace).reverse

/-- The text with each CR LF and each lone CR written as LF. -/
def unifyNewlines : Text → Text
  | [] => []
  | '\r' :: '\n' :: rest => '\n' :: unifyNewlines rest
  | c :: rest => (if c = '\r' then '\n' else c) :: unifyNewlines rest

end ChainShell.Text
