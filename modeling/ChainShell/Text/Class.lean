/-
# ChainShell.Text.Class — the character classes of the command language

Three sets of "white" characters play a part, and they differ:

* `isBlank`, a space or a tab, separates the words of a command line;
* `isSpace`, Unicode white space, is trimmed from both ends of a statement;
* `isLineBreak` ends a line of a script.

Every blank is white space (`isSpace_of_isBlank`) and so is every line break
(`isSpace_of_isLineBreak`), so a trimmed line neither starts nor ends with either.  A run of one
class that what follows does not go on with can be told from it (`span_run`).
-/
import ChainShell.Text.Basic

set_option autoImplicit false

namespace ChainShell.Text

/-- A space or a tab. -/
def isBlank (c : Char) : Bool := c == ' ' || c == '\t'

/-- A character of a variable's name: an ASCII letter or digit. -/
def isNameChar (c : Char) : Bool := c.isAlphanum

/-- A character that ends a line: the ASCII line and page breaks, the file, group and
record separators, next line, and the line and paragraph separators. -/
def isLineBreak (c : Char) : Bool :=
  let n := c.toNat
  (0x0A ≤ n && n ≤ 0x0D) || (0x1C ≤ n && n ≤ 0x1E) || n == 0x85 || n == 0x2028 || n == 0x2029

/-- Unicode white space, the four ASCII separators included. -/
def isSpace (c : Char) : Bool :=
  let n := c.toNat
  (0x09 ≤ n && n ≤ 0x0D) || (0x1C ≤ n && n ≤ 0x20) || n == 0x85 || n == 0xA0 || n == 0x1680 ||
    (0x2000 ≤ n && n ≤ 0x200A) || n == 0x2028 || n == 0x2029 || n == 0x202F || n == 0x205F ||
    n == 0x3000

theorem isSpace_of_isBlank {c : Char} (blank : isBlank c = true) : isSpace c = true := by
  simp only [isBlank, Bool.or_eq_true, beq_iff_eq] at blank
  cases blank with
  | inl h => subst h; decide
  | inr h => subst h; decide

/-- A run that what follows does not go on with is the run that the whole starts with. -/
theorem span_run {p : Char → Bool} {run rest : Text} (inside : ∀ c ∈ run, p c = true)
    (ends : ∀ c ∈ rest.head?, p c = false) :
    (run ++ rest).takeWhile p = run ∧ (run ++ rest).dropWhile p = rest := by
  rw [List.takeWhile_append_of_pos inside, List.dropWhile_append_of_pos inside]
  cases rest with
  | nil => simp
  | cons c rest => simp [ends c rfl]

end ChainShell.Text
