/-
# ChainShell.Proofs.Statement.Sources — the statements of a text are those of its lines

Cutting a text at a line feed cuts it into the lines before and those after
(`splitLines_append_newline`), and a text without breaks is one line, or none if it is empty.
So the statements of a text that is put together from lines with a line feed between each
two are those that the lines say when each is trimmed and read by itself, and a blank line
says none (`ofSource_intercalate`).  They do not depend on which of the three conventional
line ends a text uses (`ofSource_unifyNewlines`).

Trimming takes the white space around a text away and nothing else (`Visible.trim_append`).
-/
import ChainShell.Statement.Basic

set_option autoImplicit false

namespace ChainShell

namespace Text

theorem splitLines_newline (rest : Text) : splitLines ('\n' :: rest) = [] :: splitLines rest := by
  rw [splitLines.eq_3 '\n' rest fun _ same => by contradiction]
  rfl

theorem splitLines_cons {c : Char} (inside : isLineBreak c = false) (rest : Text) :
    splitLines (c :: rest) = consFirst c (splitLines rest) := by
  rw [splitLines.eq_3 c rest, inside]
  · rfl
  · rintro _ rfl
    contradiction

theorem splitLines_append_newline {line : Text} (unbroken : ∀ c ∈ line, isLineBreak c = false)
    (rest : Text) : splitLines (line ++ '\n' :: rest) = line :: splitLines rest := by
  induction line with
  | nil => exact splitLines_newline rest
  | cons c line ih =>
    rw [List.cons_append, splitLines_cons (unbroken c List.mem_cons_self),
      ih fun x member => unbroken x (List.mem_cons_of_mem c member)]
    rfl

theorem splitLines_of_unbroken {line : Text} (unbroken : ∀ c ∈ line, isLineBreak c = false) :
    splitLines line = if line = [] then [] else [line] := by
  induction line with
  | nil => rfl
  | cons c line ih =>
    rw [splitLines_cons (unbroken c List.mem_cons_self),
      ih fun x member => unbroken x (List.mem_cons_of_mem c member)]
    cases line <;> rfl

/-- The lines of a text do not depend on how its line ends are written. -/
theorem splitLines_unifyNewlines (t : Text) : splitLines (unifyNewlines t) = splitLines t := by
  fun_induction unifyNewlines t with
  | case1 => rfl
  | case2 rest ih => rw [splitLines_newline, ih, splitLines]
  | case3 c rest noPair ih =>
    rw [splitLines.eq_3 c rest noPair, ← ih]
    by_cases carriage : c = '\r'
    · rw [if_pos carriage, splitLines_newline, carriage]
      rfl
    · rw [if_neg carriage, splitLines.eq_3 c _ fun _ same => absurd same carriage]

/-! ## White space around a line -/

theorem isLineBreak_of_isBlank {c : Char} (blank : isBlank c = true) : isLineBreak c = false := by
  simp only [isBlank, Bool.or_eq_true, beq_iff_eq] at blank
  rcases blank with rfl | rfl <;> decide

/-- The text is not empty, and neither its first nor its last character is white space. -/
structure Visible (t : Text) : Prop where
  starts : ∃ c rest, t = c :: rest ∧ isSpace c = false
  ends : ∃ front c, t = front ++ [c] ∧ isSpace c = false

theorem dropWhile_isSpace_append {gap : Text} (space : ∀ c ∈ gap, isSpace c = true) {c : Char}
    (visible : isSpace c = false) (rest : Text) :
    (gap ++ c :: rest).dropWhile isSpace = c :: rest := by
  rw [List.dropWhile_append_of_pos space, List.dropWhile_cons_of_neg (by simp [visible])]

/-- Trimming takes white space away up to the first and the last visible character. -/
theorem Visible.trim_append {t before after : Text} (visible : Visible t)
    (spaceBefore : ∀ c ∈ before, isSpace c = true) (spaceAfter : ∀ c ∈ after, isSpace c = true) :
    trim (before ++ t ++ after) = t := by
  obtain ⟨c, rest, starts, first⟩ := visible.starts
  obtain ⟨front, d, ends, last⟩ := visible.ends
  have left : (before ++ t ++ after).dropWhile isSpace = t ++ after := by
    rw [starts, List.append_assoc, List.cons_append, dropWhile_isSpace_append spaceBefore first]
  have right : (t ++ after).reverse.dropWhile isSpace = t.reverse := by
    rw [ends, List.reverse_append, List.reverse_append, List.reverse_singleton,
      List.singleton_append,
      dropWhile_isSpace_append (fun c member => spaceAfter c (List.mem_reverse.1 member)) last]
  rw [trim, left, right, List.reverse_reverse]

end Text

namespace Statement

/-- The statement that a line says when it is entered, unless it is blank. -/
def entered? (line : Text) : Option Statement :=
  match Text.trim line with
  | [] => none
  | c :: rest => some (ofLine (c :: rest))

theorem ofSource_eq (source : Text) :
    ofSource source = (Text.splitLines source).filterMap entered? := by
  rw [ofSource, List.filterMap_map]
  congr 1
  funext line
  rw [Function.comp_apply, entered?]
  cases Text.trim line <;> rfl

/-- The statements of a text are those of its lines. -/
theorem ofSource_intercalate {lines : List Text}
    (unbroken : ∀ line ∈ lines, ∀ c ∈ line, Text.isLineBreak c = false) :
    ofSource (['\n'].intercalate lines) = lines.filterMap entered? := by
  rw [ofSource_eq]
  induction lines with
  | nil => rfl
  | cons line rest ih =>
    have first := unbroken line List.mem_cons_self
    cases rest with
    | nil =>
      rw [List.intercalate_singleton, Text.splitLines_of_unbroken first]
      by_cases empty : line = []
      · rw [if_pos empty, empty]
        rfl
      · rw [if_neg empty]
    | cons next rest =>
      have later := ih fun line member => unbroken line (List.mem_cons_of_mem _ member)
      rw [List.intercalate_cons_cons, List.append_assoc, List.singleton_append,
        Text.splitLines_append_newline first, List.filterMap_cons, List.filterMap_cons, later]

theorem ofSource_unifyNewlines (source : Text) :
    ofSource (Text.unifyNewlines source) = ofSource source := by
  rw [ofSource_eq, Text.splitLines_unifyNewlines, ofSource_eq]

end Statement

end ChainShell
