/-
# ChainShell.Proofs.Statement.Composition — scripts one after the other

Two texts with a line feed between them are one text, and its statements are those of the
first followed by those of the second.  The lines alone do not add up so simply: the line
feed ends the last line of the first text, starts an empty one if that line was ended
already, or completes a carriage return (`splitLines_joined`).  But an empty line says
nothing.

A line that says something is trimmed and unbroken (`exists_line_of_mem_ofSource`).

Running statements one list after the other is running the two lists in sequence
(`runAll_append`): what the first one leaves is what the second one finds, a fault of the
first one ends both, and the status is the one of the last statement.

`ofSource_runAll_append` puts these together.
-/
import ChainShell.Proofs.Statement.Sources
import ChainShell.Statement.Run
import Mathlib.Data.List.Basic

set_option autoImplicit false

namespace ChainShell

open ChainShell.Activity

namespace Text

/-! ## The lines of two texts -/

theorem consFirst_append {lines : List Text} (present : lines ≠ []) (c : Char)
    (more : List Text) : consFirst c (lines ++ more) = consFirst c lines ++ more := by
  cases lines with
  | nil => contradiction
  | cons line lines => rfl

theorem splitLines_ne_nil {t : Text} (present : t ≠ []) : splitLines t ≠ [] := by
  fun_cases splitLines t with
  | case1 => contradiction
  | case2 rest => simp
  | case3 c rest _ ends => simp
  | case4 c rest _ inside => cases splitLines rest <;> simp [consFirst]

/-- The line feed between two texts adds an empty line, or it adds none. -/
theorem splitLines_joined (above below : Text) :
    ∃ gap, (gap = [] ∨ gap = [[]]) ∧
      splitLines (above ++ '\n' :: below) = splitLines above ++ gap ++ splitLines below := by
  fun_induction splitLines above with
  | case1 => exact ⟨[[]], .inr rfl, splitLines_newline below⟩
  | case2 rest ih =>
    obtain ⟨gap, empty, joined⟩ := ih
    refine ⟨gap, empty, ?_⟩
    rw [List.cons_append, List.cons_append, splitLines, joined]
    rfl
  | case3 c rest noPair ends ih =>
    obtain ⟨gap, empty, joined⟩ := ih
    by_cases completed : c = '\r' ∧ rest = []
    · -- The line feed belongs to the carriage return before it.
      obtain ⟨rfl, rfl⟩ := completed
      exact ⟨[], .inl rfl, by simp [splitLines]⟩
    · refine ⟨gap, empty, ?_⟩
      have still : ∀ tail, c = '\r' → rest ++ '\n' :: below = '\n' :: tail → False := by
        rintro tail rfl same
        cases rest with
        | nil => exact completed ⟨rfl, rfl⟩
        | cons d rest => exact noPair rest rfl (by rw [(List.cons.inj same).1])
      rw [List.cons_append, splitLines.eq_3 c _ still, if_pos ends, joined]
      rfl
  | case4 c rest noPair inside ih =>
    have inside' : isLineBreak c = false := by simpa using inside
    rw [List.cons_append, splitLines_cons inside']
    by_cases last : rest = []
    · subst last
      refine ⟨[], .inl rfl, ?_⟩
      rw [List.nil_append, splitLines_newline]
      rfl
    · obtain ⟨gap, empty, joined⟩ := ih
      refine ⟨gap, empty, ?_⟩
      rw [joined, List.append_assoc, consFirst_append (splitLines_ne_nil last), List.append_assoc]

theorem unbroken_of_mem_splitLines {t line : Text} (member : line ∈ splitLines t) :
    ∀ c ∈ line, isLineBreak c = false := by
  fun_induction splitLines t generalizing line with
  | case1 => contradiction
  | case2 rest ih =>
    rcases List.mem_cons.1 member with rfl | later
    · simp
    · exact ih later
  | case3 c rest _ ends ih =>
    rcases List.mem_cons.1 member with rfl | later
    · simp
    · exact ih later
  | case4 c rest _ inside ih =>
    have inside' : isLineBreak c = false := by simpa using inside
    cases lines : splitLines rest with
    | nil =>
      rw [lines, consFirst, List.mem_singleton] at member
      simp [member, inside']
    | cons first others =>
      rw [lines] at member ih
      rcases List.mem_cons.1 member with rfl | later
      · exact List.forall_mem_cons.2 ⟨inside', ih List.mem_cons_self⟩
      · exact ih (List.mem_cons_of_mem _ later)

/-! ## What trimming leaves -/

theorem not_isSpace_of_dropWhile {t rest : Text} {c : Char}
    (left : t.dropWhile isSpace = c :: rest) : isSpace c = false := by
  have head := List.head?_dropWhile_not isSpace t
  rw [left] at head
  exact head

/-- What is left of a text neither starts nor ends with white space. -/
theorem visible_trim {t : Text} (present : trim t ≠ []) : Visible (trim t) := by
  rw [trim, ne_eq, List.reverse_eq_nil_iff] at present
  obtain ⟨last, others, back⟩ := List.exists_cons_of_ne_nil present
  obtain ⟨gap, whole⟩ := List.dropWhile_suffix isSpace (l := (t.dropWhile isSpace).reverse)
  have front : t.dropWhile isSpace = trim t ++ gap.reverse := by
    rw [← List.reverse_reverse (t.dropWhile isSpace), ← whole, List.reverse_append, trim]
  have trimmed : trim t = others.reverse ++ [last] := by rw [trim, back, List.reverse_cons]
  refine ⟨?_, others.reverse, last, trimmed, not_isSpace_of_dropWhile back⟩
  cases first : trim t with
  | nil => simp [trimmed] at first
  | cons c rest =>
    rw [first] at front
    exact ⟨c, rest, rfl, not_isSpace_of_dropWhile front⟩

theorem mem_of_mem_trim {t : Text} {c : Char} (member : c ∈ trim t) : c ∈ t := by
  rw [trim, List.mem_reverse] at member
  have front := (List.dropWhile_suffix isSpace).subset member
  exact (List.dropWhile_suffix isSpace).subset (List.mem_reverse.1 front)

end Text

namespace Statement

/-! ## The statements of two texts -/

theorem ofSource_joined (above below : Text) :
    ofSource (above ++ '\n' :: below) = ofSource above ++ ofSource below := by
  obtain ⟨gap, empty, joined⟩ := Text.splitLines_joined above below
  have silent : gap.filterMap entered? = [] := by
    rcases empty with rfl | rfl
    · rfl
    · rfl
  simp only [ofSource_eq, joined, List.filterMap_append, silent, List.append_nil]

/-- Every statement of a text is said by a trimmed line without a break in it. -/
theorem exists_line_of_mem_ofSource {source : Text} {statement : Statement}
    (member : statement ∈ ofSource source) :
    ∃ line, statement = ofLine line ∧ Text.Visible line ∧
      ∀ c ∈ line, Text.isLineBreak c = false := by
  rw [ofSource_eq] at member
  obtain ⟨raw, found, said⟩ := List.mem_filterMap.1 member
  rw [entered?] at said
  cases trimmed : Text.trim raw with
  | nil => simp [trimmed] at said
  | cons c rest =>
    rw [trimmed] at said
    refine ⟨c :: rest, (Option.some.inj said).symm, ?_, ?_⟩
    · rw [← trimmed]
      exact Text.visible_trim (by simp [trimmed])
    · intro d inside
      rw [← trimmed] at inside
      exact Text.unbroken_of_mem_splitLines found d (Text.mem_of_mem_trim inside)

/-! ## Running two lists -/

theorem runAll_append (status : Status) (first second : List Statement) :
    runAll status (first ++ second) =
      runAll status first >>= fun last => runAll last second := by
  induction first generalizing status with
  | nil => rw [List.nil_append, runAll, pure_bind]
  | cons statement rest ih =>
    rw [List.cons_append, runAll, runAll, bind_assoc]
    congr 1
    funext last
    exact ih last

/-- The status before a list of statements counts only if there are none. -/
theorem runAll_from (status : Status) (statements : List Statement) (s : Session) :
    runAll status statements s =
      { runAll .ok statements s with
        result := if statements = [] then .ok status else (runAll .ok statements s).result } := by
  cases statements with
  | nil => rfl
  | cons statement rest => rfl

/-- A text that is put together from two has the statements of the first and then those of the
second, and each of them is said by a trimmed line without a break.  Two lists of statements run one
after the other: if the first one faults, the second one has no effect, and otherwise it runs on what
the first one left, whose status stays if nothing follows. -/
theorem ofSource_runAll_append :
    (∀ above below, ofSource (above ++ '\n' :: below) = ofSource above ++ ofSource below) ∧
      (∀ source, ∀ statement ∈ ofSource source, ∃ line, statement = ofLine line ∧
        Text.Visible line ∧ ∀ c ∈ line, Text.isLineBreak c = false) ∧
      ∀ first second s,
        let ran := runAll .ok first s
        let later := runAll .ok second ran.session
        runAll .ok (first ++ second) s =
          match ran.result with
          | .error _ => ran
          | .ok status =>
            ⟨if second = [] then .ok status else later.result, later.session,
              ran.actions ++ later.actions⟩ := by
  refine ⟨ofSource_joined, fun source statement => exists_line_of_mem_ofSource, ?_⟩
  intro first second s ran later
  rw [runAll_append]
  cases ended : ran.result with
  | error fault =>
    rw [bind_apply_of_error ended]
    exact Ended.ext ended.symm rfl rfl
  | ok status =>
    rw [bind_apply_of_ok ended, runAll_from status second ran.session]

/-- A carriage return before the line feed between the texts; the second text is refused at its
second statement, and the third one does not run. -/
theorem ofSource_runAll_append_refused :
    let above := "n = é\r".toList
    let below := " show $n\u2028;\n\tshow".toList
    let first := ofSource above
    let second := [.command "show $n".toList, .command [';'], .command "show".toList]
    let s : Session := { host := { programs := [("show".toList, [.starts 0 0 0])] } }
    ofSource (above ++ '\n' :: below) = first ++ second ∧
      (∃ line, .command "show $n".toList = ofLine line ∧ Text.Visible line ∧
        ∀ c ∈ line, Text.isLineBreak c = false) ∧
      (runAll .ok first s).result = .ok .ok ∧
      (runAll .ok (first ++ second) s).result =
        .error (.shell (.expectedWord (some [';']))) ∧
      (runAll .ok (first ++ second) s).actions =
        [.started 1 ["show".toList, ['é']] ⟨none, .inherited, none⟩, .waited 1 0] := by
  intro above below first second s
  obtain ⟨joined, lines, run⟩ := ofSource_runAll_append
  have meant : ofSource below = second := by decide +kernel
  have member : .command "show $n".toList ∈ ofSource below := by
    rw [meant]
    exact List.mem_cons_self
  have completed : (runAll .ok first s).result = .ok .ok := by decide +kernel
  have composed := run first second s
  simp only [completed] at composed
  refine ⟨by rw [joined, meant], lines below _ member, completed, ?_, ?_⟩
  · rw [composed]
    decide +kernel
  · rw [composed]
    decide +kernel

end Statement

end ChainShell
