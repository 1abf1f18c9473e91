/-
# ChainShell.Proofs.Statement.Explanation — what is explained and what runs

`explain` and `runSource` reach the parser by different ways.  An explanation reads the whole
text as one command line; a script is cut into lines first, each is trimmed, and each is an
assignment or a command.

A text is a lone command (`LoneCommand`) if a script of it is one command and nothing stands
around that but blanks.  Then the explanation shows what runs (`showsRun_of_loneCommand`): the
chain that is shown is the one that is run, action by action, and a text that is refused is
refused alike, before anything is opened or started.  The blanks do not matter, since they
change no token (`ofLine_margins`).

The condition cannot be dropped.  A line break at the end is trimmed by a script and is part
of the last word in an explanation (`not_showsRun_of_newline`).
-/
import ChainShell.Proofs.Chain.Course
import ChainShell.Proofs.Chain.Quoting
import ChainShell.Proofs.Console.Agreement
import ChainShell.Proofs.Token.Margins

set_option autoImplicit false

namespace ChainShell

open ChainShell.Action ChainShell.Activity

/-! ## Reading with blanks around -/

namespace Chain

/-- Blanks before and after a line do not change its chain. -/
theorem ofLine_margins (store : Store) {before after : Text}
    (blankBefore : ∀ c ∈ before, Text.isBlank c = true)
    (blankAfter : ∀ c ∈ after, Text.isBlank c = true) (line : Text) :
    ofLine store (before ++ line ++ after) = ofLine store line :=
  parseFrom_congr .command (Token.lexemes_ofLine_margins blankBefore blankAfter line)

theorem runLine_of_error {line : Text} {s : Session} {error : ShellError}
    (read : ofLine s.store line = .error error) :
    runLine line s = ⟨.error (.shell error), s, []⟩ := by
  rw [runLine, get_bind_apply, read]
  rfl

end Chain

/-! ## Explaining -/

namespace Activity

variable {text : Text} {s : Session}

theorem explain_of_ok {chain : Chain} (read : Chain.ofLine s.store text = .ok chain) :
    explain text s = ⟨.ok 0, s, [.wrote .out (chain.describe ++ ['\n'])]⟩ := by
  have parsed : (ofResult ((Chain.ofLine s.store text).mapError .shell) s).result = .ok chain := by
    rw [read]
    rfl
  have reported := reporting_of_ok parsed
  rw [explain, get_bind_apply, bind_apply_of_ok (congrArg Ended.result reported), reported, read]
  rfl

theorem explain_of_error {error : ShellError} (read : Chain.ofLine s.store text = .error error) :
    explain text s = ⟨.ok error.exitCode, s, [.wrote .err error.report]⟩ := by
  have parsed : (ofResult ((Chain.ofLine s.store text).mapError .shell) s).result =
      .error (.shell error) := by
    rw [read]
    rfl
  have reported := reporting_of_error parsed
  rw [explain, get_bind_apply, bind_apply_of_ok (congrArg Ended.result reported), reported, read]
  rfl

end Activity

namespace Statement

/-- A script of the text is one command, and nothing stands around it but blanks. -/
structure LoneCommand (text line : Text) : Prop where
  means : ofSource text = [.command line]
  framed : ∃ before after, text = before ++ line ++ after ∧
    (∀ c ∈ before, Text.isBlank c = true) ∧ ∀ c ∈ after, Text.isBlank c = true

/-- The explanation of the text shows what a script of it does.  If it shows a chain, the script
runs that chain and reports how it ended; if it is an error, the script gives the same exit code
and the same message, and does nothing else. -/
structure ShowsRun (text : Text) (s : Session) : Prop where
  shown : ∀ chain, Chain.ofLine s.store text = .ok chain →
    explain text s = ⟨.ok 0, s, [.wrote .out (chain.describe ++ ['\n'])]⟩ ∧
      runSource text s = concluded (chain.run s)
  refused : ∀ error, Chain.ofLine s.store text = .error error →
    explain text s = ⟨.ok error.exitCode, s, [.wrote .err error.report]⟩ ∧
      runSource text s = ⟨.ok error.exitCode, s.reaped, [.wrote .err error.report]⟩

namespace LoneCommand

/-- A line that starts and ends with a visible character, has no line break and is no assignment is a
lone command with any blanks around it. -/
theorem of_line {line before after : Text} (visible : Text.Visible line)
    (unbroken : ∀ c ∈ line, Text.isLineBreak c = false) (command : assignment? line = none)
    (blankBefore : ∀ c ∈ before, Text.isBlank c = true)
    (blankAfter : ∀ c ∈ after, Text.isBlank c = true) :
    LoneCommand (before ++ line ++ after) line := by
  refine ⟨?_, before, after, rfl, blankBefore, blankAfter⟩
  obtain ⟨c, rest, starts, -⟩ := visible.starts
  have oneLine : Text.splitLines (before ++ line ++ after) = [before ++ line ++ after] := by
    rw [Text.splitLines_of_unbroken, if_neg (by simp [starts])]
    simp only [List.forall_mem_append]
    exact ⟨⟨fun c member => Text.isLineBreak_of_isBlank (blankBefore c member), unbroken⟩,
      fun c member => Text.isLineBreak_of_isBlank (blankAfter c member)⟩
  have trimmed : Text.trim (before ++ line ++ after) = line :=
    visible.trim_append (fun c member => Text.isSpace_of_isBlank (blankBefore c member))
      fun c member => Text.isSpace_of_isBlank (blankAfter c member)
  have meant : entered? (before ++ line ++ after) = some (.command line) := by
    rw [entered?, trimmed, starts]
    dsimp only
    rw [← starts, ofLine, command]
    rfl
  rw [ofSource_eq, oneLine, List.filterMap_cons_some meant]
  rfl

variable {text line : Text} (lone : LoneCommand text line)

include lone

theorem ofLine_eq (store : Store) : Chain.ofLine store text = Chain.ofLine store line := by
  obtain ⟨before, after, rfl, blankBefore, blankAfter⟩ := lone.framed
  exact Chain.ofLine_margins store blankBefore blankAfter line

/-- A script that is one command runs its line. -/
theorem runSource_eq (s : Session) : runSource text s = concluded (Chain.runLine line s) :=
  runSource_of_one lone.means s

end LoneCommand

/-- The explanation of a lone command shows what a script of it does. -/
theorem showsRun_of_loneCommand {text line : Text} (lone : LoneCommand text line) (s : Session) :
    ShowsRun text s := by
  constructor
  · intro chain read
    refine ⟨explain_of_ok read, ?_⟩
    rw [lone.ofLine_eq] at read
    rw [lone.runSource_eq, Chain.runLine_of_ok read]
  · intro error read
    refine ⟨explain_of_error read, ?_⟩
    rw [lone.ofLine_eq] at read
    rw [lone.runSource_eq, Chain.runLine_of_error read]
    rfl

/-- A pipe of two commands, the second of which is named by a variable, with blanks around; one
process is killed, and the other one ends with 3. -/
theorem showsRun_of_loneCommand_pipe :
    let line := "touch  a | $c".toList
    let text := "\t ".toList ++ line ++ [' ', '\t']
    let s : Session :=
      { store := ⟨[(['c'], ['w', 'c'])]⟩
        host := { programs := [("touch".toList, [.starts (-2) 0 0]), (['w', 'c'], [.starts 3 0 0])] } }
    LoneCommand text line ∧ ShowsRun text s ∧
      (explain text s).actions = [.wrote .out "CMD touch a\nOP  |\nCMD wc\n".toList] ∧
      (runSource text s).result = .ok 3 := by
  intro line text s
  have visible : Text.Visible line :=
    ⟨⟨'t', "ouch  a | $c".toList, rfl, by decide⟩, ⟨"touch  a | $".toList, 'c', rfl, by decide⟩⟩
  have unbroken : ∀ c ∈ line, Text.isLineBreak c = false := by
    intro c member
    have all : line.all (fun c => !Text.isLineBreak c) = true := by decide
    simpa using List.all_eq_true.1 all c member
  have lone : LoneCommand text line :=
    .of_line visible unbroken (by decide) (List.all_eq_true.1 rfl) (List.all_eq_true.1 rfl)
  exact ⟨lone, showsRun_of_loneCommand lone s, by decide +kernel, by decide +kernel⟩

/-- With a line break at its end the text is explained as a command whose argument ends in it, and
run without it. -/
theorem not_showsRun_of_newline :
    let text := "touch a\n".toList
    let s : Session := { host := { programs := [("touch".toList, [.starts 0 0 0])] } }
    ofSource text = [.command "touch a".toList] ∧
      Chain.ofLine s.store text =
        .ok [⟨{ executable := "touch".toList, args := ["a\n".toList] }, none⟩] ∧
      (explain text s).result = .ok 0 ∧
      (explain text s).actions = [.wrote .out "CMD touch a\n\n".toList] ∧
      (runSource text s).actions =
        [.started 1 ["touch".toList, ['a']] ⟨none, .inherited, none⟩, .waited 1 0] ∧
      ¬ ShowsRun text s := by
  intro text s
  have meant : ofSource text = [.command "touch a".toList] := by decide
  have read : Chain.ofLine s.store text =
      .ok [⟨{ executable := "touch".toList, args := ["a\n".toList] }, none⟩] := by decide +kernel
  have acted : (runSource text s).actions =
      [.started 1 ["touch".toList, ['a']] ⟨none, .inherited, none⟩, .waited 1 0] := by
    decide +kernel
  refine ⟨meant, read, by decide +kernel, by decide +kernel, acted, ?_⟩
  intro shows
  have same := congrArg Ended.actions (shows.shown _ read).2
  rw [acted] at same
  revert same
  decide +kernel

end Statement

end ChainShell
