/-
# ChainShell.Statement.Basic — assignments and commands

A statement is one line.  A line that is a name, an equals sign with optional blanks
around it, and an expression on the same line is an assignment; every other line is a
command.  A script is a text of many lines: each is trimmed, and blank ones say
nothing.
-/
import ChainShell.Text.Lines

set_option autoImplicit false

namespace ChainShell

inductive Statement where
  /-- Sets the variable `name` to `expression`. -/
  | assign (name expression : Text)
  | command (line : Text)
  deriving DecidableEq, Repr

namespace Statement

/-- Reads a line as an assignment: name, blanks, equals sign, blanks, expression. -/
def assignment? (line : Text) : Option Statement :=
  let name := line.takeWhile Text.isNameChar
  let rest := (line.dropWhile Text.isNameChar).dropWhile Text.isBlank
  match name, rest with
  | _ :: _, '=' :: tail =>
    let expression := tail.dropWhile Text.isBlank
    if expression.contains '\n' then none else some (assign name expression)
  | _, _ => none

/-- The statement that a line says. -/
def ofLine (line : Text) : Statement := (assignment? line).getD (command line)

def ofSource (source : Text) : List Statement :=
  ((Text.splitLines source).map Text.trim).filterMap fun line =>
    if line = [] then none else some (ofLine line)

end Statement

end ChainShell
