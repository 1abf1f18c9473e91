/-
# ChainShell.Error — what can be wrong with a command

`ShellError` lists the failures that the shell reports and survives.  `message` is
their wording, `exitCode` the number a run that stops at one ends with, and
`diagnostic` the line written for any message.
-/
import ChainShell.Text.Quoted

set_option autoImplicit false

namespace ChainShell

/-- A failure that is reported to the user and ends the command at hand, not the shell. -/
inductive ShellError where
  /-- A failure of no further kind. -/
  | general (message : Text)
  /-- A line that is no command, for a reason of no further kind. -/
  | malformed (message : Text)
  /-- The token `found`, or the end of the line, stands where a word is required. -/
  | expectedWord (found : Option Text)
  /-- The command word, as `written`, expands to nothing. -/
  | emptyCommand (written : Text)
  /-- No token starts with the character at `position`. -/
  | unexpectedCharacter (found : Char) (position : Nat)
  | commandNotFound (command : Text) (reason : Option Text)
  | redirectFailed (path reason : Text)
  deriving DecidableEq, Repr

/-- The line written to report a message. -/
def diagnostic (message : Text) : Text := "dcsh: ".toList ++ message ++ ['\n']

namespace ShellError

def message : ShellError → Text
  | general message => message
  | malformed message => message
  | expectedWord none => "syntax error: expected a word, found end of input".toList
  | expectedWord (some found) => "syntax error: expected a word, found '".toList ++ found ++ ['\'']
  | emptyCommand [] => "syntax error: empty command name".toList
  | emptyCommand written =>
    "syntax error: command name '".toList ++ written ++ "' is empty after substitution".toList
  | unexpectedCharacter found position =>
    "syntax error: unexpected character ".toList ++ Text.quote [found] ++ " at column ".toList ++
      Text.ofNat (position + 1)
  | commandNotFound command (some (c :: reason)) => command ++ ": ".toList ++ c :: reason
  | commandNotFound command _ => "command not found: ".toList ++ command
  | redirectFailed path reason => path ++ ": ".toList ++ reason

/-- Whether the command line itself is at fault. -/
def isMalformed : ShellError → Bool
  | malformed _ | expectedWord _ | emptyCommand _ | unexpectedCharacter .. => true
  | general _ | commandNotFound .. | redirectFailed .. => false

/-- The exit code of a run that stops at the error. -/
def exitCode : ShellError → Nat
  | malformed _ | expectedWord _ | emptyCommand _ | unexpectedCharacter .. => 2
  | commandNotFound .. => 127
  | general _ | redirectFailed .. => 1

def report (e : ShellError) : Text := diagnostic e.message

theorem exitCode_ne_zero (e : ShellError) : e.exitCode ≠ 0 := by
  cases e <;> simp [exitCode]

end ShellError

end ChainShell
