/-
# ChainShell.Statement.Run — running statements

An assignment changes the store and succeeds; a command runs its chain.  A list of
statements runs in order up to the first error.  There are three ways to run text:

* `runSource` runs a script to its end or its first error, and gives an exit code;
* `runCommitted` runs one line that was entered, and gives its status;
* `explain` shows the chain of a line and runs nothing.

All three report an error of the shell, and the first two a death by signal, in one
line each.
-/
import ChainShell.Chain.Printer
import ChainShell.Chain.Run
import ChainShell.Statement.Basic

set_option autoImplicit false

namespace ChainShell

open Activity

def Statement.run : Statement → Activity Status
  | .assign name expression => do
    modify fun s => { s with store := s.store.assign name expression }
    return .ok
  | .command line => Chain.runLine line

/-- Runs statements in order; without any, the status is the one given. -/
def Statement.runAll (status : Status) : List Statement → Activity Status
  | [] => pure status
  | statement :: rest => do
    let status ← statement.run
    runAll status rest

namespace Activity

variable {α : Type}

/-- Writes a message as a diagnostic. -/
def diagnose (message : Text) : Activity Unit := write .err (diagnostic message)

/-- Reports an error of the shell, and gives its exit code in place of a value. -/
def reporting (body : Activity α) : Activity (Except Int α) := do
  match ← recovering body with
  | .error error =>
    diagnose error.message
    return .error error.exitCode
  | .ok a => return .ok a

/-- Reports a death by signal. -/
def reportSignal (status : Status) : Activity Unit :=
  match status.signal with
  | some signal => diagnose ("killed by signal ".toList ++ Text.ofInt signal)
  | none => pure ()

/-- Runs a script and gives its exit code. -/
def runSource (source : Text) : Activity Int := do
  match ← ensuring (reporting (Statement.runAll .ok (Statement.ofSource source))) reap with
  | .error code => return code
  | .ok status =>
    reportSignal status
    return status.toInt

/-- Runs a line that was entered; a blank one does nothing and has no status. -/
def runCommitted (line : Text) : Activity (Option Status) := do
  match Text.trim line with
  | [] => return none
  | text =>
    match ← reporting (Statement.ofLine text).run with
    | .error code => return some (.exited code)
    | .ok status =>
      reportSignal status
      return some status

/-- Shows the chain that a line says, and gives an exit code. -/
def explain (line : Text) : Activity Int := do
  let store := (← get).store
  match ← reporting (ofResult ((Chain.ofLine store line).mapError .shell)) with
  | .error code => return code
  | .ok chain =>
    write .out (Chain.describe chain ++ ['\n'])
    return 0

end Activity

end ChainShell
