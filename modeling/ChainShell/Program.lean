/-
# ChainShell.Program — the shell as a program

What runs depends on the options, in this order: an explanation of the command, the
command itself, a script, or else the standard input, as a script if it is piped in and
interactively if it is a terminal.  The result is the exit code.

A script from a file and one that is piped in have to be UTF-8.  What the machine reports of
the file becomes a diagnostic; any other error in reading a script passes.
-/
import ChainShell.Console
import ChainShell.Options.Parser

set_option autoImplicit false

namespace ChainShell

open Activity

inductive StandardInput where
  | terminal (reads : List Read)
  /-- What is piped in, or why it cannot be read. -/
  | piped (content : Except OsError (List UInt8))

/-- A text that is piped in. -/
def StandardInput.text (content : Text) : StandardInput := .piped (.ok (Utf8.encode content))

/-- What surrounds a run of the program. -/
structure Environment where
  /-- The marker that the environment sets. -/
  marker : Option Text := none
  input : StandardInput := .text []

/-- The marker if nothing sets another. -/
def defaultMarker : Text := ['>', ' ']

/-- The marker to use: the one given as an option, the one of the environment, or the default.
An option given nothing shows as a pair of brackets that counts for no columns. -/
def chooseMarker (given : Option OptionValue) (configured : Option Text) : Marker :=
  match given with
  | some (.text text) => { text }
  | some .nothing => { text := ['[', ']'], columns := 0 }
  | none => { text := configured.getD defaultMarker }

def usage : Text :=
  "usage: dcsh [-h] [-c COMMAND] [--explain] [--prompt MARKER] [SCRIPT]\n".toList

/-- Reads a script from its file: UTF-8 with any of the three conventional line ends. -/
def Activity.runFile (path : Text) : Activity Int := do
  match (← get).host.file path with
  | .error (.invalid message) => fail (.raised message)
  | .error error =>
    diagnose (path ++ ": ".toList ++ error.reason)
    return 1
  | .ok bytes =>
    match Utf8.decode? bytes with
    | none => fail .encoding
    | some text => runSource (Text.unifyNewlines text)

/-- Runs a script that is piped in, with its line ends as they are. -/
def Activity.runPiped : Except OsError (List UInt8) → Activity Int
  | .error error => fail (.raised error.describe)
  | .ok bytes =>
    match Utf8.decode? bytes with
    | none => fail .encoding
    | some text => runSource text

/-- Runs the program as its options say. -/
def Options.run (o : Options) (environment : Environment) : Activity Int :=
  match o with
  | { explain := true, command := none, .. } => do
    diagnose "--explain requires -c COMMAND".toList
    return 2
  | { explain := true, command := some (.text command), .. } => Activity.explain command
  | { command := some (.text command), .. } => runSource command
  | { explain, command := some .nothing, .. } => fail (.noCommand explain)
  | { script := some path, .. } => runFile path
  | { prompt, .. } =>
    match environment.input with
    | .piped content => runPiped content
    | .terminal reads =>
      Console.run (chooseMarker prompt environment.marker) (.ofReads reads)

/-- Does what the arguments ask for. -/
def Request.perform (environment : Environment) : Request → Activity Int
  | .help => do
    write .out usage
    return 0
  | .run options => options.run environment

/-- Runs the program with its arguments. -/
def runProgram (arguments : List Text) (environment : Environment) : Activity Int :=
  match Request.ofArguments arguments with
  | .error error => do
    write .err error.report
    return 2
  | .ok request => request.perform environment

end ChainShell
