/-
# ChainShell.Host — what a shell does, and what it meets

A shell acts on the machine it runs on: it opens and closes redirects, starts
processes and waits for them, writes to its two outputs, and switches the terminal's
mode.  `Action` names what it did, in the terms that decide how the machine is left.

`Host` is the machine's side: for each program the outcomes of the next attempts to
start it, the paths that cannot be opened, the files that hold scripts, and the
mode calls that fail.  It also counts what it handed out, so handles, processes and
saved modes have numbers of their own.

A host is a script of answers.  It takes this for granted of the machine:

* Texts are lists of Unicode scalar values, and both outputs take every text.
* A path always opens or never does, whatever it is opened for, and the attempts to start a
  program have their outcomes in order, whatever its arguments are.
* The description of an error is made of its number and its text.  It does not name the path
  or the program that the error is about.
* A path or an argument that holds U+0000 cannot be handed to the system.  Such a call is
  answered by `OsError.invalid`, which is no report of the system.  Whether and when that
  happens is up to the host, as any other answer is: what holds for every host holds for
  those that answer so whenever there is a U+0000, and for those that never do.
-/
import ChainShell.Text.Basic

set_option autoImplicit false

namespace ChainShell

/-! ## Errors of the machine -/

/-- Why the machine did not do what it was asked for: an error as it reports it, with its number or
as a bare text, or a call that could not be made. -/
inductive OsError where
  | numbered (number : Int) (text : Text)
  | bare (text : Text)
  /-- A text that was to be handed over is none that the machine takes, as it holds U+0000. -/
  | invalid (message : Text)
  deriving DecidableEq, Repr

namespace OsError

/-- The error that says that a path names nothing. -/
def notFound : OsError := numbered 2 "No such file or directory".toList

/-- Whether the error's number says that a path names nothing. -/
def isNotFound : OsError → Bool
  | numbered number _ => number == 2
  | bare _ | invalid _ => false

def describe : OsError → Text
  | numbered number text => "[Errno ".toList ++ Text.ofInt number ++ "] ".toList ++ text
  | bare text | invalid text => text

/-- What a message tells of an error: its text, or the full description if there is none. -/
def reason : OsError → Text
  | numbered _ (c :: text) => c :: text
  | e => e.describe

end OsError

/-! ## Handles and processes -/

/-- Something the shell itself holds open: a redirect's file, or the read end of the pipe that
process `pid` writes to. -/
inductive Handle where
  | file (number : Nat)
  | pipe (pid : Nat)
  deriving DecidableEq, Repr

inductive OpenMode where
  | read
  | write
  deriving DecidableEq, Repr

/-- Where a new process writes its output. -/
inductive Output where
  /-- Where the shell itself writes. -/
  | inherited
  | handle (handle : Handle)
  /-- Into a pipe of its own. -/
  | pipe
  deriving DecidableEq, Repr

/-- The three standard streams of a new process; an absent one is the shell's own. -/
structure Streams where
  input : Option Handle
  output : Output
  error : Option Handle
  deriving DecidableEq, Repr

/-- A started process and what it will answer: its return code, how often a look at it finds it
still running, and how many waits for it are interrupted. -/
structure Child where
  pid : Nat
  returnCode : Int
  polls : Nat := 0
  interrupts : Nat := 0
  deriving DecidableEq, Repr

inductive Outcome where
  | starts (returnCode : Int) (polls interrupts : Nat)
  | fails (error : OsError)
  deriving DecidableEq, Repr

/-! ## The terminal's mode -/

inductive ModeCall where
  | save
  | enterRaw
  | restore
  deriving DecidableEq, Repr

/-- How often a mode call was made, and the numbers of the calls that fail, counted from one. -/
structure CallCount where
  made : Nat := 0
  failing : List Nat := []
  deriving DecidableEq, Repr

/-! ## Actions -/

inductive OutputStream where
  | out
  | err
  deriving DecidableEq, Repr

/-- Something the shell did to the machine. -/
inductive Action where
  | opened (mode : OpenMode) (path : Text) (handle : Handle)
  | openFailed (mode : OpenMode) (path : Text)
  | started (pid : Nat) (argv : List Text) (streams : Streams)
  | startFailed (argv : List Text) (streams : Streams)
  | waited (pid : Nat) (returnCode : Int)
  | interrupted (pid : Nat)
  | closed (handle : Handle)
  | wrote (stream : OutputStream) (text : Text)
  /-- The terminal's mode was saved under the number of the call. -/
  | saved (number : Nat)
  | enteredRaw
  /-- The mode saved under the number was restored. -/
  | restored (number : Nat)
  | modeFailed (call : ModeCall)
  deriving DecidableEq, Repr

namespace Action

/-- The handle that an action gives to the shell. -/
def acquired? : Action → Option Handle
  | opened _ _ handle => some handle
  | started pid _ { output := .pipe, .. } => some (.pipe pid)
  | _ => none

/-- The handles that the shell holds after an action. -/
def heldAfter (held : List Handle) (action : Action) : List Handle :=
  match action with
  | closed handle => held.erase handle
  | action => held ++ action.acquired?.toList

/-- The handles that the shell holds after a list of actions, if it held none before. -/
def openHandles (actions : List Action) : List Handle := actions.foldl heldAfter []

end Action

/-! ## The host -/

structure Host where
  /-- For each program the outcomes of the next attempts to start it; the last one repeats. -/
  programs : List (Text × List Outcome) := []
  openErrors : List (Text × OsError) := []
  /-- The files that hold scripts, or why they cannot be read. -/
  files : List (Text × Except OsError (List UInt8)) := []
  opened : Nat := 0
  started : Nat := 0
  saving : CallCount := {}
  entering : CallCount := {}
  restoring : CallCount := {}

namespace Host

/-- Takes the first of the outcomes of a program, unless it is the last. -/
def dropOutcome (program : Text) : List (Text × List Outcome) → List (Text × List Outcome)
  | [] => []
  | (name, outcomes) :: rest =>
    if name = program then
      match outcomes with
      | _ :: next :: later => (name, next :: later) :: rest
      | outcomes => (name, outcomes) :: rest
    else (name, outcomes) :: dropOutcome program rest

/-- The outcome of the next attempt to start a program. -/
def outcome (h : Host) (program : Text) : Outcome :=
  match h.programs.lookup program with
  | some (outcome :: _) => outcome
  | _ => .fails .notFound

/-- The host after an attempt to start a program. -/
def attempted (h : Host) (program : Text) : Host :=
  { h with programs := dropOutcome program h.programs }

def file (h : Host) (path : Text) : Except OsError (List UInt8) :=
  (h.files.lookup path).getD (.error .notFound)

/-- How often a mode call was made, and which calls fail. -/
def callCount (h : Host) : ModeCall → CallCount
  | .save => h.saving
  | .enterRaw => h.entering
  | .restore => h.restoring

/-- The host after one more mode call. -/
def called (h : Host) : ModeCall → Host
  | .save => { h with saving := { h.saving with made := h.saving.made + 1 } }
  | .enterRaw => { h with entering := { h.entering with made := h.entering.made + 1 } }
  | .restore => { h with restoring := { h.restoring with made := h.restoring.made + 1 } }

end Host

end ChainShell
