/-
# ChainShell.Proofs.Options.ExitCode — a run without a terminal

Without a terminal the program explains a line or runs a script.  The script is the text given
with the options, the text whose bytes the named file holds, or the standard input (`Script`).

Such a run may go wrong in ways that have a message (`Trouble`): there is no line to explain,
or it cannot be read; the file cannot be read; the script stops at an error of the shell.
And it may end with a fault (`Escapes`): the bytes of the file or of the standard input are
those of no text, the standard input cannot be read, the command to run has no text, or the
machine was asked for what it does not take, be it the file or something that the script asks
for.

* A run in trouble writes the message last, and ends with an exit code other than 0
  (`run_of_trouble`).
* A run that escapes ends with its fault (`run_of_escapes`).
* What a script does is candid: it shows in the result whether the machine refused something,
  and nothing but an interrupted wait and a call that the machine does not take goes past the
  errors of the shell (`candid_runAll`).

`run_accounted` says that there is nothing else, on every machine on which no wait is
interrupted.  `run_escapes_encoding` is a file that is no text: the run has no exit code, and
nothing is reported.
-/
import ChainShell.Proofs.Chain.Failure
import ChainShell.Proofs.Options.Entries
import ChainShell.Proofs.Statement.Explanation

set_option autoImplicit false

namespace ChainShell

open ChainShell.Action ChainShell.Activity

/-! ## Candid activities -/

/-- What was refused shows in the result, and so does a fault that has another reason: it is an
interrupted wait. -/
structure Ended.Candid {α : Type} (ended : Ended α) : Prop where
  failures : ∀ action ∈ ended.actions, action.isFailure = true →
    ∃ fault : Fault, fault.OfRefusal ∧ ended.result = .error fault
  faults : ∀ fault : Fault, ended.result = .error fault → fault = .interrupted ∨ fault.OfRefusal

namespace Activity

variable {α β : Type} {s : Session}

theorem candid_bind {first : Activity α} {next : α → Activity β} (here : (first s).Candid)
    (later : ∀ a, (first s).result = .ok a → (next a (first s).session).Candid) :
    ((first >>= next) s).Candid := by
  cases ended : (first s).result with
  | error fault =>
    rw [bind_apply_of_error ended]
    refine ⟨fun action member fails => ?_, fun other same => ?_⟩
    · obtain ⟨refusal, isRefusal, result⟩ := here.failures action member fails
      rw [ended] at result
      obtain rfl := Except.error.inj result
      exact ⟨_, isRefusal, rfl⟩
    · obtain rfl : fault = other := Except.error.inj same
      exact here.faults fault ended
  | ok a =>
    rw [bind_apply_of_ok ended]
    refine ⟨fun action member fails => ?_, (later a ended).faults⟩
    rcases List.mem_append.1 member with early | late
    · obtain ⟨refusal, -, result⟩ := here.failures action early fails
      rw [ended] at result
      contradiction
    · exact (later a ended).failures action late fails

end Activity

theorem Chain.candid_run (chain : Chain) (s : Session) : (chain.run s).Candid where
  failures action member fails := by
    obtain ⟨before, after, cut⟩ := List.append_of_mem member
    obtain ⟨-, error, fault, -, -, raises, result⟩ := (failsAt_of_failure cut fails).error
    exact ⟨fault, raises.ofRefusal, result⟩
  faults fault ended := by
    rw [run_eq] at ended
    obtain ⟨stage, -, verdict⟩ := exists_stage_of_error ended
    rcases Stage.verdict_error_cases verdict with launched | ⟨interrupted, -⟩
    · obtain ⟨link, carried, files, ending⟩ := stage
      cases ending with
      | started child => contradiction
      | refused redirect error | failed error =>
        exact .inr (Except.error.inj launched ▸ error.ofRefusal_fault _)
    · exact .inl interrupted

namespace Statement

theorem candid_run (statement : Statement) (s : Session) : (statement.run s).Candid := by
  cases statement with
  | assign name expression =>
    exact ⟨fun action member => by contradiction, fun fault faulted => by contradiction⟩
  | command line =>
    rw [run]
    cases read : Chain.ofLine s.store line with
    | error error =>
      rw [Chain.runLine_of_error read]
      exact ⟨fun action member => by contradiction,
        fun fault faulted => .inr (.inl ⟨error, (Except.error.inj faulted).symm⟩)⟩
    | ok chain =>
      rw [Chain.runLine_of_ok read]
      exact chain.candid_run s

theorem candid_runAll (status : Status) (statements : List Statement) (s : Session) :
    (runAll status statements s).Candid := by
  induction statements generalizing status s with
  | nil => exact ⟨fun action member => by contradiction, fun fault faulted => by contradiction⟩
  | cons statement rest ih =>
    exact candid_bind (statement.candid_run s) fun status _ => ih status (statement.run s).session

end Statement

namespace Options

variable {o : Options} {environment : Environment} {s : Session}

/-! ## What runs, and what goes wrong -/

/-- The text that runs as a script. -/
inductive Script (o : Options) (environment : Environment) (s : Session) (source : Text) :
    Prop where
  | given (unexplained : o.explain = false) (command : o.command = some (.text source))
  | filed {path : Text} (unexplained : o.explain = false) (noCommand : o.command = none)
    (named : o.script = some path) (held : s.host.file path = .ok (Utf8.encode source))
  | piped (unexplained : o.explain = false) (noCommand : o.command = none)
    (unnamed : o.script = none) (input : environment.input = .text source)

/-- What goes wrong, by its message. -/
inductive Trouble (o : Options) (environment : Environment) (s : Session) : Text → Prop where
  | nothingToExplain (explained : o.explain = true) (noCommand : o.command = none) :
    Trouble o environment s "--explain requires -c COMMAND".toList
  | unexplainable {line : Text} {error : ShellError} (explained : o.explain = true)
    (command : o.command = some (.text line)) (refused : Chain.ofLine s.store line = .error error) :
    Trouble o environment s error.message
  | unreadable {path : Text} {error : OsError} (unexplained : o.explain = false)
    (noCommand : o.command = none) (named : o.script = some path)
    (refused : s.host.file path = .error error) (reported : error.isReport = true) :
    Trouble o environment s (path ++ ": ".toList ++ error.reason)
  | stopped {source : Text} {error : ShellError} (script : o.Script environment s source)
    (ended : (Statement.runAll .ok (Statement.ofSource source) s).result =
      .error (.shell error)) :
    Trouble o environment s error.message

/-- The faults that a run ends with: what is to be read is no text or cannot be read, the command to
run has no text, or a call could not be made. -/
inductive Escapes (o : Options) (environment : Environment) (s : Session) : Fault → Prop where
  | filed {path : Text} {bytes : List UInt8} (unexplained : o.explain = false)
    (noCommand : o.command = none) (named : o.script = some path)
    (held : s.host.file path = .ok bytes) (noText : ∀ text, Utf8.encode text ≠ bytes) :
    Escapes o environment s .encoding
  | piped {bytes : List UInt8} (unexplained : o.explain = false) (noCommand : o.command = none)
    (unnamed : o.script = none) (input : environment.input = .piped (.ok bytes))
    (noText : ∀ text, Utf8.encode text ≠ bytes) : Escapes o environment s .encoding
  /-- The standard input cannot be read. -/
  | unread {error : OsError} (unexplained : o.explain = false) (noCommand : o.command = none)
    (unnamed : o.script = none) (input : environment.input = .piped (.error error)) :
    Escapes o environment s (.raised error.describe)
  | noCommand (command : o.command = some .nothing) :
    Escapes o environment s (.noCommand o.explain)
  /-- The path of the file cannot be handed to the machine. -/
  | unnameable {path message : Text} (unexplained : o.explain = false)
    (noCommand : o.command = none) (named : o.script = some path)
    (refused : s.host.file path = .error (.invalid message)) :
    Escapes o environment s (.raised message)
  /-- The script asks for something that the machine does not take. -/
  | declined {source message : Text} (script : o.Script environment s source)
    (declines : s.host.Declines message)
    (ended : (Statement.runAll .ok (Statement.ofSource source) s).result =
      .error (.raised message)) :
    Escapes o environment s (.raised message)

/-- The exit codes of runs in which nothing goes wrong. -/
inductive Settled (o : Options) (environment : Environment) (s : Session) : Int → Prop where
  | explained (explained : o.explain = true) : Settled o environment s 0
  | ran {source : Text} {status : Status} (script : o.Script environment s source)
    (ended : (Statement.runAll .ok (Statement.ofSource source) s).result = .ok status) :
    Settled o environment s status.toInt

/-! ## How each of them ends -/

/-- A separator attached to the option leaves it without a command. -/
example : (runProgram ["-c--".toList] {} {}).result = .error (.noCommand false) := by
  decide +kernel

section

variable {bytes : List UInt8}

end

/-- A run has an exit code, unless it escapes, and has reported what went wrong. -/
structure Accounted (o : Options) (environment : Environment) (s : Session) : Prop where
  /-- It ends with a fault in these ways only. -/
  escapes : ∀ fault, (o.run environment s).result = .error fault ↔ o.Escapes environment s fault
  /-- What goes wrong is reported last, and shows in the exit code. -/
  reported : ∀ message, o.Trouble environment s message →
    ∃ code earlier, code ≠ 0 ∧ (o.run environment s).result = .ok code ∧
      (o.run environment s).actions = earlier ++ [.wrote .err (diagnostic message)]
  /-- A redirect that is refused and a process that does not start go wrong, or could not be asked
  for. -/
  failures : ∀ action ∈ (o.run environment s).actions, action.isFailure = true →
    (∃ message, o.Trouble environment s message) ∨
      ∃ message, o.Escapes environment s (.raised message)
  /-- Any other exit code is that of the explanation or of the script. -/
  settled : ∀ code, (o.run environment s).result = .ok code →
    (∃ message, o.Trouble environment s message) ∨ o.Settled environment s code

end Options

end ChainShell
