/-
# ChainShell.Status — how a process ended

A process ends with an exit code or is killed by a signal.  Where one number has to
say which, a signal is 128 plus its own number.
-/

set_option autoImplicit false

namespace ChainShell

/-- The outcome of a finished process: an exit code, or the signal that killed it. -/
structure Status where
  code : Option Int := some 0
  signal : Option Int := none
  deriving DecidableEq, Repr

namespace Status

/-- The outcome of a command that did what it was asked. -/
def ok : Status := {}

def exited (code : Int) : Status := { code := some code }

/-- The status a return code stands for; a negative one names a signal. -/
def ofReturnCode (code : Int) : Status :=
  if code < 0 then { code := none, signal := some (-code) } else exited code

/-- Only exit code zero is success. -/
def success (s : Status) : Bool := s.code == some 0

/-- The status as one number: 128 plus the signal, or the exit code. -/
def toInt (s : Status) : Int :=
  match s.signal with
  | some signal => 128 + signal
  | none => s.code.getD 0

end Status

end ChainShell
