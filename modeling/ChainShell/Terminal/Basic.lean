/-
# ChainShell.Terminal.Basic — raw and cooked mode

The terminal is put into raw mode by saving the mode it is in and changing it, and
back by restoring what was saved.  Entering raw mode twice, or leaving it twice, does
nothing the second time.  The session counts as raw from the moment a mode is saved
and as cooked from the moment the saved mode is taken out again, whether or not the
call after that succeeds.

`raw` and `cooked` hold a mode for as long as an activity runs.
-/
import ChainShell.Activity

set_option autoImplicit false

namespace ChainShell.Terminal

open Activity

variable {α : Type}

/-- Puts the terminal into raw mode. -/
def enterRaw : Activity Unit := do
  if (← get).savedMode.isNone then
    let number ← callMode .save
    act (.saved number)
    modify fun s => { s with savedMode := some number }
    let _ ← callMode .enterRaw
    act .enteredRaw

/-- Puts the terminal back into the mode it was in before. -/
def leaveRaw : Activity Unit := do
  match (← get).savedMode with
  | none => return ()
  | some number =>
    modify fun s => { s with savedMode := none }
    let _ ← callMode .restore
    act (.restored number)

/-- Runs an activity in raw mode. -/
def raw (body : Activity α) : Activity α := do
  enterRaw
  ensuring body leaveRaw

/-- Runs an activity in cooked mode. -/
def cooked (body : Activity α) : Activity α := do
  leaveRaw
  ensuring body enterRaw

end ChainShell.Terminal
