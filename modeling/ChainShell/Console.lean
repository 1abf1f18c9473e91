/-
# ChainShell.Console — the interactive shell

The console shows a marker and the line being edited, and takes key events one by
one.  Keys edit the line or show an earlier one; the enter key commits it, which runs
it with the terminal in cooked mode and starts an empty line.  The line is redrawn
after every event that is not a control event.  Control events do nothing, except
that control C and control D end the session, as does the end of input.

The result is the status of the last line that was not blank.
-/
import ChainShell.Buffer
import ChainShell.Key.Stream
import ChainShell.Statement.Run
import ChainShell.Terminal.Basic

set_option autoImplicit false

namespace ChainShell

open Activity

/-- The line being edited, and the status of the last line that ran. -/
structure Console where
  buffer : Buffer := .empty
  last : Status := .ok
  deriving DecidableEq, Repr

namespace Console

def edit (c : Console) (change : Buffer → Buffer) : Console := { c with buffer := change c.buffer }

/-- Moves in the history and shows the line found there; without history nothing changes. -/
def browse (c : Console) (move : History → History) : Activity Console := do
  let history := (← get).history
  if history.lines.isEmpty then
    return c
  modify fun s => { s with history := move history }
  return { c with buffer := .ofText (move history).shown }

/-- Runs the line and starts an empty one; a line that was not blank enters the history. -/
def commit (c : Console) : Activity Console := do
  let line := c.buffer.contents
  let status ← Terminal.cooked do
    write .out ['\n']
    runCommitted line
  match status with
  | none => return { c with buffer := .empty }
  | some status =>
    modify fun s => { s with history := s.history.push line }
    return { last := status }

def strike (c : Console) : Stroke → Activity Console
  | .key .enter => c.commit
  | .key .left => return c.edit .moveLeft
  | .key .right => return c.edit .moveRight
  | .key .backspace => return c.edit .backspace
  | .key .delete => return c.edit .delete
  | .key .up => c.browse .up
  | .key .down => c.browse .down
  | .key .tab | .key .escape => return c
  | .char text => return c.edit (·.insert text)

def redraw (marker : Marker) (c : Console) : Activity Unit := write .out (c.buffer.render marker)

/-- Takes the events of a source up to the one that ends the session.  After its last event the
source ends, or faults. -/
def attend (marker : Marker) (fault : Option Fault) : Console → List KeyEvent → Activity Console
  | c, [] =>
    match fault with
    | none => pure c
    | some fault => fail fault
  | c, event :: rest =>
    if event.isExit then pure c
    else if event.control then attend marker fault c rest
    else do
      let next ← c.strike event.stroke
      next.redraw marker
      attend marker fault next rest

/-- Runs the interactive shell on the events of a source and gives its exit code. -/
def runEvents (marker : Marker) (events : List KeyEvent) (fault : Option Fault) :
    Activity Int := do
  let c ← Terminal.raw do
    redraw marker {}
    attend marker fault {} events
  write .out ['\r', '\n']
  reap
  return c.last.toInt

/-- Runs the interactive shell on what the terminal delivers. -/
def run (marker : Marker) (stream : KeyStream) : Activity Int :=
  runEvents marker stream.events (stream.fault.map .key)

end Console

end ChainShell
