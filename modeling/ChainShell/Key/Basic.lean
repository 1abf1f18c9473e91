/-
# ChainShell.Key.Basic — what is typed at the terminal

A key event is a stroke, either a named key or a piece of text, and says whether the
control key was held.
-/
import ChainShell.Text.Basic

set_option autoImplicit false

namespace ChainShell

inductive Key where
  | enter
  | tab
  | backspace
  | delete
  | left
  | right
  | up
  | down
  | escape
  deriving DecidableEq, Repr

/-- What a key event strikes: a named key, or a piece of text. -/
inductive Stroke where
  | key (key : Key)
  | char (text : Text)
  deriving DecidableEq, Repr

structure KeyEvent where
  stroke : Stroke
  control : Bool := false
  deriving DecidableEq, Repr

namespace KeyEvent

def key (key : Key) (control : Bool) : KeyEvent := ⟨.key key, control⟩

/-- Control C and control D leave the shell. -/
def isExit (e : KeyEvent) : Bool :=
  e.control && (e.stroke == .char ['c'] || e.stroke == .char ['d'])

end KeyEvent

end ChainShell
