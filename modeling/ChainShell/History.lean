/-
# ChainShell.History — the lines entered before

A history keeps the committed lines and the place of the one being shown.  The place
after the last line means that none is.  `up` and `down` move one place, as far as
there is one, and tell the line to show.
-/
import ChainShell.Text.Basic

set_option autoImplicit false

namespace ChainShell

/-- Committed lines, and the place of the one being shown. -/
structure History where
  lines : List Text := []
  index : Nat := lines.length
  deriving DecidableEq, Repr

namespace History

def ofList (lines : List Text) : History := { lines }

/-- The line at the place being shown, or no text after the last line. -/
def shown (h : History) : Text := h.lines[h.index]?.getD []

/-- Adds a line at the end and shows none. -/
def push (h : History) (line : Text) : History := ofList (h.lines ++ [line])

/-- Moves to the line before, if there is one. -/
def up (h : History) : History := { h with index := h.index - 1 }

/-- Moves to the line after, or after the last line. -/
def down (h : History) : History :=
  if h.index < h.lines.length then { h with index := h.index + 1 } else h

@[simp] theorem lines_up (h : History) : h.up.lines = h.lines := rfl

@[simp] theorem lines_down (h : History) : h.down.lines = h.lines := by
  simp only [down]; split <;> rfl

@[simp] theorem lines_push (h : History) (line : Text) :
    (h.push line).lines = h.lines ++ [line] := rfl

theorem index_up_le {h : History} (inside : h.index ≤ h.lines.length) :
    h.up.index ≤ h.up.lines.length := by
  simp only [up]; omega

theorem index_down_le {h : History} (inside : h.index ≤ h.lines.length) :
    h.down.index ≤ h.down.lines.length := by
  unfold down
  split
  · rename_i room; exact room
  · exact inside

end History

end ChainShell
