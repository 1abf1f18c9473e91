/-
# ChainShell.Buffer — the line being edited

The buffer is a list of elements with a cursor between two of them.  It is kept as
the elements before the cursor, nearest first, and those after it, so each edit
touches an end of a list.  An element is a piece of text; typing one adds a single
element whatever its length, while `ofText` and `replace` add one for each character.

`render` redraws the line: back to the first column, clear, marker, contents, and the
cursor to its column, counted from one after the columns of the marker.
-/
import ChainShell.Text.Basic

set_option autoImplicit false

namespace ChainShell

/-- What stands in front of a line, and how many columns it counts for. -/
structure Marker where
  text : Text
  columns : Nat := text.length
  deriving DecidableEq, Repr

/-- A line with a cursor. -/
structure Buffer where
  /-- The elements before the cursor, the nearest first. -/
  before : List Text := []
  /-- The elements after the cursor, the nearest first. -/
  after : List Text := []
  deriving DecidableEq, Repr

namespace Buffer

def empty : Buffer := {}

/-- A line with one element for each character and the cursor at its end. -/
def ofText (t : Text) : Buffer := { before := (t.map fun c => [c]).reverse }

/-- The elements in order. -/
def toList (b : Buffer) : List Text := b.before.reverse ++ b.after

/-- The number of elements before the cursor. -/
def cursor (b : Buffer) : Nat := b.before.length

def contents (b : Buffer) : Text := b.toList.flatten

/-- Adds an element at the cursor, which moves behind it. -/
def insert (b : Buffer) (element : Text) : Buffer := { b with before := element :: b.before }

def moveLeft (b : Buffer) : Buffer :=
  match b.before with
  | [] => b
  | element :: before => { before, after := element :: b.after }

def moveRight (b : Buffer) : Buffer :=
  match b.after with
  | [] => b
  | element :: after => { before := element :: b.before, after }

def backspace (b : Buffer) : Buffer := { b with before := b.before.tail }

def delete (b : Buffer) : Buffer := { b with after := b.after.tail }

/-- The text that redraws the line behind its marker. -/
def render (marker : Marker) (b : Buffer) : Text :=
  '\r' :: '\x1b' :: '[' :: 'K' :: marker.text ++ b.contents ++
    '\x1b' :: '[' :: Text.ofNat (marker.columns + b.cursor + 1) ++ ['G']

theorem render_ne_newline (marker : Marker) (b : Buffer) :
    b.render marker ≠ ['\n'] ∧ b.render marker ≠ ['\r', '\n'] := by
  simp [render]

/-! ## Through `toList` and `cursor` -/

@[simp] theorem toList_insert (b : Buffer) (element : Text) :
    (b.insert element).toList = b.toList.take b.cursor ++ element :: b.toList.drop b.cursor := by
  simp [insert, toList, cursor]

@[simp] theorem cursor_insert (b : Buffer) (element : Text) :
    (b.insert element).cursor = b.cursor + 1 := rfl

@[simp] theorem toList_moveLeft (b : Buffer) : b.moveLeft.toList = b.toList := by
  cases b with
  | mk before after => cases before <;> simp [moveLeft, toList]

@[simp] theorem cursor_moveLeft (b : Buffer) : b.moveLeft.cursor = b.cursor - 1 := by
  cases b with
  | mk before after => cases before <;> rfl

@[simp] theorem toList_moveRight (b : Buffer) : b.moveRight.toList = b.toList := by
  cases b with
  | mk before after => cases after <;> simp [moveRight, toList]

theorem length_toList (b : Buffer) : b.toList.length = b.cursor + b.after.length := by
  simp [toList, cursor]

@[simp] theorem cursor_moveRight (b : Buffer) :
    b.moveRight.cursor = min (b.cursor + 1) b.toList.length := by
  rw [length_toList]
  cases b with
  | mk before after =>
    cases after with
    | nil =>
      show before.length = min (before.length + 1) (before.length + 0)
      omega
    | cons element after =>
      show before.length + 1 = min (before.length + 1) (before.length + (after.length + 1))
      omega

@[simp] theorem toList_backspace (b : Buffer) :
    b.backspace.toList = b.toList.take (b.cursor - 1) ++ b.toList.drop b.cursor := by
  have after : b.toList.drop b.cursor = b.after := by simp [toList, cursor]
  rw [after]
  cases b with
  | mk before after => cases before <;> simp [backspace, toList, cursor]

@[simp] theorem toList_delete (b : Buffer) :
    b.delete.toList = b.toList.take b.cursor ++ b.toList.drop (b.cursor + 1) := by
  simp [delete, toList, cursor, List.drop_append]

@[simp] theorem cursor_backspace (b : Buffer) : b.backspace.cursor = b.cursor - 1 := by
  simp [backspace, cursor]

@[simp] theorem cursor_delete (b : Buffer) : b.delete.cursor = b.cursor := rfl

@[simp] theorem toList_ofText (t : Text) : (ofText t).toList = t.map fun c => [c] := by
  simp [ofText, toList]

@[simp] theorem cursor_ofText (t : Text) : (ofText t).cursor = t.length := by
  simp [ofText, cursor]

end Buffer

end ChainShell
