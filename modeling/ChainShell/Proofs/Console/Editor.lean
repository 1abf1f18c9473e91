/-
# ChainShell.Proofs.Console.Editor — the flat line editor

A line as its reader sees it is a list of elements and the place of the cursor in it: a
`Draft`.  An `Editor` is a draft together with the history that it browses.  What it does at
a key event depends on nothing else, and `Editor.committed` lists the lines that a list of
events commits, up to the event that ends the session.

The buffer of the console keeps its elements on two lists.  `Buffer.draft` puts them
together again, and every edit of the buffer is the edit of that name on the draft
(`draft_insert` and the lemmas after it).
-/
import ChainShell.Console

set_option autoImplicit false

namespace ChainShell

/-! ## Drafts -/

/-- A list of elements, and the number of them that stand before the cursor. -/
structure Draft where
  elements : List Text := []
  cursor : Nat := 0
  deriving DecidableEq, Repr

namespace Draft

/-- A draft with one element for each character and the cursor at its end. -/
def ofText (t : Text) : Draft := { elements := t.map fun c => [c], cursor := t.length }

def contents (d : Draft) : Text := d.elements.flatten

def insert (d : Draft) (element : Text) : Draft where
  elements := d.elements.take d.cursor ++ element :: d.elements.drop d.cursor
  cursor := d.cursor + 1

def moveLeft (d : Draft) : Draft := { d with cursor := d.cursor - 1 }

def moveRight (d : Draft) : Draft := { d with cursor := min (d.cursor + 1) d.elements.length }

def backspace (d : Draft) : Draft where
  elements := d.elements.take (d.cursor - 1) ++ d.elements.drop d.cursor
  cursor := d.cursor - 1

def delete (d : Draft) : Draft :=
  { d with elements := d.elements.take d.cursor ++ d.elements.drop (d.cursor + 1) }

end Draft

namespace Buffer

def draft (b : Buffer) : Draft := { elements := b.toList, cursor := b.cursor }

@[simp] theorem contents_draft (b : Buffer) : b.draft.contents = b.contents := rfl

@[simp] theorem draft_insert (b : Buffer) (element : Text) :
    (b.insert element).draft = b.draft.insert element := by
  simp [draft, Draft.insert]

@[simp] theorem draft_moveLeft (b : Buffer) : b.moveLeft.draft = b.draft.moveLeft := by
  simp [draft, Draft.moveLeft]

@[simp] theorem draft_moveRight (b : Buffer) : b.moveRight.draft = b.draft.moveRight := by
  simp [draft, Draft.moveRight]

@[simp] theorem draft_backspace (b : Buffer) : b.backspace.draft = b.draft.backspace := by
  simp [draft, Draft.backspace]

@[simp] theorem draft_delete (b : Buffer) : b.delete.draft = b.draft.delete := by
  simp [draft, Draft.delete]

@[simp] theorem draft_ofText (t : Text) : (ofText t).draft = .ofText t := by
  simp [draft, Draft.ofText]

end Buffer

/-! ## The editor -/

/-- A draft, and the history that it browses. -/
structure Editor where
  draft : Draft := {}
  history : History := {}
  deriving DecidableEq, Repr

namespace Editor

def edit (e : Editor) (change : Draft → Draft) : Editor := { e with draft := change e.draft }

/-- Moves in the history and drafts the line found there; without history nothing changes. -/
def browse (e : Editor) (move : History → History) : Editor :=
  if e.history.lines.isEmpty then e
  else { draft := .ofText (move e.history).shown, history := move e.history }

/-- Starts an empty draft; a line that was not blank enters the history as it is. -/
def commit (e : Editor) : Editor where
  history :=
    if Text.trim e.draft.contents = [] then e.history else e.history.push e.draft.contents

def strike (e : Editor) : Stroke → Editor
  | .key .enter => e.commit
  | .key .left => e.edit .moveLeft
  | .key .right => e.edit .moveRight
  | .key .backspace => e.edit .backspace
  | .key .delete => e.edit .delete
  | .key .up => e.browse .up
  | .key .down => e.browse .down
  | .key .tab | .key .escape => e
  | .char text => e.edit (·.insert text)

/-- The line that a stroke commits. -/
def line? (e : Editor) : Stroke → Option Text
  | .key .enter => some e.draft.contents
  | _ => none

/-- The lines that the events commit, up to the one that ends the session. -/
def committed : Editor → List KeyEvent → List Text
  | _, [] => []
  | e, event :: rest =>
    if event.isExit then []
    else if event.control then committed e rest
    else (e.line? event.stroke).toList ++ committed (e.strike event.stroke) rest

/-- Only a line that is committed and not blank enters the history. -/
theorem lines_strike (e : Editor) (stroke : Stroke) :
    (e.strike stroke).history.lines =
      e.history.lines ++ (e.line? stroke).toList.filter (Text.trim · ≠ []) := by
  have browsed : ∀ move : History → History, (∀ h, (move h).lines = h.lines) →
      (e.browse move).history.lines = e.history.lines := by
    intro move keeps
    unfold browse
    split
    · rfl
    · exact keeps e.history
  cases stroke with
  | char text => simp [strike, line?, edit]
  | key key =>
    cases key with
    | enter =>
      by_cases blank : Text.trim e.draft.contents = []
      · simp [strike, line?, commit, blank]
      · simp [strike, line?, commit, blank]
    | up => simpa [strike, line?] using browsed .up History.lines_up
    | down => simpa [strike, line?] using browsed .down History.lines_down
    | _ => simp [strike, line?, edit]

/-- A line is typed around the cursor and committed, then shown again, changed and committed; what
follows the exit is not read. -/
example :
    committed {}
        [⟨.char ['b'], false⟩, .key .left false, ⟨.char ['a'], false⟩, .key .enter false,
          .key .up false, .key .backspace false, ⟨.char ['c'], false⟩, .key .enter false,
          ⟨.char ['c'], true⟩, .key .enter false] =
      [['a', 'b'], ['a', 'c']] := by
  decide

end Editor

end ChainShell
