/-
# ChainShell.Proofs.Console.Edits — the buffer is a list with a cursor

The buffer keeps its elements on two lists that meet at the cursor, the first of them in
reverse.  What a reader of the line sees is its draft: the elements in order, and the place of
the cursor.  Nothing else is in a buffer: its draft determines it (`draft_injective`), and the
cursor always stands inside the line (`inRange_draft`).

`Edit` lists what can be done to the line.  `Edit.meaning` says, without the two lists, what each
edit does to a draft: it inserts or removes the element at a place, or moves the cursor as far as
there are elements.  On the buffer each edit does what it means (`draft_apply`), so any number of
them do, one after the other (`applyAll_refines`).

Two laws of the buffer are then arithmetic on the cursor of its draft: moving to the left and back
again (`moveRight_moveLeft`), and removing what is behind the cursor by removing what is before it
(`moveLeft_delete`).
-/
import ChainShell.Proofs.Console.Editor
import Mathlib.Logic.Function.Iterate

set_option autoImplicit false

namespace ChainShell

/-! ## Buffers and drafts -/

/-- The cursor stands before, between or behind the elements. -/
def Draft.InRange (d : Draft) : Prop := d.cursor ≤ d.elements.length

namespace Buffer

theorem inRange_draft (b : Buffer) : b.draft.InRange := by
  show b.cursor ≤ b.toList.length
  rw [length_toList]
  exact Nat.le_add_right _ _

/-- The two lists are what stands before and after the cursor. -/
theorem eq_of_draft (b : Buffer) :
    b = ⟨(b.draft.elements.take b.draft.cursor).reverse, b.draft.elements.drop b.draft.cursor⟩ := by
  obtain ⟨before, after⟩ := b
  simp [draft, toList, cursor]

theorem draft_injective : Function.Injective draft := by
  intro b b' same
  rw [eq_of_draft b, eq_of_draft b', same]

end Buffer

/-! ## Edits -/

/-- What can be done to the line that is edited. -/
inductive Edit where
  | insert (element : Text)
  | moveLeft
  | moveRight
  | backspace
  | delete
  | replace (t : Text)
  deriving DecidableEq, Repr

namespace Edit

def apply (b : Buffer) : Edit → Buffer
  | insert element => b.insert element
  | moveLeft => b.moveLeft
  | moveRight => b.moveRight
  | backspace => b.backspace
  | delete => b.delete
  | replace t => .ofText t

/-- What an edit does to a list of elements and the place of a cursor in it. -/
def meaning (d : Draft) : Edit → Draft
  | insert element => ⟨d.elements.insertIdx d.cursor element, d.cursor + 1⟩
  | moveLeft => if d.cursor = 0 then d else { d with cursor := d.cursor - 1 }
  | moveRight => if d.cursor = d.elements.length then d else { d with cursor := d.cursor + 1 }
  | backspace =>
    if d.cursor = 0 then d else ⟨d.elements.eraseIdx (d.cursor - 1), d.cursor - 1⟩
  | delete =>
    if d.cursor = d.elements.length then d else { d with elements := d.elements.eraseIdx d.cursor }
  | replace t => ⟨t.map fun c => [c], t.length⟩

/-- Makes edits one after the other. -/
def applyAll (b : Buffer) (edits : List Edit) : Buffer := edits.foldl apply b

theorem insertIdx_eq {α : Type} {l : List α} {i : Nat} (inside : i ≤ l.length) (a : α) :
    l.insertIdx i a = l.take i ++ a :: l.drop i := by
  induction l generalizing i with
  | nil =>
    obtain rfl : i = 0 := Nat.le_zero.1 inside
    rfl
  | cons b l ih =>
    cases i with
    | zero => rfl
    | succ i => simp [ih (Nat.le_of_succ_le_succ inside)]

/-- An edit of the buffer does to its draft what the edit means. -/
theorem draft_apply (b : Buffer) (edit : Edit) : (apply b edit).draft = meaning b.draft edit := by
  have inRange := b.inRange_draft
  generalize same : b.draft = d at inRange
  obtain ⟨elements, place⟩ := d
  have inside : place ≤ elements.length := inRange
  cases edit with
  | insert element =>
    rw [apply, Buffer.draft_insert, same, meaning, insertIdx_eq inside]
    rfl
  | moveLeft =>
    rw [apply, Buffer.draft_moveLeft, same, meaning]
    split
    · rename_i first
      obtain rfl : place = 0 := first
      rfl
    · rfl
  | moveRight =>
    rw [apply, Buffer.draft_moveRight, same, meaning, Draft.moveRight]
    dsimp only
    split
    · rename_i last
      rw [Nat.min_eq_right (by omega), last]
    · rw [Nat.min_eq_left (by omega)]
  | backspace =>
    rw [apply, Buffer.draft_backspace, same, meaning, Draft.backspace]
    dsimp only
    split
    · rename_i first
      subst first
      rfl
    · rename_i later
      rw [List.eraseIdx_eq_take_drop_succ, Nat.sub_add_cancel (Nat.pos_of_ne_zero later)]
  | delete =>
    rw [apply, Buffer.draft_delete, same, meaning, Draft.delete]
    dsimp only
    split
    · rename_i last
      subst last
      simp
    · rw [List.eraseIdx_eq_take_drop_succ]
  | replace t => rw [apply, Buffer.draft_ofText, meaning, Draft.ofText]

theorem draft_applyAll (b : Buffer) (edits : List Edit) :
    (applyAll b edits).draft = edits.foldl meaning b.draft := by
  induction edits generalizing b with
  | nil => rfl
  | cons edit edits ih =>
    rw [List.foldl_cons, ← draft_apply]
    exact ih (apply b edit)

end Edit

/-! ## Moving there and back -/

namespace Draft

theorem iterate_moveLeft (n : Nat) (d : Draft) :
    moveLeft^[n] d = { d with cursor := d.cursor - n } := by
  induction n generalizing d with
  | zero => rfl
  | succ n ih => rw [Function.iterate_succ_apply, ih, moveLeft, Nat.sub_sub, Nat.add_comm]

theorem iterate_moveRight (n : Nat) {d : Draft} (inRange : d.InRange) :
    moveRight^[n] d = { d with cursor := min (d.cursor + n) d.elements.length } := by
  rw [InRange] at inRange
  induction n generalizing d with
  | zero => rw [Function.iterate_zero_apply, Nat.add_zero, Nat.min_eq_left inRange]
  | succ n ih =>
    rw [Function.iterate_succ_apply, ih (Nat.min_le_right _ _), moveRight]
    congr 1
    dsimp only
    omega

end Draft

namespace Buffer

variable {b : Buffer}

/-- Moves to the left are taken back by as many to the right, unless the cursor came to the start
too early and was not at the end before. -/
theorem moveRight_moveLeft {n : Nat} (room : n ≤ b.cursor ∨ b.cursor = b.toList.length) :
    moveRight^[n] (moveLeft^[n] b) = b := by
  apply draft_injective
  have left : (moveLeft^[n] b).draft = Draft.moveLeft^[n] b.draft :=
    Function.Semiconj.iterate_right draft_moveLeft n b
  have right : ∀ b : Buffer, (moveRight^[n] b).draft = Draft.moveRight^[n] b.draft :=
    Function.Semiconj.iterate_right draft_moveRight n
  have inRange := b.inRange_draft
  rw [right, left, Draft.iterate_moveLeft, Draft.iterate_moveRight]
  · rw [Draft.InRange] at inRange
    simp only [draft] at inRange ⊢
    congr 1
    omega
  · exact Nat.le_trans (Nat.sub_le _ _) inRange

/-- The element before the cursor is the one behind it after a move to the left. -/
theorem moveLeft_delete (some : b.cursor ≠ 0) : b.moveLeft.delete = b.backspace := by
  apply draft_injective
  rw [draft_delete, draft_moveLeft, draft_backspace, Draft.delete, Draft.moveLeft, Draft.backspace]
  dsimp only [draft]
  rw [Nat.sub_add_cancel (Nat.pos_of_ne_zero some)]

end Buffer

/-- Any edits of a buffer do to its draft what they mean, one after the other, and the cursor stays
inside the line.  Moves to the left and back again change nothing, if they do not stop at the start
or the cursor was at the end; and backspace is a move to the left and the deletion of what is
then behind the cursor, unless the cursor is at the start. -/
theorem Edit.applyAll_refines (b : Buffer) (edits : List Edit) :
    let d := edits.foldl meaning b.draft
    (applyAll b edits).draft = d ∧ d.cursor ≤ d.elements.length ∧
      (∀ n, n ≤ b.cursor ∨ b.cursor = b.toList.length →
        Buffer.moveRight^[n] (Buffer.moveLeft^[n] b) = b) ∧
      (b.cursor ≠ 0 → b.backspace = b.moveLeft.delete) := by
  intro d
  have same : (applyAll b edits).draft = d := draft_applyAll b edits
  refine ⟨same, ?_, fun n room => Buffer.moveRight_moveLeft room, fun some => ?_⟩
  · exact same ▸ (applyAll b edits).inRange_draft
  · exact (Buffer.moveLeft_delete some).symm

/-- A buffer with its cursor in the middle; edits that go on after a move, and moves that stop at
both ends. -/
theorem Edit.applyAll_refines_midway :
    let b : Buffer := { before := [['b'], ['a']], after := [['c'], ['d']] }
    (applyAll b [.moveLeft, .insert ['x', 'y'], .delete, .moveRight, .moveRight, .backspace,
        .moveLeft, .moveLeft, .moveLeft, .backspace, .insert []]).draft =
      ⟨[[], ['a'], ['x', 'y'], ['c']], 1⟩ ∧
    Buffer.moveRight^[2] (Buffer.moveLeft^[2] b) = b ∧ b.backspace = b.moveLeft.delete := by
  intro b
  obtain ⟨same, -, back, removed⟩ := applyAll_refines b [.moveLeft, .insert ['x', 'y'], .delete,
    .moveRight, .moveRight, .backspace, .moveLeft, .moveLeft, .moveLeft, .backspace, .insert []]
  exact ⟨same.trans (by decide), back 2 (.inl (by decide)), removed (by decide)⟩

end ChainShell
