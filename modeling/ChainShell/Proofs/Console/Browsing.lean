/-
# ChainShell.Proofs.Console.Browsing — walking through the lines entered before

A history is changed in three ways (`Move`): a line is pushed, or one place is walked up or
down.  Walking changes no line, so the lines are those of the beginning and then those that
were pushed (`lines_applyAll`).

A push puts the place after the last line, so the place depends on nothing but the moves since
then.  Each of those is one step, and a step that would lead before the first line or beyond
the place after the last one stops there (`stepped`); on the way from the last push nothing
else happens to the place (`index_applyAll`).  It never leaves its bounds
(`inside_applyAll`), and a step up that was not stopped is taken back by one down
(`down_up`).
-/
import ChainShell.History
import Mathlib.Data.List.DropRight

set_option autoImplicit false

namespace ChainShell.History

/-! ## Moves -/

/-- What can be done to a history. -/
inductive Move where
  | push (line : Text)
  | up
  | down
  deriving DecidableEq, Repr

namespace Move

/-- The line that a move adds. -/
def pushed? : Move → Option Text
  | push line => some line
  | up | down => none

/-- Whether a move leaves the lines as they are. -/
def walks (move : Move) : Bool := move.pushed?.isNone

/-- How far a move walks. -/
def step : Move → Int
  | push _ => 0
  | up => -1
  | down => 1

end Move

def apply (h : History) : Move → History
  | .push line => h.push line
  | .up => h.up
  | .down => h.down

/-- Makes moves one after the other. -/
def applyAll (h : History) (moves : List Move) : History := moves.foldl apply h

/-- The place that a step leads to, which is no place before the first of `count` lines and none
beyond the place after the last. -/
def stepped (count : Nat) (place step : Int) : Int := max 0 (min count (place + step))

variable {h : History} {moves : List Move}

theorem applyAll_concat (h : History) (moves : List Move) (move : Move) :
    h.applyAll (moves ++ [move]) = (h.applyAll moves).apply move := List.foldl_concat ..

/-! ## One move -/

theorem lines_apply (h : History) (move : Move) :
    (h.apply move).lines = h.lines ++ move.pushed?.toList := by
  cases move with
  | push line => rfl
  | up => exact (List.append_nil _).symm
  | down => exact h.lines_down.trans (List.append_nil _).symm

theorem inside_apply (inside : h.index ≤ h.lines.length) (move : Move) :
    (h.apply move).index ≤ (h.apply move).lines.length := by
  cases move with
  | push line => exact Nat.le_refl _
  | up => exact index_up_le inside
  | down => exact index_down_le inside

/-- Walking is a step that stops at both ends. -/
theorem index_apply (inside : h.index ≤ h.lines.length) {move : Move} (walks : move.walks = true) :
    ((h.apply move).index : Int) = stepped h.lines.length h.index move.step := by
  cases move with
  | push line => contradiction
  | up =>
    simp only [apply, up, stepped, Move.step]
    omega
  | down =>
    rw [apply, down, stepped, Move.step]
    split
    · dsimp only
      omega
    · omega

/-! ## Any moves -/

theorem lines_applyAll (h : History) (moves : List Move) :
    (h.applyAll moves).lines = h.lines ++ moves.filterMap Move.pushed? := by
  induction moves using List.reverseRecOn with
  | nil => exact (List.append_nil _).symm
  | append_singleton moves move ih =>
    rw [applyAll_concat, lines_apply, ih, List.filterMap_append, List.append_assoc]
    cases move <;> rfl

theorem inside_applyAll (inside : h.index ≤ h.lines.length) (moves : List Move) :
    (h.applyAll moves).index ≤ (h.applyAll moves).lines.length := by
  induction moves using List.reverseRecOn with
  | nil => exact inside
  | append_singleton moves move ih =>
    rw [applyAll_concat]
    exact inside_apply ih move

/-- The place is reached from the one after the last line by the steps since the last push. -/
theorem index_applyAll (lines : List Text) (moves : List Move) :
    let h := (ofList lines).applyAll moves
    (h.index : Int) =
      ((moves.rtakeWhile Move.walks).map Move.step).foldl (stepped h.lines.length)
        h.lines.length := by
  induction moves using List.reverseRecOn with
  | nil => rfl
  | append_singleton moves move ih =>
    have inside := inside_applyAll (h := ofList lines) (Nat.le_refl _) moves
    dsimp only at ih ⊢
    rw [applyAll_concat]
    cases walks : move.walks with
    | true =>
      have lines_eq : (((ofList lines).applyAll moves).apply move).lines =
          ((ofList lines).applyAll moves).lines := by
        rw [lines_apply, Option.isNone_iff_eq_none.1 walks]
        exact List.append_nil _
      rw [index_apply inside walks, List.rtakeWhile_concat_pos _ _ _ walks, List.map_append,
        List.foldl_append, lines_eq, ← ih]
      rfl
    | false =>
      rw [List.rtakeWhile_concat_neg _ _ _ (by simp [walks])]
      cases move with
      | push line => rfl
      | up => contradiction
      | down => contradiction

/-! ## What is shown -/

theorem shown_of_inside (inside : h.index < h.lines.length) : h.shown = h.lines[h.index] := by
  rw [shown, List.getElem?_eq_getElem inside]
  rfl

theorem shown_of_outside (outside : h.lines.length ≤ h.index) : h.shown = [] := by
  rw [shown, List.getElem?_eq_none outside]
  rfl

theorem shown_eq (h : History) :
    h.shown = if inside : h.index < h.lines.length then h.lines[h.index] else [] := by
  split
  · rename_i inside
    exact shown_of_inside inside
  · rename_i outside
    exact shown_of_outside (Nat.le_of_not_lt outside)

/-- With a line to show, a step up leads to one. -/
theorem index_up_lt (inside : h.index ≤ h.lines.length) (some : h.lines ≠ []) :
    h.up.index < h.lines.length := by
  have count := List.length_pos_iff.2 some
  simp only [up]
  omega

/-- A step up that was not stopped is taken back by a step down. -/
theorem down_up (inside : h.index ≤ h.lines.length) (moved : h.up.index ≠ h.index) :
    h.up.down = h := by
  have later : h.index - 1 + 1 = h.index := by
    simp only [up] at moved
    omega
  have room : h.up.index < h.up.lines.length := by
    simp only [up]
    omega
  rw [down, if_pos room, up, later]

/-- After any moves the lines are those of the beginning and then those that were pushed, and the
place is one of them or the one after the last; it is reached from there by the steps since the last
push.  A step up shows a line if there is one, and a step down shows one unless it leads to the
place after the last.  A step down after a step up that was not stopped shows what was shown
before. -/
theorem applyAll_walks (lines : List Text) (moves : List Move) :
    let h := (ofList lines).applyAll moves
    h.lines = lines ++ moves.filterMap Move.pushed? ∧
      h.index ≤ h.lines.length ∧
      (h.index : Int) =
        ((moves.rtakeWhile Move.walks).map Move.step).foldl (stepped h.lines.length)
          h.lines.length ∧
      h.up.lines = h.lines ∧ h.down.lines = h.lines ∧
      (h.lines ≠ [] → ∃ inside : h.up.index < h.lines.length, h.up.shown = h.lines[h.up.index]) ∧
      (h.down.shown =
        if inside : h.down.index < h.lines.length then h.lines[h.down.index] else []) ∧
      (h.up.index ≠ h.index → h.up.down.index = h.index ∧ h.up.down.shown =
        if inside : h.index < h.lines.length then h.lines[h.index] else []) := by
  intro h
  have inside : h.index ≤ h.lines.length := inside_applyAll (Nat.le_refl _) moves
  refine ⟨lines_applyAll _ moves, inside, index_applyAll lines moves, rfl, h.lines_down, ?_, ?_, ?_⟩
  · intro some
    have upInside := index_up_lt inside some
    exact ⟨upInside, shown_of_inside upInside⟩
  · have shows := h.down.shown_eq
    simpa only [lines_down] using shows
  · intro moved
    rw [down_up inside moved]
    exact ⟨rfl, h.shown_eq⟩

/-- Steps that stop at both ends, a push while a line is shown, and a step up and down after it. -/
theorem applyAll_walks_stopped :
    let moves : List Move := [.up, .up, .push ['b'], .down, .up, .up, .up, .down]
    let h := (ofList [['a']]).applyAll moves
    h.lines = [['a'], ['b']] ∧ h.index = 1 ∧ h.lines ≠ [] ∧ h.up.index ≠ h.index ∧
      (∃ inside : h.up.index < h.lines.length, h.up.shown = h.lines[h.up.index]) ∧
      h.up.down.index = h.index ∧ h.up.down.shown = ['b'] := by
  intro moves h
  obtain ⟨-, -, -, -, -, above, -, back⟩ := applyAll_walks [['a']] moves
  have some : h.lines ≠ [] := by decide
  have moved : h.up.index ≠ h.index := by decide
  exact ⟨by decide, by decide, some, moved, above some, (back moved).1, (back moved).2⟩

end ChainShell.History
