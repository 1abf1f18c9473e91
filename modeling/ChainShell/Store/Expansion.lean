/-
# ChainShell.Store.Expansion — replacing variables in a text

A text is read once, from left to right, as pieces: plain characters, references
`$name` with the longest name that fits, and references in braces with blanks
allowed around the name.  A dollar sign that starts no reference is a plain
character.  `expand` writes each reference as its value, an unset variable as
nothing.  The reading does not depend on the store, so a value is never read again.

The pieces spell the text they were read from (`spell_pieces`).
-/
import ChainShell.Text.Class
import ChainShell.Store.Basic

set_option autoImplicit false

namespace ChainShell

/-- A piece of a text with references. -/
inductive Piece where
  /-- A character that stands for itself. -/
  | plain (c : Char)
  /-- A reference without braces. -/
  | bare (name : Text)
  /-- A reference in braces, with the blanks around its name. -/
  | braced (before name after : Text)
  deriving DecidableEq, Repr

namespace Piece

def spelling : Piece → Text
  | plain c => [c]
  | bare name => '$' :: name
  | braced before name after => '$' :: '{' :: before ++ name ++ after ++ ['}']

def value (store : Store) : Piece → Text
  | plain c => [c]
  | bare name => store.getD name
  | braced _ name _ => store.getD name

/-- The reference whose dollar sign the text follows. -/
def reference? : Text → Option Piece
  | '{' :: rest =>
    let inner := rest.dropWhile Text.isBlank
    let name := inner.takeWhile Text.isNameChar
    let tail := inner.dropWhile Text.isNameChar
    match name, tail.dropWhile Text.isBlank with
    | _ :: _, '}' :: _ =>
      some (braced (rest.takeWhile Text.isBlank) name (tail.takeWhile Text.isBlank))
    | _, _ => none
  | rest =>
    match rest.takeWhile Text.isNameChar with
    | [] => none
    | name => some (bare name)

/-- Reads on; the first `skip` characters belong to the piece read last. -/
def piecesFrom : (skip : Nat) → Text → List Piece
  | _, [] => []
  | skip + 1, _ :: rest => piecesFrom skip rest
  | 0, c :: rest =>
    match (if c = '$' then reference? rest else none) with
    | some piece => piece :: piecesFrom (piece.spelling.length - 1) rest
    | none => plain c :: piecesFrom 0 rest

def pieces (t : Text) : List Piece := piecesFrom 0 t

end Piece

namespace Store

/-- The text with each reference replaced by the value of its variable. -/
def expand (s : Store) (t : Text) : Text := (Piece.pieces t).flatMap (·.value s)

/-- Sets a variable to an expression whose references are replaced first. -/
def assign (s : Store) (name expression : Text) : Store := s.set name (s.expand expression)

end Store

/-! ## The pieces spell the text -/

namespace Piece

theorem append_of_reference? {rest : Text} {piece : Piece} (found : reference? rest = some piece) :
    ∃ tail, '$' :: rest = piece.spelling ++ tail := by
  unfold reference? at found
  split at found
  · rename_i rest
    simp only at found
    split at found
    · rename_i c name tail hname htail
      obtain rfl := Option.some.inj found
      refine ⟨tail, ?_⟩
      have h₁ := List.takeWhile_append_dropWhile (p := Text.isBlank) (l := rest)
      have h₂ := List.takeWhile_append_dropWhile (p := Text.isNameChar)
        (l := rest.dropWhile Text.isBlank)
      have h₃ := List.takeWhile_append_dropWhile (p := Text.isBlank)
        (l := (rest.dropWhile Text.isBlank).dropWhile Text.isNameChar)
      rw [htail] at h₃
      simp only [spelling, List.cons_append, List.append_assoc, List.nil_append]
      rw [h₃, h₂, h₁]
    · contradiction
  · split at found
    · contradiction
    · obtain rfl := Option.some.inj found
      exact ⟨rest.dropWhile Text.isNameChar, by simp [spelling, List.takeWhile_append_dropWhile]⟩

theorem spelling_pos (piece : Piece) : 0 < piece.spelling.length := by
  cases piece <;> simp [spelling]

theorem flatMap_spelling_piecesFrom (skip : Nat) (t : Text) :
    (piecesFrom skip t).flatMap spelling = t.drop skip := by
  induction t generalizing skip with
  | nil => simp [piecesFrom]
  | cons c rest ih =>
    cases skip with
    | succ skip => simpa [piecesFrom] using ih skip
    | zero =>
      simp only [piecesFrom]
      split
      · rename_i piece found
        split at found
        · rename_i dollar
          subst dollar
          obtain ⟨tail, spelt⟩ := append_of_reference? found
          have step : rest.drop (piece.spelling.length - 1) = tail := by
            have h := congrArg (List.drop piece.spelling.length) spelt
            have pos := spelling_pos piece
            obtain ⟨n, hn⟩ := Nat.exists_eq_add_of_le' pos
            rw [List.drop_left, hn, List.drop_succ_cons] at h
            rw [hn]; exact h
          simp [ih, step, spelt]
        · contradiction
      · simp [spelling, ih]

/-- The pieces of a text, written one after the other, are the text. -/
theorem spell_pieces (t : Text) : (pieces t).flatMap spelling = t := by
  simpa [pieces] using flatMap_spelling_piecesFrom 0 t

end Piece

end ChainShell
