/-
# ChainShell.Proofs.Store.Reading — a text has one reading

A reading of a text is a list of pieces that spell it, in which every piece may stand where
it does (`IsReading`): a reference is spelt by the rules, one without braces has the longest
name that fits, and at a plain character no reference starts.  Neither the pieces nor the
rules look at a store.

`reference?` finds the reference after a dollar sign exactly if there is one
(`standsBefore_of_reference?`, `reference?_isSome`), so

* the pieces of a text are a reading of it (`isReading_pieces`), and there is no other
  (`IsReading.eq_pieces`);
* a dollar sign stands inside no reference, so what a text ends with does not change its
  reading if that starts with a dollar sign (`pieces_append`);
* a name in braces is a reference wherever it stands (`pieces_braced`).

`expand_reading` says what this means for the values of variables.
-/
import ChainShell.Store.Expansion

set_option autoImplicit false

namespace ChainShell

/-- ASCII letters and digits, at least one. -/
def Text.IsName (name : Text) : Prop := name ≠ [] ∧ ∀ c ∈ name, isNameChar c = true

namespace Piece

/-! ## Readings -/

/-- A reference, spelt by the rules. -/
def IsReference : Piece → Prop
  | plain _ => False
  | bare name => Text.IsName name
  | braced before name after =>
    (∀ c ∈ before, Text.isBlank c = true) ∧ Text.IsName name ∧ ∀ c ∈ after, Text.isBlank c = true

/-- The piece may stand before the rest of a text: a plain character if no reference starts at it,
and a reference without braces if its name cannot go on. -/
def StandsBefore (rest : Text) : Piece → Prop
  | plain c => ∀ reference tail, IsReference reference → c :: rest ≠ reference.spelling ++ tail
  | bare name => Text.IsName name ∧ ∀ c ∈ rest.head?, Text.isNameChar c = false
  | braced before name after => IsReference (braced before name after)

/-- The pieces spell the text, and each may stand where it does.  Plain text is read character by
character. -/
structure IsReading (t : Text) (pieces : List Piece) : Prop where
  spelt : pieces.flatMap spelling = t
  stands : ∀ before piece after, pieces = before ++ piece :: after →
    piece.StandsBefore (after.flatMap spelling)

theorem isReading_nil : IsReading [] [] where
  spelt := rfl
  stands := by simp

theorem IsReading.cons {piece : Piece} {t : Text} {pieces : List Piece}
    (here : piece.StandsBefore t) (later : IsReading t pieces) :
    IsReading (piece.spelling ++ t) (piece :: pieces) where
  spelt := by rw [List.flatMap_cons, later.spelt]
  stands := by
    intro before other after cut
    cases before with
    | nil =>
      obtain ⟨rfl, rfl⟩ := List.cons.inj cut
      rw [later.spelt]
      exact here
    | cons first before =>
      obtain ⟨-, rest⟩ := List.cons.inj cut
      exact later.stands before other after rest

theorem IsReading.of_cons {piece : Piece} {t : Text} {pieces : List Piece}
    (reading : IsReading t (piece :: pieces)) :
    ∃ rest, t = piece.spelling ++ rest ∧ piece.StandsBefore rest ∧ IsReading rest pieces := by
  refine ⟨pieces.flatMap spelling, reading.spelt.symm, reading.stands [] piece pieces rfl, rfl, ?_⟩
  intro before other after cut
  exact reading.stands (piece :: before) other after (congrArg (piece :: ·) cut)

/-! ## Finding references -/

theorem inside_takeWhile {p : Char → Bool} {t : Text} : ∀ c ∈ t.takeWhile p, p c = true :=
  List.all_eq_true.1 List.all_takeWhile

theorem not_isNameChar_of_isBlank {c : Char} (blank : Text.isBlank c = true) :
    Text.isNameChar c = false := by
  simp only [Text.isBlank, Bool.or_eq_true, beq_iff_eq] at blank
  rcases blank with rfl | rfl
  · decide
  · decide

section

variable {name rest : Text} (named : Text.IsName name)

include named

/-- A name starts with a character that is neither a brace nor a blank. -/
theorem exists_cons_of_isName :
    ∃ c more, name = c :: more ∧ Text.isNameChar c = true ∧ c ≠ '{' ∧ Text.isBlank c = false := by
  obtain ⟨some, named⟩ := named
  obtain ⟨c, more, rfl⟩ := List.exists_cons_of_ne_nil some
  have first := named c List.mem_cons_self
  refine ⟨c, more, rfl, first, ?_, ?_⟩
  · rintro rfl
    contradiction
  · cases blank : Text.isBlank c with
    | false => rfl
    | true =>
      rw [not_isNameChar_of_isBlank blank] at first
      contradiction

theorem reference?_name_isSome : (reference? (name ++ rest)).isSome := by
  obtain ⟨c, more, rfl, first, noBrace, -⟩ := exists_cons_of_isName named
  rw [List.cons_append, reference?.eq_2 _ fun _ same => noBrace (List.cons.inj same).1]
  simp [first]

theorem reference?_name (ends : ∀ c ∈ rest.head?, Text.isNameChar c = false) :
    reference? (name ++ rest) = some (bare name) := by
  have run := (Text.span_run named.2 ends).1
  obtain ⟨c, more, rfl, -, noBrace, -⟩ := exists_cons_of_isName named
  rw [List.cons_append] at run ⊢
  rw [reference?.eq_2 _ fun _ same => noBrace (List.cons.inj same).1, run]

theorem reference?_braces {before after : Text} (blankBefore : ∀ c ∈ before, Text.isBlank c = true)
    (blankAfter : ∀ c ∈ after, Text.isBlank c = true) :
    reference? ('{' :: (before ++ (name ++ (after ++ '}' :: rest)))) =
      some (braced before name after) := by
  have ends : ∀ c ∈ (after ++ '}' :: rest).head?, Text.isNameChar c = false := by
    cases after with
    | nil =>
      rintro c ⟨⟩
      decide
    | cons d after =>
      rintro c ⟨⟩
      exact not_isNameChar_of_isBlank (blankAfter d List.mem_cons_self)
  obtain ⟨c, more, rfl, -, -, notBlank⟩ := exists_cons_of_isName named
  have starts : ∀ d ∈ (c :: more ++ (after ++ '}' :: rest)).head?, Text.isBlank d = false := by
    rintro d ⟨⟩
    exact notBlank
  have closes : ∀ d ∈ ('}' :: rest).head?, Text.isBlank d = false := by
    rintro d ⟨⟩
    decide
  obtain ⟨blanks, inner⟩ := Text.span_run blankBefore starts
  obtain ⟨run, tail⟩ := Text.span_run named.2 ends
  obtain ⟨blanks', close⟩ := Text.span_run blankAfter closes
  rw [reference?.eq_1]
  simp only [blanks, inner, run, tail, blanks', close]

end

/-- If a reference starts at a dollar sign, one is found. -/
theorem reference?_isSome {reference : Piece} {rest tail : Text} (proper : reference.IsReference)
    (spelt : '$' :: rest = reference.spelling ++ tail) : (reference? rest).isSome := by
  cases reference with
  | plain c => contradiction
  | bare name =>
    obtain ⟨-, rfl⟩ := List.cons.inj spelt
    exact reference?_name_isSome proper
  | braced before name after =>
    obtain ⟨blankBefore, named, blankAfter⟩ := proper
    have inner : rest = '{' :: (before ++ (name ++ (after ++ '}' :: tail))) := by
      simpa [spelling] using spelt
    rw [inner, reference?_braces named blankBefore blankAfter]
    rfl

/-- What is found is a reference that may stand where it was found. -/
theorem standsBefore_of_reference? {rest : Text} {piece : Piece}
    (found : reference? rest = some piece) :
    ∃ tail, '$' :: rest = piece.spelling ++ tail ∧ piece.IsReference ∧
      piece.StandsBefore tail := by
  obtain ⟨tail, spelt⟩ := append_of_reference? found
  refine ⟨tail, spelt, ?_⟩
  unfold reference? at found
  split at found
  · rename_i rest
    simp only at found
    split at found
    · rename_i c name tail' hname htail
      obtain rfl := Option.some.inj found
      rw [StandsBefore, and_self]
      refine ⟨inside_takeWhile, ⟨?_, inside_takeWhile⟩, inside_takeWhile⟩
      rw [hname]
      exact List.cons_ne_nil c name
    · contradiction
  · split at found
    · contradiction
    · rename_i name some
      obtain rfl := Option.some.inj found
      obtain ⟨-, whole⟩ := List.cons.inj spelt
      have cut : rest.takeWhile Text.isNameChar ++ rest.dropWhile Text.isNameChar = rest :=
        List.takeWhile_append_dropWhile
      have after : rest.dropWhile Text.isNameChar = tail :=
        List.append_cancel_left (cut.trans whole)
      refine ⟨⟨some, inside_takeWhile⟩, ⟨some, inside_takeWhile⟩, ?_⟩
      intro d first
      rw [← after] at first
      have stopped := List.head?_dropWhile_not Text.isNameChar rest
      rw [first] at stopped
      exact stopped

/-! ## The pieces of a text -/

theorem piecesFrom_eq (skip : Nat) (t : Text) : piecesFrom skip t = pieces (t.drop skip) := by
  induction t generalizing skip with
  | nil => simp [pieces, piecesFrom]
  | cons c rest ih =>
    cases skip with
    | zero => rfl
    | succ skip => exact ih skip

theorem pieces_plain {c : Char} {rest : Text} (alone : c = '$' → reference? rest = none) :
    pieces (c :: rest) = plain c :: pieces rest := by
  have missing : (if c = '$' then reference? rest else none) = none := by
    split
    · rename_i dollar
      exact alone dollar
    · rfl
  rw [pieces, piecesFrom, missing]
  rfl

theorem pieces_reference {piece : Piece} {rest tail : Text} (found : reference? rest = some piece)
    (spelt : '$' :: rest = piece.spelling ++ tail) :
    pieces ('$' :: rest) = piece :: pieces tail := by
  have skipped : rest.drop (piece.spelling.length - 1) = tail := by
    obtain ⟨n, long⟩ := Nat.exists_eq_add_of_le' (spelling_pos piece)
    have dropped : ('$' :: rest).drop piece.spelling.length = tail := by
      rw [spelt, List.drop_left]
    rw [long, List.drop_succ_cons] at dropped
    rw [long]
    exact dropped
  rw [pieces, piecesFrom, if_pos rfl, found]
  dsimp only
  rw [piecesFrom_eq, skipped]

/-- The pieces of a text are a reading of it. -/
theorem isReading_pieces (t : Text) : IsReading t (pieces t) := by
  induction length : t.length using Nat.strongRecOn generalizing t with
  | ind n ih =>
    subst length
    cases t with
    | nil => exact isReading_nil
    | cons c rest =>
      by_cases starts : c = '$' ∧ (reference? rest).isSome
      · obtain ⟨rfl, starts⟩ := starts
        obtain ⟨piece, found⟩ := Option.isSome_iff_exists.1 starts
        obtain ⟨tail, spelt, -, stands⟩ := standsBefore_of_reference? found
        rw [pieces_reference found spelt, spelt]
        refine .cons stands (ih tail.length ?_ tail rfl)
        have shorter := congrArg List.length spelt
        rw [List.length_append] at shorter
        have pos := spelling_pos piece
        omega
      · rw [pieces_plain (by simpa using starts)]
        have stands : (plain c).StandsBefore rest := by
          intro reference tail proper spelt
          have dollar : c = '$' := by
            cases reference with
            | plain _ => contradiction
            | bare name => exact (List.cons.inj spelt).1
            | braced before name after => exact (List.cons.inj spelt).1
          subst dollar
          exact starts ⟨rfl, reference?_isSome proper spelt⟩
        exact IsReading.cons stands (ih rest.length (by simp) rest rfl)

/-- A text has no other reading than its pieces. -/
theorem IsReading.eq_pieces {t : Text} {read : List Piece} (reading : IsReading t read) :
    read = pieces t := by
  induction read generalizing t with
  | nil =>
    obtain rfl : [] = t := reading.spelt
    rfl
  | cons piece read ih =>
    obtain ⟨rest, rfl, stands, later⟩ := reading.of_cons
    rw [ih later]
    cases piece with
    | plain c =>
      refine (pieces_plain ?_).symm
      rintro rfl
      cases found : reference? rest with
      | none => rfl
      | some piece =>
        obtain ⟨tail, spelt, proper, -⟩ := standsBefore_of_reference? found
        exact absurd spelt (stands piece tail proper)
    | bare name =>
      exact (pieces_reference (reference?_name stands.1 stands.2) rfl).symm
    | braced before name after =>
      obtain ⟨blankBefore, named, blankAfter⟩ := stands
      have found : reference? ('{' :: (before ++ (name ++ (after ++ '}' :: rest)))) =
          some (braced before name after) := reference?_braces named blankBefore blankAfter
      have spelt : '$' :: '{' :: (before ++ (name ++ (after ++ '}' :: rest))) =
          (braced before name after).spelling ++ rest := by simp [spelling]
      rw [← spelt, pieces_reference found spelt]

/-! ## Putting texts together -/

/-- The dollar sign of a reference is its first character and no other. -/
theorem exists_body_of_isReference {reference : Piece} (proper : reference.IsReference) :
    ∃ body, reference.spelling = '$' :: body ∧ '$' ∉ body := by
  have noName : ∀ {name : Text}, name.IsName → '$' ∉ name := by
    intro name named member
    have first := named.2 '$' member
    contradiction
  have noBlank : ∀ {t : Text}, (∀ c ∈ t, Text.isBlank c = true) → '$' ∉ t := by
    intro t blank member
    have first := blank '$' member
    contradiction
  cases reference with
  | plain c => contradiction
  | bare name => exact ⟨name, rfl, noName proper⟩
  | braced before name after =>
    obtain ⟨blankBefore, named, blankAfter⟩ := proper
    refine ⟨_, rfl, ?_⟩
    simp [noBlank blankBefore, noName named, noBlank blankAfter]

/-- A piece may stand before a rest also when the rest goes on with a dollar sign. -/
theorem StandsBefore.append {piece : Piece} {rest more : Text} (stands : piece.StandsBefore rest)
    (dollar : ∀ c ∈ more.head?, c = '$') : piece.StandsBefore (rest ++ more) := by
  cases piece with
  | plain c =>
    intro reference tail proper spelt
    rw [← List.cons_append] at spelt
    rcases List.append_eq_append_iff.1 spelt with ⟨middle, longer, goesOn⟩ | ⟨middle, inside, -⟩
    · obtain ⟨body, first, absent⟩ := exists_body_of_isReference proper
      cases middle with
      | nil => exact stands reference [] proper (by simpa using longer.symm)
      | cons d middle =>
        obtain rfl := dollar d (by rw [goesOn]; rfl)
        rw [first, List.cons_append] at longer
        rw [(List.cons.inj longer).2] at absent
        simp at absent
    · exact stands reference middle proper inside
  | bare name =>
    obtain ⟨named, ends⟩ := stands
    refine ⟨named, ?_⟩
    cases rest with
    | nil =>
      intro c first
      rw [dollar c first]
      decide
    | cons d rest => exact ends
  | braced before name after => exact stands

theorem IsReading.append {u v : Text} {us vs : List Piece} (first : IsReading u us)
    (second : IsReading v vs) (dollar : ∀ c ∈ v.head?, c = '$') :
    IsReading (u ++ v) (us ++ vs) := by
  induction us generalizing u with
  | nil =>
    obtain rfl : [] = u := first.spelt
    exact second
  | cons piece us ih =>
    obtain ⟨rest, rfl, stands, later⟩ := first.of_cons
    rw [List.append_assoc]
    exact .cons (stands.append dollar) (ih later)

/-- Before a dollar sign a text is read as if it ended there. -/
theorem pieces_append (u : Text) {v : Text} (dollar : ∀ c ∈ v.head?, c = '$') :
    pieces (u ++ v) = pieces u ++ pieces v :=
  ((isReading_pieces u).append (isReading_pieces v) dollar).eq_pieces.symm

theorem pieces_braced {name : Text} (named : name.IsName) (rest : Text) :
    pieces ('$' :: '{' :: (name ++ '}' :: rest)) = braced [] name [] :: pieces rest := by
  have noBlanks : ∀ c ∈ ([] : Text), Text.isBlank c = true := by simp
  refine pieces_reference (reference?_braces named noBlanks noBlanks) ?_
  simp [spelling]

end Piece

open Piece

/-- Every text has one reading, and in every store it expands to the plain characters of that
reading and the values of its references, each taken as it is.  A text that starts with a dollar
sign expands by itself behind any other, and so does a name in braces between any two. -/
theorem Store.expand_reading :
    (∀ t, ∃ read, IsReading t read ∧ (∀ other, IsReading t other → other = read) ∧
        ∀ s : Store, s.expand t = read.flatMap (·.value s)) ∧
      (∀ (s : Store) (u v : Text), v = [] ∨ v.head? = some '$' →
        s.expand (u ++ v) = s.expand u ++ s.expand v) ∧
      ∀ (s : Store) (before name after : Text), name.IsName →
        s.expand (before ++ '$' :: '{' :: (name ++ '}' :: after)) =
          s.expand before ++ s.getD name ++ s.expand after := by
  refine ⟨?_, ?_, ?_⟩
  · intro t
    exact ⟨pieces t, isReading_pieces t, fun other reading => reading.eq_pieces, fun s => rfl⟩
  · intro s u v starts
    have dollar : ∀ c ∈ v.head?, c = '$' := by
      rcases starts with rfl | first
      · simp
      · intro c same
        rw [first] at same
        exact (Option.some.inj same).symm
    rw [expand, pieces_append u dollar, List.flatMap_append]
    rfl
  · intro s before name after named
    rw [expand, pieces_append before (by simp), pieces_braced named, List.flatMap_append,
      List.flatMap_cons, List.append_assoc]
    rfl

/-- Braces that close too late, a value that looks like a reference, and an unset variable. -/
theorem Store.expand_reading_nested :
    let s : Store := ⟨[("a".toList, "$b".toList), ("b".toList, "B".toList)]⟩
    ("$a\x7d".toList.head? = some '$' ∧ Text.IsName "b".toList) ∧
      s.expand ("$\x7b x".toList ++ "$a\x7d".toList) = "$\x7b x$b\x7d".toList ∧
      s.expand ("$$\x7b".toList ++ '$' :: '{' :: ("b".toList ++ '}' :: "$nope c".toList)) =
        "$$\x7bB c".toList := by
  intro s
  obtain ⟨-, behind, between⟩ := Store.expand_reading
  have starts : "$a\x7d".toList.head? = some '$' := by decide
  have named : Text.IsName "b".toList := by
    constructor
    · decide
    · exact List.all_eq_true.1 rfl
  refine ⟨⟨starts, named⟩, ?_, ?_⟩
  · rw [behind s _ _ (.inr starts)]
    decide
  · rw [between s _ _ _ named]
    decide

end ChainShell
