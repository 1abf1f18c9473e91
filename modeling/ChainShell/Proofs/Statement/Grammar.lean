/-
# ChainShell.Proofs.Statement.Grammar — which lines are assignments

A line is an assignment if it is written as

    assignment := name blank* '=' blank* expression

where a name is a row of ASCII letters and digits, at least one, a blank is a space or a tab,
and an expression holds no line feed and does not start with a blank (`Assigns`).

* A line is read as an assignment exactly if it is one (`ofLine_eq_assign_iff`), so there is
  only one way to take it for one.  Every other line is a command.
* The name cannot hold the sign and neither can the blanks, so the sign between the parts is
  the first one of the line (`Assigns.cut`).
* The names of references are the names of assignments: whatever a name was set to, both
  spellings of a reference to it stand for that (`Store.refersTo`), and a script can set no
  other names (`isName_of_changed`).
-/
import ChainShell.Proofs.Statement.Replay
import ChainShell.Proofs.Store.Reading

set_option autoImplicit false

namespace ChainShell

open ChainShell.Piece

/-! ## References to a name -/

namespace Store

/-- In both of its spellings a reference to the name stands for the value. -/
structure RefersTo (store : Store) (name value : Text) : Prop where
  bare : store.expand ('$' :: name) = value
  braced : ∀ before after : Text, (∀ c ∈ before, Text.isBlank c = true) →
    (∀ c ∈ after, Text.isBlank c = true) →
      store.expand ('$' :: '{' :: (before ++ (name ++ (after ++ ['}'])))) = value

/-- Any name of letters and digits can be referred to. -/
theorem refersTo {name : Text} (named : name.IsName) (store : Store) :
    store.RefersTo name (store.getD name) where
  bare := by
    have found : reference? (name ++ []) = some (.bare name) := reference?_name named (by simp)
    rw [List.append_nil] at found
    have spelt : '$' :: name = (Piece.bare name).spelling ++ [] := (List.append_nil _).symm
    rw [expand, pieces_reference found spelt]
    exact List.append_nil _
  braced before after blankBefore blankAfter := by
    have found : reference? ('{' :: (before ++ (name ++ (after ++ ['}'])))) =
        some (.braced before name after) := reference?_braces named blankBefore blankAfter
    have spelt : '$' :: '{' :: (before ++ (name ++ (after ++ ['}']))) =
        (Piece.braced before name after).spelling ++ [] := by simp [spelling]
    rw [expand, pieces_reference found spelt]
    exact List.append_nil _

end Store

namespace Statement

/-! ## Assignments -/

/-- The line sets the name to the expression. -/
structure Assigns (line name expression : Text) : Prop where
  named : name.IsName
  spelt : ∃ before after, line = name ++ (before ++ '=' :: (after ++ expression)) ∧
    (∀ c ∈ before, Text.isBlank c = true) ∧ ∀ c ∈ after, Text.isBlank c = true
  oneLine : '\n' ∉ expression
  starts : ∀ c ∈ expression.head?, Text.isBlank c = false

variable {line name expression : Text}

/-- A line that is an assignment is read as one. -/
theorem assignment?_of_assigns (assigns : Assigns line name expression) :
    assignment? line = some (.assign name expression) := by
  obtain ⟨⟨some, inName⟩, ⟨before, after, rfl, blankBefore, blankAfter⟩, oneLine, starts⟩ := assigns
  have nameEnds : ∀ c ∈ (before ++ '=' :: (after ++ expression)).head?,
      Text.isNameChar c = false := by
    cases before with
    | nil =>
      rintro c ⟨⟩
      decide
    | cons d before =>
      rintro c ⟨⟩
      exact not_isNameChar_of_isBlank (blankBefore d List.mem_cons_self)
  have gapEnds : ∀ c ∈ ('=' :: (after ++ expression)).head?, Text.isBlank c = false := by
    rintro c ⟨⟩
    decide
  obtain ⟨taken, dropped⟩ := Text.span_run inName nameEnds
  have sign := (Text.span_run blankBefore gapEnds).2
  have value := (Text.span_run blankAfter starts).2
  obtain ⟨c, more, rfl⟩ := List.exists_cons_of_ne_nil some
  have broken : expression.contains '\n' = false := by simpa using oneLine
  simp only [assignment?, taken, dropped, sign, value, broken]
  rfl

/-- A line that is read as an assignment is one. -/
theorem assigns_of_assignment? {statement : Statement} (read : assignment? line = some statement) :
    ∃ name expression, statement = .assign name expression ∧ Assigns line name expression := by
  rw [assignment?] at read
  dsimp only at read
  split at read
  · rename_i c more tail nameRun sign
    split at read
    · contradiction
    · rename_i oneLine
      obtain rfl := Option.some.inj read
      have whole : line = line.takeWhile Text.isNameChar ++
          ((line.dropWhile Text.isNameChar).takeWhile Text.isBlank ++ '=' ::
            (tail.takeWhile Text.isBlank ++ tail.dropWhile Text.isBlank)) := by
        rw [List.takeWhile_append_dropWhile, ← sign, List.takeWhile_append_dropWhile,
          List.takeWhile_append_dropWhile]
      refine ⟨_, _, rfl, ⟨?_, inside_takeWhile⟩, ⟨_, _, whole, inside_takeWhile, inside_takeWhile⟩,
        by simpa using oneLine, ?_⟩
      · rw [nameRun]
        exact List.cons_ne_nil c more
      · intro d first
        have stopped := List.head?_dropWhile_not Text.isBlank tail
        rw [first] at stopped
        exact stopped
  · contradiction

theorem ofLine_eq_assign_iff :
    ofLine line = .assign name expression ↔ Assigns line name expression := by
  constructor
  · intro said
    cases read : assignment? line with
    | none =>
      rw [ofLine, read] at said
      contradiction
    | some statement =>
      obtain ⟨name', expression', rfl, assigns⟩ := assigns_of_assignment? read
      rw [ofLine, read] at said
      obtain ⟨rfl, rfl⟩ := Statement.assign.inj said
      exact assigns
  · intro assigns
    rw [ofLine, assignment?_of_assigns assigns]
    rfl

/-- A line that is no assignment is a command as it stands. -/
theorem ofLine_eq_command_iff {text : Text} :
    ofLine line = .command text ↔
      text = line ∧ ∀ name expression, ¬ Assigns line name expression := by
  cases read : assignment? line with
  | none =>
    have said : ofLine line = .command line := by
      rw [ofLine, read]
      rfl
    rw [said]
    constructor
    · rintro ⟨⟩
      refine ⟨rfl, fun name expression assigns => ?_⟩
      rw [assignment?_of_assigns assigns] at read
      contradiction
    · rintro ⟨rfl, -⟩
      rfl
  | some statement =>
    obtain ⟨name, expression, rfl, assigns⟩ := assigns_of_assignment? read
    rw [ofLine_eq_assign_iff.2 assigns]
    constructor
    · intro same
      contradiction
    · rintro ⟨-, none⟩
      exact absurd assigns (none name expression)

namespace Assigns

theorem unique {name' expression' : Text} (assigns : Assigns line name expression)
    (other : Assigns line name' expression') : name' = name ∧ expression' = expression := by
  have said := ofLine_eq_assign_iff.2 assigns
  rw [ofLine_eq_assign_iff.2 other] at said
  exact Statement.assign.inj said

/-- The first equals sign of the line stands between the name and the expression. -/
theorem cut (assigns : Assigns line name expression) :
    ∃ before after, (∀ c ∈ before, Text.isBlank c = true) ∧ (∀ c ∈ after, Text.isBlank c = true) ∧
      line.takeWhile (· ≠ '=') = name ++ before ∧
      line.dropWhile (· ≠ '=') = '=' :: (after ++ expression) := by
  obtain ⟨⟨-, inName⟩, ⟨before, after, rfl, blankBefore, blankAfter⟩, -, -⟩ := assigns
  have noSign : ∀ c ∈ name ++ before, decide (c ≠ '=') = true := by
    intro c member
    rw [decide_eq_true_eq]
    rintro rfl
    rcases List.mem_append.1 member with inside | inside
    · exact absurd (inName '=' inside) (by decide)
    · exact absurd (blankBefore '=' inside) (by decide)
  have signs : ∀ c ∈ ('=' :: (after ++ expression)).head?, decide (c ≠ '=') = false := by
    rintro c ⟨⟩
    decide
  obtain ⟨taken, dropped⟩ := Text.span_run noSign signs
  rw [← List.append_assoc]
  exact ⟨before, after, blankBefore, blankAfter, taken, dropped⟩

end Assigns

/-! ## What assignments set -/

/-- A script changes variables only under names that references can spell. -/
theorem isName_of_changed {source : Text} {s : Session}
    (changed : (runAll .ok (ofSource source) s).session.store.get? name ≠ s.store.get? name) :
    name.IsName := by
  obtain ⟨done, left, cut, stops⟩ := exists_stop .ok (ofSource source) s
  rw [cut, stops.store_eq] at changed
  by_contra unnamed
  apply changed
  apply Store.get?_replay_of_unassigned
  intro expression member
  have said : .assign name expression ∈ ofSource source := by
    rw [cut]
    exact List.mem_append_left _ member
  obtain ⟨line, meant, -, -⟩ := exists_line_of_mem_ofSource said
  exact unnamed (ofLine_eq_assign_iff.1 meant.symm).named

/-- A line is an assignment exactly if it is written as one, which it is in one way only, around its
first equals sign; every other line is a command.  After an assignment every reference to the name
stands for what the expression stood for before, and of the names that a script has changed there is
none that references cannot spell. -/
theorem ofLine_grammar :
    (∀ line name expression, ofLine line = .assign name expression ↔
        Assigns line name expression) ∧
      (∀ line text, ofLine line = .command text ↔
        text = line ∧ ∀ name expression, ¬ Assigns line name expression) ∧
      (∀ line name expression, Assigns line name expression →
        (∀ name' expression', Assigns line name' expression' →
          name' = name ∧ expression' = expression) ∧
        ∃ before after, (∀ c ∈ before, Text.isBlank c = true) ∧
          (∀ c ∈ after, Text.isBlank c = true) ∧
          line.takeWhile (· ≠ '=') = name ++ before ∧
          line.dropWhile (· ≠ '=') = '=' :: (after ++ expression)) ∧
      (∀ line name expression s, Assigns line name expression →
        let ended := (ofLine line).run s
        ended.result = .ok .ok ∧ ended.session.store.RefersTo name (s.store.expand expression)) ∧
      ∀ source s name,
        let store := (runAll .ok (ofSource source) s).session.store
        store.get? name ≠ s.store.get? name →
          name.IsName ∧ store.RefersTo name (store.getD name) := by
  refine ⟨fun line name expression => ofLine_eq_assign_iff, fun line text => ofLine_eq_command_iff,
    ?_, ?_, ?_⟩
  · intro line name expression assigns
    exact ⟨fun name' expression' other => assigns.unique other, assigns.cut⟩
  · intro line name expression s assigns ended
    have ran : ended = Statement.run (.assign name expression) s :=
      congrArg (Statement.run · s) (ofLine_eq_assign_iff.2 assigns)
    have store : ended.session.store = s.store.set name (s.store.expand expression) := by
      rw [ran]
      rfl
    have value : ended.session.store.getD name = s.store.expand expression := by
      rw [store, Store.getD, Store.get?_set, if_pos rfl]
      rfl
    refine ⟨by rw [ran]; rfl, ?_⟩
    rw [← value]
    exact Store.refersTo assigns.named _
  · intro source s name store changed
    have named := isName_of_changed changed
    exact ⟨named, Store.refersTo named store⟩

/-- Several equals signs, a variable set in terms of itself, and blanks that are no spaces or tabs:
a no-break space stays in the expression, and before the sign it makes the line a command. -/
theorem ofLine_grammar_itself :
    let line := "n \t=\t\u00a0$n = ${ n}=".toList
    let expression := "\u00a0$n = ${ n}=".toList
    let s : Session := { store := ⟨[(['n'], "$n".toList)]⟩ }
    let store := (runAll .ok (ofSource line) s).session.store
    Assigns line ['n'] expression ∧ ofLine line = .assign ['n'] expression ∧
      ((ofLine line).run s).session.store.RefersTo ['n'] "\u00a0$n = $n=".toList ∧
      store.get? ['n'] ≠ s.store.get? ['n'] ∧ store.RefersTo ['n'] (store.getD ['n']) ∧
      ofLine "n\u00a0= 1".toList = .command "n\u00a0= 1".toList := by
  intro line expression s store
  obtain ⟨assignments, -, -, runs, changes⟩ := ofLine_grammar
  have said : ofLine line = .assign ['n'] expression := by decide
  have assigns : Assigns line ['n'] expression := (assignments _ _ _).1 said
  have value : s.store.expand expression = "\u00a0$n = $n=".toList := by decide
  have refers := (runs line ['n'] expression s assigns).2
  rw [value] at refers
  have changed : store.get? ['n'] ≠ s.store.get? ['n'] := by decide +kernel
  exact ⟨assigns, said, refers, changed, (changes line s ['n'] changed).2, by decide⟩

end Statement

end ChainShell
