/-
# ChainShell.Proofs.Chain.Joining — two lines with an operator between them

A line, an operator and another line, with a blank on each side of the operator, are one line
(`joinedLine`).  If the first line holds no double quote, the joined line reads as the two
lines do (`ofLine_joinedLine`): its chain is the chain of the first, whose last link the
operator ties to the chain of the other.  It has no chain if one of the two has none, and
then the error is that of the first line that has none; only if the first line ends where a
word is required, the operator is found there in place of the end.

No token reaches over the operator: the blanks keep the words apart from it, and a quoted
string would have to start in the first line (`lexemes_joinedLine`).  And after an operator
the reader expects a command, as it does at the start of a line, whatever it has read before
(`parseFrom_append_operator`).
-/
import ChainShell.Proofs.Chain.Acceptance
import ChainShell.Proofs.Chain.Quoting
import ChainShell.Proofs.Token.Margins
import Mathlib.Data.List.ModifyLast

set_option autoImplicit false

namespace ChainShell

/-- The link with an operator after its invocation. -/
def Link.tie (operator : Operator) (l : Link) : Link := { l with operator := some operator }

/-- The error of a line that a text follows: the text is found where the line ends too early. -/
def ShellError.before (found : Text) : ShellError → ShellError
  | .expectedWord none => .expectedWord (some found)
  | e => e

/-- Two lines with an operator between them, and blanks around the operator. -/
def joinedLine (first : Text) (operator : Operator) (later : Text) : Text :=
  first ++ ' ' :: (operator.sign ++ ' ' :: later)

/-! ## Cutting the joined line -/

namespace Token

theorem lexemes_ofLine_operator (operator : Operator) (later : Text) :
    (ofLine (operator.sign ++ ' ' :: later)).map lexeme =
      operator.token.lexeme :: (ofLine later).map lexeme := by
  have reads : operator.token.ReadsBack (' ' :: later) :=
    readsBack_sign (by simp [Text.isBlank]) operator.spelling?_kind 0
  have written : operator.token.written = operator.sign := by cases operator <;> rfl
  rw [ofLine, scan, ← written, reads.scanFrom_eq, scanFrom_blank rfl]
  exact congrArg (operator.token.lexeme :: ·) (lexemes_scanFrom_position Kind.all 0 _ 0 later)

/-- The tokens of a joined line are those of the two lines and the operator. -/
theorem lexemes_joinedLine {first : Text} (noQuote : '"' ∉ first) (operator : Operator)
    (later : Text) :
    (ofLine (joinedLine first operator later)).map lexeme =
      (ofLine first ++ operator.token :: ofLine later).map lexeme := by
  have blank : ∀ c ∈ [' '], Text.isBlank c = true := List.forall_mem_singleton.2 rfl
  rw [joinedLine, lexemes_ofLine_append (by simp [Text.isBlank]) (.inl noQuote),
    ← List.singleton_append, lexemes_ofLine_blanks_append blank, lexemes_ofLine_operator,
    List.map_append, List.map_cons]

end Token

/-! ## Reading the joined line -/

namespace Chain

/-- What two lines read as, if they are one line with an operator between them. -/
def joined (operator : Operator) :
    Except ShellError Chain → Except ShellError Chain → Except ShellError Chain
  | .ok chain, later => later.map (chain.modifyLast (.tie operator) ++ ·)
  | .error e, _ => .error (e.before operator.sign)

variable {store : Store} {tokens : List Token} {chain : Chain}

/-- A chain that is read has a link. -/
theorem ne_nil_of_ofTokens (read : ofTokens store tokens = .ok chain) : chain ≠ [] := by
  obtain ⟨s, -, -, rfl⟩ := ofTokens_eq_ok_iff.1 read
  cases s <;> exact List.cons_ne_nil _ _

theorem modifyLast_cons (f : Link → Link) (l : Link) (some : chain ≠ []) :
    (l :: chain).modifyLast f = l :: chain.modifyLast f :=
  List.modifyLast_append_of_right_ne_nil f [l] chain some

theorem joined_map_cons (operator : Operator) (l : Link) {first : Except ShellError Chain}
    (some : ∀ chain, first = .ok chain → chain ≠ []) (later : Except ShellError Chain) :
    joined operator (first.map (l :: ·)) later = (joined operator first later).map (l :: ·) := by
  cases first with
  | error e => rfl
  | ok chain =>
    simp only [joined, Except.map, modifyLast_cons _ l (some chain rfl)]
    cases later <;> rfl

/-- After an operator a chain is read as from the start. -/
theorem parseFrom_append_operator (operator : Operator) (expect : Expect)
    (tokens rest : List Token) :
    parseFrom store expect (tokens ++ operator.token :: rest) =
      joined operator (parseFrom store expect tokens) (parseFrom store .command rest) := by
  induction tokens generalizing expect with
  | nil => cases expect <;> cases operator <;> rfl
  | cons token tokens ih =>
    -- Both sides take the same branch at the token.
    rw [List.cons_append]
    cases expect with
    | command =>
      rw [parseFrom, parseFrom]
      split
      · split
        · rfl
        · exact ih _
      · rfl
    | target stream invocation =>
      rw [parseFrom, parseFrom]
      split
      · exact ih _
      · rfl
    | more invocation =>
      rw [parseFrom, parseFrom]
      split
      · exact ih _
      · exact ih _
      · rw [ih]
        exact (joined_map_cons operator _ (fun _ read => ne_nil_of_ofTokens read) _).symm

/-- A joined line reads as its two lines do. -/
theorem ofLine_joinedLine {first : Text} (noQuote : '"' ∉ first) (operator : Operator)
    (later : Text) :
    ofLine store (joinedLine first operator later) =
      joined operator (ofLine store first) (ofLine store later) := by
  rw [ofLine, ofTokens, parseFrom_congr .command (Token.lexemes_joinedLine noQuote operator later),
    parseFrom_append_operator]
  rfl

/-- A joined line has a chain exactly if its two lines have one: the two chains, with the operator
between them. -/
theorem ofLine_joinedLine_eq_ok_iff {first : Text} (noQuote : '"' ∉ first) (operator : Operator)
    (later : Text) (store : Store) (chain : Chain) :
    ofLine store (joinedLine first operator later) = .ok chain ↔
      ∃ before after, ofLine store first = .ok before ∧ ofLine store later = .ok after ∧
        chain = before.modifyLast (.tie operator) ++ after := by
  rw [ofLine_joinedLine noQuote]
  cases ofLine store first with
  | error e => simp [joined]
  | ok before =>
    cases ofLine store later with
    | error e => simp [joined, Except.map]
    | ok after => simp [joined, Except.map, eq_comm]

/-- A chain whose last link has a redirect, and a line that ends in a string no quote closes. -/
theorem ofLine_joinedLine_redirected :
    '"' ∉ "cat $x|sort > o".toList ∧
    ofLine ⟨[(['x'], "a ; b".toList)]⟩ "cat $x|sort > o && \"b c\" 2> \"e".toList =
      .ok [⟨{ executable := "cat".toList, args := ["a ; b|sort".toList], output := some ['o'] },
          some .and⟩,
        ⟨{ executable := "b c".toList, error := some "\"e".toList }, none⟩] := by
  have noQuote : '"' ∉ "cat $x|sort > o".toList := by decide
  refine ⟨noQuote, (ofLine_joinedLine_eq_ok_iff noQuote .and "\"b c\" 2> \"e".toList _ _).2
    ⟨_, _, rfl, rfl, rfl⟩⟩

end Chain

end ChainShell
