/-
# ChainShell.Proofs.Chain.Description — a chain as it is shown reads back

A chain is shown in lines with a mark in front of each: one line for an invocation, and one for
the operator after it.  `commandLine` takes the marks off and puts the lines into one, with spaces
between them.  This line reads as the chain, whatever the store holds, if each text of the chain
can stand on a line as it is (`Bare`).

* The line has the tokens of the chain with words in the place of quoted strings
  (`commandLine_describe`): what shows an invocation writes its texts and its redirects in the
  order of its tokens (`Invocation.describe_eq`), and no line break is hidden in a line.
* Cutting the line gives these tokens back, since a bare text is no sign and holds nothing that
  ends a word or starts a string (`allReadBack_bare`).
* Whether a text stands between quotes makes no difference to the reader of the tokens
  (`parseFrom_bare`).

So two chains of bare texts that are shown alike are the same.
-/
import ChainShell.Chain.Printer
import ChainShell.Proofs.Chain.Quoting
import ChainShell.Proofs.Store.Reading
import Mathlib.Data.List.Basic

set_option autoImplicit false

namespace ChainShell

/-- The text can stand on a line as it is: it is a word, no sign, and holds no reference. -/
structure Bare (t : Text) : Prop where
  present : t ≠ []
  plain : ∀ c ∈ t, c ∉ [' ', '\t', '\n', ';', '"', '$']
  noSign : t ∉ [['&', '&'], ['|', '|'], ['|'], ['<'], ['>'], ['2', '>']]

instance (t : Text) : Decidable (Bare t) :=
  decidable_of_iff (t ≠ [] ∧ t.all (· ∉ [' ', '\t', '\n', ';', '"', '$']) = true ∧
      t ∉ [['&', '&'], ['|', '|'], ['|'], ['<'], ['>'], ['2', '>']])
    ⟨fun ⟨present, plain, noSign⟩ => ⟨present, by simpa using plain, noSign⟩,
      fun ⟨present, plain, noSign⟩ => ⟨present, by simpa using plain, noSign⟩⟩

namespace Chain

/-- A line of a description without its mark. -/
def unmarked (line : Text) : Text :=
  ((line.dropPrefix? "CMD ".toList).or (line.dropPrefix? "OP  ".toList)).getD line

/-- The lines of a description without their marks, as one line. -/
def commandLine (description : Text) : Text :=
  [' '].intercalate ((description.splitOn '\n').map unmarked)

theorem unmarked_command (t : Text) : unmarked ("CMD ".toList ++ t) = t := by
  simp [unmarked, List.dropPrefix?]

theorem unmarked_operator (t : Text) : unmarked ("OP  ".toList ++ t) = t := by
  simp [unmarked, List.dropPrefix?]

end Chain

/-! ## Tokens without quotes -/

namespace Token

/-- The token as a word, if it is a quoted string. -/
def bare (t : Token) : Token := if t.kind = .quoted then { t with kind := .word } else t

theorem bare_of_spelt {t : Token} {sign : Text} (spelt : t.kind.spelling? = some sign) :
    t.bare = t := by
  apply if_neg
  intro quoted
  rw [quoted] at spelt
  contradiction

theorem bare_operator (operator : Operator) : operator.token.bare = operator.token :=
  bare_of_spelt operator.spelling?_kind

theorem following_of_ne_nil {tokens : List Token} (some : tokens ≠ []) :
    following tokens = ' ' :: spaced tokens := by
  obtain ⟨t, tokens, rfl⟩ := List.exists_cons_of_ne_nil some
  rfl

/-- Groups of tokens that are written one by one, with a space between each two. -/
theorem intercalate_spaced {groups : List (List Token)} (some : ∀ group ∈ groups, group ≠ []) :
    [' '].intercalate (groups.map spaced) = spaced groups.flatten := by
  induction groups with
  | nil => rfl
  | cons group groups ih =>
    obtain ⟨here, later⟩ := List.forall_mem_cons.1 some
    have whole : spaced (group :: groups).flatten = spaced group ++ following groups.flatten :=
      spaced_append here groups.flatten
    cases groups with
    | nil => simp
    | cons next groups =>
      have more : (next :: groups).flatten ≠ [] := by
        simp [later next List.mem_cons_self]
      rw [whole, following_of_ne_nil more, ← ih later, List.map_cons, List.map_cons,
        List.intercalate_cons_cons, List.append_assoc]
      rfl

theorem mem_spaced {tokens : List Token} {c : Char} (member : c ∈ spaced tokens) :
    c = ' ' ∨ ∃ t ∈ tokens, c ∈ t.written := by
  induction tokens with
  | nil => contradiction
  | cons t tokens ih =>
    rw [spaced_cons] at member
    rcases List.mem_append.1 member with here | later
    · exact .inr ⟨t, List.mem_cons_self, here⟩
    · cases tokens with
      | nil => contradiction
      | cons u tokens =>
        rcases List.mem_cons.1 later with blank | later
        · exact .inl blank
        · exact (ih later).imp_right fun ⟨t, among, inside⟩ =>
            ⟨t, List.mem_cons_of_mem _ among, inside⟩

end Token

namespace Bare

variable {t : Text} (bare : Bare t)

include bare

theorem notMem {c : Char} (excluded : c ∈ [' ', '\t', '\n', ';', '"', '$']) : c ∉ t :=
  fun member => bare.plain c member excluded

theorem isWordChar : ∀ c ∈ t, Token.isWordChar c = true := by
  intro c member
  have other := bare.plain c member
  simp only [List.mem_cons, not_or] at other
  simp [Token.isWordChar, Text.isBlank, other]

theorem unspelt (kind : Token.Kind) : kind.spelling? ≠ some t := by
  intro spelt
  by_cases semicolon : kind = .semicolon
  · subst semicolon
    obtain rfl := Option.some.inj spelt
    exact bare.notMem (by decide) List.mem_cons_self
  · apply bare.noSign
    cases kind <;> first | contradiction | (obtain rfl := Option.some.inj spelt; decide)

/-- A bare text reads back as a word. -/
theorem readsBack {rest : Text} (ends : ∀ c ∈ rest.head?, Text.isBlank c = true) :
    Token.ReadsBack (Token.quoting t).bare rest := by
  refine Token.readsBack_word ends bare.present bare.isWordChar ?_ bare.unspelt 0
  intro first
  exact bare.notMem (by decide) (List.mem_of_head? first)

/-- Nothing in a bare text is replaced. -/
theorem expand_eq (store : Store) : store.expand t = t := by
  have noDollar : '$' ∉ t := bare.notMem (by decide)
  clear bare
  induction t with
  | nil => rfl
  | cons c t ih =>
    rw [List.mem_cons, not_or] at noDollar
    have alone : c = '$' → Piece.reference? t = none := fun same => absurd same.symm noDollar.1
    rw [Store.expand, Piece.pieces_plain alone, List.flatMap_cons]
    exact congrArg (c :: ·) (ih noDollar.2)

end Bare

/-! ## The line of a description -/

theorem Redirect.describe_eq (stream : Redirect) (target : Option Text) :
    stream.describe target = Token.following ((stream.tokens target).map Token.bare) := by
  cases target with
  | none => rfl
  | some path =>
    cases stream <;>
      simp [describe, tokens, Token.following, Token.spaced, Token.bare, Token.quoting,
        Token.written, kind, sign]

/-- An invocation is shown as its tokens are written without quotes. -/
theorem Invocation.describe_eq (i : Invocation) :
    i.describe = Token.spaced (i.tokens.map Token.bare) := by
  have argv : [' '].intercalate i.argv = Token.spaced ((i.argv.map .quoting).map Token.bare) := by
    rw [Token.spaced, List.map_map, List.map_map]
    exact congrArg _ (List.map_id _).symm
  have some : (i.argv.map Token.quoting).map Token.bare ≠ [] := List.cons_ne_nil _ _
  rw [describe, argv, Redirect.describe_eq, Redirect.describe_eq, Redirect.describe_eq, tokens,
    List.map_append, List.map_append, List.map_append, Token.spaced_append some,
    Token.following_append, Token.following_append, List.append_assoc, List.append_assoc,
    List.append_assoc]

namespace Link

/-- The tokens of each line that shows the link. -/
def lines (l : Link) : List (List Token) :=
  l.invocation.tokens.map Token.bare :: (l.operator.map fun operator => [operator.token]).toList

theorem map_unmarked_describe (l : Link) :
    l.describe.map Chain.unmarked = l.lines.map Token.spaced := by
  rw [describe, lines, List.map_cons, List.map_cons, Chain.unmarked_command,
    Invocation.describe_eq]
  cases l.operator with
  | none => rfl
  | some operator =>
    have sign : Token.spaced [operator.token] = operator.sign := by cases operator <;> rfl
    simp only [List.map_singleton, Chain.unmarked_operator, Option.map_some, Option.toList_some,
      sign]

theorem flatten_lines (l : Link) : l.lines.flatten = l.tokens.map Token.bare := by
  obtain ⟨invocation, tie⟩ := l
  cases tie <;> simp [lines, tokens, Token.bare_operator]

theorem ne_nil_of_mem_lines {l : Link} {line : List Token} (member : line ∈ l.lines) :
    line ≠ [] := by
  rcases List.mem_cons.1 member with rfl | member
  · exact List.cons_ne_nil _ _
  · obtain ⟨operator, -, rfl⟩ := Option.map_eq_some_iff.1 (Option.mem_toList.1 member)
    exact List.cons_ne_nil _ _

/-- No line break is hidden in the lines that show a link of bare texts. -/
theorem unbroken_of_mem_describe {l : Link} (bare : ∀ t ∈ l.invocation.texts, Bare t)
    {line : Text} (member : line ∈ l.describe) : '\n' ∉ line := by
  intro broken
  rcases List.mem_cons.1 member with rfl | member
  · rcases List.mem_append.1 broken with mark | shown
    · revert mark
      decide
    · rw [Invocation.describe_eq] at shown
      obtain ⟨_, written, inside⟩ := (Token.mem_spaced shown).resolve_left (by decide)
      obtain ⟨t, among, rfl⟩ := List.mem_map.1 written
      rcases Invocation.mem_tokens among with sign | ⟨text, isText, rfl⟩
      · rw [Token.bare_of_spelt sign, Token.written] at inside
        obtain ⟨kind, value, position⟩ := t
        cases kind <;> first | contradiction | (obtain rfl := Option.some.inj sign; simp at inside)
      · exact (bare text isText).notMem (by decide) inside
  · obtain ⟨invocation, tie⟩ := l
    cases tie with
    | none => contradiction
    | some tie =>
      obtain rfl := List.mem_singleton.1 member
      cases tie <;> simp [Operator.sign] at broken

end Link

namespace Chain

variable {store : Store} {chain : Chain}

/-- Without its marks a description is the tokens of the chain without quotes. -/
theorem commandLine_describe (some : chain ≠ [])
    (bare : ∀ l ∈ chain, ∀ t ∈ l.invocation.texts, Bare t) :
    commandLine chain.describe = Token.spaced (chain.tokens.map Token.bare) := by
  obtain ⟨l, rest, rfl⟩ := List.exists_cons_of_ne_nil some
  have unbroken : ∀ line ∈ (l :: rest).flatMap Link.describe, '\n' ∉ line := by
    intro line member
    obtain ⟨l, among, member⟩ := List.mem_flatMap.1 member
    exact Link.unbroken_of_mem_describe (bare l among) member
  have present : ∀ line ∈ (l :: rest).flatMap Link.lines, line ≠ [] := by
    intro line member
    obtain ⟨l, -, member⟩ := List.mem_flatMap.1 member
    exact Link.ne_nil_of_mem_lines member
  have shown : describe (l :: rest) = ['\n'].intercalate ((l :: rest).flatMap Link.describe) := rfl
  rw [commandLine, shown, List.splitOn_intercalate '\n' unbroken (List.cons_ne_nil _ _),
    List.map_flatMap]
  simp only [Link.map_unmarked_describe]
  rw [← List.map_flatMap, Token.intercalate_spaced present, List.flatten_eq_flatMap,
    List.flatMap_assoc, tokens, List.map_flatMap]
  simp only [← List.flatten_eq_flatMap, Link.flatten_lines]

/-! ## Reading the line -/

/-- The tokens of a chain of bare texts read back without quotes. -/
theorem allReadBack_bare (bare : ∀ l ∈ chain, ∀ t ∈ l.invocation.texts, Bare t) :
    Token.AllReadBack (chain.tokens.map Token.bare) := by
  refine Token.allReadBack_of_forall fun _ written rest ends => ?_
  obtain ⟨t, member, rfl⟩ := List.mem_map.1 written
  rcases mem_tokens member with sign | ⟨l, among, text, inside, rfl⟩
  · rw [Token.bare_of_spelt sign]
    exact Token.readsBack_sign ends sign t.position
  · exact (bare l among text inside).readsBack ends

/-- A string token is read in the same way with and without quotes. -/
theorem parseFrom_bare (expect : Expect) (tokens : List Token) :
    parseFrom store expect (tokens.map Token.bare) = parseFrom store expect tokens := by
  induction tokens generalizing expect with
  | nil => rfl
  | cons t tokens ih =>
    have value : t.bare.value = t.value := by
      rw [Token.bare]
      split <;> rfl
    have role : t.bare.kind.role = t.kind.role ∧ t.bare.kind.isString = t.kind.isString := by
      rw [Token.bare]
      split
      · rename_i quoted
        rw [quoted]
        exact ⟨rfl, rfl⟩
      · exact ⟨rfl, rfl⟩
    rw [List.map_cons]
    cases expect <;> simp only [parseFrom, value, role, ih]

theorem ne_nil_of_tied (tied : chain.Tied) : chain ≠ [] := by
  rintro rfl
  exact tied

theorem ofLine_commandLine (tied : chain.Tied)
    (bare : ∀ l ∈ chain, ∀ t ∈ l.invocation.texts, Bare t) (store : Store) :
    ofLine store (commandLine chain.describe) = .ok chain := by
  have cut := Token.lexemes_ofLine_spaced (allReadBack_bare bare)
  have named : ∀ l ∈ chain, l.invocation.executable ≠ [] := fun l among =>
    (bare l among _ (List.mem_append_left _ List.mem_cons_self)).present
  rw [ofLine, commandLine_describe (ne_nil_of_tied tied) bare, ofTokens,
    parseFrom_congr .command cut, parseFrom_bare]
  exact ofTokens_tokens tied named fun l among t inside => (bare l among t inside).expand_eq store

/-- The description of a chain of bare texts, without its marks, is a line that reads as the chain
under every store.  So no other such chain has this description. -/
theorem describe_readsBack (tied : chain.Tied)
    (bare : ∀ l ∈ chain, ∀ t ∈ l.invocation.texts, Bare t) :
    (∀ store, ofLine store (commandLine chain.describe) = .ok chain) ∧
      ∀ other : Chain, other.Tied → (∀ l ∈ other, ∀ t ∈ l.invocation.texts, Bare t) →
        other.describe = chain.describe → other = chain := by
  refine ⟨ofLine_commandLine tied bare, fun other tied' bare' same => ?_⟩
  have read := ofLine_commandLine tied bare .empty
  rw [← same, ofLine_commandLine tied' bare' .empty] at read
  exact Except.ok.inj read

/-- Texts that look like marks and signs and are none. -/
def lookalikeChain : Chain :=
  [⟨{ executable := "CMD".toList, args := ["&&&".toList, "<empty>".toList],
      input := some "OP".toList, output := some ">>".toList, error := some "2>1".toList },
    some .pipe⟩,
    ⟨{ executable := ['&'], error := some ['2'] }, none⟩]

theorem describe_readsBack_lookalike :
    lookalikeChain.Tied ∧ (∀ l ∈ lookalikeChain, ∀ t ∈ l.invocation.texts, Bare t) ∧
    lookalikeChain.describe = "CMD CMD &&& <empty> < OP > >> 2> 2>1\nOP  |\nCMD & 2> 2".toList ∧
    commandLine lookalikeChain.describe = "CMD &&& <empty> < OP > >> 2> 2>1 | & 2> 2".toList ∧
    ∀ store, ofLine store (commandLine lookalikeChain.describe) = .ok lookalikeChain := by
  have tied : lookalikeChain.Tied := ⟨rfl, rfl⟩
  have bare : ∀ l ∈ lookalikeChain, ∀ t ∈ l.invocation.texts, Bare t := by decide
  exact ⟨tied, bare, by decide, by decide, (describe_readsBack tied bare).1⟩

end Chain

end ChainShell
