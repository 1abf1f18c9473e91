/-
# ChainShell.Proofs.Token.Spacing — tokens written with spaces between them

`spaced` writes tokens one after the other with a single space between each two.  A token
reads back before what follows it if the text from it on opens with it (`ReadsBack`).  If
each of the tokens does, the line has their lexemes again (`lexemes_ofLine_spaced`).

Before a blank or the end of the line three kinds of token read back whatever the line holds
besides: an operator or redirect sign (`readsBack_sign`), a quoted string whose value holds no
double quote and ends in no backslash (`readsBack_quoted`), and a word without blanks and
semicolons that starts with no double quote and spells no sign (`readsBack_word`).
-/
import ChainShell.Proofs.Token.Scanning

set_option autoImplicit false

namespace ChainShell

namespace Token

/-- Kind and value, without the place. -/
def lexeme (t : Token) : Kind × Text := (t.kind, t.value)

/-- The tokens as they are written, with single spaces between them. -/
def spaced (tokens : List Token) : Text := [' '].intercalate (tokens.map written)

/-- What follows a token before other tokens: a space and these, or nothing. -/
def following : List Token → Text
  | [] => []
  | t :: tokens => ' ' :: spaced (t :: tokens)

theorem spaced_cons (t : Token) (tokens : List Token) :
    spaced (t :: tokens) = t.written ++ following tokens := by
  cases tokens with
  | nil => simp [spaced, following]
  | cons u tokens =>
    simp only [spaced, following, List.map_cons, List.intercalate_cons_cons, List.append_assoc]
    rfl

theorem following_append (tokens later : List Token) :
    following (tokens ++ later) = following tokens ++ following later := by
  induction tokens with
  | nil => rfl
  | cons t tokens ih =>
    rw [List.cons_append, following, following, spaced_cons, spaced_cons, ih, List.cons_append,
      List.append_assoc]

/-- Tokens are written as they are written without what comes after them. -/
theorem spaced_append {tokens : List Token} (some : tokens ≠ []) (later : List Token) :
    spaced (tokens ++ later) = spaced tokens ++ following later := by
  obtain ⟨t, tokens, rfl⟩ := List.exists_cons_of_ne_nil some
  rw [List.cons_append, spaced_cons, spaced_cons, following_append, List.append_assoc]

theorem isBlank_of_following {tokens : List Token} :
    ∀ c ∈ (following tokens).head?, Text.isBlank c = true := by
  cases tokens with
  | nil => simp [following]
  | cons u tokens =>
    rintro c ⟨⟩
    rfl

theorem valueOf_written (t : Token) : valueOf t.kind t.written = t.value := by
  by_cases quoted : t.kind = .quoted <;> simp [valueOf, written, quoted]

/-! ## Reading back -/

/-- The text from a token on starts with no blank and opens with the token. -/
structure ReadsBack (t : Token) (rest : Text) : Prop where
  starts : ∃ c more, t.written ++ rest = c :: more ∧ Text.isBlank c = false
  opens : opening (t.written ++ rest) = (t.kind, t.written)

theorem ReadsBack.scanFrom_eq {t : Token} {rest : Text} (reads : t.ReadsBack rest)
    (position : Nat) :
    scanFrom Kind.all 0 position (t.written ++ rest) =
      .cons ⟨t.kind, t.value, position⟩
        (scanFrom Kind.all 0 (position + t.written.length) rest) := by
  obtain ⟨c, more, starts, notBlank⟩ := reads.starts
  have found : longest? Kind.all (t.written ++ rest) = some (t.kind, t.written) := by
    rw [← reads.opens, starts]
    exact longest?_all more notBlank
  rw [scanFrom_found position (by simp [starts, notBlank]) found, valueOf_written]

/-- Each of the tokens reads back before those after it. -/
def AllReadBack : List Token → Prop
  | [] => True
  | t :: tokens => t.ReadsBack (following tokens) ∧ AllReadBack tokens

theorem lexemes_scanFrom_spaced {tokens : List Token} (reads : AllReadBack tokens)
    (position : Nat) :
    (scanFrom Kind.all 0 position (spaced tokens)).tokens.map lexeme = tokens.map lexeme := by
  induction tokens generalizing position with
  | nil => rfl
  | cons t tokens ih =>
    rw [spaced_cons, reads.1.scanFrom_eq]
    have later : ∀ position, (scanFrom Kind.all 0 position (following tokens)).tokens.map lexeme =
        tokens.map lexeme := by
      intro position
      cases tokens with
      | nil => rfl
      | cons u tokens =>
        rw [following, scanFrom_blank rfl]
        exact ih reads.2 _
    exact congrArg (t.lexeme :: ·) (later _)

/-- Tokens that read back have their lexemes again on the line that they are written to. -/
theorem lexemes_ofLine_spaced {tokens : List Token} (reads : AllReadBack tokens) :
    (ofLine (spaced tokens)).map lexeme = tokens.map lexeme :=
  lexemes_scanFrom_spaced reads 0

theorem allReadBack_of_forall {tokens : List Token}
    (reads : ∀ t ∈ tokens, ∀ rest, (∀ c ∈ rest.head?, Text.isBlank c = true) → t.ReadsBack rest) :
    AllReadBack tokens := by
  induction tokens with
  | nil => trivial
  | cons t tokens ih =>
    obtain ⟨here, later⟩ := List.forall_mem_cons.1 reads
    exact ⟨here _ isBlank_of_following, ih later⟩

/-! ## Before a blank or the end -/

section

variable {rest : Text} (ends : ∀ c ∈ rest.head?, Text.isBlank c = true)

include ends

/-- A run ends where a blank stands. -/
theorem wordRun_eq_nil : wordRun rest = [] := by
  cases rest with
  | nil => rfl
  | cons c rest =>
    have blank := ends c rfl
    simp [wordRun, isWordChar, blank]

theorem wordRun_append_length_le (t : Text) : (wordRun (t ++ rest)).length ≤ t.length := by
  have nothing : rest.takeWhile isWordChar = [] := wordRun_eq_nil ends
  rw [wordRun, List.takeWhile_append, nothing, List.append_nil]
  split
  · exact Nat.le_refl _
  · exact (List.takeWhile_prefix _).length_le

theorem readsBack_sign {kind : Kind} {sign : Text} (spelt : kind.spelling? = some sign)
    (position : Nat) : ReadsBack ⟨kind, sign, position⟩ rest := by
  have asWritten : written ⟨kind, sign, position⟩ = sign := by
    cases kind <;> first | contradiction | rfl
  obtain ⟨c, more, first, notBlank⟩ :
      ∃ c more, sign = c :: more ∧ Text.isBlank c = false := by
    cases kind <;> first | contradiction | (obtain rfl := Option.some.inj spelt; exact ⟨_, _, rfl, rfl⟩)
  refine ⟨⟨c, more ++ rest, by rw [asWritten, first]; rfl, notBlank⟩, ?_⟩
  rw [asWritten]
  by_cases semicolon : kind = .semicolon
  · subst semicolon
    obtain rfl := Option.some.inj spelt
    exact opening_of_semicolon rfl
  · have run : wordRun (sign ++ rest) = sign := by
      have nothing : rest.takeWhile isWordChar = [] := wordRun_eq_nil ends
      rw [wordRun, List.takeWhile_append_of_pos (isWordChar_of_mem_spelling spelt semicolon),
        nothing, List.append_nil]
    rw [opening_of_spelling (by rw [run, spelt]) semicolon, run]

omit ends in
theorem beforeBareQuote?_cons {c : Char} {t : Text} (notQuote : c ≠ '"')
    (noPair : c = '\\' → t.head? ≠ some '"') :
    beforeBareQuote? (c :: t) = (beforeBareQuote? t).map (c :: ·) := by
  rw [beforeBareQuote?]
  · exact notQuote
  · rintro rest rfl rfl
    exact noPair rfl rfl

omit ends in
/-- Before the quote that closes it, a value without a double quote that ends in no backslash stands
whole. -/
theorem beforeBareQuote?_append {value : Text} (noQuote : '"' ∉ value)
    (noBackslash : value.getLast? ≠ some '\\') (rest : Text) :
    beforeBareQuote? (value ++ '"' :: rest) = some value := by
  induction value with
  | nil => rfl
  | cons c value ih =>
    obtain ⟨notQuote, later⟩ := not_or.1 (fun h => noQuote (List.mem_cons.2 h))
    rw [List.cons_append, beforeBareQuote?_cons (Ne.symm notQuote)]
    · rw [ih later]
      · rfl
      · cases value with
        | nil => simp
        | cons d value => rwa [List.getLast?_cons_cons] at noBackslash
    · rintro rfl
      cases value with
      | nil => simp at noBackslash
      | cons d value =>
        rintro ⟨⟩
        exact later List.mem_cons_self

theorem readsBack_quoted {value : Text} (noQuote : '"' ∉ value)
    (noBackslash : value.getLast? ≠ some '\\') (position : Nat) :
    ReadsBack ⟨.quoted, value, position⟩ rest := by
  have quoted : quotedString? ('"' :: value ++ ['"'] ++ rest) = some ('"' :: value ++ ['"']) := by
    rw [quotedString?_eq, List.append_assoc, List.cons_append, lexeme?_quoted_cons, quotedBody?,
      List.singleton_append, beforeBareQuote?_append noQuote noBackslash]
    rfl
  exact ⟨⟨'"', _, rfl, rfl⟩,
    opening_of_string (by simp [written]) quoted (wordRun_append_length_le ends _)⟩

theorem readsBack_word {value : Text} (some : value ≠ [])
    (inside : ∀ c ∈ value, isWordChar c = true) (noQuote : value.head? ≠ Option.some '"')
    (unspelt : ∀ kind : Kind, kind.spelling? ≠ Option.some value) (position : Nat) :
    ReadsBack ⟨.word, value, position⟩ rest := by
  obtain ⟨c, more, rfl⟩ := List.exists_cons_of_ne_nil some
  have first := inside c List.mem_cons_self
  simp only [isWordChar, Bool.and_eq_true, Bool.not_eq_true', bne_iff_ne] at first
  have run : wordRun (c :: more ++ rest) = c :: more := by
    have nothing : rest.takeWhile isWordChar = [] := wordRun_eq_nil ends
    rw [wordRun, List.takeWhile_append_of_pos inside, nothing, List.append_nil]
  refine ⟨⟨c, more ++ rest, rfl, first.1⟩, ?_⟩
  have opens : opening (c :: more ++ rest) = (.word, c :: more) := by
    rw [opening_of_run, run, kindOfRun_of_unspelt unspelt]
    · simpa using first.2
    · intro string quoted
      rw [quotedString?, if_neg (by simpa using noQuote)] at quoted
      contradiction
  exact opens

end

end Token

end ChainShell
