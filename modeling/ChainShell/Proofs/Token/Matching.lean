/-
# ChainShell.Proofs.Token.Matching — which token a text opens with

`opening` says, without trying any kind, which token a text opens with that does not
start with a blank, and how it is written:

* a semicolon is a token of its own;
* otherwise the text opens with a run of word characters (`wordRun`), and a text that
  opens with a double quote also with a quoted string (`quotedString?`), if a double quote
  comes later.  The string ends at the first later quote that no backslash immediately
  precedes or, if there is none, at the last later quote (`closingQuote?`);
* the string is the token if it is at least as long as the run; else the run is, as the
  operator that it spells or as a word.

The longest match over all kinds finds this token (`longest?_all`).  What a longest match
over any table says about the kinds of the table is `longest?_spec`.
-/
import ChainShell.Token.Lexer
import Mathlib.Data.List.Basic
import Mathlib.Data.List.TakeWhile

set_option autoImplicit false

namespace ChainShell

namespace Token

/-! ## The token that a text opens with -/

/-- The word characters that a text opens with. -/
def wordRun (t : Text) : Text := t.takeWhile isWordChar

/-- The places of the double quotes of a text, its first character apart. -/
def laterQuotes (t : Text) : List Nat :=
  (List.range t.length).filter fun i => decide (0 < i) && t[i]? == some '"'

/-- The place of the first later quote that no backslash immediately precedes or, if there is
none, of the last later quote. -/
def closingQuote? (t : Text) : Option Nat :=
  ((laterQuotes t).find? fun i => t[i - 1]? != some '\\').or (laterQuotes t).getLast?

/-- The quoted string that a text opens with, from its first to its closing quote. -/
def quotedString? (t : Text) : Option Text :=
  if t.head? = some '"' then (closingQuote? t).map fun i => t.take (i + 1) else none

/-- The kind that is spelt as a text, or a word. -/
def kindOfRun (run : Text) : Kind :=
  if run = ['&', '&'] then .and
  else if run = ['|', '|'] then .or
  else if run = ['2', '>'] then .errorRedirect
  else if run = ['|'] then .pipe
  else if run = ['<'] then .inputRedirect
  else if run = ['>'] then .outputRedirect
  else .word

/-- The kind of the token that a text opens with, and the token as it is written. -/
def opening (t : Text) : Kind × Text :=
  if t.head? = some ';' then (.semicolon, [';'])
  else
    match (quotedString? t).filter fun string => (wordRun t).length ≤ string.length with
    | some string => (.quoted, string)
    | none => (kindOfRun (wordRun t), wordRun t)

theorem opening_of_semicolon {t : Text} (semicolon : t.head? = some ';') :
    opening t = (.semicolon, [';']) := if_pos semicolon

theorem opening_of_string {t string : Text} (other : t.head? ≠ some ';')
    (quoted : quotedString? t = some string) (long : (wordRun t).length ≤ string.length) :
    opening t = (.quoted, string) := by
  rw [opening, if_neg other, quoted, Option.filter_some, if_pos (by simpa using long)]

theorem opening_of_run {t : Text} (other : t.head? ≠ some ';')
    (short : ∀ string, quotedString? t = some string → string.length < (wordRun t).length) :
    opening t = (kindOfRun (wordRun t), wordRun t) := by
  have none : ((quotedString? t).filter fun string => (wordRun t).length ≤ string.length) = none := by
    rw [Option.filter_eq_none_iff]
    intro string quoted
    simpa using short string quoted
  rw [opening, if_neg other, none]

/-! ## Quoted strings -/

theorem laterQuotes_cons (c : Char) (rest : Text) :
    laterQuotes (c :: rest) =
      ((List.range rest.length).filter fun i => rest[i]? == some '"').map (· + 1) := by
  simp [laterQuotes, List.range_succ_eq_map, List.filter_map, Function.comp_def]

theorem laterQuotes_cons_cons (c d : Char) (rest : Text) :
    laterQuotes (c :: d :: rest) =
      (if d = '"' then [1] else []) ++ (laterQuotes (d :: rest)).map (· + 1) := by
  rw [laterQuotes_cons, laterQuotes_cons]
  by_cases quote : d = '"' <;>
    simp [List.range_succ_eq_map, List.filter_map, Function.comp_def, quote]

theorem find?_laterQuotes_cons_cons (c d : Char) (rest : Text) :
    (laterQuotes (c :: d :: rest)).find? (fun i => (c :: d :: rest)[i - 1]? != some '\\') =
      if d = '"' ∧ c ≠ '\\' then some 1
      else ((laterQuotes (d :: rest)).find? fun i => (d :: rest)[i - 1]? != some '\\').map
        (· + 1) := by
  rw [laterQuotes_cons_cons, laterQuotes_cons]
  by_cases quote : d = '"' <;> by_cases bare : c = '\\' <;>
    simp [List.find?_map, Function.comp_def, quote, bare]

/-- The text before the first bare quote is as long as the quote is far, unless the first character
is a backslash right before it. -/
theorem find?_laterQuotes (c : Char) (t : Text) (plain : c = '\\' → t.head? ≠ some '"') :
    (laterQuotes (c :: t)).find? (fun i => (c :: t)[i - 1]? != some '\\') =
      (beforeBareQuote? t).map fun body => body.length + 1 := by
  fun_induction beforeBareQuote? t generalizing c with
  | case1 => rfl
  | case2 rest =>
    have bare : c ≠ '\\' := fun same => plain same rfl
    simp [find?_laterQuotes_cons_cons, bare]
  | case3 rest ih =>
    have here := ih '"' fun same => absurd same (by decide)
    simp [find?_laterQuotes_cons_cons, here, Function.comp_def]
  | case4 d rest notQuote noPair ih =>
    have here := ih d (by
      rintro rfl
      cases rest with
      | nil => simp
      | cons e rest =>
        simp only [List.head?_cons, ne_eq, Option.some.injEq]
        rintro rfl
        exact noPair rest rfl rfl)
    have other : d ≠ '"' := notQuote
    simp [find?_laterQuotes_cons_cons, other, here, Function.comp_def]

theorem getLast?_laterQuotes (c : Char) (t : Text) :
    (laterQuotes (c :: t)).getLast? = (beforeLastQuote? t).map fun body => body.length + 1 := by
  induction t generalizing c with
  | nil => rfl
  | cons d rest ih =>
    have here := ih d
    rw [laterQuotes_cons_cons, beforeLastQuote?, List.getLast?_append, List.getLast?_map, here]
    cases beforeLastQuote? rest with
    | some body => rfl
    | none => by_cases quote : d = '"' <;> simp [quote]

theorem closingQuote?_cons (rest : Text) :
    closingQuote? ('"' :: rest) = (quotedBody? rest).map fun body => body.length + 1 := by
  rw [closingQuote?, find?_laterQuotes '"' rest fun same => absurd same (by decide),
    getLast?_laterQuotes, quotedBody?]
  cases beforeBareQuote? rest <;> rfl

/-- After the text before a quote the quote stands. -/
theorem append_of_beforeBareQuote? {t body : Text} (found : beforeBareQuote? t = some body) :
    ∃ tail, t = body ++ '"' :: tail := by
  fun_induction beforeBareQuote? t generalizing body with
  | case1 => contradiction
  | case2 rest =>
    obtain rfl := Option.some.inj found
    exact ⟨rest, rfl⟩
  | case3 rest ih =>
    obtain ⟨inner, here, rfl⟩ := Option.map_eq_some_iff.1 found
    obtain ⟨tail, rfl⟩ := ih here
    exact ⟨tail, rfl⟩
  | case4 c rest _ _ ih =>
    obtain ⟨inner, here, rfl⟩ := Option.map_eq_some_iff.1 found
    obtain ⟨tail, rfl⟩ := ih here
    exact ⟨tail, rfl⟩

theorem append_of_beforeLastQuote? {t body : Text} (found : beforeLastQuote? t = some body) :
    ∃ tail, t = body ++ '"' :: tail := by
  induction t generalizing body with
  | nil => contradiction
  | cons c rest ih =>
    rw [beforeLastQuote?] at found
    split at found
    · rename_i inner here
      obtain rfl := Option.some.inj found
      obtain ⟨tail, rfl⟩ := ih here
      exact ⟨tail, rfl⟩
    · split at found
      · rename_i quote
        obtain rfl := Option.some.inj found
        exact ⟨rest, by rw [quote]; rfl⟩
      · contradiction

theorem append_of_quotedBody? {t body : Text} (found : quotedBody? t = some body) :
    ∃ tail, t = body ++ '"' :: tail := by
  rcases Option.or_eq_some_iff.1 found with bare | ⟨-, last⟩
  · exact append_of_beforeBareQuote? bare
  · exact append_of_beforeLastQuote? last

/-! ## What single kinds match -/

theorem lexeme?_quoted_cons (rest : Text) :
    Kind.quoted.lexeme? ('"' :: rest) = (quotedBody? rest).map fun body => '"' :: body ++ ['"'] :=
  rfl

theorem lexeme?_quoted_of_head {t : Text} (other : t.head? ≠ some '"') :
    Kind.quoted.lexeme? t = none := by
  unfold Kind.lexeme?
  dsimp only
  split
  · exact absurd rfl other
  · rfl

/-- The quoted string that a text opens with is what the kind of quoted strings matches. -/
theorem quotedString?_eq (t : Text) : quotedString? t = Kind.quoted.lexeme? t := by
  by_cases head : t.head? = some '"'
  · obtain ⟨rest, rfl⟩ := List.head?_eq_some_iff.1 head
    rw [quotedString?, if_pos head, closingQuote?_cons, lexeme?_quoted_cons]
    cases found : quotedBody? rest with
    | none => rfl
    | some body =>
      obtain ⟨tail, rfl⟩ := append_of_quotedBody? found
      simp [List.take_append, List.take_of_length_le]
  · rw [quotedString?, if_neg head, lexeme?_quoted_of_head head]

theorem lexeme?_word (t : Text) :
    Kind.word.lexeme? t = if wordRun t = [] then none else some (wordRun t) := by
  simp only [Kind.lexeme?]
  split
  · rename_i empty
    exact (if_pos empty).symm
  · rename_i some
    exact (if_neg some).symm

theorem lexeme?_spelt {kind : Kind} {spelling : Text} (spelt : kind.spelling? = some spelling)
    (t : Text) : kind.lexeme? t = if spelling <+: t then some spelling else none := by
  have matched : kind.lexeme? t = kind.spelling?.filter (·.isPrefixOf t) := by
    cases kind <;> first | rfl | contradiction
  rw [matched, spelt, Option.filter_some]
  simp only [List.isPrefixOf_iff_prefix]

/-- What a kind matches stands at the front, and is not empty. -/
theorem lexeme?_isPrefix {kind : Kind} {t lexeme : Text} (found : kind.lexeme? t = some lexeme) :
    lexeme <+: t ∧ lexeme ≠ [] := by
  cases spelt : kind.spelling? with
  | some spelling =>
    rw [lexeme?_spelt spelt] at found
    split at found
    · rename_i front
      obtain rfl := Option.some.inj found
      refine ⟨front, ?_⟩
      rintro rfl
      cases kind <;> contradiction
    · contradiction
  | none =>
    cases kind with
    | quoted =>
      by_cases head : t.head? = some '"'
      · obtain ⟨rest, rfl⟩ := List.head?_eq_some_iff.1 head
        obtain ⟨body, inside, rfl⟩ := Option.map_eq_some_iff.1 found
        obtain ⟨tail, rfl⟩ := append_of_quotedBody? inside
        exact ⟨⟨tail, by simp⟩, by simp⟩
      · rw [lexeme?_quoted_of_head head] at found
        contradiction
    | word =>
      rw [lexeme?_word] at found
      split at found
      · contradiction
      · rename_i some
        obtain rfl := Option.some.inj found
        exact ⟨List.takeWhile_prefix _, some⟩
    | _ => contradiction

/-! ## The longest match -/

theorem lexeme?_of_longest?_eq_none {table : List Kind} {t : Text}
    (unmatched : longest? table t = none) : ∀ kind ∈ table, kind.lexeme? t = none := by
  induction table with
  | nil => simp
  | cons first table ih =>
    rw [longest?] at unmatched
    split at unmatched
    · rename_i none
      exact List.forall_mem_cons.2 ⟨none, ih unmatched⟩
    · contradiction
    · split at unmatched <;> contradiction

/-- A kind matches, no kind of the table matches more, and of those that match as much it is the
first. -/
structure Longest (table : List Kind) (t : Text) (kind : Kind) (lexeme : Text) : Prop where
  member : kind ∈ table
  matched : kind.lexeme? t = some lexeme
  atMost : ∀ {other}, other ∈ table → ∀ {text}, other.lexeme? t = some text →
    text.length ≤ lexeme.length
  first : ∀ {other}, other ∈ table → ∀ {text}, other.lexeme? t = some text →
    text.length = lexeme.length → table.idxOf kind ≤ table.idxOf other

/-- The first kind of a table has the longest match if the others match no more. -/
theorem Longest.here {first : Kind} {table : List Kind} {t lexeme : Text}
    (matched : first.lexeme? t = some lexeme)
    (noMore : ∀ other ∈ table, ∀ text, other.lexeme? t = some text →
      text.length ≤ lexeme.length) : Longest (first :: table) t first lexeme where
  member := List.mem_cons_self
  matched := matched
  atMost := by
    intro other among text some
    rcases List.mem_cons.1 among with rfl | among
    · rw [matched] at some
      obtain rfl := Option.some.inj some
      exact Nat.le_refl _
    · exact noMore other among text some
  first := by
    intro other _ text _ _
    rw [List.idxOf_cons_self]
    exact Nat.zero_le _

/-- The longest match of a table stays so behind a kind that matches less. -/
theorem Longest.cons {first kind : Kind} {table : List Kind} {t lexeme : Text}
    (later : Longest table t kind lexeme)
    (less : ∀ text, first.lexeme? t = some text → text.length < lexeme.length) :
    Longest (first :: table) t kind lexeme where
  member := List.mem_cons_of_mem first later.member
  matched := later.matched
  atMost := by
    intro other among text some
    rcases List.mem_cons.1 among with rfl | among
    · exact Nat.le_of_lt (less text some)
    · exact later.atMost among some
  first := by
    intro other among text some even
    have notFirst : first ≠ kind := by
      rintro rfl
      exact absurd (less lexeme later.matched) (Nat.lt_irrefl _)
    by_cases same : first = other
    · subst same
      exact absurd even (Nat.ne_of_lt (less text some))
    · rw [List.idxOf_cons_ne table notFirst, List.idxOf_cons_ne table same]
      have among := List.mem_of_ne_of_mem (Ne.symm same) among
      exact Nat.succ_le_succ (later.first among some even)

theorem longest?_spec {table : List Kind} {t lexeme : Text} {kind : Kind}
    (found : longest? table t = some (kind, lexeme)) : Longest table t kind lexeme := by
  induction table generalizing kind lexeme with
  | nil => contradiction
  | cons first table ih =>
    rw [longest?] at found
    split at found
    · rename_i unmatched
      refine (ih found).cons fun text matched => ?_
      rw [unmatched] at matched
      contradiction
    · rename_i matched unmatched
      obtain ⟨rfl, rfl⟩ := Prod.mk.inj (Option.some.inj found)
      refine .here matched fun other among text some => ?_
      rw [lexeme?_of_longest?_eq_none unmatched other among] at some
      contradiction
    · rename_i lexeme' best matched foundLater
      split at found
      · rename_i less
        obtain rfl := Option.some.inj found
        refine (ih foundLater).cons fun text some => ?_
        rw [matched] at some
        obtain rfl := Option.some.inj some
        exact less
      · rename_i noLess
        obtain ⟨rfl, rfl⟩ := Prod.mk.inj (Option.some.inj found)
        refine .here matched fun other among text some => ?_
        exact Nat.le_trans ((ih foundLater).atMost among some) (Nat.le_of_not_lt noLess)

/-! ## The longest match over all kinds -/

theorem wordRun_eq_nil_of_semicolon {t : Text} (head : t.head? = some ';') : wordRun t = [] := by
  obtain ⟨rest, rfl⟩ := List.head?_eq_some_iff.1 head
  rfl

/-- A spelling other than the semicolon's has word characters only. -/
theorem isWordChar_of_mem_spelling {kind : Kind} {spelling : Text}
    (spelt : kind.spelling? = some spelling) (other : kind ≠ .semicolon) :
    ∀ c ∈ spelling, isWordChar c = true := by
  refine List.all_eq_true.1 ?_
  cases kind <;> first | contradiction | (obtain rfl := Option.some.inj spelt; rfl)

theorem not_isBlank_of_mem_spelling {kind : Kind} {spelling : Text}
    (spelt : kind.spelling? = some spelling) : ∀ c ∈ spelling, Text.isBlank c = false := by
  cases kind <;> first | contradiction | (obtain rfl := Option.some.inj spelt; simp [Text.isBlank])

/-- A match starts with a character that is no blank. -/
theorem exists_cons_of_lexeme? {kind : Kind} {t lexeme : Text}
    (found : kind.lexeme? t = some lexeme) :
    ∃ c more, lexeme = c :: more ∧ Text.isBlank c = false := by
  obtain ⟨c, more, rfl⟩ := List.exists_cons_of_ne_nil (lexeme?_isPrefix found).2
  refine ⟨c, more, rfl, ?_⟩
  cases spelt : kind.spelling? with
  | some spelling =>
    rw [lexeme?_spelt spelt] at found
    split at found
    · obtain rfl := Option.some.inj found
      exact not_isBlank_of_mem_spelling spelt c List.mem_cons_self
    · contradiction
  | none =>
    cases kind with
    | quoted =>
      by_cases head : t.head? = some '"'
      · obtain ⟨rest, rfl⟩ := List.head?_eq_some_iff.1 head
        obtain ⟨body, -, same⟩ := Option.map_eq_some_iff.1 found
        obtain ⟨rfl, -⟩ := List.cons.inj same
        rfl
      · rw [lexeme?_quoted_of_head head] at found
        contradiction
    | word =>
      rw [lexeme?_word] at found
      split at found
      · contradiction
      · have inRun : c ∈ wordRun t := by
          rw [Option.some.inj found]
          exact List.mem_cons_self
        have inWord : isWordChar c = true := List.mem_takeWhile_imp inRun
        simp only [isWordChar, Bool.and_eq_true, Bool.not_eq_true'] at inWord
        exact inWord.1
    | _ => contradiction

/-- A text that opens with a spelling other than the semicolon's opens with no other sign. -/
theorem head?_of_spelling_prefix {kind : Kind} {spelling t : Text}
    (spelt : kind.spelling? = some spelling) (other : kind ≠ .semicolon) (front : spelling <+: t) :
    t.head? ≠ some ';' ∧ t.head? ≠ some '"' := by
  obtain ⟨rest, rfl⟩ := front
  cases kind <;> first | contradiction | (obtain rfl := Option.some.inj spelt; simp)

theorem spelling_prefix_wordRun {kind : Kind} {spelling t : Text}
    (spelt : kind.spelling? = some spelling) (other : kind ≠ .semicolon) (front : spelling <+: t) :
    spelling <+: wordRun t := by
  obtain ⟨rest, rfl⟩ := front
  rw [wordRun, List.takeWhile_append_of_pos (isWordChar_of_mem_spelling spelt other)]
  exact List.prefix_append _ _

theorem kindOfRun_spelling {kind : Kind} {spelling : Text}
    (spelt : kind.spelling? = some spelling) (other : kind ≠ .semicolon) :
    kindOfRun spelling = kind := by
  cases kind <;> first | contradiction | (obtain rfl := Option.some.inj spelt; rfl)

/-- A text that opens with a run spelling an operator or a redirect opens with this sign. -/
theorem opening_of_spelling {kind : Kind} {t : Text} (spelt : kind.spelling? = some (wordRun t))
    (other : kind ≠ .semicolon) : opening t = (kind, wordRun t) := by
  have front : wordRun t <+: t := List.takeWhile_prefix _
  have heads := head?_of_spelling_prefix spelt other front
  rw [opening_of_run heads.1 fun string quoted => ?_, kindOfRun_spelling spelt other]
  rw [quotedString?, if_neg heads.2] at quoted
  contradiction

theorem kindOfRun_of_unspelt {run : Text} (unspelt : ∀ kind : Kind, kind.spelling? ≠ some run) :
    kindOfRun run = .word := by
  have and := unspelt .and
  have or := unspelt .or
  have error := unspelt .errorRedirect
  have pipe := unspelt .pipe
  have input := unspelt .inputRedirect
  have output := unspelt .outputRedirect
  simp only [Kind.spelling?, ne_eq, Option.some.injEq] at and or error pipe input output
  simp only [kindOfRun, Ne.symm and, Ne.symm or, Ne.symm error, Ne.symm pipe, Ne.symm input,
    Ne.symm output, if_false]

theorem Kind.mem_all (kind : Kind) : kind ∈ all := by
  cases kind <;> decide

section

variable {t lexeme : Text} {kind : Kind} (best : Longest Kind.all t kind lexeme)

include best

theorem wordRun_length_le : (wordRun t).length ≤ lexeme.length := by
  by_cases empty : wordRun t = []
  · rw [empty]
    exact Nat.zero_le _
  · have matched : Kind.word.lexeme? t = some (wordRun t) := by rw [lexeme?_word, if_neg empty]
    exact best.atMost (Kind.mem_all _) matched

/-- A kind that is spelt matches no more than the run, so the run is its spelling. -/
theorem eq_opening_of_spelt {spelling : Text} (spelt : kind.spelling? = some spelling) :
    (kind, lexeme) = opening t := by
  have matched := best.matched
  rw [lexeme?_spelt spelt] at matched
  split at matched
  · rename_i front
    obtain rfl := Option.some.inj matched
    by_cases semicolon : kind = .semicolon
    · subst semicolon
      obtain rfl := Option.some.inj spelt
      obtain ⟨rest, rfl⟩ := front
      exact (opening_of_semicolon rfl).symm
    · obtain rfl : spelling = wordRun t :=
        (spelling_prefix_wordRun spelt semicolon front).eq_of_length_le (wordRun_length_le best)
      exact (opening_of_spelling spelt semicolon).symm
  · contradiction

/-- The longest match over all kinds is the token that the text opens with. -/
theorem eq_opening : (kind, lexeme) = opening t := by
  cases spelt : kind.spelling? with
  | some spelling => exact eq_opening_of_spelt best spelt
  | none =>
    have noSemicolon : t.head? ≠ some ';' := by
      intro head
      have matched := best.matched
      cases kind with
      | quoted =>
        rw [lexeme?_quoted_of_head (by simp [head])] at matched
        contradiction
      | word =>
        rw [lexeme?_word, if_pos (wordRun_eq_nil_of_semicolon head)] at matched
        contradiction
      | _ => contradiction
    cases kind with
    | quoted =>
      have quoted : quotedString? t = some lexeme := by rw [quotedString?_eq, best.matched]
      exact (opening_of_string noSemicolon quoted (wordRun_length_le best)).symm
    | word =>
      have matched := best.matched
      rw [lexeme?_word] at matched
      split at matched
      · contradiction
      · obtain rfl := Option.some.inj matched
        -- A string or a spelling as long as the run would come before the word.
        have unspelt : ∀ kind : Kind, kind.spelling? ≠ some (wordRun t) := by
          intro kind spelt
          have other : kind.lexeme? t = some (wordRun t) := by
            rw [lexeme?_spelt spelt]
            exact if_pos (List.takeWhile_prefix _)
          have last := best.first (Kind.mem_all kind) other rfl
          cases kind <;> contradiction
        rw [opening_of_run noSemicolon fun string quoted => ?_, kindOfRun_of_unspelt unspelt]
        rw [quotedString?_eq] at quoted
        apply Nat.lt_of_le_of_ne (best.atMost (Kind.mem_all _) quoted)
        intro even
        have last := best.first (Kind.mem_all _) quoted even
        contradiction
    | _ => contradiction

end

/-- A text that starts with no blank has a longest match, the token that it opens with. -/
theorem longest?_all {c : Char} (rest : Text) (notBlank : Text.isBlank c = false) :
    longest? Kind.all (c :: rest) = some (opening (c :: rest)) := by
  obtain ⟨⟨kind, lexeme⟩, found⟩ := Option.isSome_iff_exists.1 (longest?_all_isSome rest notBlank)
  rw [found, eq_opening (longest?_spec found)]

end Token

end ChainShell
