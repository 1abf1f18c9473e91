/-
# ChainShell.Proofs.Token.Margins — what stands before and after a line

Blanks before a line are passed over: every token moves to the right by as many characters
(`scanFrom_blanks`).  What the tokens are does not depend on where the scan starts to count
(`lexemes_scanFrom_position`).

What stands after a line and starts with a blank is scanned by itself (`scanFrom_append`), if
the two do not share a quoted string: one of them holds no double quote.  Each token of the
line could reach into what follows it: a quoted string runs to a later quote, a word and a
spelling go on as long as they match.  None does, since no blank is a word character or part of
a spelling, and a string has no quote to start at or none to run to.  So every kind matches the
same text with what follows as without it (`lexeme?_append`), and the scan is the same step by
step.

So the tokens of such a line and its continuation are those of the one and of the other
(`lexemes_ofLine_append`), and blanks that are added at the two ends of a line change none of
its tokens but for their places (`lexemes_ofLine_margins`).

Only spaces and tabs are blanks.  Any other white space is part of a word.
-/
import ChainShell.Proofs.Token.Spacing

set_option autoImplicit false

namespace ChainShell

namespace Token

/-! ## Before the line -/

/-- A scan passes over the blanks before its text. -/
theorem scanFrom_blanks (table : List Kind) {gap : Text}
    (blank : ∀ c ∈ gap, Text.isBlank c = true) (position : Nat) (t : Text) :
    scanFrom table 0 position (gap ++ t) = scanFrom table 0 (position + gap.length) t := by
  induction gap generalizing position with
  | nil => rfl
  | cons c gap ih =>
    obtain ⟨here, later⟩ := List.forall_mem_cons.1 blank
    rw [List.cons_append, scanFrom_blank here, ih later, List.length_cons, Nat.add_assoc,
      Nat.add_comm 1]

/-- Where a scan starts to count does not matter for its lexemes. -/
theorem lexemes_scanFrom_position (table : List Kind) (skip position position' : Nat) (t : Text) :
    (scanFrom table skip position t).tokens.map lexeme =
      (scanFrom table skip position' t).tokens.map lexeme := by
  induction t generalizing skip position position' with
  | nil => rfl
  | cons c rest ih =>
    cases skip with
    | succ skip => exact ih skip (position + 1) (position' + 1)
    | zero =>
      rw [scanFrom, scanFrom]
      split
      · exact ih 0 (position + 1) (position' + 1)
      · split
        · rfl
        · rename_i kind text _
          exact congrArg ((kind, valueOf kind text) :: ·)
            (ih (text.length - 1) (position + 1) (position' + 1))

/-! ## Quotes before a text without quotes -/

section

variable {rest : Text} (noQuote : '"' ∉ rest)

include noQuote

theorem beforeBareQuote?_append_of_notMem (t : Text) :
    beforeBareQuote? (t ++ rest) = beforeBareQuote? t := by
  fun_induction beforeBareQuote? t with
  | case1 =>
    rw [List.nil_append, Option.eq_none_iff_forall_ne_some]
    intro body found
    obtain ⟨tail, rfl⟩ := append_of_beforeBareQuote? found
    exact noQuote (by simp)
  | case2 t => rfl
  | case3 t ih => exact congrArg (Option.map _) ih
  | case4 c t notQuote noPair ih =>
    rw [List.cons_append, beforeBareQuote?_cons notQuote, ih]
    rintro rfl paired
    cases t with
    | nil => exact noQuote (List.mem_of_head? paired)
    | cons d t =>
      obtain rfl : d = '"' := Option.some.inj paired
      exact noPair t rfl rfl

theorem beforeLastQuote?_append_of_notMem (t : Text) :
    beforeLastQuote? (t ++ rest) = beforeLastQuote? t := by
  induction t with
  | nil =>
    rw [List.nil_append, beforeLastQuote?, Option.eq_none_iff_forall_ne_some]
    intro body found
    obtain ⟨tail, rfl⟩ := append_of_beforeLastQuote? found
    exact noQuote (by simp)
  | cons c t ih => rw [List.cons_append, beforeLastQuote?, ih, beforeLastQuote?]

theorem quotedBody?_append_of_notMem (t : Text) : quotedBody? (t ++ rest) = quotedBody? t := by
  rw [quotedBody?, quotedBody?, beforeBareQuote?_append_of_notMem noQuote,
    beforeLastQuote?_append_of_notMem noQuote]

end

/-! ## After the line -/

/-- One scan after another, unless a character stopped the first one. -/
def Scan.append (first later : Scan) : Scan :=
  match first.fault with
  | some _ => first
  | none => { later with tokens := first.tokens ++ later.tokens }

theorem Scan.cons_append (t : Token) (first later : Scan) :
    (first.cons t).append later = (first.append later).cons t := by
  obtain ⟨tokens, fault⟩ := first
  cases fault <;> rfl

section

variable {rest : Text} (ends : ∀ c ∈ rest.head?, Text.isBlank c = true)

include ends

theorem wordRun_append (t : Text) : wordRun (t ++ rest) = wordRun t := by
  have nothing : rest.takeWhile isWordChar = [] := wordRun_eq_nil ends
  rw [wordRun, List.takeWhile_append, nothing, List.append_nil]
  split
  · rename_i whole
    exact ((List.takeWhile_prefix isWordChar).eq_of_length whole).symm
  · rfl

theorem lexeme?_quoted_append {t : Text} (apart : '"' ∉ t ∨ '"' ∉ rest) :
    Kind.quoted.lexeme? (t ++ rest) = Kind.quoted.lexeme? t := by
  by_cases head : t.head? = some '"'
  · obtain ⟨t, rfl⟩ := List.head?_eq_some_iff.1 head
    have noQuote : '"' ∉ rest := apart.resolve_left (not_not.2 List.mem_cons_self)
    rw [List.cons_append, lexeme?_quoted_cons, lexeme?_quoted_cons,
      quotedBody?_append_of_notMem noQuote]
  · rw [lexeme?_quoted_of_head head]
    apply lexeme?_quoted_of_head
    intro first
    cases t with
    | nil =>
      have blank := ends '"' first
      contradiction
    | cons c t => exact head first

/-- A spelling that goes on after the text would hold a blank. -/
theorem prefix_append_iff {kind : Kind} {spelling : Text}
    (spelt : kind.spelling? = some spelling) (t : Text) :
    spelling <+: t ++ rest ↔ spelling <+: t := by
  constructor
  · intro front
    rcases List.prefix_or_prefix_of_prefix front (List.prefix_append t rest) with short | ⟨more, rfl⟩
    · exact short
    · cases more with
      | nil => simp
      | cons c more =>
        obtain ⟨rest, rfl⟩ := (List.prefix_append_right_inj t).1 front
        have outside := not_isBlank_of_mem_spelling spelt c (by simp)
        rw [ends c rfl] at outside
        contradiction
  · intro front
    exact front.trans (List.prefix_append t rest)

/-- Every kind matches with what follows what it matches without it. -/
theorem lexeme?_append (kind : Kind) {t : Text} (apart : '"' ∉ t ∨ '"' ∉ rest) :
    kind.lexeme? (t ++ rest) = kind.lexeme? t := by
  cases spelt : kind.spelling? with
  | some spelling =>
    rw [lexeme?_spelt spelt, lexeme?_spelt spelt]
    simp only [prefix_append_iff ends spelt]
  | none =>
    cases kind with
    | quoted => exact lexeme?_quoted_append ends apart
    | word => rw [lexeme?_word, lexeme?_word, wordRun_append ends]
    | _ => contradiction

theorem longest?_append (table : List Kind) {t : Text} (apart : '"' ∉ t ∨ '"' ∉ rest) :
    longest? table (t ++ rest) = longest? table t := by
  induction table with
  | nil => rfl
  | cons kind table ih => rw [longest?, lexeme?_append ends kind apart, ih, longest?]

/-- What follows a text is scanned by itself. -/
theorem scanFrom_append {table : List Kind} {skip : Nat} (position : Nat) {t : Text}
    (inside : skip ≤ t.length) (apart : '"' ∉ t ∨ '"' ∉ rest) :
    scanFrom table skip position (t ++ rest) =
      (scanFrom table skip position t).append (scanFrom table 0 (position + t.length) rest) := by
  induction t generalizing skip position with
  | nil =>
    obtain rfl : skip = 0 := Nat.le_zero.1 inside
    rfl
  | cons c t ih =>
    have apart' : '"' ∉ t ∨ '"' ∉ rest := apart.imp_left fun absent later =>
      absent (List.mem_cons_of_mem c later)
    have place : position + (c :: t).length = position + 1 + t.length := by
      rw [List.length_cons]
      omega
    cases skip with
    | succ skip =>
      rw [place]
      exact ih (position + 1) (Nat.le_of_succ_le_succ inside) apart'
    | zero =>
      rw [List.cons_append, scanFrom, scanFrom, ← List.cons_append, longest?_append ends table apart,
        place]
      split
      · exact ih (position + 1) (Nat.zero_le _) apart'
      · cases found : longest? table (c :: t) with
        | none => rfl
        | some best =>
          obtain ⟨kind, lexeme⟩ := best
          -- A match stands inside the text, so what is left of it to skip does too.
          have within : lexeme.length ≤ (c :: t).length :=
            (lexeme?_isPrefix (longest?_spec found).matched).1.length_le
          rw [List.length_cons] at within
          dsimp only
          rw [ih (position + 1) (by omega) apart', Scan.cons_append]

end

/-! ## Lines -/

/-- The tokens of a line and of what follows it after a blank, if no string reaches from the one
into the other. -/
theorem lexemes_ofLine_append {line rest : Text}
    (ends : ∀ c ∈ rest.head?, Text.isBlank c = true) (apart : '"' ∉ line ∨ '"' ∉ rest) :
    (ofLine (line ++ rest)).map lexeme = (ofLine line).map lexeme ++ (ofLine rest).map lexeme := by
  have complete : (scanFrom Kind.all 0 0 line).fault = none := fault_scan_all line
  rw [ofLine, scan, scanFrom_append ends 0 (Nat.zero_le _) apart, Scan.append, complete]
  dsimp only
  rw [List.map_append, lexemes_scanFrom_position Kind.all 0 (0 + line.length) 0]
  rfl

theorem ofLine_blanks {gap : Text} (blank : ∀ c ∈ gap, Text.isBlank c = true) :
    ofLine gap = [] := by
  have passed := scanFrom_blanks Kind.all blank 0 []
  rw [List.append_nil] at passed
  rw [ofLine, scan, passed]
  rfl

/-- A line has the same lexemes with blanks before it. -/
theorem lexemes_ofLine_blanks_append {gap : Text} (blank : ∀ c ∈ gap, Text.isBlank c = true)
    (line : Text) : (ofLine (gap ++ line)).map lexeme = (ofLine line).map lexeme := by
  rw [ofLine, scan, scanFrom_blanks Kind.all blank]
  exact lexemes_scanFrom_position Kind.all 0 _ 0 line

/-- A line has the same lexemes with blanks before and after it. -/
theorem lexemes_ofLine_margins {before after : Text}
    (blankBefore : ∀ c ∈ before, Text.isBlank c = true)
    (blankAfter : ∀ c ∈ after, Text.isBlank c = true) (line : Text) :
    (ofLine (before ++ line ++ after)).map lexeme = (ofLine line).map lexeme := by
  have noQuote : '"' ∉ after := by
    intro member
    have isBlank := blankAfter '"' member
    contradiction
  have ends : ∀ c ∈ after.head?, Text.isBlank c = true :=
    fun c first => blankAfter c (List.mem_of_head? first)
  rw [lexemes_ofLine_append ends (.inr noQuote), ofLine_blanks blankAfter,
    lexemes_ofLine_blanks_append blankBefore, List.map_nil, List.append_nil]

end Token

end ChainShell
