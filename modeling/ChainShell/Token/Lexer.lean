/-
# ChainShell.Token.Lexer — cutting a line into tokens

At each place that is not blank every kind of a table is tried; the longest match
wins, and of equally long ones the kind listed first (`longest?`).

* An operator or redirect sign matches its spelling.
* A word is a run without space, tab and semicolon.
* A quoted string runs from a double quote to the first later one that no backslash
  precedes or, if there is none, to the last later one (`quotedBody?`).  Backslashes
  stay in the value.

With every kind in the table a line always scans to its end, since any character
that is neither blank nor a semicolon starts a word (`fault_scan_all`).  A smaller
table can meet a character that nothing matches; the tokens before it are kept.
-/
import ChainShell.Text.Class
import ChainShell.Token.Basic
import ChainShell.Error

set_option autoImplicit false

namespace ChainShell

namespace Token

/-! ## Matching one kind -/

/-- A character that a word may hold. -/
def isWordChar (c : Char) : Bool := !Text.isBlank c && c != ';'

/-- The text before the first double quote that no backslash precedes. -/
def beforeBareQuote? : Text → Option Text
  | [] => none
  | '"' :: _ => some []
  | '\\' :: '"' :: rest => (beforeBareQuote? rest).map fun body => '\\' :: '"' :: body
  | c :: rest => (beforeBareQuote? rest).map (c :: ·)

/-- The text before the last double quote. -/
def beforeLastQuote? : Text → Option Text
  | [] => none
  | c :: rest =>
    match beforeLastQuote? rest with
    | some body => some (c :: body)
    | none => if c = '"' then some [] else none

/-- The value of the quoted string whose opening quote the text follows. -/
def quotedBody? (rest : Text) : Option Text :=
  (beforeBareQuote? rest).or (beforeLastQuote? rest)

/-- The text that a kind matches at the front, if it matches. -/
def Kind.lexeme? (kind : Kind) (line : Text) : Option Text :=
  match kind with
  | .word =>
    match line.takeWhile isWordChar with
    | [] => none
    | lexeme => some lexeme
  | .quoted =>
    match line with
    | '"' :: rest => (quotedBody? rest).map fun body => '"' :: body ++ ['"']
    | _ => none
  | operator => operator.spelling?.filter (·.isPrefixOf line)

/-- The longest match at the front among the kinds of a table, the first of equally long ones. -/
def longest? : List Kind → Text → Option (Kind × Text)
  | [], _ => none
  | kind :: table, line =>
    match kind.lexeme? line, longest? table line with
    | none, later => later
    | some lexeme, none => some (kind, lexeme)
    | some lexeme, some later =>
      if lexeme.length < later.2.length then some later else some (kind, lexeme)

/-! ## Scanning a line -/

/-- The value of a token from its text on the line. -/
def valueOf (kind : Kind) (lexeme : Text) : Text :=
  if kind = .quoted then lexeme.tail.dropLast else lexeme

/-- What a scan yields: the tokens in order, and the character that stopped it, if one did. -/
structure Scan where
  tokens : List Token
  fault : Option ShellError
  deriving DecidableEq, Repr

def Scan.cons (t : Token) (s : Scan) : Scan := { s with tokens := t :: s.tokens }

/-- Scans from `position` on; the first `skip` characters belong to the token read last. -/
def scanFrom (table : List Kind) : (skip position : Nat) → Text → Scan
  | _, _, [] => ⟨[], none⟩
  | skip + 1, position, _ :: rest => scanFrom table skip (position + 1) rest
  | 0, position, c :: rest =>
    if Text.isBlank c then scanFrom table 0 (position + 1) rest
    else
      match longest? table (c :: rest) with
      | none => ⟨[], some (.unexpectedCharacter c position)⟩
      | some (kind, lexeme) =>
        .cons ⟨kind, valueOf kind lexeme, position⟩
          (scanFrom table (lexeme.length - 1) (position + 1) rest)

/-- Scans a line under a table of kinds. -/
def scan (table : List Kind) (line : Text) : Scan := scanFrom table 0 0 line

/-- The first `n` tokens alone, with the fault only if the scan had to go that far. -/
def Scan.take (n : Nat) (s : Scan) : Scan :=
  if n ≤ s.tokens.length then ⟨s.tokens.take n, none⟩ else s

def ofLine (line : Text) : List Token := (scan Kind.all line).tokens

/-! ## The full table never stops early -/

theorem longest?_isSome_cons {kind : Kind} {table : List Kind} {line : Text}
    (later : (longest? table line).isSome) : (longest? (kind :: table) line).isSome := by
  simp only [longest?]
  split
  · exact later
  · rfl
  · split <;> rfl

theorem longest?_all_isSome {c : Char} (rest : Text) (notBlank : Text.isBlank c = false) :
    (longest? Kind.all (c :: rest)).isSome := by
  by_cases semi : c = ';'
  · subst semi
    iterate 3 apply longest?_isSome_cons
    simp only [longest?, Kind.lexeme?, Kind.spelling?]
    split
    · simp_all [Option.filter]
    · rfl
    · split <;> rfl
  · iterate 8 apply longest?_isSome_cons
    have inWord : isWordChar c = true := by simp [isWordChar, notBlank, semi]
    simp [longest?, Kind.lexeme?, inWord]

theorem fault_scanFrom_all (skip position : Nat) (line : Text) :
    (scanFrom Kind.all skip position line).fault = none := by
  induction line generalizing skip position with
  | nil => simp [scanFrom]
  | cons c rest ih =>
    cases skip with
    | succ skip => simpa [scanFrom] using ih skip (position + 1)
    | zero =>
      cases blank : Text.isBlank c with
      | true => simpa [scanFrom, blank] using ih 0 (position + 1)
      | false =>
        obtain ⟨found, h⟩ := Option.isSome_iff_exists.1 (longest?_all_isSome rest blank)
        simpa [scanFrom, blank, h, Scan.cons] using ih (found.2.length - 1) (position + 1)

/-- A scan under the full table reaches the end of every line. -/
theorem fault_scan_all (line : Text) : (scan Kind.all line).fault = none :=
  fault_scanFrom_all 0 0 line

end Token

end ChainShell
