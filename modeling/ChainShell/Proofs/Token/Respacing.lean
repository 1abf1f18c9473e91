/-
# ChainShell.Proofs.Token.Respacing — a line with single spaces between its tokens

`normalForm` cuts a line into its tokens and writes them back with single spaces between them.
Cutting the result gives the same tokens again (`lexemes_ofLine_normalForm`), although blanks now
stand between tokens that touched, and although the quote that closes a string depends on the
rest of the line.

What matters of the rest is little.  A string that is closed inside a text is closed by the same
quote before any other rest, as long as no quotes are added to a rest that has none
(`quotedBody?_respaced`), and so the text opens with the same token (`opening_respaced`).  The
rest of a line holds every quote of the tokens that are read from it, so each token reads back
before those after it (`allReadBack_of_scans`).
-/
import ChainShell.Proofs.Chain.Quoting
import ChainShell.Proofs.Token.Margins
import Mathlib.Data.List.TakeWhile

set_option autoImplicit false

namespace ChainShell

namespace Token

/-- The tokens of a line with single spaces between them. -/
def normalForm (line : Text) : Text := spaced (ofLine line)

/-! ## The quote that closes a string -/

/-- What stands after the first bare quote does not matter. -/
theorem beforeBareQuote?_respaced {body rest : Text}
    (found : beforeBareQuote? (body ++ '"' :: rest) = some body) (rest' : Text) :
    beforeBareQuote? (body ++ '"' :: rest') = some body := by
  generalize whole : body ++ '"' :: rest = t at found
  fun_induction beforeBareQuote? t generalizing body with
  | case1 => contradiction
  | case2 t =>
    obtain rfl := Option.some.inj found
    rfl
  | case3 t ih =>
    obtain ⟨body, inner, rfl⟩ := Option.map_eq_some_iff.1 found
    obtain rfl : body ++ '"' :: rest = t := by simpa using whole
    exact congrArg (Option.map _) (ih rfl inner)
  | case4 c t notQuote noPair ih =>
    obtain ⟨body, inner, rfl⟩ := Option.map_eq_some_iff.1 found
    obtain rfl : body ++ '"' :: rest = t := by simpa using whole
    rw [List.cons_append, beforeBareQuote?_cons notQuote, ih rfl inner]
    · rfl
    · rintro rfl paired
      cases body with
      | nil => exact noPair rest rfl rfl
      | cons d body =>
        obtain rfl : d = '"' := Option.some.inj paired
        exact noPair _ rfl rfl

theorem notMem_of_beforeLastQuote?_eq_none {t : Text} (unclosed : beforeLastQuote? t = none) :
    '"' ∉ t := by
  induction t with
  | nil => simp
  | cons c t ih =>
    rw [beforeLastQuote?] at unclosed
    split at unclosed
    · contradiction
    · rename_i later
      split at unclosed
      · contradiction
      · rename_i other
        rw [List.mem_cons, not_or]
        exact ⟨Ne.symm other, ih later⟩

theorem quotedBody?_eq_none_iff {t : Text} : quotedBody? t = none ↔ '"' ∉ t := by
  constructor
  · intro unclosed
    exact notMem_of_beforeLastQuote?_eq_none (Option.or_eq_none_iff.1 unclosed).2
  · intro absent
    rw [Option.eq_none_iff_forall_ne_some]
    intro body found
    obtain ⟨tail, rfl⟩ := append_of_quotedBody? found
    exact absent (by simp)

/-- No quote stands after the last one. -/
theorem notMem_of_beforeLastQuote? {body tail : Text}
    (found : beforeLastQuote? (body ++ '"' :: tail) = some body) : '"' ∉ tail := by
  induction body with
  | nil =>
    rw [List.nil_append, beforeLastQuote?] at found
    split at found
    · simp at found
    · rename_i none
      exact notMem_of_beforeLastQuote?_eq_none none
  | cons c body ih =>
    rw [List.cons_append, beforeLastQuote?] at found
    split at found
    · rename_i inner later
      obtain rfl : inner = body := (List.cons.inj (Option.some.inj found)).2
      exact ih later
    · split at found <;> simp at found

/-- A string that is closed inside a text is closed there before any rest that adds no quotes. -/
theorem quotedBody?_respaced {t rest rest' body : Text}
    (found : quotedBody? (t ++ rest) = some body) (inside : body.length < t.length)
    (quotes : '"' ∈ rest' → '"' ∈ rest) : quotedBody? (t ++ rest') = some body := by
  obtain ⟨tail, whole⟩ := append_of_quotedBody? found
  obtain ⟨inner, rfl, rfl⟩ : ∃ inner, t = body ++ '"' :: inner ∧ tail = inner ++ rest := by
    rcases List.append_eq_append_iff.1 whole with ⟨more, rfl, -⟩ | ⟨more, rfl, after⟩
    · rw [List.length_append] at inside
      omega
    · cases more with
      | nil => simp at inside
      | cons c more =>
        obtain ⟨rfl, rfl⟩ := List.cons.inj after
        exact ⟨more, rfl, rfl⟩
  rcases Option.or_eq_some_iff.1 found with bare | ⟨-, last⟩
  · rw [List.append_assoc, List.cons_append] at bare ⊢
    exact Option.or_eq_some_iff.2 (.inl (beforeBareQuote?_respaced bare _))
  · -- The quote is the last one, so neither rest has any.
    rw [List.append_assoc, List.cons_append] at last
    have noQuote : '"' ∉ rest := fun member =>
      notMem_of_beforeLastQuote? last (List.mem_append_right inner member)
    rw [quotedBody?_append_of_notMem fun member => noQuote (quotes member),
      ← quotedBody?_append_of_notMem noQuote, found]

/-- A string that ends inside a text is the same before any rest that adds no quotes, and there is
still none if there was none. -/
theorem quotedString?_respaced {t rest rest' : Text} (some : t ≠ [])
    (short : ∀ string, quotedString? (t ++ rest) = Option.some string → string.length ≤ t.length)
    (quotes : '"' ∈ rest' → '"' ∈ rest) : quotedString? (t ++ rest') = quotedString? (t ++ rest) := by
  obtain ⟨c, t, rfl⟩ := List.exists_cons_of_ne_nil some
  simp only [quotedString?_eq, List.cons_append] at short ⊢
  by_cases quote : c = '"'
  · subst quote
    rw [lexeme?_quoted_cons] at short ⊢
    rw [lexeme?_quoted_cons]
    cases found : quotedBody? (t ++ rest) with
    | none =>
      have absent := quotedBody?_eq_none_iff.1 found
      rw [quotedBody?_eq_none_iff.2]
      intro member
      apply absent
      simp only [List.mem_append] at member ⊢
      exact member.imp_right quotes
    | some body =>
      have inside := short _ (by rw [found]; rfl)
      simp only [List.length_append, List.length_cons, List.length_nil] at inside
      rw [quotedBody?_respaced found (by omega) quotes]
  · have noString : ∀ tail, Kind.quoted.lexeme? (c :: (t ++ tail)) = none := fun tail =>
      lexeme?_quoted_of_head (by simpa using quote)
    rw [noString, noString]

/-! ## The token that a text opens with -/

/-- A text opens with the same token before a rest that starts with a blank and adds no quotes. -/
theorem opening_respaced {kind : Kind} {lexeme rest rest' : Text} (some : lexeme ≠ [])
    (opens : opening (lexeme ++ rest) = (kind, lexeme))
    (ends : ∀ c ∈ rest'.head?, Text.isBlank c = true) (quotes : '"' ∈ rest' → '"' ∈ rest) :
    opening (lexeme ++ rest') = (kind, lexeme) := by
  by_cases semicolon : lexeme.head? = Option.some ';'
  · have first : ∀ tail, (lexeme ++ tail).head? = Option.some ';' := by
      intro tail
      rwa [List.head?_append_of_ne_nil _ some]
    rw [opening_of_semicolon (first rest)] at opens
    rw [opening_of_semicolon (first rest'), opens]
  · have other : ∀ tail, (lexeme ++ tail).head? ≠ Option.some ';' := by
      intro tail
      rwa [List.head?_append_of_ne_nil _ some]
    rw [opening, if_neg (other rest)] at opens
    split at opens
    · rename_i string found
      obtain ⟨rfl, rfl⟩ := Prod.mk.inj opens
      obtain ⟨quoted, -⟩ := Option.filter_eq_some_iff.1 found
      rw [← quotedString?_respaced some (fun other same => ?_) quotes] at quoted
      · exact opening_of_string (other rest') quoted (wordRun_append_length_le ends _)
      · rw [quoted] at same
        exact (Option.some.inj same) ▸ Nat.le_refl _
    · rename_i none
      obtain ⟨rfl, run⟩ := Prod.mk.inj opens
      have short : ∀ string, quotedString? (lexeme ++ rest) = Option.some string →
          string.length < lexeme.length := by
        intro string quoted
        rw [Option.filter_eq_none_iff] at none
        simpa [run] using none string quoted
      have same : wordRun (lexeme ++ rest') = lexeme := by
        rw [wordRun_append ends, ← run, wordRun, wordRun, List.takeWhile_idem]
      rw [opening_of_run (other rest'), same, run]
      intro string quoted
      have within := fun string found => Nat.le_of_lt (short string found)
      rw [quotedString?_respaced some within quotes] at quoted
      rw [same]
      exact short string quoted

/-! ## Lines -/

/-- Each token of a scan reads back before those after it, and their quotes are those of the
text. -/
theorem allReadBack_of_scans {position : Nat} {t : Text} {scan : Scan}
    (scans : Scans Kind.all position t scan) :
    AllReadBack scan.tokens ∧ ('"' ∈ spaced scan.tokens → '"' ∈ t) := by
  induction scans with
  | done blank => exact ⟨trivial, fun member => by contradiction⟩
  | stuck => exact ⟨trivial, fun member => by contradiction⟩
  | @token position gap lexeme rest kind later blank found goesOn ih =>
    obtain ⟨readsBack, quotes⟩ := ih
    have best := longest?_spec found
    have quotes' : '"' ∈ following later.tokens → '"' ∈ rest := by
      cases tokens : later.tokens with
      | nil => exact fun member => by contradiction
      | cons next tokens =>
        rw [following, ← tokens]
        intro member
        exact quotes ((List.mem_cons.1 member).resolve_left (by decide))
    have asWritten := written_of_longest best (position + gap.length)
    obtain ⟨c, more, first, notBlank⟩ := exists_cons_of_lexeme? best.matched
    refine ⟨⟨⟨?_, ?_⟩, readsBack⟩, ?_⟩
    · rw [asWritten, first]
      exact ⟨c, more ++ following later.tokens, rfl, notBlank⟩
    · rw [asWritten]
      exact opening_respaced (by simp [first]) (eq_opening best).symm isBlank_of_following quotes'
    · intro member
      rw [Scan.cons, spaced_cons, asWritten] at member
      simp only [List.mem_append] at member ⊢
      exact .inr (member.imp_right quotes')

theorem lexemes_ofLine_normalForm (line : Text) :
    (ofLine (normalForm line)).map lexeme = (ofLine line).map lexeme :=
  lexemes_ofLine_spaced (allReadBack_of_scans (scans_scan Kind.all line)).1

/-- What is written depends on the lexemes alone. -/
theorem spaced_congr {tokens tokens' : List Token}
    (same : tokens.map lexeme = tokens'.map lexeme) : spaced tokens = spaced tokens' := by
  have ofLexeme : ∀ tokens : List Token, tokens.map written =
      (tokens.map lexeme).map fun (kind, value) => written { kind, value } := by
    intro tokens
    rw [List.map_map]
    rfl
  rw [spaced, ofLexeme, same, ← ofLexeme, spaced]

/-- Written with single spaces between its tokens a line has the same tokens, and means the same
chain or fails with the same error under every store.  Doing this twice is doing it once, and it
makes two lines alike exactly if they have the same tokens. -/
theorem normalForm_preserves (line : Text) :
    (ofLine (normalForm line)).map lexeme = (ofLine line).map lexeme ∧
      normalForm (normalForm line) = normalForm line ∧
      (∀ other, normalForm other = normalForm line ↔
        (ofLine other).map lexeme = (ofLine line).map lexeme) ∧
      ∀ store, Chain.ofLine store (normalForm line) = Chain.ofLine store line := by
  have kept := lexemes_ofLine_normalForm
  refine ⟨kept line, spaced_congr (kept line), fun other => ⟨fun same => ?_, spaced_congr⟩, ?_⟩
  · rw [← kept other, same, kept line]
  · intro store
    exact Chain.parseFrom_congr .command (kept line)

/-- Tokens that touch behind a string and around a semicolon, and a string that only an escaped quote
can close. -/
example : normalForm "\"a;b\"c;;d\t >  \"e\\\" f".toList = "\"a;b\" c ; ; d > \"e\\\" f".toList := by
  decide

end Token

end ChainShell
