/-
# ChainShell.Proofs.Token.Scanning — how a scan goes through a line

`Scans` says how a table of kinds cuts a text, without counting characters to skip: blanks,
then the longest match, then the rest; until only blanks are left, or a character that
nothing matches.  Every scan goes this way (`scans_scanFrom`).

The tokens of a scan tile what it read (`Tiles`): what each was read from stands at its
place, and between them, before the first and after the last there are blanks alone.  With
all kinds in the table a scan reads the whole line, and each token is the one that the
line, from its place on, opens with (`ofLine_tokens`).
-/
import ChainShell.Proofs.Token.Matching

set_option autoImplicit false

namespace ChainShell

namespace Token

/-! ## Scans -/

/-- How a table of kinds cuts a text that starts at a position. -/
inductive Scans (table : List Kind) : Nat → Text → Scan → Prop where
  | done {position : Nat} {gap : Text} (blank : ∀ c ∈ gap, Text.isBlank c = true) :
    Scans table position gap ⟨[], none⟩
  | stuck {position : Nat} {gap rest : Text} {c : Char} (blank : ∀ c ∈ gap, Text.isBlank c = true)
      (notBlank : Text.isBlank c = false) (unmatched : longest? table (c :: rest) = none) :
    Scans table position (gap ++ c :: rest)
      ⟨[], some (.unexpectedCharacter c (position + gap.length))⟩
  | token {position : Nat} {gap lexeme rest : Text} {kind : Kind} {later : Scan}
      (blank : ∀ c ∈ gap, Text.isBlank c = true)
      (found : longest? table (lexeme ++ rest) = some (kind, lexeme))
      (goesOn : Scans table (position + gap.length + lexeme.length) rest later) :
    Scans table position (gap ++ (lexeme ++ rest))
      (.cons ⟨kind, valueOf kind lexeme, position + gap.length⟩ later)

variable {table : List Kind}

theorem Scans.cons_blank {position : Nat} {c : Char} {rest : Text} {scan : Scan}
    (isBlank : Text.isBlank c = true) (scans : Scans table (position + 1) rest scan) :
    Scans table position (c :: rest) scan := by
  cases scans with
  | done blank => exact .done (List.forall_mem_cons.2 ⟨isBlank, blank⟩)
  | @stuck _ gap rest d blank notBlank unmatched =>
    have place : position + 1 + gap.length = position + (c :: gap).length := by
      rw [List.length_cons]
      omega
    rw [place]
    exact .stuck (List.forall_mem_cons.2 ⟨isBlank, blank⟩) notBlank unmatched
  | @token _ gap lexeme rest kind later blank found goesOn =>
    have place : position + 1 + gap.length = position + (c :: gap).length := by
      rw [List.length_cons]
      omega
    rw [place] at goesOn ⊢
    exact .token (List.forall_mem_cons.2 ⟨isBlank, blank⟩) found goesOn

/-- Skipping characters is scanning what is left without them. -/
theorem scanFrom_skip (skip position : Nat) (t : Text) :
    scanFrom table skip position t = scanFrom table 0 (position + skip) (t.drop skip) := by
  induction skip generalizing position t with
  | zero => rfl
  | succ skip ih =>
    cases t with
    | nil => simp [scanFrom]
    | cons c rest =>
      rw [scanFrom, ih, List.drop_succ_cons, Nat.add_right_comm]
      rfl

theorem scanFrom_blank {c : Char} (isBlank : Text.isBlank c = true) (position : Nat) (rest : Text) :
    scanFrom table 0 position (c :: rest) = scanFrom table 0 (position + 1) rest := by
  rw [scanFrom, if_pos isBlank]

/-- A scan reads the longest match and goes on after it. -/
theorem scanFrom_found {lexeme rest : Text} {kind : Kind} (position : Nat)
    (notBlank : ∀ c ∈ (lexeme ++ rest).head?, Text.isBlank c = false)
    (found : longest? table (lexeme ++ rest) = some (kind, lexeme)) :
    scanFrom table 0 position (lexeme ++ rest) =
      .cons ⟨kind, valueOf kind lexeme, position⟩
        (scanFrom table 0 (position + lexeme.length) rest) := by
  have some := (lexeme?_isPrefix (longest?_spec found).matched).2
  cases lexeme with
  | nil => contradiction
  | cons c lexeme =>
    rw [List.cons_append] at found notBlank ⊢
    have notBlank := notBlank c rfl
    rw [scanFrom, if_neg (by simp [notBlank]), found]
    dsimp only
    rw [scanFrom_skip, List.length_cons, Nat.add_sub_cancel, List.drop_left, Nat.add_assoc,
      Nat.add_comm 1]

/-- Every scan goes from token to token. -/
theorem scans_scanFrom (position : Nat) (t : Text) :
    Scans table position t (scanFrom table 0 position t) := by
  induction length : t.length using Nat.strongRecOn generalizing position t with
  | ind n ih =>
    subst length
    cases t with
    | nil => exact .done (by simp)
    | cons c rest =>
      cases blank : Text.isBlank c with
      | true =>
        rw [scanFrom_blank blank]
        exact (ih rest.length (by simp) _ rest rfl).cons_blank blank
      | false =>
        have noGap : ∀ c ∈ ([] : Text), Text.isBlank c = true := by simp
        cases found : longest? table (c :: rest) with
        | none =>
          have stops : scanFrom table 0 position (c :: rest) =
              ⟨[], some (.unexpectedCharacter c position)⟩ := by
            rw [scanFrom, if_neg (by simp [blank]), found]
          rw [stops]
          exact .stuck noGap blank found
        | some match' =>
          obtain ⟨kind, lexeme⟩ := match'
          obtain ⟨⟨rest', whole⟩, some⟩ := lexeme?_isPrefix (longest?_spec found).matched
          have shorter : rest'.length < (c :: rest).length := by
            have pos := List.length_pos_iff.2 some
            rw [← whole, List.length_append]
            omega
          have goesOn := ih _ shorter (position + lexeme.length) rest' rfl
          rw [← whole] at found ⊢
          rw [scanFrom_found position (by rw [whole]; simpa using blank) found]
          exact .token noGap found goesOn

theorem scans_scan (table : List Kind) (line : Text) : Scans table 0 line (scan table line) :=
  scans_scanFrom 0 line

/-! ## What tokens are written as -/

/-- A token is written as what it was read from. -/
theorem written_of_longest {kind : Kind} {t lexeme : Text}
    (best : Longest table t kind lexeme) (position : Nat) :
    (Token.mk kind (valueOf kind lexeme) position).written = lexeme := by
  by_cases quoted : kind = .quoted
  · subst quoted
    have matched := best.matched
    by_cases head : t.head? = some '"'
    · obtain ⟨rest, rfl⟩ := List.head?_eq_some_iff.1 head
      obtain ⟨body, -, rfl⟩ := Option.map_eq_some_iff.1 matched
      simp [written, valueOf]
    · rw [lexeme?_quoted_of_head head] at matched
      contradiction
  · simp [written, valueOf, quoted]

/-! ## Tilings -/

/-- The tokens stand in a text that starts at a position, each at its place and as it is written,
with blanks alone before, between and after them. -/
inductive Tiles : Nat → Text → List Token → Prop where
  | done {position : Nat} {gap : Text} (blank : ∀ c ∈ gap, Text.isBlank c = true) :
    Tiles position gap []
  | token {position : Nat} {gap rest : Text} {token : Token} {tokens : List Token}
      (blank : ∀ c ∈ gap, Text.isBlank c = true) (place : token.position = position + gap.length)
      (some : token.written ≠ [])
      (goesOn : Tiles (token.position + token.written.length) rest tokens) :
    Tiles position (gap ++ (token.written ++ rest)) (token :: tokens)

namespace Tiles

variable {position : Nat} {t : Text} {tokens : List Token}

theorem position_le (tiles : Tiles position t tokens) : ∀ u ∈ tokens, position ≤ u.position := by
  induction tiles with
  | done blank => simp
  | token blank place some goesOn ih =>
    refine List.forall_mem_cons.2 ⟨by omega, fun u member => ?_⟩
    have := ih u member
    omega

/-- The places increase. -/
theorem increasing (tiles : Tiles position t tokens) :
    tokens.Pairwise fun a b => a.position < b.position := by
  induction tiles with
  | done blank => exact .nil
  | token blank place some goesOn ih =>
    refine List.pairwise_cons.2 ⟨fun u member => ?_, ih⟩
    have behind := goesOn.position_le u member
    have pos := List.length_pos_iff.2 some
    omega

end Tiles

/-! ## The tokens of a scan -/

namespace Scans

variable {position : Nat} {t : Text} {scan : Scan}

/-- The tokens of a scan that reads its text to the end tile the text. -/
theorem tiles (scans : Scans table position t scan) (ended : scan.fault = none) :
    Tiles position t scan.tokens := by
  induction scans with
  | done blank => exact .done blank
  | stuck => contradiction
  | @token position gap lexeme rest kind later blank found goesOn ih =>
    have best := longest?_spec found
    have same := written_of_longest best (position + gap.length)
    have tiled : Tiles position (gap ++ (Token.written _ ++ rest)) (_ :: later.tokens) :=
      .token blank rfl (by rw [same]; exact (lexeme?_isPrefix best.matched).2)
        (by rw [same]; exact ih ended)
    rwa [same] at tiled

theorem position_le (scans : Scans table position t scan) :
    ∀ u ∈ scan.tokens, position ≤ u.position := by
  induction scans with
  | done blank => simp
  | stuck => simp
  | token blank found goesOn ih =>
    refine List.forall_mem_cons.2 ⟨Nat.le_add_right _ _, fun u member => ?_⟩
    have := ih u member
    omega

/-- Each token is the longest match at its place. -/
theorem longest (scans : Scans table position t scan) :
    ∀ u ∈ scan.tokens, longest? table (t.drop (u.position - position)) = some (u.kind, u.written) := by
  induction scans with
  | done blank => simp
  | stuck => simp
  | @token position gap lexeme rest kind later blank found goesOn ih =>
    refine List.forall_mem_cons.2 ⟨?_, fun u member => ?_⟩
    · rw [Nat.add_sub_cancel_left, List.drop_left, found, written_of_longest (longest?_spec found)]
    · have behind := goesOn.position_le u member
      have far : u.position - position = (gap ++ lexeme).length +
          (u.position - (position + gap.length + lexeme.length)) := by
        rw [List.length_append]
        omega
      rw [far, ← List.append_assoc, ← List.drop_drop, List.drop_left]
      exact ih u member

end Scans

/-! ## Lines -/

/-- The tokens of a line: a line scans to its end, its tokens tile it, and each is the token that
the line opens with from the place of the token on. -/
theorem ofLine_tokens (line : Text) :
    (scan Kind.all line).fault = none ∧ Tiles 0 line (ofLine line) ∧
      ((ofLine line).Pairwise fun a b => a.position < b.position) ∧
      ∀ t ∈ ofLine line, t.written <+: line.drop t.position ∧
        (t.kind, t.written) = opening (line.drop t.position) := by
  have ended := fault_scan_all line
  have scans := scans_scan Kind.all line
  have tiles := scans.tiles ended
  refine ⟨ended, tiles, tiles.increasing, fun t member => ?_⟩
  have best := longest?_spec (scans.longest t member)
  exact ⟨(lexeme?_isPrefix best.matched).1, eq_opening best⟩

/-- A line with an escaped quote inside a string, and a string that only an escaped quote can
close. -/
def escapedLine : Text := "\"a \\\" b\"; 2>x 2> \"c d\\\" && e".toList

theorem ofLine_tokens_escaped :
    ofLine escapedLine =
      [⟨.quoted, "a \\\" b".toList, 0⟩, ⟨.semicolon, [';'], 8⟩, ⟨.word, "2>x".toList, 10⟩,
        ⟨.errorRedirect, ['2', '>'], 14⟩, ⟨.quoted, "c d\\".toList, 17⟩, ⟨.and, ['&', '&'], 24⟩,
        ⟨.word, ['e'], 27⟩] ∧
    (scan Kind.all escapedLine).fault = none ∧ Tiles 0 escapedLine (ofLine escapedLine) ∧
    ['\"', 'c', ' ', 'd', '\\', '\"'] <+: escapedLine.drop 17 ∧
    (.quoted, ['\"', 'c', ' ', 'd', '\\', '\"']) = opening (escapedLine.drop 17) := by
  obtain ⟨ended, tiles, -, each⟩ := ofLine_tokens escapedLine
  obtain ⟨front, opens⟩ := each ⟨.quoted, "c d\\".toList, 17⟩ (by decide)
  exact ⟨by decide, ended, tiles, front, opens⟩

end Token

end ChainShell
