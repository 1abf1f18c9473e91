/-
# ChainShell.Proofs.Token.Tables — scanning under any table of kinds

A table may leave out any of the kinds, or list them in another order.  Whatever it holds, a
kind reads the same at the front of a text (`Kind.Reads`): a sign its spelling, a quoted string
all up to its closing quote, a word the run of word characters.  The longest match of a table
is unique (`Longest.unique`), so the table and the line determine the places that a scan comes
to (`Reaches`): the first one that is not blank, and from each the first one that is not blank
after the longest match there.

* `Thorough` says what a scan makes of these places: a token of each at which something
  matches, and a fault at the first at which nothing does, if that is not the end of the line.
  Every scan is thorough (`Scans.thorough`).
* `pull` asks for a number of tokens, one after the other, and reads no further than it has to;
  what it gets is the beginning of the scan (`Scans.pull_eq`), whether or not the scan ends in a
  fault later on.
* `scan_thorough` puts the two together, for every table and every line.
-/
import ChainShell.Proofs.Token.Scanning

set_option autoImplicit false

namespace ChainShell

namespace Token

/-! ## What a kind reads -/

/-- What a kind reads at the front of a text. -/
inductive Kind.Reads : Kind → Text → Text → Prop where
  | sign {kind : Kind} {spelling t : Text} (spelt : kind.spelling? = some spelling)
      (front : spelling <+: t) : Reads kind t spelling
  | quoted {t string : Text} (opened : quotedString? t = some string) : Reads .quoted t string
  | word {t : Text} (some : wordRun t ≠ []) : Reads .word t (wordRun t)

theorem Kind.lexeme?_eq_some_iff {kind : Kind} {t lexeme : Text} :
    kind.lexeme? t = some lexeme ↔ kind.Reads t lexeme := by
  constructor
  · intro matched
    cases spelt : kind.spelling? with
    | some spelling =>
      rw [lexeme?_spelt spelt] at matched
      split at matched
      · rename_i front
        exact Option.some.inj matched ▸ .sign spelt front
      · contradiction
    | none =>
      cases kind with
      | quoted => exact .quoted (by rw [quotedString?_eq, matched])
      | word =>
        rw [lexeme?_word] at matched
        split at matched
        · contradiction
        · rename_i present
          exact Option.some.inj matched ▸ .word present
      | _ => contradiction
  · intro reads
    cases reads with
    | sign spelt front => rw [lexeme?_spelt spelt, if_pos front]
    | quoted opened => rw [← quotedString?_eq, opened]
    | word present => rw [lexeme?_word, if_neg present]

/-- Of all matches of a table only one is the longest and the first. -/
theorem Longest.unique {table : List Kind} {t lexeme lexeme' : Text} {kind kind' : Kind}
    (best : Longest table t kind lexeme) (other : Longest table t kind' lexeme') :
    kind' = kind ∧ lexeme' = lexeme := by
  have even : lexeme'.length = lexeme.length :=
    Nat.le_antisymm (best.atMost other.member other.matched)
      (other.atMost best.member best.matched)
  have place : table.idxOf kind' = table.idxOf kind :=
    Nat.le_antisymm (other.first best.member best.matched even.symm)
      (best.first other.member other.matched even)
  obtain rfl := (List.idxOf_inj other.member).1 place
  exact ⟨rfl, Option.some.inj (other.matched.symm.trans best.matched)⟩

/-! ## The places that a scan comes to -/

section

variable (table : List Kind) (line : Text)

/-- The first place from `position` on that is not blank. -/
def afterBlanks (position : Nat) : Nat :=
  position + ((line.drop position).takeWhile Text.isBlank).length

/-- Some kind of the table matches at a place. -/
def Matched (position : Nat) : Prop := ∃ kind ∈ table, (kind.lexeme? (line.drop position)).isSome

/-- The places that a scan from `start` comes to. -/
inductive Reaches : (start position : Nat) → Prop where
  | here {start : Nat} : Reaches start (afterBlanks line start)
  | later {start position : Nat} {kind : Kind} {lexeme : Text}
      (best : Longest table (line.drop (afterBlanks line start)) kind lexeme)
      (goesOn : Reaches (afterBlanks line start + lexeme.length) position) :
    Reaches start position

/-- What a scan from `start` makes of the places that it comes to. -/
structure Thorough (start : Nat) (scan : Scan) : Prop where
  increasing : scan.tokens.Pairwise fun a b => a.position < b.position
  longest : ∀ t ∈ scan.tokens, Longest table (line.drop t.position) t.kind t.written
  /-- There is a token at each place that is reached and matched, and there are no others. -/
  placed : ∀ position, (∃ t ∈ scan.tokens, t.position = position) ↔
    Reaches table line start position ∧ Matched table line position
  ends_iff : scan.fault = none ↔
    ∀ position, Reaches table line start position → position < line.length →
      Matched table line position
  stops_iff : ∀ e, scan.fault = some e ↔
    ∃ c position, e = .unexpectedCharacter c position ∧ Reaches table line start position ∧
      (line.drop position).head? = some c ∧ ¬ Matched table line position
  /-- All places before one that is not matched are matched, and none is reached after it. -/
  first : ∀ position, Reaches table line start position → ¬ Matched table line position →
    ∀ other, Reaches table line start other →
      other = position ∨ other < position ∧ Matched table line other

end

section

variable {table : List Kind} {line : Text} {start position : Nat}

theorem not_matched_of_longest? (unmatched : longest? table (line.drop position) = none) :
    ¬ Matched table line position := by
  rintro ⟨kind, member, some⟩
  rw [lexeme?_of_longest?_eq_none unmatched kind member] at some
  contradiction

theorem Matched.of_longest {kind : Kind} {lexeme : Text}
    (best : Longest table (line.drop position) kind lexeme) : Matched table line position :=
  ⟨kind, best.member, by rw [best.matched]; rfl⟩

/-- Nothing is reached after a place that is not matched. -/
theorem reaches_iff_of_not_matched (unmatched : ¬ Matched table line (afterBlanks line start)) :
    Reaches table line start position ↔ position = afterBlanks line start := by
  constructor
  · intro reaches
    cases reaches with
    | here => rfl
    | later best => exact absurd (.of_longest best) unmatched
  · rintro rfl
    exact .here

theorem reaches_iff_of_longest {kind : Kind} {lexeme : Text}
    (best : Longest table (line.drop (afterBlanks line start)) kind lexeme) :
    Reaches table line start position ↔ position = afterBlanks line start ∨
      Reaches table line (afterBlanks line start + lexeme.length) position := by
  constructor
  · intro reaches
    cases reaches with
    | here => exact .inl rfl
    | later best' goesOn =>
      obtain ⟨-, rfl⟩ := best.unique best'
      exact .inr goesOn
  · rintro (rfl | goesOn)
    · exact .here
    · exact .later best goesOn

theorem Reaches.le (reaches : Reaches table line start position) : start ≤ position := by
  induction reaches with
  | here => exact Nat.le_add_right _ _
  | @later start position kind lexeme best goesOn ih =>
    have skipped : start ≤ afterBlanks line start := Nat.le_add_right _ _
    omega

/-! ## Scans -/

/-- Blanks and then something else: a scan comes to where the blanks end. -/
theorem afterBlanks_of_gap {gap rest : Text} (here : line.drop start = gap ++ rest)
    (blank : ∀ c ∈ gap, Text.isBlank c = true)
    (notBlank : ∀ c ∈ rest.head?, Text.isBlank c = false) :
    afterBlanks line start = start + gap.length ∧ line.drop (start + gap.length) = rest := by
  constructor
  · rw [afterBlanks, here, (Text.span_run blank notBlank).1]
  · rw [← List.drop_drop, here, List.drop_left]

/-- A scan that comes to a place that is not matched ends there, at the end of the line or with a
fault. -/
theorem Thorough.of_not_matched {fault : Option ShellError}
    (unmatched : ¬ Matched table line (afterBlanks line start))
    (fault_iff : ∀ e, fault = some e ↔
      ∃ c, e = .unexpectedCharacter c (afterBlanks line start) ∧
        (line.drop (afterBlanks line start)).head? = some c) :
    Thorough table line start ⟨[], fault⟩ where
  increasing := .nil
  longest := by simp
  placed := by
    intro position
    rw [reaches_iff_of_not_matched unmatched]
    simp only [List.not_mem_nil, false_and, exists_false, false_iff, not_and]
    rintro rfl
    exact unmatched
  ends_iff := by
    simp only [reaches_iff_of_not_matched unmatched, forall_eq]
    constructor
    · intro none inside
      have there := List.head?_eq_some_head (mt List.drop_eq_nil_iff.1 (Nat.not_le_of_lt inside))
      have some := (fault_iff _).2 ⟨_, rfl, there⟩
      simp [none] at some
    · intro matched
      rw [Option.eq_none_iff_forall_ne_some]
      intro e found
      obtain ⟨c, -, there⟩ := (fault_iff e).1 found
      rw [List.head?_drop] at there
      exact unmatched (matched (List.getElem?_eq_some_iff.1 there).1)
  stops_iff := by
    intro e
    simp only [reaches_iff_of_not_matched unmatched]
    rw [fault_iff]
    constructor
    · rintro ⟨c, rfl, there⟩
      exact ⟨c, _, rfl, rfl, there, unmatched⟩
    · rintro ⟨c, _, rfl, rfl, there, -⟩
      exact ⟨c, rfl, there⟩
  first := by
    intro position reaches _ other reached
    rw [reaches_iff_of_not_matched unmatched] at reaches reached
    exact .inl (reached.trans reaches.symm)

/-- A scan that reads the longest match at the first place goes on after it. -/
theorem Thorough.cons {kind : Kind} {lexeme : Text} {token : Token} {later : Scan}
    (best : Longest table (line.drop (afterBlanks line start)) kind lexeme)
    (place : token.position = afterBlanks line start) (isKind : token.kind = kind)
    (written : token.written = lexeme)
    (goesOn : Thorough table line (afterBlanks line start + lexeme.length) later) :
    Thorough table line start (.cons token later) where
  increasing := by
    refine List.pairwise_cons.2 ⟨fun t member => ?_, goesOn.increasing⟩
    have reaches := ((goesOn.placed t.position).1 ⟨t, member, rfl⟩).1
    have pos := List.length_pos_iff.2 (lexeme?_isPrefix best.matched).2
    have := reaches.le
    omega
  longest := by
    refine List.forall_mem_cons.2 ⟨?_, goesOn.longest⟩
    rw [place, isKind, written]
    exact best
  placed := by
    intro position
    rw [reaches_iff_of_longest best, or_and_right, ← goesOn.placed position]
    simp only [Scan.cons, List.mem_cons, exists_eq_or_imp]
    refine or_congr ⟨?_, ?_⟩ Iff.rfl
    · intro here
      obtain rfl := place.symm.trans here
      exact ⟨rfl, .of_longest best⟩
    · rintro ⟨rfl, -⟩
      exact place
  ends_iff := by
    simp only [reaches_iff_of_longest best, Scan.cons, goesOn.ends_iff]
    constructor
    · rintro matched position (rfl | reaches) inside
      · exact .of_longest best
      · exact matched position reaches inside
    · exact fun matched position reaches => matched position (.inr reaches)
  stops_iff := by
    intro e
    simp only [reaches_iff_of_longest best, Scan.cons, goesOn.stops_iff e]
    constructor
    · rintro ⟨c, position, rfl, reaches, there, unmatched⟩
      exact ⟨c, position, rfl, .inr reaches, there, unmatched⟩
    · rintro ⟨c, position, rfl, rfl | reaches, there, unmatched⟩
      · exact absurd (.of_longest best) unmatched
      · exact ⟨c, position, rfl, reaches, there, unmatched⟩
  first := by
    intro position reaches unmatched other reached
    have later : Reaches table line (afterBlanks line start + lexeme.length) position := by
      rcases (reaches_iff_of_longest best).1 reaches with rfl | later
      · exact absurd (.of_longest best) unmatched
      · exact later
    rcases (reaches_iff_of_longest best).1 reached with rfl | reached
    · have pos := List.length_pos_iff.2 (lexeme?_isPrefix best.matched).2
      have := later.le
      exact .inr ⟨by omega, .of_longest best⟩
    · exact goesOn.first position later unmatched other reached

theorem longest?_nil : longest? table [] = none := by
  rw [Option.eq_none_iff_forall_ne_some]
  rintro ⟨kind, lexeme⟩ found
  obtain ⟨front, some⟩ := lexeme?_isPrefix (longest?_spec found).matched
  exact some (List.prefix_nil.1 front)

theorem Scans.thorough {t : Text} {scan : Scan} (scans : Scans table start t scan)
    (here : line.drop start = t) : Thorough table line start scan := by
  induction scans with
  | @done start gap blank =>
    rw [← List.append_nil gap] at here
    obtain ⟨place, left⟩ := afterBlanks_of_gap here blank (by simp)
    rw [← place] at left
    refine .of_not_matched (not_matched_of_longest? (by rw [left, longest?_nil])) fun e => ?_
    simp [left]
  | @stuck start gap rest c blank notBlank unmatched =>
    obtain ⟨place, left⟩ := afterBlanks_of_gap here blank (by simpa using notBlank)
    rw [← place] at left ⊢
    refine .of_not_matched (not_matched_of_longest? (by rw [left, unmatched])) fun e => ?_
    simp [left, eq_comm]
  | @token start gap lexeme rest kind later blank found goesOn ih =>
    have best := longest?_spec found
    obtain ⟨c, more, first, notBlank⟩ := exists_cons_of_lexeme? best.matched
    obtain ⟨place, left⟩ := afterBlanks_of_gap here blank (by simpa [first] using notBlank)
    have after : line.drop (start + gap.length + lexeme.length) = rest := by
      rw [← List.drop_drop, left, List.drop_left]
    have later := ih after
    rw [← place] at left later ⊢
    rw [← left] at best
    exact .cons best rfl rfl (written_of_longest best _) later

end

/-! ## One token at a time -/

/-- What asking for a token gives: a token and what is left after it, or the end of the scan. -/
inductive Answer where
  | token (token : Token) (position : Nat) (rest : Text)
  | ended (fault : Option ShellError)

/-- Asks for the next token of a text that starts at a position. -/
def ask (table : List Kind) (position : Nat) (t : Text) : Answer :=
  let place := position + (t.takeWhile Text.isBlank).length
  match t.dropWhile Text.isBlank with
  | [] => .ended none
  | c :: rest =>
    match longest? table (c :: rest) with
    | none => .ended (some (.unexpectedCharacter c place))
    | some (kind, lexeme) =>
      .token ⟨kind, valueOf kind lexeme, place⟩ (place + lexeme.length)
        ((c :: rest).drop lexeme.length)

/-- Asks for tokens, one after the other, until there are `n` of them or the scan has ended. -/
def pull (table : List Kind) : (n position : Nat) → Text → Scan
  | 0, _, _ => ⟨[], none⟩
  | n + 1, position, t =>
    match ask table position t with
    | .ended fault => ⟨[], fault⟩
    | .token token position rest => .cons token (pull table n position rest)

section

variable {table : List Kind} {position : Nat} {t : Text} {scan : Scan}

theorem Scan.take_zero (scan : Scan) : scan.take 0 = ⟨[], none⟩ := by simp [take]

theorem Scan.take_succ_cons (token : Token) (later : Scan) (n : Nat) :
    (cons token later).take (n + 1) = cons token (later.take n) := by
  by_cases enough : n ≤ later.tokens.length
  · simp [take, cons, enough]
  · simp [take, cons, enough]

/-- The tokens that are asked for are the first ones of the scan, and its end is only seen if there
are fewer. -/
theorem Scans.pull_eq (scans : Scans table position t scan) (n : Nat) :
    pull table n position t = scan.take n := by
  induction scans generalizing n with
  | @done position gap blank =>
    cases n with
    | zero => rw [pull, Scan.take_zero]
    | succ n =>
      have ends : (gap ++ []).dropWhile Text.isBlank = [] :=
        (Text.span_run blank (by simp)).2
      rw [List.append_nil] at ends
      simp [pull, ask, ends, Scan.take]
  | @stuck position gap rest c blank notBlank unmatched =>
    cases n with
    | zero => rw [pull, Scan.take_zero]
    | succ n =>
      have next : ∀ d ∈ (c :: rest).head?, Text.isBlank d = false := by simpa using notBlank
      obtain ⟨taken, left⟩ := Text.span_run blank next
      simp [pull, ask, taken, left, unmatched, Scan.take]
  | @token position gap lexeme rest kind later blank found goesOn ih =>
    cases n with
    | zero => rw [pull, Scan.take_zero]
    | succ n =>
      obtain ⟨c, more, first, notBlank⟩ := exists_cons_of_lexeme? (longest?_spec found).matched
      have next : ∀ d ∈ (lexeme ++ rest).head?, Text.isBlank d = false := by
        simpa [first] using notBlank
      have answer : ask table position (gap ++ (lexeme ++ rest)) =
          .token ⟨kind, valueOf kind lexeme, position + gap.length⟩
            (position + gap.length + lexeme.length) rest := by
        obtain ⟨taken, left⟩ := Text.span_run blank next
        rw [ask, taken, left]
        subst first
        rw [List.cons_append] at found ⊢
        simp only [found]
        rw [← List.cons_append, List.drop_left]
      simp only [pull, answer, Scan.take_succ_cons, ih n]

/-- No token is read from nothing. -/
theorem Scans.length_le (scans : Scans table position t scan) : scan.tokens.length ≤ t.length := by
  induction scans with
  | done => exact Nat.zero_le _
  | stuck => exact Nat.zero_le _
  | token blank found goesOn ih =>
    have pos := List.length_pos_iff.2 (lexeme?_isPrefix (longest?_spec found).matched).2
    simp only [Scan.cons, List.length_cons, List.length_append]
    omega

end

/-- Under every table, the scan of a line makes tokens of the places that it comes to, each the
longest match there, and ends in a fault at the first place that nothing matches.  Asked for its
tokens one by one, it gives the first ones whether or not it ends in a fault later, and ends after
no more of them than the line has characters. -/
theorem scan_thorough (table : List Kind) (line : Text) :
    (∀ kind t lexeme, Kind.lexeme? kind t = some lexeme ↔ kind.Reads t lexeme) ∧
    Thorough table line 0 (scan table line) ∧
    (∀ n, pull table n 0 line = (scan table line).take n) ∧
    (∀ n, n ≤ (scan table line).tokens.length →
      pull table n 0 line = ⟨(scan table line).tokens.take n, none⟩) ∧
    ∀ n, line.length < n → pull table n 0 line = scan table line := by
  have scans := scans_scan table line
  refine ⟨fun _ _ _ => Kind.lexeme?_eq_some_iff, scans.thorough rfl, scans.pull_eq, ?_, ?_⟩
  · intro n enough
    rw [scans.pull_eq, Scan.take, if_pos enough]
  · intro n beyond
    have finite := scans.length_le
    rw [scans.pull_eq, Scan.take, if_neg (by omega)]

/-- Signs and strings alone: the string reaches over a blank and a semicolon, and nothing matches
the character after it. -/
example :
    let table := [Kind.semicolon, Kind.quoted]
    let line := "; \"a ;b\" @;".toList
    let tokens : List Token := [⟨.semicolon, [';'], 0⟩, ⟨.quoted, "a ;b".toList, 2⟩]
    pull table 2 0 line = ⟨tokens, none⟩ ∧
      scan table line = ⟨tokens, some (.unexpectedCharacter '@' 9)⟩ := by
  decide

end Token

end ChainShell
