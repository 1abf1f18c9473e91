/-
# ChainShell.Proofs.Chain.Acceptance — which lines are read, and why the others fail

A line is read exactly when its tokens are those of a proper sentence, and the chain is
what the sentence means.  A line that is not read fails at its leftmost offence
(`Offence`): the first token at which the tokens so far stop being the beginning of a
proper sentence, or the end of the line if they are a beginning and no more.  An
offending string is a command that expands to nothing; any other offending token, and
the end of the line, stand where a string is required.

* `parseFrom_cons_cases`: a token either fails whatever follows it, or leads on.
* `exists_completion`: no reading that has not failed is stuck.
* `parseFrom_error_cases`: from these two, where a failed reading failed.
* `ofLine_outcome`: both halves, for every line and every store.
-/
import ChainShell.Proofs.Chain.Grammar

set_option autoImplicit false

namespace ChainShell

/-! ## Beginnings of sentences and offences -/

/-- The tokens are those of a proper sentence. -/
def Accepted (store : Store) (tokens : List Token) : Prop :=
  ∃ s : Sentence, s.Proper store ∧ s.tokens = tokens

/-- The tokens begin a proper sentence. -/
def Viable (store : Store) (tokens : List Token) : Prop := ∃ more, Accepted store (tokens ++ more)

/-- The error of a token that does not fit: a string is a command that expands to nothing, and
any other token stands where a string is required. -/
def Token.offence (token : Token) : ShellError :=
  if token.kind = .word ∨ token.kind = .quoted then .emptyCommand token.value
  else .expectedWord (some token.value)

/-- The leftmost offence of a list of tokens. -/
inductive Offence (store : Store) (tokens : List Token) : ShellError → Prop where
  /-- The tokens before this one begin a proper sentence, and with it they do not. -/
  | atToken {before after : List Token} {token : Token}
      (split : tokens = before ++ token :: after) (viable : Viable store before)
      (stuck : ¬ Viable store (before ++ [token])) : Offence store tokens token.offence
  /-- The tokens begin a proper sentence and are none. -/
  | atEnd (viable : Viable store tokens) (incomplete : ¬ Accepted store tokens) :
      Offence store tokens (.expectedWord none)

/-- What begins the beginning of a sentence begins the sentence. -/
theorem Viable.of_append {store : Store} {tokens more : List Token}
    (viable : Viable store (tokens ++ more)) : Viable store tokens := by
  obtain ⟨rest, accepted⟩ := viable
  exact ⟨more ++ rest, by rwa [← List.append_assoc]⟩

namespace Offence

variable {store : Store} {tokens : List Token}

theorem not_accepted {error : ShellError} (offence : Offence store tokens error) :
    ¬ Accepted store tokens := by
  intro accepted
  cases offence with
  | atEnd viable incomplete => exact incomplete accepted
  | @atToken before after token split viable stuck =>
    apply stuck
    refine ⟨after, ?_⟩
    rw [List.append_assoc, List.singleton_append, ← split]
    exact accepted

/-- A viable beginning does not go past a token that is stuck. -/
theorem eq_of_stuck {before middle after after' : List Token} {token token' : Token}
    (stuck : ¬ Viable store (before ++ [token])) (viable : Viable store (before ++ middle))
    (rest : token :: after = middle ++ token' :: after') : token = token' := by
  cases middle with
  | nil => exact (List.cons.inj rest).1
  | cons head middle =>
    obtain ⟨rfl, -⟩ := List.cons.inj rest
    rw [← List.singleton_append, ← List.append_assoc] at viable
    exact absurd viable.of_append stuck

/-- No list of tokens has two leftmost offences. -/
theorem unique {error error' : ShellError} (first : Offence store tokens error)
    (second : Offence store tokens error') : error = error' := by
  cases first with
  | atEnd viable incomplete =>
    cases second with
    | atEnd => rfl
    | @atToken before after token split _ stuck =>
      rw [split, ← List.singleton_append, ← List.append_assoc] at viable
      exact absurd viable.of_append stuck
  | @atToken before after token split viable stuck =>
    cases second with
    | atEnd viable' incomplete =>
      rw [split, ← List.singleton_append, ← List.append_assoc] at viable'
      exact absurd viable'.of_append stuck
    | @atToken before' after' token' split' viable' stuck' =>
      rw [split] at split'
      rcases List.append_eq_append_iff.1 split' with ⟨middle, rfl, rest⟩ | ⟨middle, rfl, rest⟩
      · rw [eq_of_stuck stuck viable' rest]
      · rw [eq_of_stuck stuck' viable rest]

end Offence

/-- What may stand after part of a chain: that part, with any command and sign that it began
with, is completed to a sentence. -/
def Chain.Expect.Completes : Chain.Expect → List Token → Prop
  | .command, rest => ∃ s : Sentence, s.tokens = rest
  | .more _, rest => ∀ command : Token.Word, ∃ s : Sentence, s.tokens = command.val :: rest
  | .target stream _, rest =>
    ∀ (command : Token.Word) (sign : Token.Sign stream.kind),
      ∃ s : Sentence, s.tokens = command.val :: sign.val :: rest

/-- A sentence with an item put after its first command. -/
def Sentence.insert (item : Item) : Sentence → Sentence
  | .last phrase => .last { phrase with items := item :: phrase.items }
  | .tied phrase operator sign rest =>
    .tied { phrase with items := item :: phrase.items } operator sign rest

theorem Sentence.tokens_insert {item : Item} {s : Sentence} {command : Token} {rest : List Token}
    (begins : s.tokens = command :: rest) :
    (s.insert item).tokens = command :: (item.tokens ++ rest) := by
  cases s with
  | last phrase =>
    simp only [tokens, Phrase.tokens, List.cons.injEq] at begins
    simp [insert, tokens, Phrase.tokens, begins]
  | tied phrase operator sign later =>
    simp only [tokens, Phrase.tokens, List.cons_append, List.cons.injEq] at begins
    simp [insert, tokens, Phrase.tokens, begins.1, ← begins.2]

theorem Token.offence_of_not_isString {token : Token} (noString : token.kind.isString = false) :
    token.offence = .expectedWord (some token.value) := by
  rw [offence, if_neg]
  rw [← Kind.isString_iff, noString]
  exact Bool.false_ne_true

namespace Chain

variable {store : Store}

/-! ## One token -/

theorem map_nil_append (result : Except ShellError Chain) : result.map ([] ++ ·) = result := by
  cases result <;> rfl

/-- What a string does to a reading. -/
theorem parseFrom_string (store : Store) (expect : Expect) (word : Token.Word) :
    (∀ rest, parseFrom store expect (word.val :: rest) = .error word.val.offence) ∨
      ∃ next, (∀ rest, parseFrom store expect (word.val :: rest) = parseFrom store next rest) ∧
        ∀ rest, next.Completes rest → expect.Completes (word.val :: rest) := by
  cases expect with
  | command =>
    cases expansion : store.expand word.val.value with
    | nil =>
      left
      intro rest
      simp [parseFrom, expansion, Token.offence, word.property]
    | cons c text =>
      refine .inr ⟨.more { executable := c :: text }, fun rest => ?_, fun rest completes => ?_⟩
      · simp [parseFrom, expansion]
      · exact completes word
  | more i =>
    refine .inr ⟨.more (i.addArg (store.expand word.val.value)), fun rest => ?_,
      fun rest completes command => ?_⟩
    · simp [parseFrom]
    · obtain ⟨s, begins⟩ := completes command
      exact ⟨s.insert (.argument word), Sentence.tokens_insert begins⟩
  | target stream i =>
    refine .inr ⟨.more (i.redirect stream (store.expand word.val.value)), fun rest => ?_,
      fun rest completes command sign => ?_⟩
    · simp [parseFrom]
    · obtain ⟨s, begins⟩ := completes command
      exact ⟨s.insert (.redirect stream sign word), Sentence.tokens_insert begins⟩

/-- Where a string is required, any other token fails. -/
theorem parseFrom_noString (store : Store) (expect : Expect) {token : Token}
    (noString : token.kind.isString = false) :
    (∃ i, expect = .more i) ∨
      ∀ rest, parseFrom store expect (token :: rest) = .error token.offence := by
  have offence := Token.offence_of_not_isString noString
  cases expect with
  | more i => exact .inl ⟨i, rfl⟩
  | command => exact .inr fun rest => by simp [parseFrom, noString, offence]
  | target stream i => exact .inr fun rest => by simp [parseFrom, noString, offence]

/-- What a token does to a reading: it fails with its own error whatever follows, or the reading
goes on, and what completes the reading after it completes the one before with the token. -/
theorem parseFrom_cons_cases (store : Store) (expect : Expect) (token : Token) :
    (∀ rest, parseFrom store expect (token :: rest) = .error token.offence) ∨
      ∃ next links,
        (∀ rest, parseFrom store expect (token :: rest) =
          (parseFrom store next rest).map (links ++ ·)) ∧
        ∀ rest, next.Completes rest → expect.Completes (token :: rest) := by
  rcases token.role_cases with string | ⟨stream, isRedirect⟩ | ⟨operator, isOperator⟩
  · rcases parseFrom_string store expect ⟨token, string⟩ with fails | ⟨next, goesOn, completes⟩
    · exact .inl fails
    · refine .inr ⟨next, [], fun rest => ?_, completes⟩
      rw [map_nil_append]
      exact goesOn rest
  · have role := Token.role_of_redirect (⟨token, isRedirect⟩ : Token.Sign stream.kind)
    have noString := Token.isString_of_redirect (⟨token, isRedirect⟩ : Token.Sign stream.kind)
    rcases parseFrom_noString store expect noString with ⟨i, rfl⟩ | fails
    · refine .inr ⟨.target stream i, [], fun rest => ?_, fun rest completes command => ?_⟩
      · rw [map_nil_append]
        simp only [parseFrom, role]
      · exact completes command ⟨token, isRedirect⟩
    · exact .inl fails
  · have role := Token.role_of_operator (⟨token, isOperator⟩ : Token.Sign operator.kind)
    have noString := Token.isString_of_operator (⟨token, isOperator⟩ : Token.Sign operator.kind)
    rcases parseFrom_noString store expect noString with ⟨i, rfl⟩ | fails
    · refine .inr ⟨.command, [⟨i, some operator⟩], fun rest => ?_, fun rest completes command => ?_⟩
      · simp only [parseFrom, role]
        rfl
      · obtain ⟨s, begins⟩ := completes
        refine ⟨.tied ⟨command, []⟩ operator ⟨token, isOperator⟩ s, ?_⟩
        simp [Sentence.tokens, Phrase.tokens, begins]
    · exact .inl fails

/-- Every reading that has not failed can be completed. -/
theorem exists_completion (store : Store) (expect : Expect) :
    ∃ more chain, parseFrom store expect more = .ok chain := by
  let letter : Token := { kind := .word, value := ['a'] }
  cases expect with
  | command => exact ⟨[letter], [⟨{ executable := ['a'] }, none⟩], rfl⟩
  | more i => exact ⟨[], [⟨i, none⟩], rfl⟩
  | target stream i => exact ⟨[letter], [⟨i.redirect stream ['a'], none⟩], rfl⟩

/-! ## All tokens -/

/-- What a successful reading read completes what was read before. -/
theorem completes_of_parseFrom {expect : Expect} {tokens : List Token} {chain : Chain}
    (read : parseFrom store expect tokens = .ok chain) : expect.Completes tokens := by
  induction tokens generalizing expect chain with
  | nil =>
    cases expect with
    | command => simp [parseFrom] at read
    | more i => exact fun command => ⟨.last ⟨command, []⟩, rfl⟩
    | target stream i => simp [parseFrom] at read
  | cons token rest ih =>
    rcases parseFrom_cons_cases store expect token with fails | ⟨next, links, goesOn, completes⟩
    · rw [fails] at read
      contradiction
    · rw [goesOn] at read
      cases later : parseFrom store next rest with
      | error error =>
        rw [later] at read
        contradiction
      | ok chain => exact completes rest (ih later)

/-- A failed reading failed at a token up to which it could have been completed and from which on
nothing could, or it could have been completed at the end. -/
theorem parseFrom_error_cases {expect : Expect} {tokens : List Token} {error : ShellError}
    (failed : parseFrom store expect tokens = .error error) :
    (∃ before token after, tokens = before ++ token :: after ∧ error = token.offence ∧
      (∃ more chain, parseFrom store expect (before ++ more) = .ok chain) ∧
      ∀ more, ∃ error, parseFrom store expect (before ++ token :: more) = .error error) ∨
    error = .expectedWord none ∧
      ∃ more chain, parseFrom store expect (tokens ++ more) = .ok chain := by
  induction tokens generalizing expect error with
  | nil =>
    refine .inr ⟨?_, exists_completion store expect⟩
    cases expect with
    | command => exact (Except.error.inj failed).symm
    | more i => contradiction
    | target stream i => exact (Except.error.inj failed).symm
  | cons token rest ih =>
    rcases parseFrom_cons_cases store expect token with fails | ⟨next, links, goesOn, -⟩
    · left
      rw [fails] at failed
      obtain rfl := Except.error.inj failed
      exact ⟨[], token, rest, rfl, rfl, exists_completion store expect, fun more => ⟨_, fails more⟩⟩
    · -- The token leads on: the failure is that of the rest, with the token put before it.
      rw [goesOn] at failed
      have lift : ∀ {more chain}, parseFrom store next more = .ok chain →
          ∃ chain, parseFrom store expect (token :: more) = .ok chain := by
        intro more chain read
        exact ⟨links ++ chain, by rw [goesOn, read]; rfl⟩
      cases later : parseFrom store next rest with
      | ok chain =>
        rw [later] at failed
        contradiction
      | error error' =>
        rw [later] at failed
        obtain rfl := Except.error.inj failed
        rcases ih later with ⟨before, culprit, after, rfl, rfl, ⟨more, chain, read⟩, fails⟩ |
          ⟨atEnd, more, chain, read⟩
        · refine .inl ⟨token :: before, culprit, after, rfl, rfl, ⟨more, lift read⟩, fun more => ?_⟩
          obtain ⟨error, fails⟩ := fails more
          exact ⟨error, by rw [List.cons_append, goesOn, fails]; rfl⟩
        · exact .inr ⟨atEnd, more, lift read⟩

/-! ## Acceptance -/

/-- Reading gives the meaning of the proper sentence whose tokens are read, and succeeds on no
other tokens. -/
theorem ofTokens_eq_ok_iff {tokens : List Token} {chain : Chain} :
    ofTokens store tokens = .ok chain ↔
      ∃ s : Sentence, s.Proper store ∧ s.tokens = tokens ∧ s.chain store = chain := by
  constructor
  · intro read
    obtain ⟨s, rfl⟩ : Expect.command.Completes tokens := completes_of_parseFrom read
    by_cases proper : s.Proper store
    · rw [ofTokens_tokens_of_proper proper] at read
      exact ⟨s, proper, rfl, Except.ok.inj read⟩
    · obtain ⟨p, -, -, failed⟩ := ofTokens_tokens_of_vanishing proper
      rw [failed] at read
      contradiction
  · rintro ⟨s, proper, rfl, rfl⟩
    exact ofTokens_tokens_of_proper proper

theorem accepted_iff {tokens : List Token} :
    Accepted store tokens ↔ ∃ chain, ofTokens store tokens = .ok chain := by
  constructor
  · rintro ⟨s, proper, rfl⟩
    exact ⟨s.chain store, ofTokens_tokens_of_proper proper⟩
  · rintro ⟨chain, read⟩
    obtain ⟨s, proper, begins, -⟩ := ofTokens_eq_ok_iff.1 read
    exact ⟨s, proper, begins⟩

theorem viable_iff {tokens : List Token} :
    Viable store tokens ↔ ∃ more chain, ofTokens store (tokens ++ more) = .ok chain :=
  exists_congr fun _ => accepted_iff

/-! ## Offences -/

theorem offence_of_ofTokens {tokens : List Token} {error : ShellError}
    (failed : ofTokens store tokens = .error error) : Offence store tokens error := by
  rcases parseFrom_error_cases failed with ⟨before, token, after, split, rfl, viable, fails⟩ |
    ⟨rfl, viable⟩
  · refine .atToken split (viable_iff.2 viable) ?_
    intro revived
    obtain ⟨more, chain, read⟩ := viable_iff.1 revived
    obtain ⟨error, failed⟩ := fails more
    rw [List.append_assoc, List.singleton_append, ofTokens, failed] at read
    contradiction
  · refine .atEnd (viable_iff.2 viable) ?_
    intro accepted
    obtain ⟨chain, read⟩ := accepted_iff.1 accepted
    rw [failed] at read
    contradiction

/-- Reading fails with the leftmost offence, and only where there is one. -/
theorem ofTokens_eq_error_iff {tokens : List Token} {error : ShellError} :
    ofTokens store tokens = .error error ↔ Offence store tokens error := by
  constructor
  · exact offence_of_ofTokens
  · intro offence
    cases outcome : ofTokens store tokens with
    | ok chain => exact absurd (accepted_iff.2 ⟨chain, outcome⟩) offence.not_accepted
    | error error' => rw [(offence_of_ofTokens outcome).unique offence]

/-! ## Lines -/

/-- A line is read exactly when its tokens are those of a proper sentence, as the chain that the
sentence means, and every other line fails with its leftmost offence. -/
theorem ofLine_outcome (store : Store) (line : Text) :
    (∀ chain, ofLine store line = .ok chain ↔
      ∃ s : Sentence, s.Proper store ∧ s.tokens = Token.ofLine line ∧ s.chain store = chain) ∧
    ∀ error, ofLine store line = .error error ↔ Offence store (Token.ofLine line) error :=
  ⟨fun _ => ofTokens_eq_ok_iff, fun _ => ofTokens_eq_error_iff⟩

end Chain

end ChainShell
