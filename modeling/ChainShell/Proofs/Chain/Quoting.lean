/-
# ChainShell.Proofs.Chain.Quoting — a chain written between double quotes reads back

`quotedLine` writes a chain as a line: every text between double quotes, the redirects with
their signs after the arguments, the operators between the invocations, and single spaces
between all of these.

A text stands for itself between double quotes (`Quotable`) if it holds no double quote,
ends in no backslash and is not changed by replacing variables in it.  Then it may hold
anything else, blanks, operators and line breaks too, or nothing: cutting the line gives
back the tokens it was written from, since a quoted string is closed by the next quote
however much of it a word would take (`allReadBack_tokens`).  Reading these tokens gives
back the invocations one by one (`parseFrom_invocation`), and so the chain
(`ofLine_quotedLine`).
-/
import ChainShell.Proofs.Chain.Grammar
import ChainShell.Proofs.Token.Spacing

set_option autoImplicit false

namespace ChainShell

/-! ## Writing -/

/-- The token of a text between double quotes. -/
def Token.quoting (t : Text) : Token := { kind := .quoted, value := t }

/-- The tokens of a redirect, if there is one. -/
def Redirect.tokens (stream : Redirect) : Option Text → List Token
  | some target => [{ kind := stream.kind, value := stream.sign }, .quoting target]
  | none => []

def Operator.token (operator : Operator) : Token := { kind := operator.kind, value := operator.sign }

namespace Invocation

def tokens (i : Invocation) : List Token :=
  i.argv.map .quoting ++
    (Redirect.input.tokens i.input ++ Redirect.output.tokens i.output ++
      Redirect.error.tokens i.error)

/-- The texts of an invocation: its command and arguments, and its targets. -/
def texts (i : Invocation) : List Text :=
  i.argv ++ (i.input.toList ++ i.output.toList ++ i.error.toList)

end Invocation

def Link.tokens (l : Link) : List Token :=
  l.invocation.tokens ++ (l.operator.map Operator.token).toList

namespace Chain

def tokens (chain : Chain) : List Token := chain.flatMap Link.tokens

/-- The chain as a line. -/
def quotedLine (chain : Chain) : Text := Token.spaced chain.tokens

/-- Every link but the last has an operator, and the last has none. -/
def Tied : Chain → Prop
  | [] => False
  | [l] => l.operator = none
  | l :: next :: rest => l.operator.isSome = true ∧ Tied (next :: rest)

end Chain

/-- The text stands for itself between double quotes. -/
structure Quotable (store : Store) (t : Text) : Prop where
  noQuote : '"' ∉ t
  noBackslash : t.getLast? ≠ some '\\'
  fixed : store.expand t = t

instance (store : Store) (t : Text) : Decidable (Quotable store t) :=
  decidable_of_iff ('"' ∉ t ∧ t.getLast? ≠ some '\\' ∧ store.expand t = t)
    ⟨fun ⟨noQuote, noBackslash, fixed⟩ => ⟨noQuote, noBackslash, fixed⟩,
      fun ⟨noQuote, noBackslash, fixed⟩ => ⟨noQuote, noBackslash, fixed⟩⟩

/-! ## Cutting the line -/

theorem Redirect.spelling?_kind (stream : Redirect) :
    stream.kind.spelling? = some stream.sign := by
  cases stream <;> rfl

theorem Operator.spelling?_kind (operator : Operator) :
    operator.kind.spelling? = some operator.sign := by
  cases operator <;> rfl

theorem Redirect.mem_tokens {stream : Redirect} {target : Option Text} {t : Token}
    (member : t ∈ stream.tokens target) :
    t.kind.spelling? = some t.value ∨ ∃ text ∈ target.toList, t = .quoting text := by
  cases target with
  | none => contradiction
  | some text =>
    rcases List.mem_cons.1 member with rfl | member
    · exact .inl stream.spelling?_kind
    · exact .inr ⟨text, List.mem_singleton_self text, List.mem_singleton.1 member⟩

theorem Invocation.mem_tokens {i : Invocation} {t : Token} (member : t ∈ i.tokens) :
    t.kind.spelling? = some t.value ∨ ∃ text ∈ i.texts, t = .quoting text := by
  simp only [texts, List.mem_append]
  rcases List.mem_append.1 member with command | redirects
  · obtain ⟨text, among, rfl⟩ := List.mem_map.1 command
    exact .inr ⟨text, .inl among, rfl⟩
  · simp only [List.mem_append] at redirects
    rcases redirects with (input | output) | error
    · exact (Redirect.mem_tokens input).imp_right fun ⟨text, among, same⟩ =>
        ⟨text, .inr (.inl (.inl among)), same⟩
    · exact (Redirect.mem_tokens output).imp_right fun ⟨text, among, same⟩ =>
        ⟨text, .inr (.inl (.inr among)), same⟩
    · exact (Redirect.mem_tokens error).imp_right fun ⟨text, among, same⟩ =>
        ⟨text, .inr (.inr among), same⟩

namespace Chain

variable {store : Store} {chain : Chain}

/-- A token of a chain is a sign, or one of the texts between double quotes. -/
theorem mem_tokens {t : Token} (member : t ∈ chain.tokens) :
    t.kind.spelling? = some t.value ∨
      ∃ l ∈ chain, ∃ text ∈ l.invocation.texts, t = .quoting text := by
  obtain ⟨l, among, member⟩ := List.mem_flatMap.1 member
  rcases List.mem_append.1 member with invocation | sign
  · exact (Invocation.mem_tokens invocation).imp_right fun written => ⟨l, among, written⟩
  · obtain ⟨operator, -, rfl⟩ := Option.map_eq_some_iff.1 (Option.mem_toList.1 sign)
    exact .inl operator.spelling?_kind

theorem allReadBack_tokens
    (quotable : ∀ l ∈ chain, ∀ text ∈ l.invocation.texts, Quotable store text) :
    Token.AllReadBack chain.tokens := by
  refine Token.allReadBack_of_forall fun t member rest ends => ?_
  rcases mem_tokens member with sign | ⟨l, among, text, inside, rfl⟩
  · exact Token.readsBack_sign ends sign t.position
  · obtain ⟨noQuote, noBackslash, -⟩ := quotable l among text inside
    exact Token.readsBack_quoted ends noQuote noBackslash 0

/-! ## Reading the tokens -/

theorem parseFrom_congr {tokens tokens' : List Token} (expect : Expect)
    (same : tokens.map Token.lexeme = tokens'.map Token.lexeme) :
    parseFrom store expect tokens = parseFrom store expect tokens' := by
  induction tokens generalizing tokens' expect with
  | nil =>
    obtain rfl := List.map_eq_nil_iff.1 same.symm
    rfl
  | cons t tokens ih =>
    cases tokens' with
    | nil => contradiction
    | cons t' tokens' =>
      obtain ⟨here, later⟩ := List.cons.inj same
      obtain ⟨kind, value⟩ := Prod.mk.inj here
      cases expect <;> simp only [parseFrom, kind, value, fun expect => ih expect later]

theorem parseFrom_args {args : List Text} (fixed : ∀ t ∈ args, store.expand t = t)
    (i : Invocation) (rest : List Token) :
    parseFrom store (.more i) (args.map .quoting ++ rest) =
      parseFrom store (.more { i with args := i.args ++ args }) rest := by
  induction args generalizing i with
  | nil => simp
  | cons arg args ih =>
    obtain ⟨here, later⟩ := List.forall_mem_cons.1 fixed
    have read : parseFrom store (.more i) ((arg :: args).map .quoting ++ rest) =
        parseFrom store (.more (i.addArg (store.expand arg))) (args.map .quoting ++ rest) := rfl
    rw [read, ih later, here, Invocation.addArg, List.append_assoc, List.singleton_append]

theorem parseFrom_redirect {target : Option Text} (fixed : ∀ t ∈ target.toList, store.expand t = t)
    (stream : Redirect) (i : Invocation) (rest : List Token) :
    parseFrom store (.more i) (stream.tokens target ++ rest) =
      parseFrom store (.more (target.elim i (i.redirect stream))) rest := by
  cases target with
  | none => rfl
  | some text =>
    have read : parseFrom store (.more i) (stream.tokens (some text) ++ rest) =
        parseFrom store (.more (i.redirect stream (store.expand text))) rest := by
      cases stream <;> rfl
    rw [read, fixed text (List.mem_singleton_self text)]
    rfl

/-- The tokens of an invocation read as the invocation. -/
theorem parseFrom_invocation {i : Invocation} (named : i.executable ≠ [])
    (fixed : ∀ t ∈ i.texts, store.expand t = t) (rest : List Token) :
    parseFrom store .command (i.tokens ++ rest) = parseFrom store (.more i) rest := by
  simp only [Invocation.texts, Invocation.argv, List.forall_mem_append, List.forall_mem_cons]
    at fixed
  obtain ⟨⟨command, args⟩, ⟨input, output⟩, error⟩ := fixed
  have head : ∀ more, parseFrom store .command (.quoting i.executable :: more) =
      parseFrom store (.more { executable := i.executable }) more := by
    intro more
    simp only [parseFrom, Token.quoting, Token.Kind.isString, if_true]
    split
    · rename_i nothing
      exact absurd (command.symm.trans nothing) named
    · rw [command]
  simp only [Invocation.tokens, Invocation.argv, List.map_cons, List.cons_append,
    List.append_assoc]
  rw [head, parseFrom_args args, parseFrom_redirect input, parseFrom_redirect output,
    parseFrom_redirect error]
  rcases i with ⟨executable, words, _ | source, _ | sink, _ | log⟩ <;> rfl

/-- The tokens of a chain read as the chain. -/
theorem ofTokens_tokens (tied : chain.Tied) (named : ∀ l ∈ chain, l.invocation.executable ≠ [])
    (fixed : ∀ l ∈ chain, ∀ t ∈ l.invocation.texts, store.expand t = t) :
    ofTokens store chain.tokens = .ok chain := by
  induction chain with
  | nil => contradiction
  | cons l rest ih =>
    obtain ⟨namedHere, namedLater⟩ := List.forall_mem_cons.1 named
    obtain ⟨fixedHere, fixedLater⟩ := List.forall_mem_cons.1 fixed
    obtain ⟨invocation, operator⟩ := l
    rw [ofTokens, tokens, List.flatMap_cons, Link.tokens, List.append_assoc,
      parseFrom_invocation namedHere fixedHere]
    cases rest with
    | nil =>
      obtain rfl : operator = none := tied
      rfl
    | cons next rest =>
      obtain ⟨some, tiedLater⟩ := tied
      obtain ⟨operator, rfl⟩ := Option.isSome_iff_exists.1 some
      have later : parseFrom store .command (tokens (next :: rest)) = .ok (next :: rest) :=
        ih tiedLater namedLater fixedLater
      have role : operator.token.kind.role = .operator operator :=
        Token.role_of_operator (⟨operator.token, rfl⟩ : Token.Sign operator.kind)
      rw [tokens] at later
      simp only [Option.map_some, Option.toList_some, List.singleton_append, parseFrom, role, later,
        Except.map]

/-- A chain whose texts stand for themselves between double quotes is what its line reads as. -/
theorem ofLine_quotedLine (tied : chain.Tied) (named : ∀ l ∈ chain, l.invocation.executable ≠ [])
    (quotable : ∀ l ∈ chain, ∀ t ∈ l.invocation.texts, Quotable store t) :
    ofLine store chain.quotedLine = .ok chain := by
  have cut := Token.lexemes_ofLine_spaced (allReadBack_tokens quotable)
  rw [ofLine, quotedLine, ofTokens, parseFrom_congr .command cut]
  exact ofTokens_tokens tied named fun l among t inside => (quotable l among t inside).fixed

/-- Texts with blanks, signs, a line break, a backslash and a variable that holds its own name, and
an empty one. -/
def signsChain : Chain :=
  [⟨{ executable := "my prog".toList, args := [[], "a;b && c".toList, "x\ny".toList],
      input := some "< in".toList, output := some "\\o".toList, error := some "$5".toList },
    some .pipe⟩,
    ⟨{ executable := "2>".toList, args := ["|".toList] }, some .or⟩,
    ⟨{ executable := "$".toList }, none⟩]

def ownNameStore : Store := ⟨[("5".toList, "$5".toList)]⟩

theorem ofLine_quotedLine_signs :
    signsChain.Tied ∧ (∀ l ∈ signsChain, l.invocation.executable ≠ []) ∧
    (∀ l ∈ signsChain, ∀ t ∈ l.invocation.texts, Quotable ownNameStore t) ∧
    signsChain.quotedLine =
      ("\"my prog\" \"\" \"a;b && c\" \"x\ny\" < \"< in\" > \"\\o\" 2> \"$5\" | " ++
        "\"2>\" \"|\" || \"$\"").toList ∧
    ofLine ownNameStore signsChain.quotedLine = .ok signsChain := by
  have tied : signsChain.Tied := ⟨rfl, rfl, rfl⟩
  have named : ∀ l ∈ signsChain, l.invocation.executable ≠ [] := by decide
  have quotable : ∀ l ∈ signsChain, ∀ t ∈ l.invocation.texts, Quotable ownNameStore t := by
    decide
  exact ⟨tied, named, quotable, by decide, ofLine_quotedLine tied named quotable⟩

end Chain

end ChainShell
