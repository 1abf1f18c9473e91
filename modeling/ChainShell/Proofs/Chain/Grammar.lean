/-
# ChainShell.Proofs.Chain.Grammar — the grammar of command lines

A command line is a sentence over tokens:

    sentence := phrase (operator phrase)*
    phrase   := string (string | redirect string)*

where a string is a word or a quoted string, an operator `&&`, `||`, `;` or `|`, and a
redirect `<`, `>` or `2>`.  `Sentence` is the type of the trees of this grammar: a
token stands in a tree only where its kind allows it, so every tree is grammatical,
and a list of tokens is in the language when it is `Sentence.tokens` of a tree.

`Sentence.chain` is what a tree means under a store.  A tree is proper under a store
when no command of it expands to nothing.  Reading the tokens of a tree

* gives its meaning if the tree is proper (`ofTokens_tokens_of_proper`);
* fails at its first command that expands to nothing if it is not
  (`ofTokens_tokens_of_vanishing`).
-/
import ChainShell.Chain.Parser

set_option autoImplicit false

namespace ChainShell

/-! ## Words and signs -/

/-- The kind of the token that writes an operator. -/
def Operator.kind : Operator → Token.Kind
  | .and => .and
  | .or => .or
  | .sequence => .semicolon
  | .pipe => .pipe

/-- The kind of the token that writes a redirect. -/
def Redirect.kind : Redirect → Token.Kind
  | .input => .inputRedirect
  | .output => .outputRedirect
  | .error => .errorRedirect

namespace Token

/-- A token that can be a command, an argument or a target. -/
abbrev Word := { token : Token // token.kind = .word ∨ token.kind = .quoted }

/-- The text that a word stands for. -/
def Word.expansion (store : Store) (word : Word) : Text := store.expand word.val.value

/-- A token of one kind. -/
abbrev Sign (kind : Kind) := { token : Token // token.kind = kind }

theorem Kind.isString_iff (kind : Kind) : kind.isString = true ↔ kind = .word ∨ kind = .quoted := by
  cases kind <;> simp [isString]

@[simp] theorem Word.isString (word : Word) : word.val.kind.isString = true :=
  (Kind.isString_iff _).2 word.property

@[simp] theorem Word.role (word : Word) : word.val.kind.role = .string := by
  rcases word.property with h | h <;> rw [h] <;> rfl

@[simp] theorem role_of_operator {operator : Operator} (sign : Sign operator.kind) :
    sign.val.kind.role = .operator operator := by
  rw [sign.property]
  cases operator <;> rfl

@[simp] theorem role_of_redirect {stream : Redirect} (sign : Sign stream.kind) :
    sign.val.kind.role = .redirect stream := by
  rw [sign.property]
  cases stream <;> rfl

theorem isString_of_operator {operator : Operator} (sign : Sign operator.kind) :
    sign.val.kind.isString = false := by
  rw [sign.property]
  cases operator <;> rfl

theorem isString_of_redirect {stream : Redirect} (sign : Sign stream.kind) :
    sign.val.kind.isString = false := by
  rw [sign.property]
  cases stream <;> rfl

/-- A token plays exactly one of the three parts of the grammar. -/
theorem role_cases (token : Token) :
    (token.kind = .word ∨ token.kind = .quoted) ∨
      (∃ stream : Redirect, token.kind = stream.kind) ∨
      ∃ operator : Operator, token.kind = operator.kind := by
  cases h : token.kind with
  | word => exact .inl (.inl rfl)
  | quoted => exact .inl (.inr rfl)
  | inputRedirect => exact .inr (.inl ⟨.input, rfl⟩)
  | outputRedirect => exact .inr (.inl ⟨.output, rfl⟩)
  | errorRedirect => exact .inr (.inl ⟨.error, rfl⟩)
  | and => exact .inr (.inr ⟨.and, rfl⟩)
  | or => exact .inr (.inr ⟨.or, rfl⟩)
  | semicolon => exact .inr (.inr ⟨.sequence, rfl⟩)
  | pipe => exact .inr (.inr ⟨.pipe, rfl⟩)

end Token

/-! ## Trees -/

/-- What may follow the command of an invocation. -/
inductive Item where
  | argument (word : Token.Word)
  | redirect (stream : Redirect) (sign : Token.Sign stream.kind) (target : Token.Word)

/-- An invocation as it is written. -/
structure Phrase where
  command : Token.Word
  items : List Item

/-- A command line as it is written. -/
inductive Sentence where
  | last (phrase : Phrase)
  | tied (phrase : Phrase) (operator : Operator) (sign : Token.Sign operator.kind)
      (rest : Sentence)

namespace Item

def tokens : Item → List Token
  | argument word => [word.val]
  | redirect _ sign target => [sign.val, target.val]

/-- The word that is an argument. -/
def argument? : Item → Option Token.Word
  | argument word => some word
  | redirect .. => none

/-- The word that is the target of a stream. -/
def target? (stream : Redirect) : Item → Option Token.Word
  | argument _ => none
  | redirect other _ target => if other = stream then some target else none

end Item

namespace Phrase

def tokens (p : Phrase) : List Token := p.command.val :: p.items.flatMap Item.tokens

/-- The expansions of the arguments, in order. -/
def args (store : Store) (p : Phrase) : List Text :=
  (p.items.filterMap Item.argument?).map (Token.Word.expansion store)

/-- The expansion of the last target of a stream. -/
def target (store : Store) (p : Phrase) (stream : Redirect) : Option Text :=
  (p.items.filterMap (Item.target? stream)).getLast?.map (Token.Word.expansion store)

def invocation (store : Store) (p : Phrase) : Invocation where
  executable := p.command.expansion store
  args := p.args store
  input := p.target store .input
  output := p.target store .output
  error := p.target store .error

/-- The command of a phrase expands to nothing. -/
def Vanishes (store : Store) (p : Phrase) : Prop := p.command.expansion store = []

end Phrase

namespace Sentence

/-- The phrases of a sentence, in order. -/
def phrases : Sentence → List Phrase
  | last phrase => [phrase]
  | tied phrase _ _ rest => phrase :: rest.phrases

def tokens : Sentence → List Token
  | last phrase => phrase.tokens
  | tied phrase _ sign rest => phrase.tokens ++ sign.val :: rest.tokens

/-- What a sentence means: a link for each phrase, with the operator after it. -/
def chain (store : Store) : Sentence → Chain
  | last phrase => [⟨phrase.invocation store, none⟩]
  | tied phrase operator _ rest => ⟨phrase.invocation store, some operator⟩ :: rest.chain store

/-- No command of the sentence expands to nothing. -/
def Proper (store : Store) (s : Sentence) : Prop := ∀ p ∈ s.phrases, ¬ p.Vanishes store

theorem command_mem_tokens {s : Sentence} {p : Phrase} (member : p ∈ s.phrases) :
    p.command.val ∈ s.tokens := by
  induction s with
  | last phrase =>
    obtain rfl := List.mem_singleton.1 member
    exact List.mem_cons_self
  | tied phrase operator sign rest ih =>
    rcases List.mem_cons.1 member with rfl | later
    · exact List.mem_append_left _ List.mem_cons_self
    · exact List.mem_append_right _ (List.mem_cons_of_mem _ (ih later))

end Sentence

/-! ## Reading a phrase -/

/-- An invocation with one more item. -/
def Invocation.addItem (store : Store) (i : Invocation) : Item → Invocation
  | .argument word => i.addArg (word.expansion store)
  | .redirect stream _ target => i.redirect stream (target.expansion store)

theorem Phrase.args_cons (store : Store) (command : Token.Word) (item : Item) (items : List Item) :
    Phrase.args store ⟨command, item :: items⟩ =
      (item.argument?.map (Token.Word.expansion store)).toList ++
        Phrase.args store ⟨command, items⟩ := by
  cases item <;> simp [args, Item.argument?, List.filterMap_cons]

theorem Phrase.target_cons (store : Store) (command : Token.Word) (item : Item)
    (items : List Item) (stream : Redirect) :
    Phrase.target store ⟨command, item :: items⟩ stream =
      (Phrase.target store ⟨command, items⟩ stream).or
        ((item.target? stream).map (Token.Word.expansion store)) := by
  cases found : item.target? stream with
  | none => simp only [target, List.filterMap_cons, found, Option.map_none, Option.or_none]
  | some word =>
    simp only [target, List.filterMap_cons, found, List.getLast?_cons, Option.map_some]
    cases (items.filterMap (Item.target? stream)).getLast? <;> rfl

/-- Adding the items of a phrase one by one appends its arguments and keeps, for each stream, its
last target, or the one there was. -/
theorem Phrase.foldl_addItem (store : Store) (p : Phrase) (i : Invocation) :
    p.items.foldl (Invocation.addItem store) i =
      { executable := i.executable
        args := i.args ++ p.args store
        input := (p.target store .input).or i.input
        output := (p.target store .output).or i.output
        error := (p.target store .error).or i.error } := by
  obtain ⟨command, items⟩ := p
  induction items generalizing i with
  | nil => simp [args, target]
  | cons item items ih =>
    simp only [List.foldl_cons, ih, args_cons, target_cons]
    cases item with
    | argument word => simp [Invocation.addItem, Invocation.addArg, Item.argument?, Item.target?]
    | redirect stream sign target =>
      cases stream <;>
        simp [Invocation.addItem, Invocation.redirect, Item.argument?, Item.target?]

theorem Phrase.foldl_addItem_executable (store : Store) (p : Phrase) :
    p.items.foldl (Invocation.addItem store) { executable := p.command.expansion store } =
      p.invocation store := by
  rw [foldl_addItem]
  simp [invocation]

namespace Chain

variable {store : Store}

theorem parseFrom_item (item : Item) (i : Invocation) (rest : List Token) :
    parseFrom store (.more i) (item.tokens ++ rest) =
      parseFrom store (.more (i.addItem store item)) rest := by
  cases item <;> simp [Item.tokens, parseFrom, Invocation.addItem, Token.Word.expansion]

theorem parseFrom_items (items : List Item) (i : Invocation) (rest : List Token) :
    parseFrom store (.more i) (items.flatMap Item.tokens ++ rest) =
      parseFrom store (.more (items.foldl (Invocation.addItem store) i)) rest := by
  induction items generalizing i with
  | nil => rfl
  | cons item items ih =>
    rw [List.flatMap_cons, List.append_assoc, parseFrom_item, ih]
    rfl

/-- After the tokens of a phrase its invocation has been read. -/
theorem parseFrom_phrase {p : Phrase} (stays : ¬ p.Vanishes store) (rest : List Token) :
    parseFrom store .command (p.tokens ++ rest) =
      parseFrom store (.more (p.invocation store)) rest := by
  have head : ∀ more, parseFrom store .command (p.command.val :: more) =
      parseFrom store (.more { executable := p.command.expansion store }) more := by
    intro more
    simp only [parseFrom, Token.Word.isString, if_true]
    split
    · rename_i nothing
      exact absurd nothing stays
    · rfl
  rw [Phrase.tokens, List.cons_append, head, parseFrom_items, Phrase.foldl_addItem_executable]

theorem parseFrom_vanishing {p : Phrase} (vanishes : p.Vanishes store) (rest : List Token) :
    parseFrom store .command (p.tokens ++ rest) =
      .error (.emptyCommand p.command.val.value) := by
  have nothing : store.expand p.command.val.value = [] := vanishes
  simp [Phrase.tokens, parseFrom, nothing]

/-! ## Reading a sentence -/

/-- The tokens of a proper sentence read as its meaning. -/
theorem ofTokens_tokens_of_proper {s : Sentence} (proper : s.Proper store) :
    ofTokens store s.tokens = .ok (s.chain store) := by
  induction s with
  | last phrase =>
    have stays : ¬ phrase.Vanishes store := proper phrase (by simp [Sentence.phrases])
    have read := parseFrom_phrase stays []
    rw [List.append_nil] at read
    simpa [ofTokens, Sentence.tokens, Sentence.chain, parseFrom] using read
  | tied phrase operator sign rest ih =>
    have stays : ¬ phrase.Vanishes store := proper phrase (by simp [Sentence.phrases])
    have later : rest.Proper store := fun p member =>
      proper p (by simp [Sentence.phrases, member])
    have read : parseFrom store .command rest.tokens = .ok (rest.chain store) := ih later
    rw [ofTokens, Sentence.tokens, parseFrom_phrase stays]
    simp [parseFrom, read, Except.map, Sentence.chain]

/-- The tokens of a sentence that is not proper fail at a command that expands to nothing. -/
theorem ofTokens_tokens_of_vanishing {s : Sentence} (improper : ¬ s.Proper store) :
    ∃ p ∈ s.phrases, p.Vanishes store ∧
      ofTokens store s.tokens = .error (.emptyCommand p.command.val.value) := by
  induction s with
  | last phrase =>
    have vanishes : phrase.Vanishes store := by
      simpa [Sentence.Proper, Sentence.phrases] using improper
    have read := parseFrom_vanishing vanishes []
    rw [List.append_nil] at read
    exact ⟨phrase, by simp [Sentence.phrases], vanishes, read⟩
  | tied phrase operator sign rest ih =>
    by_cases vanishes : phrase.Vanishes store
    · exact ⟨phrase, by simp [Sentence.phrases], vanishes, parseFrom_vanishing vanishes _⟩
    · have later : ¬ rest.Proper store := by
        intro proper
        apply improper
        intro p member
        rcases List.mem_cons.1 member with rfl | member
        · exact vanishes
        · exact proper p member
      obtain ⟨p, member, nothing, failed⟩ := ih later
      have read : parseFrom store .command rest.tokens = _ := failed
      refine ⟨p, List.mem_cons_of_mem _ member, nothing, ?_⟩
      rw [ofTokens, Sentence.tokens, parseFrom_phrase vanishes]
      simp [parseFrom, read, Except.map]

end Chain

end ChainShell
