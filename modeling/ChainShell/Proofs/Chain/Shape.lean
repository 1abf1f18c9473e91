/-
# ChainShell.Proofs.Chain.Shape — what the values of variables cannot change

Two stores that read the same line see the same tree, because a line is cut into tokens
before any variable is replaced and the tree depends on the kinds of the tokens alone.
So the chains differ in nothing but their texts (`Link.shape`), whatever the values
hold, and a line that one store reads can fail under another only at a command that
expands to nothing.
-/
import ChainShell.Proofs.Chain.Acceptance

set_option autoImplicit false

namespace ChainShell

/-- A link without its texts: its operator, the number of its arguments, and which streams it
redirects. -/
structure Shape where
  operator : Option Operator
  args : Nat
  input : Bool
  output : Bool
  error : Bool
  deriving DecidableEq, Repr

/-- The shape of a link. -/
def Link.shape (l : Link) : Shape where
  operator := l.operator
  args := l.invocation.args.length
  input := l.invocation.input.isSome
  output := l.invocation.output.isSome
  error := l.invocation.error.isSome

/-- The shape of what a phrase means does not depend on the store. -/
theorem Phrase.shape_invocation (p : Phrase) (store other : Store) (operator : Option Operator) :
    Link.shape ⟨p.invocation store, operator⟩ = Link.shape ⟨p.invocation other, operator⟩ := by
  simp only [Link.shape, invocation, args, target, List.length_map, Option.isSome_map]

/-- The shapes of what a sentence means do not depend on the store. -/
theorem Sentence.map_shape_chain (s : Sentence) (store other : Store) :
    (s.chain store).map Link.shape = (s.chain other).map Link.shape := by
  induction s with
  | last phrase =>
    rw [chain, chain, List.map_singleton, List.map_singleton, phrase.shape_invocation]
  | tied phrase operator sign rest ih =>
    rw [chain, chain, List.map_cons, List.map_cons, ih, phrase.shape_invocation]

namespace Chain

/-- If a line reads under one store, any other store reads it as a chain of the same shape or
fails at a command that expands to nothing. -/
theorem ofLine_shape {store : Store} {line : Text} {chain : Chain}
    (read : ofLine store line = .ok chain) (other : Store) :
    (∀ chain', ofLine other line = .ok chain' → chain'.map Link.shape = chain.map Link.shape) ∧
    ((∃ chain', ofLine other line = .ok chain') ∨
      ∃ token ∈ Token.ofLine line, other.expand token.value = [] ∧
        ofLine other line = .error (.emptyCommand token.value)) := by
  obtain ⟨s, -, tokens, rfl⟩ := ofTokens_eq_ok_iff.1 read
  by_cases proper : s.Proper other
  · have reads : ofLine other line = .ok (s.chain other) := by
      rw [ofLine, ← tokens]
      exact ofTokens_tokens_of_proper proper
    refine ⟨?_, .inl ⟨_, reads⟩⟩
    intro chain' read'
    rw [reads] at read'
    obtain rfl := Except.ok.inj read'
    exact s.map_shape_chain other store
  · obtain ⟨p, member, vanishes, failed⟩ := ofTokens_tokens_of_vanishing proper
    rw [tokens] at failed
    refine ⟨?_, .inr ⟨p.command.val, ?_, vanishes, failed⟩⟩
    · intro chain' read'
      rw [ofLine, failed] at read'
      contradiction
    · rw [← tokens]
      exact Sentence.command_mem_tokens member

/-- A line with a command, an argument, a target and a second command, all of them variables. -/
def variableLine : Text := "$c $a > $o && $d".toList

def plainStore : Store :=
  ⟨[(['c'], ['s', 'h']), (['a'], ['x']), (['o'], ['f']), (['d'], ['l', 's'])]⟩

/-- Values that are a chain of their own, an open quote and a pipe, redirects, and nothing. -/
def hostileStore : Store :=
  ⟨[(['c'], "b ; r && $a".toList), (['a'], "\" | w".toList), (['o'], "< 2> p".toList)]⟩

theorem ofLine_shape_hostile :
    let chain : Chain :=
      [⟨{ executable := ['s', 'h'], args := [['x']], output := some ['f'] }, some .and⟩,
        ⟨{ executable := ['l', 's'] }, none⟩]
    ofLine plainStore variableLine = .ok chain ∧
    (∀ chain', ofLine hostileStore variableLine = .ok chain' →
      chain'.map Link.shape = chain.map Link.shape) ∧
    ((∃ chain', ofLine hostileStore variableLine = .ok chain') ∨
      ∃ token ∈ Token.ofLine variableLine, hostileStore.expand token.value = [] ∧
        ofLine hostileStore variableLine = .error (.emptyCommand token.value)) := by
  intro chain
  have read : ofLine plainStore variableLine = .ok chain := rfl
  exact ⟨read, ofLine_shape read hostileStore⟩

end Chain

end ChainShell
