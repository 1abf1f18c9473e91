/-
# ChainShell.Chain.Parser — from tokens to a chain

An invocation is a string, the command, followed by strings and redirects in any
order, where a redirect is its sign and a string, the target.  Invocations are
separated by operators, and a chain has at least one.  Variables are replaced inside
the strings after the line is cut into tokens, so a value never adds a token.

The tokens are read once, from left to right, and the first one that does not fit
decides the error.
-/
import ChainShell.Chain.Basic
import ChainShell.Store.Expansion
import ChainShell.Token.Lexer

set_option autoImplicit false

namespace ChainShell

/-- The part that a kind of token plays in a chain. -/
inductive Token.Role where
  | string
  | redirect (stream : Redirect)
  | operator (operator : Operator)
  deriving DecidableEq, Repr

/-- The part that a kind of token plays in a chain. -/
def Token.Kind.role : Token.Kind → Token.Role
  | .quoted | .word => .string
  | .inputRedirect => .redirect .input
  | .outputRedirect => .redirect .output
  | .errorRedirect => .redirect .error
  | .and => .operator .and
  | .or => .operator .or
  | .semicolon => .operator .sequence
  | .pipe => .operator .pipe

namespace Chain

/-- What comes next when part of a chain has been read. -/
inductive Expect where
  | command
  /-- More of the invocation, or its end. -/
  | more (invocation : Invocation)
  | target (stream : Redirect) (invocation : Invocation)
  deriving DecidableEq, Repr

/-- Reads the rest of a chain. -/
def parseFrom (store : Store) : Expect → List Token → Except ShellError Chain
  | .more invocation, [] => .ok [⟨invocation, none⟩]
  | .command, [] => .error (.expectedWord none)
  | .target _ _, [] => .error (.expectedWord none)
  | .command, token :: rest =>
    if token.kind.isString then
      match store.expand token.value with
      | [] => .error (.emptyCommand token.value)
      | executable => parseFrom store (.more { executable }) rest
    else .error (.expectedWord (some token.value))
  | .target stream invocation, token :: rest =>
    if token.kind.isString then
      parseFrom store (.more (invocation.redirect stream (store.expand token.value))) rest
    else .error (.expectedWord (some token.value))
  | .more invocation, token :: rest =>
    match token.kind.role with
    | .string => parseFrom store (.more (invocation.addArg (store.expand token.value))) rest
    | .redirect stream => parseFrom store (.target stream invocation) rest
    | .operator operator =>
      (parseFrom store .command rest).map (⟨invocation, some operator⟩ :: ·)

def ofTokens (store : Store) (tokens : List Token) : Except ShellError Chain :=
  parseFrom store .command tokens

def ofLine (store : Store) (line : Text) : Except ShellError Chain :=
  ofTokens store (Token.ofLine line)

end Chain

end ChainShell
