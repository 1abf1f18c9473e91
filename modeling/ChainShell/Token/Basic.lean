/-
# ChainShell.Token.Basic — the tokens of a command line

A token has a kind, a value and the place it starts at.  The value is the text as
written, except that a quoted string loses its two delimiters.  Two tokens are the
same lexeme when kind and value agree, wherever they stand.
-/
import ChainShell.Text.Quoted

set_option autoImplicit false

namespace ChainShell

namespace Token

/-- The kinds of token, in the order in which ties between them are settled. -/
inductive Kind where
  | and
  | or
  | errorRedirect
  | semicolon
  | pipe
  | inputRedirect
  | outputRedirect
  | quoted
  | word
  deriving DecidableEq, Repr

namespace Kind

def all : List Kind :=
  [and, or, errorRedirect, semicolon, pipe, inputRedirect, outputRedirect, quoted, word]

/-- The name under which a kind is shown. -/
def name : Kind → Text
  | and => "AND".toList
  | or => "OR".toList
  | errorRedirect => "STDERR_REDIRECT".toList
  | semicolon => "SEMICOLON".toList
  | pipe => "PIPE".toList
  | inputRedirect => "INPUT_REDIRECT".toList
  | outputRedirect => "OUTPUT_REDIRECT".toList
  | quoted => "QUOTED_STRING".toList
  | word => "WORD".toList

/-- The one spelling of an operator or redirect sign. -/
def spelling? : Kind → Option Text
  | and => some ['&', '&']
  | or => some ['|', '|']
  | errorRedirect => some ['2', '>']
  | semicolon => some [';']
  | pipe => some ['|']
  | inputRedirect => some ['<']
  | outputRedirect => some ['>']
  | quoted | word => none

/-- Whether a token of this kind can be a command, an argument or a target. -/
def isString : Kind → Bool
  | quoted | word => true
  | _ => false

end Kind

end Token

structure Token where
  kind : Token.Kind
  value : Text
  position : Nat := 0
  deriving DecidableEq, Repr

namespace Token

/-- Whether two tokens agree in kind and value. -/
def sameLexeme (a b : Token) : Bool := a.kind == b.kind && a.value == b.value

/-- The token as messages show it, without its place. -/
def describe (t : Token) : Text :=
  "Token(".toList ++ t.kind.name ++ ", ".toList ++ Text.quote t.value ++ [')']

/-- The token as it is written on a line: a quoted string between its delimiters. -/
def written (t : Token) : Text :=
  if t.kind = .quoted then '"' :: t.value ++ ['"'] else t.value

end Token

end ChainShell
