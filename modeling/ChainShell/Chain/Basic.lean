/-
# ChainShell.Chain.Basic — chains of invocations

A chain is what one command line says: invocations, each with its arguments and the
targets of its redirects, and between them the operators that decide whether and
how the next one runs.  A chain read from a line has an operator on every link but
the last; the type also has room for any other mixture.
-/
import ChainShell.Text.Basic

set_option autoImplicit false

namespace ChainShell

/-- The relation between an invocation and the one after it. -/
inductive Operator where
  | and
  | or
  | sequence
  | pipe
  deriving DecidableEq, Repr

def Operator.sign : Operator → Text
  | .and => ['&', '&']
  | .or => ['|', '|']
  | .sequence => [';']
  | .pipe => ['|']

/-- The three standard streams, as far as they can be redirected. -/
inductive Redirect where
  | input
  | output
  | error
  deriving DecidableEq, Repr

def Redirect.sign : Redirect → Text
  | .input => ['<']
  | .output => ['>']
  | .error => ['2', '>']

/-- A command with its arguments and the targets of its redirects. -/
structure Invocation where
  executable : Text
  args : List Text := []
  input : Option Text := none
  output : Option Text := none
  error : Option Text := none
  deriving DecidableEq, Repr

namespace Invocation

def argv (i : Invocation) : List Text := i.executable :: i.args

def addArg (i : Invocation) (arg : Text) : Invocation := { i with args := i.args ++ [arg] }

/-- Redirects a stream; a later redirect of a stream replaces an earlier one. -/
def redirect (i : Invocation) : Redirect → Text → Invocation
  | .input, target => { i with input := some target }
  | .output, target => { i with output := some target }
  | .error, target => { i with error := some target }

/-- The target of a stream, if it is redirected. -/
def target? (i : Invocation) : Redirect → Option Text
  | .input => i.input
  | .output => i.output
  | .error => i.error

end Invocation

/-- An invocation and the operator that ties it to the next one. -/
structure Link where
  invocation : Invocation
  operator : Option Operator := none
  deriving DecidableEq, Repr

abbrev Chain := List Link

end ChainShell
