/-
# ChainShell.Chain.Printer — a chain as lines of text

An invocation is shown on a line of its own, its command and arguments first and then
its redirects in a fixed order, and an operator on a line between two invocations.
-/
import ChainShell.Chain.Basic

set_option autoImplicit false

namespace ChainShell

/-- A redirect after the words of an invocation, if there is one. -/
def Redirect.describe (r : Redirect) (target : Option Text) : Text :=
  match target with
  | some path => ' ' :: r.sign ++ ' ' :: path
  | none => []

/-- The words of an invocation and its redirects, separated by single spaces. -/
def Invocation.describe (i : Invocation) : Text :=
  [' '].intercalate i.argv ++ Redirect.input.describe i.input ++
    Redirect.output.describe i.output ++ Redirect.error.describe i.error

/-- The line of an invocation and the line of the operator after it. -/
def Link.describe (l : Link) : List Text :=
  ("CMD ".toList ++ l.invocation.describe) ::
    match l.operator with
    | some operator => ["OP  ".toList ++ operator.sign]
    | none => []

def Chain.describe (chain : Chain) : Text :=
  match chain with
  | [] => "<empty>".toList
  | links => ['\n'].intercalate (links.flatMap Link.describe)

end ChainShell
