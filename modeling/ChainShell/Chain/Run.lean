/-
# ChainShell.Chain.Run — running a chain

Links run from left to right.  A link tied to the next by a pipe is started and left
running, and the read end of its pipe is carried to the next link; every other link
is waited for, and its status and operator decide whether the chain goes on.

* `launch` starts one invocation.  Its redirects are opened in the order input,
  output, error and closed again once the process has started or failed to; a
  carried pipe is its input in place of the input redirect, and is closed last.
* A wait that is interrupted is taken up again once (`interruptsAbsorbed`).
* However a chain ends, the processes left running are looked at once (`reap`).
-/
import ChainShell.Activity
import ChainShell.Chain.Parser
import ChainShell.Status

set_option autoImplicit false

namespace ChainShell

namespace Activity

variable {α : Type}

def closeAny : Option Handle → Activity Unit
  | some handle => close handle
  | none => pure ()

/-- Opens the target of a redirect, if there is one, for as long as `body` runs. -/
def withRedirect (mode : OpenMode) (target : Option Text) (body : Option Handle → Activity α) :
    Activity α :=
  match target with
  | none => body none
  | some path => do
    let handle ← openFile mode path
    ensuring (body (some handle)) (close handle)

/-- Looks at every child once and keeps those that are still running. -/
def reap : Activity Unit :=
  modify fun s =>
    { s with
      children := s.children.filterMap fun child =>
        if child.polls = 0 then none else some { child with polls := child.polls - 1 } }

/-- Keeps a process as a child of the session. -/
def adopt (child : Child) : Activity Unit :=
  modify fun s => { s with children := s.children ++ [child] }

/-- The number of interrupts of one wait that the shell puts up with. -/
def interruptsAbsorbed : Nat := 1

/-- Waits for a process, taking the wait up again after at most `patience` interrupts. -/
def awaitWithin : (patience interrupts : Nat) → Child → Activity Status
  | _, 0, child => do
    act (.waited child.pid child.returnCode)
    return .ofReturnCode child.returnCode
  | 0, _ + 1, child => do
    act (.interrupted child.pid)
    fail .interrupted
  | patience + 1, interrupts + 1, child => do
    act (.interrupted child.pid)
    awaitWithin patience interrupts child

def await (child : Child) : Activity Status :=
  awaitWithin interruptsAbsorbed child.interrupts child

end Activity

open Activity

/-- Where a process writes its output: into a pipe, or to the redirect's file if there is one. -/
def Output.choose (piped : Bool) (target : Option Handle) : Output :=
  if piped then .pipe
  else
    match target with
    | some file => .handle file
    | none => .inherited

/-- Starts an invocation whose input is the carried pipe, if there is one, and whose output goes
into a pipe if `piped`. -/
def Invocation.launch (i : Invocation) (carried : Option Handle) (piped : Bool) : Activity Child :=
  ensuring
    (withRedirect .read (if carried.isSome then none else i.input) fun input =>
      withRedirect .write i.output fun output =>
        withRedirect .write i.error fun error =>
          start i.executable i.args
            { input := carried.or input, output := .choose piped output, error })
    (closeAny carried)

/-- Whether a chain ends after a link that was waited for. -/
def Link.endsChain (operator : Option Operator) (status : Status) : Bool :=
  match operator with
  | none => true
  | some .and => !status.success
  | some .or => status.success
  | some .sequence | some .pipe => false

namespace Chain

/-- Runs the links of a chain, the first of which reads from the carried pipe. -/
def runLinks : Option Handle → Chain → Activity Status
  | carried, [] => do
    closeAny carried
    return .ok
  | carried, link :: rest =>
    if link.operator = some .pipe then do
      let child ← link.invocation.launch carried true
      adopt child
      runLinks (some (.pipe child.pid)) rest
    else do
      let child ← link.invocation.launch carried false
      let status ← await child
      if Link.endsChain link.operator status then return status else runLinks none rest

/-- Runs a chain and gives the status that decided it. -/
def run (chain : Chain) : Activity Status := ensuring (runLinks none chain) reap

def runLine (line : Text) : Activity Status := do
  match ofLine (← get).store line with
  | .error error => failShell error
  | .ok chain => run chain

end Chain

end ChainShell
