/-
# ChainShell.Terminal.Program — programs that switch the terminal's mode

A program is a list of steps: the two switches, blocks that hold a mode around other
steps, blocks that catch a fault, and a fault of their own.  Running one under a
`Watch` notes after each switch, and where a block is entered and left, whether the
session counts as raw and what was done since the note before.  A call that faults
makes no note, and neither does a block that a fault passes through.
-/
import ChainShell.Terminal.Basic

set_option autoImplicit false

namespace ChainShell.Terminal

inductive Step where
  | enterRaw
  | leaveRaw
  | raw (body : List Step)
  | cooked (body : List Step)
  /-- Runs the steps and catches a fault of theirs. -/
  | guarded (body : List Step)
  | raise (message : Text)

/-- What a note marks. -/
inductive Mark where
  | enteredRaw
  | leftRaw
  | rawOpened
  | rawClosed
  | cookedOpened
  | cookedClosed
  /-- A guarded block is over; the fault is the one it caught. -/
  | guardedClosed (caught : Option Fault)
  deriving DecidableEq, Repr

/-- A point of a run: the mode the session counts as, and the actions since the note before. -/
structure Note where
  mark : Mark
  isRaw : Bool
  actions : List Action
  deriving DecidableEq, Repr

/-- A run so far: the session, the notes, and the actions since the last one. -/
structure Watch where
  session : Session
  notes : List Note := []
  since : List Action := []

namespace Watch

def note (w : Watch) (mark : Mark) : Watch :=
  { w with notes := w.notes ++ [⟨mark, w.session.isRaw, w.since⟩], since := [] }

def perform (w : Watch) (activity : Activity Unit) : Except Fault Unit × Watch :=
  let ended := activity w.session
  (ended.result, { w with session := ended.session, since := w.since ++ ended.actions })

/-- Runs an activity and adds a note if it did not fault. -/
def performNoted (w : Watch) (activity : Activity Unit) (mark : Mark) :
    Except Fault Unit × Watch :=
  match w.perform activity with
  | (.ok (), w) => (.ok (), w.note mark)
  | faulted => faulted

/-- Ends a block whose body ended with `result`: a fault of `leave` wins over one of the body. -/
def endBlock (result : Except Fault Unit) (w : Watch) (leave : Activity Unit) (mark : Mark) :
    Except Fault Unit × Watch :=
  match w.perform leave, result with
  | (.ok (), w), .ok () => (.ok (), w.note mark)
  | (.ok (), w), .error fault => (.error fault, w)
  | faulted, _ => faulted

end Watch

def faultOf? : Except Fault Unit → Option Fault
  | .ok () => none
  | .error fault => some fault

mutual

def Step.run : Step → Watch → Except Fault Unit × Watch
  | .enterRaw, w => w.performNoted Terminal.enterRaw .enteredRaw
  | .leaveRaw, w => w.performNoted Terminal.leaveRaw .leftRaw
  | .raw body, w =>
    match w.performNoted Terminal.enterRaw .rawOpened with
    | (.ok (), w) =>
      let inner := Step.runAll body w
      inner.2.endBlock inner.1 Terminal.leaveRaw .rawClosed
    | faulted => faulted
  | .cooked body, w =>
    match w.performNoted Terminal.leaveRaw .cookedOpened with
    | (.ok (), w) =>
      let inner := Step.runAll body w
      inner.2.endBlock inner.1 Terminal.enterRaw .cookedClosed
    | faulted => faulted
  | .guarded body, w =>
    let inner := Step.runAll body w
    (.ok (), inner.2.note (.guardedClosed (faultOf? inner.1)))
  | .raise message, w => (.error (.raised message), w)

/-- Runs steps in order, up to the first fault. -/
def Step.runAll : List Step → Watch → Except Fault Unit × Watch
  | [], w => (.ok (), w)
  | step :: rest, w =>
    match Step.run step w with
    | (.ok (), w) => Step.runAll rest w
    | faulted => faulted

end

end ChainShell.Terminal
