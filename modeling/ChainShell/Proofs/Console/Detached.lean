/-
# ChainShell.Proofs.Console.Detached — running a line has nothing to do with the terminal

What only the interactive shell uses of a session is its `Front`: the history, the saved
terminal mode, and the counts of mode calls.  An activity is `Detached` if it depends on no
front, leaves the front it finds, and acts neither on the terminal nor on the standard
output.

* Detached activities are closed under sequencing, cleanup and recovery (`Detached.bind`,
  `Detached.ensuring`, `Detached.recovering`).
* Running a chain is detached (`detached_run`), and so is running a line that was entered
  (`detached_runCommitted`).
-/
import ChainShell.Statement.Run

set_option autoImplicit false

namespace ChainShell

/-- What only the interactive shell uses of a session. -/
structure Front where
  history : History
  savedMode : Option Nat
  saving : CallCount
  entering : CallCount
  restoring : CallCount

def Session.front (s : Session) : Front where
  history := s.history
  savedMode := s.savedMode
  saving := s.host.saving
  entering := s.host.entering
  restoring := s.host.restoring

/-- The session with another front. -/
def Session.withFront (s : Session) (f : Front) : Session :=
  { s with
    history := f.history
    savedMode := f.savedMode
    host :=
      { s.host with saving := f.saving, entering := f.entering, restoring := f.restoring } }

@[simp] theorem Session.withFront_front (s : Session) : s.withFront s.front = s := rfl

@[simp] theorem Session.front_withFront (s : Session) (f : Front) : (s.withFront f).front = f := rfl

@[simp] theorem Session.withFront_withFront (s : Session) (f g : Front) :
    (s.withFront f).withFront g = s.withFront g := rfl

def Ended.withFront {α : Type} (ended : Ended α) (f : Front) : Ended α :=
  { ended with session := ended.session.withFront f }

/-- Something done to run a command or to report an error: neither the terminal's mode nor the
standard output is touched. -/
def Action.isWork : Action → Bool
  | opened .. | openFailed .. | started .. | startFailed .. | waited .. | interrupted _ | closed _
  | wrote .err _ => true
  | wrote .out _ | saved _ | enteredRaw | restored _ | modeFailed _ => false

namespace Activity

variable {α β : Type}

/-- The activity depends on no front, keeps the one it finds, and only works. -/
structure Detached (body : Activity α) : Prop where
  apply_withFront : ∀ s f, body (s.withFront f) = (body s).withFront f
  works : ∀ s, ∀ action ∈ (body s).actions, action.isWork = true

theorem Detached.front_eq {body : Activity α} (detached : Detached body) (s : Session) :
    (body s).session.front = s.front := by
  have same := detached.apply_withFront s s.front
  rw [s.withFront_front] at same
  rw [same]
  rfl

/-! ## Sequencing -/

theorem detached_pure (a : α) : Detached (pure a : Activity α) where
  apply_withFront _ _ := rfl
  works := by simp [pure_apply]

theorem detached_fail (fault : Fault) : Detached (fail fault : Activity α) where
  apply_withFront _ _ := rfl
  works := by simp [fail]

theorem detached_act {action : Action} (work : action.isWork = true) : Detached (act action) where
  apply_withFront _ _ := rfl
  works := by simp [act, work]

theorem detached_modify {change : Session → Session}
    (commutes : ∀ s f, change (s.withFront f) = (change s).withFront f) :
    Detached (modify change) where
  apply_withFront s f := by simp [modify, Ended.withFront, commutes]
  works := by simp [modify]

theorem Detached.bind {first : Activity α} {next : α → Activity β} (detached : Detached first)
    (later : ∀ a, Detached (next a)) : Detached (first >>= next) where
  apply_withFront s f := by
    have here := detached.apply_withFront s f
    have result := congrArg Ended.result here
    cases ended : (first s).result with
    | error fault =>
      rw [bind_apply_of_error ended, bind_apply_of_error (result.trans ended), here]
      rfl
    | ok a =>
      rw [bind_apply_of_ok ended, bind_apply_of_ok (result.trans ended), here]
      have there := (later a).apply_withFront (first s).session f
      simp only [Ended.withFront] at there ⊢
      rw [there]
  works s := by
    cases ended : (first s).result with
    | error fault =>
      rw [bind_apply_of_error ended]
      exact detached.works s
    | ok a =>
      rw [bind_apply_of_ok ended]
      intro action member
      rcases List.mem_append.1 member with here | there
      · exact detached.works s action here
      · exact (later a).works _ action there

/-- An activity that looks at the session first, but not at its front. -/
theorem detached_get_bind {next : Session → Activity α}
    (blind : ∀ s f, next (s.withFront f) = next s) (later : ∀ s, Detached (next s)) :
    Detached (get >>= next) where
  apply_withFront s f := by
    have here : (get >>= next) s = next s s := rfl
    have there : (get >>= next) (s.withFront f) = next (s.withFront f) (s.withFront f) := rfl
    rw [here, there, blind]
    exact (later s).apply_withFront s f
  works s := (later s).works s

theorem Detached.attempt {body : Activity α} (detached : Detached body) :
    Detached (attempt body) where
  apply_withFront s f := by
    simp only [Activity.attempt, detached.apply_withFront]
    rfl
  works := detached.works

theorem detached_ofResult (result : Except Fault α) : Detached (ofResult result) := by
  cases result with
  | ok a => exact detached_pure a
  | error fault => exact detached_fail fault

theorem Detached.ensuring {body : Activity α} {cleanup : Activity Unit} (detached : Detached body)
    (after : Detached cleanup) : Detached (ensuring body cleanup) :=
  detached.attempt.bind fun result => after.bind fun _ => detached_ofResult result

theorem Detached.recovering {body : Activity α} (detached : Detached body) :
    Detached (recovering body) := by
  refine detached.attempt.bind fun result => ?_
  cases result with
  | ok a => exact detached_pure _
  | error fault =>
    cases fault with
    | shell error => exact detached_pure _
    | _ => exact detached_fail _

/-! ## The machine -/

theorem detached_openFile (mode : OpenMode) (path : Text) : Detached (openFile mode path) := by
  refine detached_get_bind (fun _ _ => rfl) fun s => ?_
  cases found : s.host.openErrors.lookup path with
  | some error =>
    simp only [found]
    exact (detached_act rfl).bind fun _ => detached_fail _
  | none =>
    simp only [found]
    refine (detached_modify fun _ _ => rfl).bind fun _ => ?_
    exact (detached_act rfl).bind fun _ => detached_pure _

theorem detached_close (handle : Handle) : Detached (close handle) := detached_act rfl

theorem detached_start (executable : Text) (args : List Text) (streams : Streams) :
    Detached (start executable args streams) := by
  refine detached_get_bind (fun _ _ => rfl) fun s => ?_
  refine (detached_modify fun _ _ => rfl).bind fun _ => ?_
  cases outcome : s.host.outcome executable with
  | fails error => exact (detached_act rfl).bind fun _ => detached_fail _
  | starts returnCode polls interrupts =>
    refine (detached_modify fun _ _ => rfl).bind fun _ => ?_
    refine detached_get_bind (fun _ _ => rfl) fun _ => ?_
    exact (detached_act rfl).bind fun _ => detached_pure _

/-! ## Chains -/

theorem detached_closeAny (handle : Option Handle) : Detached (closeAny handle) := by
  cases handle with
  | none => exact detached_pure ()
  | some handle => exact detached_close handle

theorem detached_withRedirect {mode : OpenMode} {target : Option Text}
    {body : Option Handle → Activity α} (detached : ∀ handle, Detached (body handle)) :
    Detached (withRedirect mode target body) := by
  cases target with
  | none => exact detached none
  | some path =>
    refine (detached_openFile mode path).bind fun handle => ?_
    exact (detached (some handle)).ensuring (detached_close handle)

theorem detached_launch (i : Invocation) (carried : Option Handle) (piped : Bool) :
    Detached (i.launch carried piped) := by
  refine Detached.ensuring ?_ (detached_closeAny carried)
  refine detached_withRedirect fun input => ?_
  refine detached_withRedirect fun output => ?_
  exact detached_withRedirect fun error => detached_start _ _ _

theorem detached_awaitWithin (patience interrupts : Nat) (child : Child) :
    Detached (awaitWithin patience interrupts child) := by
  induction patience generalizing interrupts with
  | zero =>
    cases interrupts with
    | zero => exact (detached_act rfl).bind fun _ => detached_pure _
    | succ interrupts => exact (detached_act rfl).bind fun _ => detached_fail _
  | succ patience ih =>
    cases interrupts with
    | zero => exact (detached_act rfl).bind fun _ => detached_pure _
    | succ interrupts => exact (detached_act rfl).bind fun _ => ih interrupts

theorem detached_reap : Detached reap := detached_modify fun _ _ => rfl

theorem detached_runLinks (carried : Option Handle) (chain : Chain) :
    Detached (chain.runLinks carried) := by
  induction chain generalizing carried with
  | nil => exact (detached_closeAny carried).bind fun _ => detached_pure _
  | cons link rest ih =>
    rw [Chain.runLinks]
    split
    · refine (detached_launch _ _ _).bind fun child => ?_
      exact (detached_modify fun _ _ => rfl).bind fun _ => ih _
    · refine (detached_launch _ _ _).bind fun child => ?_
      refine (detached_awaitWithin _ _ _).bind fun status => ?_
      split
      · exact detached_pure _
      · exact ih none

theorem detached_run (chain : Chain) : Detached chain.run :=
  (detached_runLinks none chain).ensuring detached_reap

theorem detached_runLine (line : Text) : Detached (Chain.runLine line) := by
  refine detached_get_bind (fun _ _ => rfl) fun s => ?_
  cases read : Chain.ofLine s.store line with
  | error error => exact detached_fail _
  | ok chain => exact detached_run chain

/-! ## Lines that were entered -/

theorem detached_statement (statement : Statement) : Detached statement.run := by
  cases statement with
  | assign name expression =>
    exact (detached_modify fun _ _ => rfl).bind fun _ => detached_pure _
  | command line => exact detached_runLine line

theorem detached_diagnose (message : Text) : Detached (diagnose message) := detached_act rfl

theorem Detached.reporting {body : Activity α} (detached : Detached body) :
    Detached (reporting body) := by
  refine detached.recovering.bind fun result => ?_
  cases result with
  | ok a => exact detached_pure _
  | error error => exact (detached_diagnose _).bind fun _ => detached_pure _

theorem detached_reportSignal (status : Status) : Detached (reportSignal status) := by
  unfold reportSignal
  split
  · exact detached_diagnose _
  · exact detached_pure ()

theorem detached_runCommitted (line : Text) : Detached (runCommitted line) := by
  unfold runCommitted
  split
  · exact detached_pure _
  · refine (detached_statement _).reporting.bind fun result => ?_
    cases result with
    | error code => exact detached_pure _
    | ok status => exact (detached_reportSignal status).bind fun _ => detached_pure _

end Activity

end ChainShell
