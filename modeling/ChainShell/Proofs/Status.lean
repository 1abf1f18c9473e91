/-
# ChainShell.Proofs.Status — the statuses that there are

The type of statuses has room for more than the shell makes: with neither a code nor a signal a
status counts as 0 and is no success.  What the shell makes is the status of a return code
(`Status.Returned`), which has one of the two and not the other; of these, those that count as 0
are those that are success (`Returned.consistent`).

An activity gives values of a kind if it ends with no others (`Gives`).  This is closed under
sequencing and cleanup, so each part of the shell needs a line or two:

* chains, statements and lists of them give statuses of return codes (`gives_run`,
  `Statement.gives_run`, `Statement.gives_runAll`);
* so do lines that are entered, errors included (`gives_runCommitted`), and the interactive
  shell keeps no other (`gives_attend`).
-/
import ChainShell.Console

set_option autoImplicit false

namespace ChainShell

open ChainShell.Activity ChainShell.Terminal

/-! ## Statuses of return codes -/

namespace Status

/-- The status is that of a return code. -/
def Returned (status : Status) : Prop := ∃ code, status = .ofReturnCode code

theorem returned_ok : Returned .ok := ⟨0, rfl⟩

theorem returned_exited (code : Nat) : Returned (.exited code) :=
  ⟨code, (if_neg (Int.not_lt.2 (Int.natCast_nonneg code))).symm⟩

theorem toInt_ofReturnCode (code : Int) :
    (ofReturnCode code).toInt = if code < 0 then 128 - code else code := by
  rw [ofReturnCode]
  split
  · simp only [toInt]
    omega
  · rfl

theorem success_ofReturnCode (code : Int) : (ofReturnCode code).success = true ↔ code = 0 := by
  rw [ofReturnCode]
  split
  · rename_i negative
    simpa [success] using Int.ne_of_lt negative
  · simp [success, exited]

/-- The status counts as 0 exactly if it is success. -/
def Consistent (status : Status) : Prop := status.toInt = 0 ↔ status.success = true

theorem Returned.consistent {status : Status} (returned : status.Returned) :
    status.Consistent := by
  obtain ⟨code, rfl⟩ := returned
  rw [Consistent, toInt_ofReturnCode, success_ofReturnCode]
  split
  · omega
  · rfl

/-- Not every status of the type is that of a return code. -/
example : toInt { code := none } = 0 ∧ success { code := none } = false := by decide

end Status

/-! ## Values that activities give -/

namespace Activity

variable {α β : Type} {P : α → Prop} {Q : β → Prop}

/-- If the activity ends with a value, the value is of the kind. -/
def Gives (P : α → Prop) (body : Activity α) : Prop := ∀ s a, (body s).result = .ok a → P a

/-- A value of the kind, or the exit code of an error. -/
def Reported (P : α → Prop) : Except Int α → Prop
  | .ok a => P a
  | .error code => ∃ error : ShellError, code = error.exitCode

theorem gives_pure {a : α} (holds : P a) : Gives P (pure a) := by
  rintro s _ ⟨⟩
  exact holds

theorem gives_fail (fault : Fault) : Gives P (fail fault) := by
  intro s a ended
  contradiction

namespace Gives

theorem mono {P' : α → Prop} {body : Activity α} (gives : Gives P body)
    (weaker : ∀ a, P a → P' a) : Gives P' body :=
  fun s a ended => weaker a (gives s a ended)

theorem bind {first : Activity α} {next : α → Activity β} (here : Gives P first)
    (later : ∀ a, P a → Gives Q (next a)) : Gives Q (first >>= next) := by
  intro s b ended
  obtain ⟨a, ran, ended⟩ := result_bind_eq_ok.1 ended
  exact later a (here s a ran) _ b ended

/-- What comes first does not matter if what follows gives the kind in any case. -/
theorem after {first : Activity α} {next : α → Activity β} (later : ∀ a, Gives Q (next a)) :
    Gives Q (first >>= next) :=
  bind (P := fun _ => True) (fun _ _ _ => trivial) fun a _ => later a

theorem ensuring {body : Activity α} (gives : Gives P body) (cleanup : Activity Unit) :
    Gives P (ensuring body cleanup) := by
  intro s a ended
  rw [ensuring_apply] at ended
  cases after : (cleanup (body s).session).result with
  | error fault =>
    rw [after] at ended
    contradiction
  | ok finished =>
    rw [after] at ended
    exact gives s a ended

theorem recovering {body : Activity α} (gives : Gives P body) :
    Gives (fun outcome => ∀ a, outcome = .ok a → P a) (recovering body) := by
  intro s outcome ended a same
  rw [recovering_apply] at ended
  cases ran : (body s).result with
  | ok b =>
    rw [ran] at ended
    obtain rfl := Except.ok.inj ended
    obtain rfl := Except.ok.inj same
    exact gives s b ran
  | error fault =>
    rw [ran] at ended
    cases fault with
    | shell error =>
      obtain rfl := Except.ok.inj ended
      contradiction
    | _ => contradiction

theorem reporting {body : Activity α} (gives : Gives P body) :
    Gives (Reported P) (reporting body) := by
  refine gives.recovering.bind fun outcome holds => ?_
  cases outcome with
  | error error => exact after fun _ => gives_pure ⟨error, rfl⟩
  | ok a => exact gives_pure (holds a rfl)

theorem cooked {body : Activity α} (gives : Gives P body) : Gives P (cooked body) :=
  after fun _ => gives.ensuring enterRaw

end Gives

end Activity

/-! ## The shell -/

theorem gives_awaitWithin (patience interrupts : Nat) (child : Child) :
    Gives Status.Returned (awaitWithin patience interrupts child) := by
  induction patience generalizing interrupts with
  | zero =>
    cases interrupts with
    | zero => exact .after fun _ => gives_pure ⟨child.returnCode, rfl⟩
    | succ interrupts => exact .after fun _ => gives_fail .interrupted
  | succ patience ih =>
    cases interrupts with
    | zero => exact .after fun _ => gives_pure ⟨child.returnCode, rfl⟩
    | succ interrupts => exact .after fun _ => ih interrupts

namespace Chain

theorem gives_runLinks (carried : Option Handle) (chain : Chain) :
    Gives Status.Returned (runLinks carried chain) := by
  induction chain generalizing carried with
  | nil => exact .after fun _ => gives_pure Status.returned_ok
  | cons link rest ih =>
    rw [runLinks]
    split
    · exact .after fun child => .after fun _ => ih _
    · refine .after fun child => (gives_awaitWithin _ _ child).bind fun status returned => ?_
      split
      · exact gives_pure returned
      · exact ih none

/-- A chain ends with the status of a return code. -/
theorem gives_run (chain : Chain) : Gives Status.Returned chain.run :=
  (gives_runLinks none chain).ensuring reap

end Chain

namespace Statement

theorem gives_run (statement : Statement) : Gives Status.Returned statement.run := by
  cases statement with
  | assign name expression => exact .after fun _ => gives_pure Status.returned_ok
  | command line =>
    refine .after fun s => ?_
    split
    · exact gives_fail _
    · exact Chain.gives_run _

theorem gives_runAll {status : Status} (returned : status.Returned) (statements : List Statement) :
    Gives Status.Returned (runAll status statements) := by
  induction statements generalizing status with
  | nil => exact gives_pure returned
  | cons statement rest ih => exact statement.gives_run.bind fun _ returned => ih returned

end Statement

theorem gives_runCommitted (line : Text) :
    Gives (fun status => ∀ given ∈ status, given.Returned) (runCommitted line) := by
  rw [runCommitted]
  split
  · exact gives_pure (by simp)
  · refine (Statement.gives_run _).reporting.bind fun outcome returned => ?_
    cases outcome with
    | error code =>
      obtain ⟨error, rfl⟩ := returned
      refine gives_pure ?_
      rintro _ ⟨⟩
      exact Status.returned_exited error.exitCode
    | ok status =>
      refine .after fun _ => gives_pure ?_
      rintro _ ⟨⟩
      exact returned

namespace Console

theorem gives_commit {c : Console} (returned : c.last.Returned) :
    Gives (·.last.Returned) c.commit := by
  have entered : Gives (fun status => ∀ given ∈ status, given.Returned) (do
      write .out ['\n']
      runCommitted c.buffer.contents) := .after fun _ => gives_runCommitted _
  refine entered.cooked.bind fun status given => ?_
  cases status with
  | none => exact gives_pure returned
  | some status => exact .after fun _ => gives_pure (given status rfl)

theorem gives_browse {c : Console} (returned : c.last.Returned) (move : History → History) :
    Gives (·.last.Returned) (c.browse move) := by
  refine .after fun s => ?_
  dsimp only
  split
  · exact gives_pure returned
  · exact .after fun _ => gives_pure returned

theorem gives_strike {c : Console} (returned : c.last.Returned) (stroke : Stroke) :
    Gives (·.last.Returned) (c.strike stroke) := by
  cases stroke with
  | char text => exact gives_pure returned
  | key key =>
    cases key with
    | enter => exact gives_commit returned
    | up | down => exact gives_browse returned _
    | _ => exact gives_pure returned

/-- The interactive shell keeps the status of a return code. -/
theorem gives_attend (marker : Marker) (fault : Option Fault) {c : Console}
    (returned : c.last.Returned) (events : List KeyEvent) :
    Gives (·.last.Returned) (attend marker fault c events) := by
  induction events generalizing c with
  | nil =>
    cases fault with
    | none => exact gives_pure returned
    | some fault => exact gives_fail fault
  | cons event rest ih =>
    rw [attend]
    split
    · exact gives_pure returned
    · split
      · exact ih returned
      · exact (gives_strike returned event.stroke).bind fun next returned =>
          .after fun _ => ih returned

end Console

end ChainShell
