/-
# ChainShell.Proofs.Terminal.Tracking — what the session knows of the terminal's mode

The terminal itself is raw if the last change of its mode that went through was to raw mode
(`deviceRaw`).  The session counts as raw while it has a saved mode to go back to.  A switch
writes that down before it makes the call that changes the mode, so a call that fails leaves
the session with the mode that was asked for and the terminal with the one it had.  What a
switch can do is `Switch`, case by case:

* the save may fail, and then neither changes;
* a change that goes through leaves both in the mode that was asked for;
* a change that fails moves the session and not the terminal.

So the two agree exactly if an even number of changes has failed since the last one that
went through (`Known.switch`), at every note of every program and at its end, and a saved
mode is the one that was saved last (`runAll_agrees`).  One failed change is enough for a
terminal that stays raw and that nothing will put back (`runAll_loses_raw`).
-/
import ChainShell.Proofs.Terminal.Modes
import ChainShell.Proofs.Trace
import ChainShell.Terminal.Program

set_option autoImplicit false

namespace ChainShell

open ChainShell.Action ChainShell.Activity

/-! ## The terminal itself -/

namespace Action

/-- Whether the terminal is raw after an action; a call that fails changes nothing. -/
def deviceRawAfter (raw : Bool) : Action → Bool
  | enteredRaw => true
  | restored _ => false
  | _ => raw

/-- Whether the terminal is raw after the actions, if it was cooked before them. -/
def deviceRaw (actions : List Action) : Bool := actions.foldl deviceRawAfter false

def failedChangesAfter (count : Nat) : Action → Nat
  | enteredRaw | restored _ => 0
  | modeFailed .enterRaw | modeFailed .restore => count + 1
  | _ => count

/-- How many changes of the mode have failed since the last one that went through. -/
def failedChanges (actions : List Action) : Nat := actions.foldl failedChangesAfter 0

def saved? : Action → Option Nat
  | saved number => some number
  | _ => none

/-- The number of the mode that was saved last. -/
def lastSaved? (actions : List Action) : Option Nat := (actions.filterMap saved?).getLast?

theorem deviceRaw_append (first second : List Action) :
    deviceRaw (first ++ second) = second.foldl deviceRawAfter (deviceRaw first) :=
  List.foldl_append

theorem failedChanges_append (first second : List Action) :
    failedChanges (first ++ second) = second.foldl failedChangesAfter (failedChanges first) :=
  List.foldl_append

theorem lastSaved?_append (first second : List Action) :
    lastSaved? (first ++ second) = (lastSaved? second).or (lastSaved? first) := by
  rw [lastSaved?, List.filterMap_append, List.getLast?_append]
  rfl

end Action

namespace Terminal

/-! ## One switch -/

/-- What a switch can do: the saved mode before it, its actions, and the saved mode after it. -/
inductive Switch : Option Nat → List Action → Option Nat → Prop where
  /-- The session counts already as it is asked to. -/
  | idle (mode : Option Nat) : Switch mode [] mode
  | notSaved : Switch none [.modeFailed .save] none
  | notEntered (number : Nat) : Switch none [.saved number, .modeFailed .enterRaw] (some number)
  | entered (number : Nat) : Switch none [.saved number, .enteredRaw] (some number)
  | notRestored (number : Nat) : Switch (some number) [.modeFailed .restore] none
  | restored (number : Nat) : Switch (some number) [.restored number] none

/-- Every run of an activity is a switch. -/
def Switches (activity : Activity Unit) : Prop :=
  ∀ s, Switch s.savedMode (activity s).actions (activity s).session.savedMode

/-- A mode call gives its number, or it fails and says which call it was. -/
theorem callMode_eq (call : ModeCall) (s : Session) :
    (∃ number, callMode call s = ⟨.ok number, { s with host := s.host.called call }, []⟩) ∨
      callMode call s =
        ⟨.error .terminal, { s with host := s.host.called call }, [.modeFailed call]⟩ := by
  rw [callMode_apply]
  dsimp only
  split
  · exact .inr rfl
  · exact .inl ⟨_, rfl⟩

theorem switches_enterRaw : Switches enterRaw := by
  intro s
  unfold enterRaw
  rw [get_bind_apply]
  cases mode : s.savedMode with
  | some number =>
    have after : (pure () : Activity Unit) s = ⟨.ok (), s, []⟩ := rfl
    rw [Option.isNone_some, if_neg (by decide), after, mode]
    exact .idle _
  | none =>
    rw [Option.isNone_none, if_pos rfl]
    rcases callMode_eq .save s with ⟨number, saved⟩ | failed
    · rw [bind_apply_of_ok (congrArg Ended.result saved), saved, act_bind_apply, modify_bind_apply]
      rcases callMode_eq .enterRaw
        { s with savedMode := some number, host := s.host.called .save } with ⟨_, made⟩ | failed
      · rw [bind_apply_of_ok (congrArg Ended.result made), made]
        exact .entered number
      · rw [bind_apply_of_error (congrArg Ended.result failed), failed]
        exact .notEntered number
    · rw [bind_apply_of_error (congrArg Ended.result failed), failed]
      show Switch none [.modeFailed .save] s.savedMode
      rw [mode]
      exact .notSaved

theorem switches_leaveRaw : Switches leaveRaw := by
  intro s
  unfold leaveRaw
  rw [get_bind_apply]
  cases mode : s.savedMode with
  | none =>
    have after : (pure () : Activity Unit) s = ⟨.ok (), s, []⟩ := rfl
    dsimp only
    rw [after, mode]
    exact .idle _
  | some number =>
    dsimp only
    rw [modify_bind_apply]
    rcases callMode_eq .restore { s with savedMode := none } with ⟨_, made⟩ | failed
    · rw [bind_apply_of_ok (congrArg Ended.result made), made]
      exact .restored number
    · rw [bind_apply_of_error (congrArg Ended.result failed), failed]
      exact .notRestored number

/-- What is known of a terminal that was cooked before the actions, from the saved mode after. -/
structure Known (actions : List Action) (mode : Option Nat) : Prop where
  agrees : mode.isSome = deviceRaw actions ↔ failedChanges actions % 2 = 0
  saved : ∀ number, mode = some number → lastSaved? actions = some number

theorem known_nil : Known [] none where
  agrees := by decide
  saved := by simp

/-- A change that fails moves the session and not the terminal. -/
theorem agrees_of_failed {raw device : Bool} {count : Nat}
    (agrees : (!raw) = device ↔ count % 2 = 0) : raw = device ↔ (count + 1) % 2 = 0 := by
  have moved : raw = device ↔ ¬ (!raw) = device := by cases raw <;> cases device <;> decide
  rw [moved, agrees]
  omega

theorem Known.switch {actions more : List Action} {before after : Option Nat}
    (known : Known actions before) (switch : Switch before more after) :
    Known (actions ++ more) after where
  agrees := by
    have agrees := known.agrees
    rw [deviceRaw_append, failedChanges_append]
    cases switch with
    | idle mode => exact agrees
    | notSaved => exact agrees
    | notEntered number => exact agrees_of_failed agrees
    | entered number => exact iff_of_true rfl rfl
    | notRestored number => exact agrees_of_failed agrees
    | restored number => exact iff_of_true rfl rfl
  saved := by
    intro number mode
    rw [lastSaved?_append]
    cases switch with
    | idle => exact known.saved number mode
    | notEntered => exact mode
    | entered => exact mode
    | notSaved | notRestored | restored => contradiction

/-! ## Programs -/

namespace Watch

/-- What was done so far. -/
def done (w : Watch) : List Action := w.notes.flatMap (·.actions) ++ w.since

/-- What was known of the terminal at each note, and what is known of it now. -/
structure Tracks (w : Watch) : Prop where
  notes : ∀ before note after, w.notes = before ++ note :: after →
    (note.isRaw = deviceRaw (before.flatMap (·.actions) ++ note.actions) ↔
      failedChanges (before.flatMap (·.actions) ++ note.actions) % 2 = 0)
  now : Known w.done w.session.savedMode

variable {w : Watch}

theorem Tracks.perform (tracks : w.Tracks) {activity : Activity Unit}
    (switches : Switches activity) : (w.perform activity).2.Tracks where
  notes := tracks.notes
  now := by
    have after := tracks.now.switch (switches w.session)
    rw [done, List.append_assoc] at after
    exact after

theorem Tracks.note (tracks : w.Tracks) (mark : Mark) : (w.note mark).Tracks where
  notes := by
    intro before note after cut
    rcases cut_cases cut with ⟨rest, earlier, -⟩ | ⟨inner, rfl, last⟩
    · exact tracks.notes before note rest earlier
    · cases inner with
      | nil =>
        obtain ⟨rfl, -⟩ := List.cons.inj last
        rw [List.append_nil]
        exact tracks.now.agrees
      | cons other inner =>
        obtain ⟨-, none⟩ := List.cons.inj last
        simp at none
  now := by
    have same : (w.note mark).done = w.done := by
      simp [done, Watch.note]
    rw [same]
    exact tracks.now

theorem Tracks.performNoted (tracks : w.Tracks) {activity : Activity Unit}
    (switches : Switches activity) (mark : Mark) : (w.performNoted activity mark).2.Tracks := by
  have after := tracks.perform switches
  unfold Watch.performNoted
  split
  · rename_i performed
    rw [performed] at after
    exact after.note mark
  · exact after

theorem Tracks.endBlock (tracks : w.Tracks) (result : Except Fault Unit) {leave : Activity Unit}
    (switches : Switches leave) (mark : Mark) : (w.endBlock result leave mark).2.Tracks := by
  have after := tracks.perform switches
  unfold Watch.endBlock
  split
  · rename_i performed
    rw [performed] at after
    exact after.note mark
  · rename_i performed
    rw [performed] at after
    exact after
  · exact after

end Watch

mutual

theorem Step.run_tracks : ∀ (step : Step) {w : Watch}, w.Tracks → (step.run w).2.Tracks
  | .enterRaw, w, tracks => by
    rw [Step.run]
    exact tracks.performNoted switches_enterRaw _
  | .leaveRaw, w, tracks => by
    rw [Step.run]
    exact tracks.performNoted switches_leaveRaw _
  | .raw body, w, tracks => by
    have entered := tracks.performNoted switches_enterRaw .rawOpened
    rw [Step.run]
    split
    · rename_i opened
      rw [opened] at entered
      exact (Step.runAll_tracks body entered).endBlock _ switches_leaveRaw _
    · exact entered
  | .cooked body, w, tracks => by
    have left := tracks.performNoted switches_leaveRaw .cookedOpened
    rw [Step.run]
    split
    · rename_i opened
      rw [opened] at left
      exact (Step.runAll_tracks body left).endBlock _ switches_enterRaw _
    · exact left
  | .guarded body, w, tracks => by
    rw [Step.run]
    exact (Step.runAll_tracks body tracks).note _
  | .raise message, w, tracks => by
    rw [Step.run]
    exact tracks

theorem Step.runAll_tracks : ∀ (steps : List Step) {w : Watch}, w.Tracks →
    (Step.runAll steps w).2.Tracks
  | [], w, tracks => by
    rw [Step.runAll]
    exact tracks
  | step :: rest, w, tracks => by
    have here := Step.run_tracks step tracks
    rw [Step.runAll]
    split
    · rename_i ran
      rw [ran] at here
      exact Step.runAll_tracks rest here
    · exact here

end

theorem tracks_of_cooked {s : Session} (cooked : s.savedMode = none) :
    Watch.Tracks { session := s } where
  notes := by simp
  now := by
    have nothing : Watch.done { session := s } = [] := rfl
    rw [nothing, cooked]
    exact known_nil

/-- A session that counts as raw restores the mode that was saved last, or fails to; one that
counts as cooked does nothing. -/
theorem leaveRaw_of_known {actions : List Action} {s : Session}
    (known : Known actions s.savedMode) :
    (s.isRaw = true → ∃ number, lastSaved? actions = some number ∧
        ((leaveRaw s).actions = [.restored number] ∨
          (leaveRaw s).actions = [.modeFailed .restore])) ∧
      (s.isRaw = false → (leaveRaw s).actions = []) := by
  constructor
  · intro raw
    obtain ⟨number, mode⟩ := Option.isSome_iff_exists.1 raw
    refine ⟨number, known.saved number mode, ?_⟩
    rcases leaveRaw_of_raw mode with switched | ⟨⟨call, member⟩, -⟩
    · exact .inl switched.actions
    · have switch := switches_leaveRaw s
      rw [mode] at switch
      generalize (leaveRaw s).actions = done, (leaveRaw s).session.savedMode = after at switch member ⊢
      cases switch with
      | idle mode => simp at member
      | notRestored number => exact .inr rfl
      | restored number => exact .inl rfl
  · intro cooked
    have mode : s.savedMode = none := by simpa [Session.isRaw] using cooked
    exact (leaveRaw_of_cooked mode).actions

/-- For a program that starts with the terminal cooked, whatever calls fail: at every note of its
run and at its end the session counts as what the terminal is exactly if an even number of changes
has failed since the last one that went through.  As long as the session counts as raw, leaving raw
mode tries to restore the mode that was saved last, and otherwise it does nothing. -/
theorem runAll_agrees (steps : List Step) {s : Session} (cooked : s.savedMode = none) :
    let w := (Step.runAll steps { session := s }).2
    (∀ before note after, w.notes = before ++ note :: after →
        let done := before.flatMap (·.actions) ++ note.actions
        (note.isRaw = deviceRaw done ↔ failedChanges done % 2 = 0)) ∧
      (w.session.isRaw = deviceRaw w.done ↔ failedChanges w.done % 2 = 0) ∧
      (w.session.isRaw = true → ∃ number, lastSaved? w.done = some number ∧
        ((leaveRaw w.session).actions = [.restored number] ∨
          (leaveRaw w.session).actions = [.modeFailed .restore])) ∧
      (w.session.isRaw = false → (leaveRaw w.session).actions = []) := by
  intro w
  have tracks : w.Tracks := Step.runAll_tracks steps (tracks_of_cooked cooked)
  exact ⟨tracks.notes, tracks.now.agrees, leaveRaw_of_known tracks.now⟩

/-- Going back into raw mode fails at the end of a block: the session counts as raw, the terminal is
cooked, and leaving raw mode restores the cooked mode once more. -/
theorem runAll_agrees_not_entered :
    let s : Session := { host := { entering := { failing := [2] } } }
    let w := (Step.runAll [.enterRaw, .guarded [.cooked []]] { session := s }).2
    s.savedMode = none ∧ failedChanges w.done = 1 ∧ w.session.isRaw ≠ deviceRaw w.done ∧
      ∃ number, lastSaved? w.done = some number ∧
        ((leaveRaw w.session).actions = [.restored number] ∨
          (leaveRaw w.session).actions = [.modeFailed .restore]) := by
  intro s w
  have cooked : s.savedMode = none := rfl
  have once : failedChanges w.done = 1 := by decide
  have raw : w.session.isRaw = true := by decide
  have ended := runAll_agrees [.enterRaw, .guarded [.cooked []]] cooked
  refine ⟨cooked, once, fun same => ?_, ended.2.2.1 raw⟩
  have even : failedChanges w.done % 2 = 0 := ended.2.1.1 same
  rw [once] at even
  exact absurd even (by decide)

/-- A restore that fails loses track of a terminal that is still raw, and nothing will restore it. -/
theorem runAll_loses_raw :
    let s : Session := { host := { restoring := { failing := [1] } } }
    let w := (Step.runAll [.enterRaw, .guarded [.leaveRaw]] { session := s }).2
    s.savedMode = none ∧ deviceRaw w.done = true ∧ w.session.isRaw = false ∧
      (leaveRaw w.session).actions = [] := by
  decide

end Terminal

end ChainShell
