/-
# ChainShell.Proofs.Terminal.Modes — what switching the terminal's mode does

Entering raw mode saves the mode and changes it, unless the session counts as raw already;
leaving it restores what was saved, unless the session counts as cooked already.  A switch
goes through, or a mode call fails and its actions say so (`ModeFailed`):

* `enterRaw_of_cooked`, `enterRaw_of_raw`: entering raw mode;
* `leaveRaw_of_raw`, `leaveRaw_of_cooked`: leaving it.

A switch changes nothing of a session but its front, and keeps the history (`Switched`).
-/
import ChainShell.Proofs.Console.Detached
import ChainShell.Terminal.Basic

set_option autoImplicit false

namespace ChainShell

open ChainShell.Activity

/-- A mode call failed. -/
def Action.ModeFailed (actions : List Action) : Prop := ∃ call, modeFailed call ∈ actions

namespace Action

variable {first second actions : List Action}

theorem modeFailed_append :
    ModeFailed (first ++ second) ↔ ModeFailed first ∨ ModeFailed second := by
  simp only [ModeFailed, List.mem_append, exists_or]

theorem not_modeFailed_of_works (works : ∀ action ∈ actions, action.isWork = true) :
    ¬ ModeFailed actions := by
  rintro ⟨call, member⟩
  have work := works _ member
  contradiction

end Action

/-- A mode call failed, and the activity ended with that. -/
def Ended.ModeFailed {α : Type} (ended : Ended α) : Prop :=
  Action.ModeFailed ended.actions ∧ ended.result = .error .terminal

namespace Terminal

/-- A mode call gives its number, or it fails. -/
theorem callMode_apply (call : ModeCall) (s : Session) :
    callMode call s =
      let after := { s with host := s.host.called call }
      let count := after.host.callCount call
      if count.made ∈ count.failing then ⟨.error .terminal, after, [.modeFailed call]⟩
      else ⟨.ok count.made, after, []⟩ := by
  unfold callMode modifyHost
  rw [modify_bind_apply, get_bind_apply]
  dsimp only
  split
  · rfl
  · rfl

theorem callMode_cases (call : ModeCall) (s : Session) :
    (∃ number, callMode call s = ⟨.ok number, { s with host := s.host.called call }, []⟩) ∨
      (callMode call s).ModeFailed := by
  rw [callMode_apply]
  dsimp only
  split
  · exact .inr ⟨⟨call, List.mem_singleton_self _⟩, rfl⟩
  · exact .inl ⟨_, rfl⟩

/-- A failed call ends what comes after it. -/
theorem modeFailed_bind {α β : Type} {first : Activity α} {s : Session}
    (failed : (first s).ModeFailed) (next : α → Activity β) : ((first >>= next) s).ModeFailed := by
  rw [bind_apply_of_error failed.2]
  exact ⟨failed.1, rfl⟩

/-- The switch did these actions and left the session with this saved mode; nothing but the front
changed, and in it not the history. -/
structure Switched (s : Session) (ended : Ended Unit) (mode : Option Nat)
    (actions : List Action) : Prop where
  result : ended.result = .ok ()
  session : ended.session = s.withFront ended.session.front
  history : ended.session.history = s.history
  mode : ended.session.savedMode = mode
  actions : ended.actions = actions

theorem enterRaw_of_raw {s : Session} {number : Nat} (raw : s.savedMode = some number) :
    Switched s (enterRaw s) (some number) [] := by
  unfold enterRaw
  rw [get_bind_apply, raw]
  exact ⟨rfl, rfl, rfl, raw, rfl⟩

theorem leaveRaw_of_cooked {s : Session} (cooked : s.savedMode = none) :
    Switched s (leaveRaw s) none [] := by
  unfold leaveRaw
  rw [get_bind_apply, cooked]
  exact ⟨rfl, rfl, rfl, cooked, rfl⟩

theorem leaveRaw_of_raw {s : Session} {number : Nat} (raw : s.savedMode = some number) :
    Switched s (leaveRaw s) none [.restored number] ∨ (leaveRaw s).ModeFailed := by
  unfold leaveRaw
  rw [get_bind_apply, raw]
  dsimp only
  rw [modify_bind_apply]
  rcases callMode_cases .restore { s with savedMode := none } with ⟨_, made⟩ | failed
  · rw [bind_apply_of_ok (congrArg Ended.result made), made]
    exact .inl ⟨rfl, rfl, rfl, rfl, rfl⟩
  · exact .inr (modeFailed_bind failed _)

theorem enterRaw_of_cooked {s : Session} (cooked : s.savedMode = none) :
    (∃ number, Switched s (enterRaw s) (some number) [.saved number, .enteredRaw]) ∨
      (enterRaw s).ModeFailed := by
  unfold enterRaw
  rw [get_bind_apply, cooked]
  dsimp only [Option.isNone_none]
  rw [if_pos rfl]
  rcases callMode_cases .save s with ⟨number, saved⟩ | failed
  · rw [bind_apply_of_ok (congrArg Ended.result saved), saved, act_bind_apply, modify_bind_apply]
    rcases callMode_cases .enterRaw
      { s with savedMode := some number, host := s.host.called .save } with ⟨_, made⟩ | failed
    · rw [bind_apply_of_ok (congrArg Ended.result made), made]
      exact .inl ⟨number, rfl, rfl, rfl, rfl, rfl⟩
    · obtain ⟨⟨call, member⟩, result⟩ := modeFailed_bind failed fun _ => act .enteredRaw
      exact .inr ⟨⟨call, List.mem_cons_of_mem _ member⟩, result⟩
  · exact .inr (modeFailed_bind failed _)

end Terminal

end ChainShell
