/-
# ChainShell.Proofs.Console.Events — which events count

The interactive shell takes the events of a source one by one.  An event with the control key
held either ends the session or is inert, and only control C and control D end it.  The arrows,
delete and enter are inert with control as well.

* Taking two lists of events one after the other is taking them as one, unless the first of them
  ends the session (`attend_append`).
* Inert events are passed over, wherever they come: in every state of the line, the history and the
  session the console goes on with the event after them (`attend_of_isInert`).  So it takes two
  lists alike that differ in inert events only (`attend_heeded`).
* What comes after the event that ends the session is not taken, and this event is like the end of
  the source (`attend_exit`).

`runEvents_heeds` says what this means for whole runs.
-/
import ChainShell.Console
import Mathlib.Control.Monad.Basic

set_option autoImplicit false

namespace ChainShell

open ChainShell.Activity

namespace KeyEvent

/-- An event with control that does not end the session. -/
def isInert (e : KeyEvent) : Bool := e.control && !e.isExit

/-- The events that are not inert. -/
def heeded (events : List KeyEvent) : List KeyEvent := events.filter (!·.isInert)

end KeyEvent

namespace Console

variable {marker : Marker} {fault : Option Fault} {event : KeyEvent}

/-! ## One event -/

theorem attend_of_isExit (exit : event.isExit = true) (c : Console) (rest : List KeyEvent) :
    attend marker fault c (event :: rest) = pure c := by
  rw [attend, if_pos exit]

theorem attend_of_isInert (inert : event.isInert = true) (c : Console) (rest : List KeyEvent) :
    attend marker fault c (event :: rest) = attend marker fault c rest := by
  simp only [KeyEvent.isInert, Bool.and_eq_true, Bool.not_eq_true'] at inert
  rw [attend, if_neg (by simp [inert.2]), if_pos inert.1]

/-- An event that counts strikes, and the line is drawn again. -/
theorem attend_of_plain (plain : event.control = false) (c : Console) (rest : List KeyEvent) :
    attend marker fault c (event :: rest) =
      (c.strike event.stroke >>= fun next =>
        next.redraw marker >>= fun _ => attend marker fault next rest) := by
  have stays : event.isExit = false := by simp [KeyEvent.isExit, plain]
  rw [attend, if_neg (by simp [stays]), if_neg (by simp [plain])]

/-- An event ends the session, or is inert, or counts. -/
theorem event_cases (event : KeyEvent) :
    event.isExit = true ∨ (event.isExit = false ∧ event.isInert = true) ∨
      (event.isExit = false ∧ event.control = false ∧ event.isInert = false) := by
  cases control : event.control with
  | false => exact .inr (.inr (by simp [KeyEvent.isExit, KeyEvent.isInert, control]))
  | true =>
    cases exit : event.isExit with
    | false => exact .inr (.inl (by simp [KeyEvent.isInert, control, exit]))
    | true => exact .inl rfl

/-! ## Lists of events -/

/-- After the events of a first list the console goes on with those of a second one, unless the
session is over. -/
theorem attend_append_ite (c : Console) (first rest : List KeyEvent) :
    attend marker fault c (first ++ rest) =
      (attend marker none c first >>= fun c =>
        if first.any (·.isExit) then pure c else attend marker fault c rest) := by
  induction first generalizing c with
  | nil =>
    have ended : attend marker none c [] = pure c := rfl
    rw [ended, pure_bind]
    rfl
  | cons event first ih =>
    rw [List.cons_append, List.any_cons]
    rcases event_cases event with exit | ⟨stays, inert⟩ | ⟨stays, plain, -⟩
    · rw [attend_of_isExit exit, attend_of_isExit exit, exit, pure_bind]
      rfl
    · rw [attend_of_isInert inert, attend_of_isInert inert, ih, stays]
      rfl
    · rw [attend_of_plain plain, attend_of_plain plain, stays]
      simp only [ih, bind_assoc]
      rfl

theorem attend_append {first : List KeyEvent} (stays : ∀ event ∈ first, event.isExit = false)
    (c : Console) (rest : List KeyEvent) :
    attend marker fault c (first ++ rest) =
      (attend marker none c first >>= fun c => attend marker fault c rest) := by
  have none : first.any (·.isExit) = false := by simpa using stays
  rw [attend_append_ite, none]
  rfl

/-- The event that ends the session is like the end of the source. -/
theorem attend_exit (exit : event.isExit = true) (c : Console) (before after : List KeyEvent) :
    attend marker fault c (before ++ event :: after) = attend marker none c before := by
  rw [attend_append_ite]
  simp only [attend_of_isExit exit, ite_self, bind_pure]

/-- Only the events that are not inert count. -/
theorem attend_heeded (c : Console) (events : List KeyEvent) :
    attend marker fault c (KeyEvent.heeded events) = attend marker fault c events := by
  induction events generalizing c with
  | nil => rfl
  | cons event rest ih =>
    rcases event_cases event with exit | ⟨stays, inert⟩ | ⟨stays, plain, heeded⟩
    · have heeded : event.isInert = false := by simp [KeyEvent.isInert, exit]
      rw [KeyEvent.heeded, List.filter_cons_of_pos (by simp [heeded]), attend_of_isExit exit,
        attend_of_isExit exit]
    · rw [KeyEvent.heeded, List.filter_cons_of_neg (by simp [inert]), attend_of_isInert inert]
      exact ih c
    · rw [KeyEvent.heeded, List.filter_cons_of_pos (by simp [heeded]), attend_of_plain plain,
        attend_of_plain plain]
      simp only [← ih]
      rfl

/-! ## Whole runs -/

/-- Two sources that differ in nothing but inert events make the same run: from every session the
same result, session and actions.  And the event that ends a session makes the same run as the end
of the source in its place, whichever event it is and whatever would come after it. -/
theorem runEvents_heeds (marker : Marker) (fault : Option Fault) :
    (∀ events events' : List KeyEvent, KeyEvent.heeded events' = KeyEvent.heeded events →
      runEvents marker events' fault = runEvents marker events fault) ∧
    ∀ (before after : List KeyEvent) (exit : KeyEvent), exit.isExit = true →
      runEvents marker (before ++ exit :: after) fault = runEvents marker before none := by
  constructor
  · intro events events' same
    have alike : attend marker fault {} events' = attend marker fault {} events := by
      rw [← attend_heeded, same, attend_heeded]
    rw [runEvents, runEvents, alike]
  · intro before after exit isExit
    rw [runEvents, runEvents, attend_exit isExit]

/-- A command line with inert events all over it, among them control delete and control enter: they
do not change it and do not commit it.  It is run as without them, and whether control D, control C
or the end of the source comes next. -/
theorem runEvents_heeds_inert :
    let typed : List KeyEvent := [⟨.char ['w'], false⟩, .key .enter false]
    let mixed : List KeyEvent :=
      [.key .enter true, ⟨.char ['w'], false⟩, .key .left true, .key .delete true,
        ⟨.char ['u'], true⟩, .key .enter false, .key .up true]
    let s : Session := { host := { programs := [(['w'], [.starts 3 0 0])] } }
    let run := fun events fault => runEvents { text := ['$'] } events fault s
    run mixed none = run typed none ∧
      (∀ exit ∈ [['c'], ['d']], ∀ after fault,
        run (mixed ++ ⟨.char exit, true⟩ :: after) fault = run typed none) ∧
      (run typed none).result = .ok 3 := by
  intro typed mixed s run
  have same : runEvents { text := ['$'] } mixed none = runEvents { text := ['$'] } typed none :=
    (runEvents_heeds { text := ['$'] } none).1 typed mixed (by decide)
  refine ⟨congrFun same s, ?_, by decide +kernel⟩
  intro exit member after fault
  have isExit : (⟨.char exit, true⟩ : KeyEvent).isExit = true := by
    simp only [List.mem_cons, List.not_mem_nil, or_false] at member
    rcases member with rfl | rfl <;> rfl
  exact congrFun (((runEvents_heeds { text := ['$'] } fault).2 mixed after _ isExit).trans same) s

end Console

end ChainShell
