/-
# ChainShell.Proofs.Console.Bracketing — work is done in cooked mode

The interactive shell holds the terminal in raw mode while it waits for keys and redraws the
line, and in cooked mode while a line runs.  The actions of a run are checked against the
mode one by one (`Mode.next?`): work is allowed in cooked mode only and a redraw in raw mode
only, and the mode calls follow one another as save, enter, restore, where the mode that is
restored is the one saved last.

* An activity `Tracks` the mode if its actions pass this check and lead to the mode that the
  session counts as.  Tracking is kept by sequencing and by cleanup (`Tracks.bind`,
  `Tracks.ensuring`), whether a part ends with a value or with a fault.
* Committing a line, and with it every event, tracks from raw mode to raw mode
  (`tracks_commit`, `tracks_attend`).

`runEvents_bracketed` says what follows for a whole run: for every session that starts in
cooked mode, every list of events, and every fault that may end it.
-/
import ChainShell.Console
import ChainShell.Proofs.Terminal.Modes
import ChainShell.Proofs.Trace
import Mathlib.Control.Monad.Basic

set_option autoImplicit false

namespace ChainShell

namespace Action

def isModeChange : Action → Bool
  | saved _ | enteredRaw | restored _ => true
  | _ => false

/-- The last thing that was done to the terminal's mode. -/
def lastModeChange? (actions : List Action) : Option Action :=
  (actions.filter isModeChange).getLast?

/-- The terminal is in cooked mode after the actions, if it was before them. -/
def CookedAfter (actions : List Action) : Prop :=
  lastModeChange? actions = none ∨ ∃ number, lastModeChange? actions = some (restored number)

def RawAfter (actions : List Action) : Prop := lastModeChange? actions = some enteredRaw

end Action

open ChainShell.Action ChainShell.Activity

namespace Terminal

/-! ## Modes along a run -/

/-- The mode that the terminal is in, or between the save of one mode and the change to the
other. -/
inductive Mode where
  | cooked
  | entering (number : Nat)
  | raw (number : Nat)
  deriving DecidableEq, Repr

namespace Mode

/-- The mode after an action, if the action is allowed in the mode before. -/
def next? : Mode → Action → Option Mode
  | cooked, .saved number => some (entering number)
  | cooked, .wrote .out text => if text = ['\n'] ∨ text = ['\r', '\n'] then some cooked else none
  | cooked, action => if action.isWork then some cooked else none
  | entering number, .enteredRaw => some (raw number)
  | entering _, _ => none
  | raw number, .restored other => if other = number then some cooked else none
  | raw number, .wrote .out _ => some (raw number)
  | raw _, _ => none

def run? (mode : Mode) (actions : List Action) : Option Mode := actions.foldlM next? mode

theorem run?_append (mode : Mode) (first second : List Action) :
    mode.run? (first ++ second) = (mode.run? first).bind fun middle => middle.run? second :=
  List.foldlM_append

/-- What can be done in which mode. -/
theorem next?_cases {mode after : Mode} {action : Action}
    (allowed : mode.next? action = some after) :
    (∃ number, mode = cooked ∧ action = .saved number ∧ after = entering number) ∨
    (∃ number, mode = entering number ∧ action = .enteredRaw ∧ after = raw number) ∨
    (∃ number, mode = raw number ∧ action = .restored number ∧ after = cooked) ∨
    (∃ number text, mode = raw number ∧ action = .wrote .out text ∧ after = raw number) ∨
    (mode = cooked ∧ (action.isWork = true ∨ action = .wrote .out ['\n'] ∨
      action = .wrote .out ['\r', '\n']) ∧ after = cooked) := by
  cases mode with
  | cooked =>
    cases action with
    | saved number => exact .inl ⟨number, rfl, rfl, (Option.some.inj allowed).symm⟩
    | wrote stream text =>
      cases stream with
      | out =>
        obtain ⟨newline, same⟩ := Option.ite_none_right_eq_some.1 allowed
        obtain rfl := Option.some.inj same
        refine .inr (.inr (.inr (.inr ⟨rfl, .inr ?_, rfl⟩)))
        rcases newline with rfl | rfl
        · exact .inl rfl
        · exact .inr rfl
      | err => exact .inr (.inr (.inr (.inr ⟨rfl, .inl rfl, (Option.some.inj allowed).symm⟩)))
    | enteredRaw | restored _ | modeFailed _ => contradiction
    | _ => exact .inr (.inr (.inr (.inr ⟨rfl, .inl rfl, (Option.some.inj allowed).symm⟩)))
  | entering number =>
    cases action with
    | enteredRaw => exact .inr (.inl ⟨number, rfl, rfl, (Option.some.inj allowed).symm⟩)
    | _ => contradiction
  | raw number =>
    cases action with
    | restored other =>
      obtain ⟨rfl, same⟩ := Option.ite_none_right_eq_some.1 allowed
      exact .inr (.inr (.inl ⟨other, rfl, rfl, (Option.some.inj same).symm⟩))
    | wrote stream text =>
      cases stream with
      | out => exact .inr (.inr (.inr (.inl ⟨number, text, rfl, rfl, (Option.some.inj allowed).symm⟩)))
      | err => contradiction
    | _ => contradiction

theorem next?_of_isWork {action : Action} (work : action.isWork = true) :
    cooked.next? action = some cooked := by
  cases action with
  | wrote stream text =>
    cases stream with
    | out => contradiction
    | err => rfl
  | saved _ | enteredRaw | restored _ | modeFailed _ => contradiction
  | _ => rfl

/-- Work leaves the terminal in cooked mode. -/
theorem run?_of_works {actions : List Action} (works : ∀ action ∈ actions, action.isWork = true) :
    cooked.run? actions = some cooked := by
  induction actions with
  | nil => rfl
  | cons action actions ih =>
    rw [run?, List.foldlM_cons, next?_of_isWork (works action List.mem_cons_self)]
    exact ih fun other member => works other (List.mem_cons_of_mem _ member)

/-! ## Brackets -/

/-- The mode changes since the terminal was last in cooked mode. -/
def begun : Mode → List Action
  | cooked => []
  | entering number => [.saved number]
  | raw number => [.saved number, .enteredRaw]

/-- The mode changes around one stay in raw mode. -/
def bracket (number : Nat) : List Action := [.saved number, .enteredRaw, .restored number]

theorem not_isModeChange_of_isWork {action : Action} (work : action.isWork = true) :
    action.isModeChange = false := by
  cases action <;> first | rfl | contradiction

/-- An allowed action goes on with the bracket that was begun, closes it, or is no mode change. -/
theorem begun_of_next? {mode after : Mode} {action : Action}
    (allowed : mode.next? action = some after) :
    ∃ numbers : List Nat, mode.begun ++ [action].filter isModeChange =
      numbers.flatMap bracket ++ after.begun := by
  rcases next?_cases allowed with ⟨number, rfl, rfl, rfl⟩ | ⟨number, rfl, rfl, rfl⟩ |
    ⟨number, rfl, rfl, rfl⟩ | ⟨number, text, rfl, rfl, rfl⟩ | ⟨rfl, quiet, rfl⟩
  · exact ⟨[], rfl⟩
  · exact ⟨[], rfl⟩
  · exact ⟨[number], rfl⟩
  · exact ⟨[], rfl⟩
  · refine ⟨[], ?_⟩
    rcases quiet with work | rfl | rfl
    · simp [begun, not_isModeChange_of_isWork work]
    · rfl
    · rfl

theorem modeChanges_of_run? {mode after : Mode} {actions : List Action}
    (allowed : mode.run? actions = some after) :
    ∃ numbers : List Nat, mode.begun ++ actions.filter isModeChange =
      numbers.flatMap bracket ++ after.begun := by
  induction actions generalizing mode with
  | nil =>
    obtain rfl := Option.some.inj allowed
    exact ⟨[], by simp⟩
  | cons action actions ih =>
    rw [run?, List.foldlM_cons] at allowed
    obtain ⟨middle, here, later⟩ := Option.bind_eq_some_iff.1 allowed
    obtain ⟨first, now⟩ := begun_of_next? here
    obtain ⟨second, rest⟩ := ih later
    refine ⟨first ++ second, ?_⟩
    have split : (action :: actions).filter isModeChange =
        [action].filter isModeChange ++ actions.filter isModeChange := by
      rw [← List.filter_append, List.singleton_append]
    rw [split, ← List.append_assoc, now, List.append_assoc, rest, List.flatMap_append,
      List.append_assoc]

/-- The mode after a run that began in cooked mode shows in the last mode change. -/
theorem lastModeChange?_of_run? {actions : List Action} {mode : Mode}
    (allowed : cooked.run? actions = some mode) :
    (mode = cooked → CookedAfter actions) ∧ (∀ number, mode = raw number → RawAfter actions) := by
  obtain ⟨numbers, changes⟩ := modeChanges_of_run? allowed
  rw [begun, List.nil_append] at changes
  constructor
  · rintro rfl
    rw [CookedAfter, lastModeChange?, changes, begun, List.append_nil]
    rcases List.eq_nil_or_concat numbers with rfl | ⟨earlier, last, rfl⟩
    · exact .inl rfl
    · refine .inr ⟨last, ?_⟩
      rw [List.concat_eq_append, List.flatMap_append, List.flatMap_singleton]
      simp [bracket]
  · rintro number rfl
    rw [RawAfter, lastModeChange?, changes]
    simp [begun]

end Mode

end Terminal

open ChainShell.Terminal

/-- The mode that a session counts as. -/
def Session.mode (s : Session) : Mode :=
  match s.savedMode with
  | none => .cooked
  | some number => .raw number

/-! ## Activities that keep track of the mode -/

namespace Activity

variable {α β : Type} {before middle after : Bool}

/-- From a session that counts as raw, or does not, as `before` says, the activity comes to one as
`after` says, and its actions are allowed and lead from the mode of the one to that of the other;
unless a mode call fails. -/
def Tracks (before after : Bool) (body : Activity α) : Prop :=
  ∀ s : Session, s.isRaw = before → ¬ ModeFailed (body s).actions →
    (body s).session.isRaw = after ∧ s.mode.run? (body s).actions = some (body s).session.mode

/-- The activity ends with a fault only if a mode call fails. -/
def Passes (body : Activity α) : Prop :=
  ∀ s : Session, ¬ ModeFailed (body s).actions → ∃ a, (body s).result = .ok a

theorem tracks_of_silent {body : Activity α}
    (silent : ∀ s, (body s).actions = [] ∧ (body s).session.savedMode = s.savedMode) :
    Tracks before before body := by
  intro s isBefore _
  obtain ⟨nothing, same⟩ := silent s
  have mode : (body s).session.mode = s.mode := by rw [Session.mode, Session.mode, same]
  refine ⟨?_, ?_⟩
  · rw [Session.isRaw, same]
    exact isBefore
  · rw [nothing, mode]
    rfl

theorem tracks_pure (a : α) : Tracks before before (pure a : Activity α) :=
  tracks_of_silent fun _ => ⟨rfl, rfl⟩

theorem tracks_fail (fault : Fault) : Tracks before before (fail fault : Activity α) :=
  tracks_of_silent fun _ => ⟨rfl, rfl⟩

theorem tracks_get : Tracks before before get := tracks_of_silent fun _ => ⟨rfl, rfl⟩

theorem tracks_modify {change : Session → Session}
    (same : ∀ s, (change s).savedMode = s.savedMode) : Tracks before before (modify change) :=
  tracks_of_silent fun s => ⟨rfl, same s⟩

/-- What is detached works, and has to be done in cooked mode. -/
theorem Detached.tracks {body : Activity α} (detached : Detached body) :
    Tracks false false body := by
  intro s cooked _
  have same : (body s).session.savedMode = s.savedMode :=
    congrArg Front.savedMode (detached.front_eq s)
  have mode : s.savedMode = none := by simpa [Session.isRaw] using cooked
  refine ⟨?_, ?_⟩
  · rw [Session.isRaw, same]
    exact cooked
  · rw [Session.mode, Session.mode, same, mode]
    exact Mode.run?_of_works (detached.works s)

/-- One activity after another.  A fault of the first one may end both, unless the first one passes
or the second one would not change the mode. -/
theorem Tracks.bind {first : Activity α} {next : α → Activity β} (here : Tracks before middle first)
    (ends : Passes first ∨ middle = after) (later : ∀ a, Tracks middle after (next a)) :
    Tracks before after (first >>= next) := by
  intro s isBefore working
  cases ended : (first s).result with
  | error fault =>
    rw [bind_apply_of_error ended] at working ⊢
    obtain ⟨raw, allowed⟩ := here s isBefore working
    rcases ends with passes | rfl
    · obtain ⟨a, passed⟩ := passes s working
      rw [ended] at passed
      contradiction
    · exact ⟨raw, allowed⟩
  | ok a =>
    rw [bind_apply_of_ok ended] at working ⊢
    rw [modeFailed_append, not_or] at working
    obtain ⟨raw, allowed⟩ := here s isBefore working.1
    obtain ⟨raw', allowed'⟩ := later a _ raw working.2
    refine ⟨raw', ?_⟩
    rw [Mode.run?_append, allowed]
    exact allowed'

/-- A cleanup changes the mode however the activity before it ended. -/
theorem Tracks.ensuring {body : Activity α} {cleanup : Activity Unit}
    (here : Tracks before middle body) (later : Tracks middle after cleanup) :
    Tracks before after (ensuring body cleanup) := by
  intro s isBefore working
  rw [ensuring_apply] at working ⊢
  rw [modeFailed_append, not_or] at working
  obtain ⟨raw, allowed⟩ := here s isBefore working.1
  obtain ⟨raw', allowed'⟩ := later _ raw working.2
  refine ⟨raw', ?_⟩
  rw [Mode.run?_append, allowed]
  exact allowed'

/-! ## Single actions and switches -/

theorem mode_of_isRaw {s : Session} :
    (s.isRaw = true → ∃ number, s.savedMode = some number ∧ s.mode = .raw number) ∧
      (s.isRaw = false → s.savedMode = none ∧ s.mode = .cooked) := by
  cases saved : s.savedMode with
  | none => simp [Session.isRaw, Session.mode, saved]
  | some number => simp [Session.isRaw, Session.mode, saved]

theorem tracks_act {action : Action}
    (allowed : ∀ s : Session, s.isRaw = before → s.mode.next? action = some s.mode) :
    Tracks before before (act action) := by
  intro s isBefore _
  refine ⟨isBefore, ?_⟩
  show (s.mode.next? action).bind some = some s.mode
  rw [allowed s isBefore]
  rfl

theorem tracks_redraw (marker : Marker) (c : Console) :
    Tracks true true (Console.redraw marker c) := by
  apply tracks_act
  intro s raw
  obtain ⟨number, -, mode⟩ := mode_of_isRaw.1 raw
  rw [mode]
  rfl

theorem tracks_newline {text : Text} (newline : text = ['\n'] ∨ text = ['\r', '\n']) :
    Tracks false false (write .out text) := by
  apply tracks_act
  intro s cooked
  rw [(mode_of_isRaw.2 cooked).2]
  exact if_pos newline

theorem tracks_enterRaw : Tracks false true enterRaw := by
  intro s cooked working
  obtain ⟨saved, mode⟩ := mode_of_isRaw.2 cooked
  rcases enterRaw_of_cooked saved with ⟨number, switched⟩ | ⟨failed, -⟩
  · refine ⟨by rw [Session.isRaw, switched.mode]; rfl, ?_⟩
    rw [mode, switched.actions, Session.mode, switched.mode]
    rfl
  · exact absurd failed working

theorem tracks_leaveRaw : Tracks true false leaveRaw := by
  intro s raw working
  obtain ⟨number, saved, mode⟩ := mode_of_isRaw.1 raw
  rcases leaveRaw_of_raw saved with switched | ⟨failed, -⟩
  · refine ⟨by rw [Session.isRaw, switched.mode]; rfl, ?_⟩
    rw [mode, switched.actions, Session.mode, switched.mode]
    exact congrArg (Option.bind · some) (if_pos rfl)
  · exact absurd failed working

theorem passes_enterRaw : Passes enterRaw := by
  intro s working
  cases saved : s.savedMode with
  | none =>
    rcases enterRaw_of_cooked saved with ⟨number, switched⟩ | ⟨failed, -⟩
    · exact ⟨(), switched.result⟩
    · exact absurd failed working
  | some number => exact ⟨(), (enterRaw_of_raw saved).result⟩

theorem passes_leaveRaw : Passes leaveRaw := by
  intro s working
  cases saved : s.savedMode with
  | none => exact ⟨(), (leaveRaw_of_cooked saved).result⟩
  | some number =>
    rcases leaveRaw_of_raw saved with switched | ⟨failed, -⟩
    · exact ⟨(), switched.result⟩
    · exact absurd failed working

/-- A block in raw mode, begun in cooked mode, ends in cooked mode. -/
theorem Tracks.raw {body : Activity α} (inside : Tracks true true body) :
    Tracks false false (raw body) :=
  tracks_enterRaw.bind (.inl passes_enterRaw) fun _ => inside.ensuring tracks_leaveRaw

theorem Tracks.cooked {body : Activity α} (inside : Tracks false false body) :
    Tracks true true (cooked body) :=
  tracks_leaveRaw.bind (.inl passes_leaveRaw) fun _ => inside.ensuring tracks_enterRaw

/-! ## The console -/

theorem tracks_browse (c : Console) (move : History → History) :
    Tracks true true (c.browse move) := by
  refine tracks_get.bind (.inr rfl) fun s => ?_
  dsimp only
  split
  · exact tracks_pure _
  · refine Tracks.bind (tracks_modify ?_) (.inr rfl) fun _ => tracks_pure _
    intro
    rfl

/-- Committing a line runs it in cooked mode and comes back to raw mode. -/
theorem tracks_commit (c : Console) : Tracks true true c.commit := by
  have line : Tracks false false (do write .out ['\n']; runCommitted c.buffer.contents) :=
    (tracks_newline (.inl rfl)).bind (.inr rfl) fun _ => (detached_runCommitted _).tracks
  refine line.cooked.bind (.inr rfl) fun status => ?_
  cases status with
  | none => exact tracks_pure _
  | some status =>
    refine Tracks.bind (tracks_modify ?_) (.inr rfl) fun _ => tracks_pure _
    intro
    rfl

theorem tracks_strike (c : Console) (stroke : Stroke) : Tracks true true (c.strike stroke) := by
  cases stroke with
  | char text => exact tracks_pure _
  | key key =>
    cases key with
    | enter => exact tracks_commit c
    | up | down => exact tracks_browse c _
    | _ => exact tracks_pure _

theorem tracks_attend (marker : Marker) (fault : Option Fault) (c : Console)
    (events : List KeyEvent) : Tracks true true (Console.attend marker fault c events) := by
  induction events generalizing c with
  | nil =>
    cases fault with
    | none => exact tracks_pure c
    | some fault => exact tracks_fail fault
  | cons event rest ih =>
    rw [Console.attend]
    split
    · exact tracks_pure c
    · split
      · exact ih c
      · refine (tracks_strike c event.stroke).bind (.inr rfl) fun next => ?_
        exact (tracks_redraw marker next).bind (.inr rfl) fun _ => ih next

theorem tracks_runEvents (marker : Marker) (events : List KeyEvent) (fault : Option Fault) :
    Tracks false false (Console.runEvents marker events fault) := by
  have inside : Tracks true true (do
      Console.redraw marker {}
      Console.attend marker fault {} events) :=
    (tracks_redraw marker {}).bind (.inr rfl) fun _ => tracks_attend marker fault {} events
  refine inside.raw.bind (.inr rfl) fun c => ?_
  refine (tracks_newline (.inr rfl)).bind (.inr rfl) fun _ => ?_
  exact detached_reap.tracks.bind (.inr rfl) fun _ => tracks_pure _

end Activity

namespace Console

/-- The actions bracket their work: they hold the terminal in raw mode whenever they redraw the
line, and in cooked mode whenever they do anything else but write to the standard output. -/
structure Bracketed (marker : Marker) (actions : List Action) : Prop where
  work_cooked : ∀ before action after, actions = before ++ action :: after →
    action.isWork = true → CookedAfter before
  redraw_raw : ∀ before (buffer : Buffer) after,
    actions = before ++ .wrote .out (buffer.render marker) :: after → RawAfter before
  /-- Saving, entering and restoring take turns, and what is restored is what was saved last. -/
  alternate : ∃ numbers : List Nat, actions.filter isModeChange =
    numbers.flatMap fun number => [.saved number, .enteredRaw, .restored number]
  restored_last : ∃ number, lastModeChange? actions = some (.restored number)

/-- Actions that are allowed one by one, and enter raw mode at all, bracket their work. -/
theorem bracketed_of_run? {marker : Marker} {actions : List Action}
    (allowed : Mode.cooked.run? actions = some .cooked) {number : Nat}
    (entered : .saved number ∈ actions) : Bracketed marker actions := by
  -- What is allowed at a place depends on the mode that the actions before it lead to.
  have atPlace : ∀ before action after, actions = before ++ action :: after →
      ∃ mode next, Mode.cooked.run? before = some mode ∧ mode.next? action = some next := by
    rintro before action after rfl
    rw [Mode.run?_append] at allowed
    obtain ⟨mode, reached, later⟩ := Option.bind_eq_some_iff.1 allowed
    rw [Mode.run?, List.foldlM_cons] at later
    obtain ⟨next, here, -⟩ := Option.bind_eq_some_iff.1 later
    exact ⟨mode, next, reached, here⟩
  obtain ⟨numbers, changes⟩ := Mode.modeChanges_of_run? allowed
  simp only [Mode.begun, List.nil_append, List.append_nil] at changes
  refine ⟨?_, ?_, ⟨numbers, changes⟩, ?_⟩
  · intro before action after cut work
    obtain ⟨mode, next, reached, here⟩ := atPlace before action after cut
    apply (Mode.lastModeChange?_of_run? reached).1
    rcases Mode.next?_cases here with ⟨_, -, rfl, -⟩ | ⟨_, -, rfl, -⟩ | ⟨_, -, rfl, -⟩ |
      ⟨_, _, -, rfl, -⟩ | ⟨isCooked, -, -⟩
    · contradiction
    · contradiction
    · contradiction
    · contradiction
    · exact isCooked
  · intro before buffer after cut
    obtain ⟨mode, next, reached, here⟩ := atPlace before _ after cut
    obtain ⟨notLine, notReturn⟩ := buffer.render_ne_newline marker
    rcases Mode.next?_cases here with ⟨_, -, same, -⟩ | ⟨_, -, same, -⟩ | ⟨_, -, same, -⟩ |
      ⟨number, _, isRaw, -, -⟩ | ⟨-, work | same | same, -⟩
    · contradiction
    · contradiction
    · contradiction
    · exact (Mode.lastModeChange?_of_run? reached).2 number isRaw
    · contradiction
    · exact absurd (Action.wrote.inj same).2 notLine
    · exact absurd (Action.wrote.inj same).2 notReturn
  · rcases (Mode.lastModeChange?_of_run? allowed).1 rfl with none | last
    · have member : Action.saved number ∈ actions.filter isModeChange :=
        List.mem_filter.2 ⟨entered, rfl⟩
      rw [lastModeChange?, List.getLast?_eq_none_iff] at none
      rw [none] at member
      contradiction
    · exact last

/-- A run that finds the terminal in cooked mode brackets its work and leaves the terminal in
cooked mode, whatever events it takes and however it ends. -/
theorem runEvents_bracketed {marker : Marker} {events : List KeyEvent} {fault : Option Fault}
    {s : Session} (cooked : s.isRaw = false)
    (working : ∀ call, .modeFailed call ∉ (runEvents marker events fault s).actions) :
    Bracketed marker (runEvents marker events fault s).actions ∧
      (runEvents marker events fault s).session.isRaw = false := by
  have noFailure : ¬ ModeFailed (runEvents marker events fault s).actions :=
    fun ⟨call, member⟩ => working call member
  obtain ⟨left, allowed⟩ := tracks_runEvents marker events fault s cooked noFailure
  rw [(mode_of_isRaw.2 cooked).2, (mode_of_isRaw.2 left).2] at allowed
  -- The first thing a run does is to enter raw mode.
  have first : ∀ action ∈ (enterRaw s).actions,
      action ∈ (runEvents marker events fault s).actions :=
    fun action member => mem_actions_bind (mem_actions_bind member _) _
  rcases enterRaw_of_cooked (mode_of_isRaw.2 cooked).1 with ⟨number, switched⟩ |
    ⟨⟨call, failed⟩, -⟩
  · have entered := first (.saved number) (by rw [switched.actions]; exact List.mem_cons_self)
    exact ⟨bracketed_of_run? allowed entered, left⟩
  · exact absurd (first _ failed) (working call)

/-- Two lines of which the first is no command and the second is interrupted twice. -/
def interruptedKeys : List KeyEvent :=
  [⟨.char [';'], false⟩, .key .enter false, ⟨.char ['w'], false⟩, .key .enter false,
    ⟨.char ['x'], false⟩]

theorem runEvents_bracketed_interrupted :
    let s : Session := { host := { programs := [(['w'], [.starts 0 0 2])] } }
    let ended := runEvents { text := ['$'] } interruptedKeys (some (.raised ['!'])) s
    ended.result = .error .interrupted ∧ Bracketed { text := ['$'] } ended.actions ∧
      ended.session.isRaw = false := by
  intro s ended
  refine ⟨by decide +kernel, runEvents_bracketed rfl ?_⟩
  intro call
  cases call <;> decide +kernel

end Console

end ChainShell
