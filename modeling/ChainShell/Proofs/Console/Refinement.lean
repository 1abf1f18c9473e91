/-
# ChainShell.Proofs.Console.Refinement — the interactive shell runs what its editor commits

Apart from the terminal, the interactive shell is a flat line editor and a shell that runs one
line after another.  The editor is `Editor`; the shell is `enter`, run on the list of the lines
that the editor commits.  The front of a session (`Front`) belongs to the console alone, and
running a line neither reads nor changes it.

* A console mirrors an editor and the session that the lines entered so far left, if its buffer
  shows the editor's draft and its session is that one but for the front (`Mirrors`).
* `Simulates` is the forward simulation: from what mirrors one editor a part of the console comes
  to what mirrors the next, and has entered the lines in between; or a mode call failed, or
  running these lines faults, and the console with them (`Breaks`).  It is closed under sequencing
  (`Simulates.bind`), holds of every stroke (`simulates_strike`), and so of every list of events
  (`simulates_attend`).

`runEvents_refines` draws the conclusion for a whole run.
-/
import ChainShell.Proofs.Console.Editor
import ChainShell.Proofs.Terminal.Modes
import Mathlib.Data.List.ReduceOption

set_option autoImplicit false

namespace ChainShell

open ChainShell.Activity ChainShell.Terminal

/-! ## Entering lines -/

namespace Action

/-- Something that is done to enter a line: the newline behind it, or the work of running it. -/
def isEntering (action : Action) : Bool := action.isWork || action == .wrote .out ['\n']

/-- Among the actions, these are done to enter lines; and no mode call fails. -/
structure Enters (actions entered : List Action) : Prop where
  entered : actions.filter isEntering = entered
  working : ¬ ModeFailed actions

theorem enters_nil : Enters [] [] := ⟨rfl, by simp [ModeFailed]⟩

theorem enters_restored (number : Nat) : Enters [.restored number] [] :=
  ⟨rfl, by simp [ModeFailed]⟩

theorem enters_enteredRaw (number : Nat) : Enters [.saved number, .enteredRaw] [] :=
  ⟨rfl, by simp [ModeFailed]⟩

theorem enters_wrote {text : Text} (other : text ≠ ['\n']) : Enters [.wrote .out text] [] where
  entered := by simp [isEntering, isWork, other]
  working := by simp [ModeFailed]

theorem Enters.append {first second entered later : List Action} (here : Enters first entered)
    (there : Enters second later) : Enters (first ++ second) (entered ++ later) where
  entered := by rw [List.filter_append, here.entered, there.entered]
  working := by
    rw [modeFailed_append, not_or]
    exact ⟨here.working, there.working⟩

end Action

open ChainShell.Action

namespace Console

/-- Enters a line: the cursor leaves the line, and the line runs. -/
def enter (line : Text) : Activity (Option Status) := do
  write .out ['\n']
  runCommitted line

theorem enter_apply (line : Text) (s : Session) :
    enter line s =
      ⟨(runCommitted line s).result, (runCommitted line s).session,
        .wrote .out ['\n'] :: (runCommitted line s).actions⟩ := rfl

theorem enter_withFront (line : Text) (s : Session) (f : Front) :
    enter line (s.withFront f) = (enter line s).withFront f := by
  rw [enter_apply, enter_apply, (detached_runCommitted line).apply_withFront]
  rfl

theorem enters_enter (line : Text) (s : Session) :
    Enters (enter line s).actions (enter line s).actions := by
  have works := (detached_runCommitted line).works s
  rw [enter_apply]
  refine ⟨?_, ?_⟩
  · rw [List.filter_eq_self]
    intro action member
    rcases List.mem_cons.1 member with rfl | member
    · rfl
    · rw [isEntering, works action member]
      rfl
  · rintro ⟨call, member⟩
    rcases List.mem_cons.1 member with same | member
    · contradiction
    · exact not_modeFailed_of_works works ⟨call, member⟩

/-- A line has a status unless it is blank. -/
theorem eq_none_iff_of_enter {line : Text} {s : Session} {status : Option Status}
    (ran : (enter line s).result = .ok status) : status = none ↔ Text.trim line = [] := by
  rw [enter_apply] at ran
  unfold runCommitted at ran
  cases text : Text.trim line with
  | nil =>
    rw [text] at ran
    obtain rfl : none = status := Except.ok.inj ran
    exact iff_of_true rfl rfl
  | cons first rest =>
    rw [text] at ran
    obtain ⟨outcome, -, ended⟩ := result_bind_eq_ok.1 ran
    have present : ∃ st, some st = status := by
      cases outcome with
      | error code => exact ⟨_, Except.ok.inj ended⟩
      | ok st =>
        obtain ⟨_, -, ended⟩ := result_bind_eq_ok.1 ended
        exact ⟨st, Except.ok.inj ended⟩
    obtain ⟨st, rfl⟩ := present
    exact iff_of_false (Option.some_ne_none st) (List.cons_ne_nil first rest)

theorem mapM_enter_singleton (line : Text) (s : Session) :
    [line].mapM enter s =
      ⟨(enter line s).result.map fun status => [status], (enter line s).session,
        (enter line s).actions⟩ := by
  rw [List.mapM_cons, List.mapM_nil]
  exact bind_pure_apply (enter line) (fun status => [status]) s

/-! ## The simulation -/

/-- The console shows the draft of the editor, and its session is `r`, the one that the lines
entered so far left, with the history of the editor in raw mode. -/
structure Mirrors (c : Console) (s : Session) (e : Editor) (r : Session) : Prop where
  draft : c.buffer.draft = e.draft
  history : s.history = e.history
  raw : s.isRaw = true
  session : s = r.withFront s.front

/-- The console has done what entering the lines does.  If `last` was the status before, it is now
that of the last line that has one. -/
structure Follows (last : Status) (e : Editor) (statuses : List (Option Status)) (c : Console)
    (ended : Ended Console) (ran : Ended (List (Option Status))) : Prop where
  result : ended.result = .ok c
  completed : ran.result = .ok statuses
  last : c.last = statuses.reduceOption.getLastD last
  mirrors : Mirrors c ended.session e ran.session
  actions : Enters ended.actions ran.actions

/-- A line faulted, and the console has ended with that fault and has done what was done up to
it. -/
structure Breaks {α : Type} (fault : Fault) (ended : Ended α)
    (ran : Ended (List (Option Status))) : Prop where
  result : ended.result = .error fault
  broken : ran.result = .error fault
  session : ended.session = ran.session.withFront ended.session.front
  actions : Enters ended.actions ran.actions

/-- The console has ended with a fault, since a mode call failed or a line faulted. -/
def Stopped {α : Type} (ended : Ended α) (ran : Ended (List (Option Status))) : Prop :=
  ended.ModeFailed ∨ ∃ fault, Breaks fault ended ran

theorem Stopped.exists_fault {α : Type} {ended : Ended α} {ran : Ended (List (Option Status))}
    (stopped : Stopped ended ran) : ∃ fault, ended.result = .error fault := by
  rcases stopped with ⟨-, result⟩ | ⟨fault, breaks⟩
  · exact ⟨.terminal, result⟩
  · exact ⟨fault, breaks.result⟩

/-- From whatever mirrors the first editor, the body comes to what mirrors the second one and enters
the lines on the way. -/
def Simulates (e e' : Editor) (lines : List Text) (body : Console → Activity Console) : Prop :=
  ∀ c s r, Mirrors c s e r →
    Stopped (body c s) (lines.mapM enter r) ∨
      ∃ statuses c', Follows c.last e' statuses c' (body c s) (lines.mapM enter r)

theorem Simulates.bind {e₁ e₂ e₃ : Editor} {lines rest : List Text}
    {body later : Console → Activity Console} (here : Simulates e₁ e₂ lines body)
    (there : Simulates e₂ e₃ rest later) :
    Simulates e₁ e₃ (lines ++ rest) fun c => body c >>= later := by
  intro c s r mirrors
  beta_reduce
  rw [List.mapM_append]
  -- Either part may stop both runs; if none does, the first hands on what mirrors the next editor.
  rcases here c s r mirrors with (failed | ⟨fault, breaks⟩) | ⟨statuses, c₂, followed⟩
  · exact .inl (.inl (modeFailed_bind failed later))
  · left
    rw [bind_apply_of_error breaks.result, bind_apply_of_error breaks.broken]
    exact .inr ⟨fault, rfl, rfl, breaks.session, breaks.actions⟩
  · rw [bind_apply_of_ok followed.result, bind_apply_of_ok followed.completed]
    rcases there c₂ _ _ followed.mirrors with
      (⟨failed, result⟩ | ⟨fault, breaks⟩) | ⟨statuses', c₃, followed'⟩
    · exact .inl (.inl ⟨modeFailed_append.2 (.inr failed), result⟩)
    · left
      rw [bind_apply_of_error breaks.broken]
      have acted := followed.actions.append breaks.actions
      exact .inr ⟨fault, breaks.result, rfl, breaks.session, acted⟩
    · right
      rw [bind_apply_of_ok followed'.completed]
      refine ⟨statuses ++ statuses', c₃, followed'.result, rfl, ?_, followed'.mirrors, ?_⟩
      · rw [followed'.last, followed.last, List.reduceOption_append]
        simp only [List.getLastD_eq_getLast?, List.getLast?_append, Option.getD_or]
      · simpa [pure_apply] using followed.actions.append followed'.actions

/-- A part that enters no line and only leaves the console and the session in another state. -/
theorem simulates_of_silent {e e' : Editor} {body : Console → Activity Console}
    (silent : ∀ c s r, Mirrors c s e r → ∃ c' s', body c s = ⟨.ok c', s', []⟩ ∧ c'.last = c.last ∧
      Mirrors c' s' e' r) : Simulates e e' [] body := by
  intro c s r mirrors
  obtain ⟨c', s', ended, last, mirrors'⟩ := silent c s r mirrors
  refine .inr ⟨[], c', ?_⟩
  rw [ended]
  exact ⟨rfl, rfl, last, mirrors', enters_nil⟩

theorem simulates_pure (e : Editor) : Simulates e e [] fun c => pure c :=
  simulates_of_silent fun c s _ mirrors => ⟨c, s, rfl, rfl, mirrors⟩

/-! ## Strokes -/

theorem simulates_edit {change : Buffer → Buffer} {change' : Draft → Draft}
    (same : ∀ b : Buffer, (change b).draft = change' b.draft) (e : Editor) :
    Simulates e (e.edit change') [] fun c => pure (c.edit change) := by
  refine simulates_of_silent fun c s r mirrors => ⟨c.edit change, s, rfl, rfl, ?_⟩
  refine { mirrors with draft := ?_ }
  show (change c.buffer).draft = change' e.draft
  rw [same, mirrors.draft]

theorem simulates_browse (move : History → History) (e : Editor) :
    Simulates e (e.browse move) [] fun c => c.browse move := by
  refine simulates_of_silent fun c s r mirrors => ?_
  unfold Console.browse Editor.browse
  rw [get_bind_apply, mirrors.history]
  cases e.history.lines.isEmpty with
  | true => exact ⟨c, s, rfl, rfl, mirrors⟩
  | false =>
    refine ⟨{ c with buffer := .ofText (move e.history).shown },
      { s with history := move e.history }, rfl, rfl, Buffer.draft_ofText _, rfl, mirrors.raw, ?_⟩
    exact congrArg (fun s : Session => { s with history := move e.history }) mirrors.session

/-- Entering a line in cooked mode comes back to raw mode with what the line left, unless a switch
of the mode fails. -/
theorem cooked_enter {s r : Session} (raw : s.isRaw = true) (session : s = r.withFront s.front)
    (line : Text) :
    let ended := cooked (enter line) s
    let ran := enter line r
    ended.ModeFailed ∨
      (ended.result = ran.result ∧ ended.session = ran.session.withFront ended.session.front ∧
        ended.session.history = s.history ∧ ended.session.isRaw = true ∧
        Enters ended.actions ran.actions) := by
  intro ended ran
  obtain ⟨number, saved⟩ := Option.isSome_iff_exists.1 raw
  rcases leaveRaw_of_raw saved with left | failed
  · -- The line runs in a session that differs from the other one in the front, and does not see it.
    have inside : enter line (leaveRaw s).session =
        ran.withFront (leaveRaw s).session.front := by
      rw [left.session, session]
      exact enter_withFront line r _
    have stillCooked : (ran.withFront (leaveRaw s).session.front).session.savedMode = none :=
      left.mode
    have whole : ended = _ := bind_apply_of_ok left.result fun _ => ensuring (enter line) enterRaw
    rw [ensuring_apply, inside, left.actions] at whole
    rcases enterRaw_of_cooked stillCooked with ⟨number', back⟩ | ⟨failed, result⟩
    · right
      rw [back.result, back.actions] at whole
      rw [whole]
      refine ⟨rfl, ?_, back.history.trans left.history, ?_, ?_⟩
      · exact back.session
      · show (enterRaw _).session.savedMode.isSome = true
        rw [back.mode]
        rfl
      · have inOrder :=
          (enters_restored number).append ((enters_enter line r).append (enters_enteredRaw number'))
        rwa [List.nil_append, List.append_nil] at inOrder
    · left
      rw [result] at whole
      rw [whole]
      exact ⟨modeFailed_append.2 (.inr (modeFailed_append.2 (.inr failed))), rfl⟩
  · exact .inl (modeFailed_bind failed _)

theorem commit_eq (c : Console) :
    c.commit = (cooked (enter c.buffer.contents) >>= fun
      | none => pure { c with buffer := .empty }
      | some status => do
        modify fun s => { s with history := s.history.push c.buffer.contents }
        return { last := status }) := rfl

/-- A committed line has a status, or it is blank and enters no history. -/
theorem simulates_commit (e : Editor) :
    Simulates e e.commit [e.draft.contents] fun c => c.commit := by
  intro c s r mirrors
  have line : c.buffer.contents = e.draft.contents := by
    rw [← mirrors.draft, Buffer.contents_draft]
  beta_reduce
  rw [commit_eq, mapM_enter_singleton, line]
  rcases cooked_enter mirrors.raw mirrors.session e.draft.contents with
    failed | ⟨result, session, history, raw, entered⟩
  · exact .inl (.inl (modeFailed_bind failed _))
  · cases ran : (enter e.draft.contents r).result with
    | error fault =>
      left
      rw [bind_apply_of_error (result.trans ran)]
      exact .inr ⟨fault, rfl, rfl, session, entered⟩
    | ok status =>
      have blank := eq_none_iff_of_enter ran
      right
      rw [bind_apply_of_ok (result.trans ran)]
      cases status with
      | none =>
        have same : e.commit.history = e.history := if_pos (blank.1 rfl)
        refine ⟨[none], { c with buffer := .empty }, rfl, rfl, rfl, ?_, ?_⟩
        · exact ⟨rfl, (history.trans mirrors.history).trans same.symm, raw, session⟩
        · show Enters (_ ++ []) _
          rwa [List.append_nil]
      | some status =>
        have pushed : e.commit.history = e.history.push e.draft.contents :=
          if_neg (mt blank.2 (Option.some_ne_none status))
        refine ⟨[some status], { last := status }, rfl, rfl, rfl, ?_, ?_⟩
        · refine ⟨rfl, ?_, raw, ?_⟩
          · rw [pushed, ← mirrors.history, ← history]
            rfl
          · exact congrArg
              (fun s : Session => { s with history := s.history.push e.draft.contents }) session
        · show Enters (_ ++ []) _
          rwa [List.append_nil]

theorem simulates_strike (e : Editor) (stroke : Stroke) :
    Simulates e (e.strike stroke) (e.line? stroke).toList fun c => c.strike stroke := by
  cases stroke with
  | char text =>
    show Simulates e (e.edit (·.insert text)) [] fun c => pure (c.edit (·.insert text))
    exact simulates_edit (fun b => b.draft_insert text) e
  | key key =>
    cases key with
    | enter => exact simulates_commit e
    | left => exact simulates_edit Buffer.draft_moveLeft e
    | right => exact simulates_edit Buffer.draft_moveRight e
    | backspace => exact simulates_edit Buffer.draft_backspace e
    | delete => exact simulates_edit Buffer.draft_delete e
    | up => exact simulates_browse .up e
    | down => exact simulates_browse .down e
    | tab | escape => exact simulates_pure e

/-! ## Whole runs -/

theorem Simulates.redrawn {e e' : Editor} {lines : List Text} {body : Console → Activity Console}
    (simulates : Simulates e e' lines body) (marker : Marker) :
    Simulates e e' lines fun c => c.redraw marker >>= fun _ => body c := by
  intro c s r mirrors
  have drawn : Enters [.wrote .out (c.buffer.render marker)] [] :=
    enters_wrote (c.buffer.render_ne_newline marker).1
  beta_reduce
  unfold redraw write
  rw [act_bind_apply]
  rcases simulates c s r mirrors with
    (⟨⟨call, member⟩, result⟩ | ⟨fault, breaks⟩) | ⟨statuses, c', followed⟩
  · exact .inl (.inl ⟨⟨call, List.mem_cons_of_mem _ member⟩, result⟩)
  · exact .inl (.inr ⟨fault, { breaks with actions := drawn.append breaks.actions }⟩)
  · exact .inr ⟨statuses, c', { followed with actions := drawn.append followed.actions }⟩

/-- Taking events enters the lines that the editor commits. -/
theorem simulates_attend (marker : Marker) (e : Editor) (events : List KeyEvent) :
    ∃ e' : Editor,
      e'.history.lines = e.history.lines ++ (e.committed events).filter (Text.trim · ≠ []) ∧
        Simulates e e' (e.committed events) fun c => attend marker none c events := by
  induction events generalizing e with
  | nil => exact ⟨e, (List.append_nil _).symm, simulates_pure e⟩
  | cons event rest ih =>
    cases exit : event.isExit with
    | true =>
      simp only [Editor.committed, attend, exit, if_true]
      exact ⟨e, (List.append_nil _).symm, simulates_pure e⟩
    | false =>
      cases control : event.control with
      | true =>
        simp only [Editor.committed, attend, exit, control, if_true, Bool.false_eq_true, if_false]
        exact ih e
      | false =>
        simp only [Editor.committed, attend, exit, control, Bool.false_eq_true, if_false]
        obtain ⟨e', history, later⟩ := ih (e.strike event.stroke)
        refine ⟨e', ?_, (simulates_strike e event.stroke).bind (later.redrawn marker)⟩
        rw [history, Editor.lines_strike, List.filter_append, List.append_assoc]

theorem enterRaw_cases (s : Session) :
    (∃ number actions, Switched s (enterRaw s) (some number) actions ∧ Enters actions []) ∨
      (enterRaw s).ModeFailed := by
  cases saved : s.savedMode with
  | some number => exact .inl ⟨number, [], enterRaw_of_raw saved, enters_nil⟩
  | none =>
    rcases enterRaw_of_cooked saved with ⟨number, switched⟩ | failed
    · exact .inl ⟨number, _, switched, enters_enteredRaw number⟩
    · exact .inr failed

theorem leaveRaw_cases (s : Session) :
    (∃ actions, Switched s (leaveRaw s) none actions ∧ Enters actions []) ∨
      (leaveRaw s).ModeFailed := by
  cases saved : s.savedMode with
  | none => exact .inl ⟨[], leaveRaw_of_cooked saved, enters_nil⟩
  | some number =>
    rcases leaveRaw_of_raw saved with switched | failed
    · exact .inl ⟨_, switched, enters_restored number⟩
    · exact .inr failed

/-- In a block in raw mode lines are entered as without it. -/
theorem raw_of_simulates {e e' : Editor} {lines : List Text} {body : Console → Activity Console}
    (simulates : Simulates e e' lines body) {c : Console} {s : Session}
    (draft : c.buffer.draft = e.draft) (history : s.history = e.history) :
    let ended := raw (body c) s
    let ran := lines.mapM enter s
    Stopped ended ran ∨
      ∃ statuses c', ended.result = .ok c' ∧ ran.result = .ok statuses ∧
        c'.last = statuses.reduceOption.getLastD c.last ∧
        ended.session = ran.session.withFront ended.session.front ∧
        ended.session.history = e'.history ∧ Enters ended.actions ran.actions := by
  intro ended ran
  rcases enterRaw_cases s with ⟨number, actions, entered, switches⟩ | failed
  · have whole : ended = _ := bind_apply_of_ok entered.result fun _ => ensuring (body c) leaveRaw
    rw [ensuring_apply, entered.actions] at whole
    have mirrors : Mirrors c (enterRaw s).session e s := by
      refine ⟨draft, entered.history.trans history, ?_, entered.session⟩
      rw [Session.isRaw, entered.mode]
      rfl
    rcases leaveRaw_cases (body c (enterRaw s).session).session with
      ⟨back, left, switches'⟩ | ⟨failed, result⟩
    · rw [left.result, left.actions] at whole
      rcases simulates c _ s mirrors with
        (⟨failed, result⟩ | ⟨fault, breaks⟩) | ⟨statuses, c', followed⟩
      · left
        rw [whole]
        exact .inl ⟨modeFailed_append.2 (.inr (modeFailed_append.2 (.inl failed))), result⟩
      · have inOrder := switches.append (breaks.actions.append switches')
        rw [List.nil_append, List.append_nil] at inOrder
        left
        rw [whole]
        refine .inr ⟨fault, breaks.result, breaks.broken, ?_, inOrder⟩
        rw [left.session, breaks.session]
        rfl
      · have inOrder := switches.append (followed.actions.append switches')
        rw [List.nil_append, List.append_nil] at inOrder
        right
        rw [whole]
        refine ⟨statuses, c', followed.result, followed.completed, followed.last, ?_, ?_, inOrder⟩
        · rw [left.session, followed.mirrors.session]
          rfl
        · exact left.history.trans followed.mirrors.history
    · left
      rw [result] at whole
      rw [whole]
      exact .inl ⟨modeFailed_append.2 (.inr (modeFailed_append.2 (.inr failed))), rfl⟩
  · exact .inl (.inl (modeFailed_bind failed fun _ => ensuring (body c) leaveRaw))

/-- The console ended as entering these lines one after another and then looking once at the
children. -/
structure RunsLines (s : Session) (lines : List Text) (statuses : List (Option Status))
    (ended : Ended Int) : Prop where
  /-- The exit code is that of the last line that has a status. -/
  result : ended.result = .ok (statuses.reduceOption.getLastD .ok).toInt
  /-- Variables, children and machine are as the lines left them. -/
  session : ended.session =
    (reap (lines.mapM enter s).session).session.withFront ended.session.front
  history : ended.session.history.lines =
    s.history.lines ++ lines.filter (Text.trim · ≠ [])
  entered : ended.actions.filter isEntering = (lines.mapM enter s).actions

/-- The console ends with an exit code if no mode call fails and no line that its editor commits
faults, and only then; and it has run these lines. -/
theorem runEvents_refines (marker : Marker) (events : List KeyEvent) (s : Session) :
    let lines := Editor.committed { history := s.history } events
    let ran := lines.mapM enter s
    let ended := runEvents marker events none s
    ((∃ code, ended.result = .ok code) ↔
        (∀ call, .modeFailed call ∉ ended.actions) ∧ ∃ statuses, ran.result = .ok statuses) ∧
      ∀ statuses code, ran.result = .ok statuses → ended.result = .ok code →
        RunsLines s lines statuses ended := by
  intro lines ran ended
  obtain ⟨e', history, simulates⟩ := simulates_attend marker { history := s.history } events
  have newline : Enters [.wrote .out ['\r', '\n']] [] := enters_wrote (by decide)
  rcases raw_of_simulates (simulates.redrawn marker) (c := {}) rfl rfl with
    stopped | ⟨statuses, c, result, completed, last, session, shown, entered⟩
  · obtain ⟨fault, result⟩ := stopped.exists_fault
    have whole : ended = _ := bind_apply_of_error result _
    rw [whole]
    refine ⟨iff_of_false ?_ ?_, ?_⟩
    · rintro ⟨code, ended⟩
      contradiction
    · rintro ⟨working, statuses, completed⟩
      rcases stopped with ⟨⟨call, member⟩, -⟩ | ⟨fault', breaks⟩
      · exact working call member
      · exact absurd (completed.symm.trans breaks.broken) (by simp)
    · intro statuses code _ ended
      contradiction
  · have whole : ended = _ := bind_apply_of_ok result _
    have actions := entered.append newline
    rw [List.append_nil] at actions
    rw [whole]
    refine ⟨iff_of_true ⟨_, rfl⟩ ⟨?_, statuses, completed⟩, ?_⟩
    · intro call member
      exact actions.working ⟨call, member⟩
    · intro statuses' _ completed' _
      obtain rfl : statuses = statuses' := Except.ok.inj (completed.symm.trans completed')
      refine ⟨?_, ?_, ?_, actions.entered⟩
      · show Except.ok c.last.toInt = _
        rw [last]
      · exact congrArg (fun s => (reap s).session) session
      · exact (congrArg History.lines shown).trans history

end Console

end ChainShell
