/-
# ChainShell.Proofs.Console.Agreement — typed line by line or run as a script

The same lines can be typed at the terminal, each followed by the enter key, or run as a
script.  The two have little in common above the statements: on one side bytes in chunks,
keys, an editor and lines that are run one by one and reported one by one, on the other a
text that is cut and trimmed and runs up to its first error.

* A script gives what its statements end with, as one number, and reports it
  (`runSource_apply`).
* What is typed commits the lines that were typed (`committed_lines`).
* Entering lines one after the other does what running their statements does, as far as
  that gets (`mapM_enter_of_ok`, `mapM_enter_of_error`, `mapM_enter_of_fault`).
* On a machine on which no mode call fails, the interactive shell ends as entering the lines does
  that its editor commits, be it with a fault (`runEvents_of_keeps`), and these are the lines that
  are typed (`run_of_typed`).

`run_agrees` puts these together.
-/
import ChainShell.Proofs.Console.Refinement
import ChainShell.Proofs.Faults
import ChainShell.Proofs.Key.Presses
import ChainShell.Proofs.Key.Stream
import ChainShell.Proofs.Statement.Sources

set_option autoImplicit false

namespace ChainShell

open ChainShell.Action ChainShell.Activity ChainShell.Terminal

/-! ## Running -/

namespace Action

/-- Something done to run a process: opening, starting, waiting or closing. -/
def isRunning : Action → Bool
  | opened .. | openFailed .. | started .. | startFailed .. | waited .. | interrupted _
  | closed _ => true
  | wrote .. | saved _ | enteredRaw | restored _ | modeFailed _ => false

def running (actions : List Action) : List Action := actions.filter isRunning

@[simp] theorem running_nil : running [] = [] := rfl

@[simp] theorem running_append (first second : List Action) :
    running (first ++ second) = running first ++ running second := List.filter_append first second

@[simp] theorem running_wrote (stream : OutputStream) (text : Text) (rest : List Action) :
    running (.wrote stream text :: rest) = running rest := rfl

theorem running_filter_isEntering (actions : List Action) :
    running (actions.filter isEntering) = running actions := by
  rw [running, List.filter_filter]
  apply List.filter_congr
  intro action _
  cases action with
  | wrote stream text => rfl
  | _ => simp [isRunning, isEntering, isWork]

end Action

namespace Activity

variable {α : Type}

theorem reporting_of_ok {body : Activity α} {s : Session} {a : α}
    (ended : (body s).result = .ok a) :
    reporting body s = ⟨.ok (.ok a), (body s).session, (body s).actions⟩ := by
  have recovered := recovering_apply body s
  rw [ended] at recovered
  unfold reporting
  rw [bind_apply_of_ok (congrArg Ended.result recovered), recovered]
  simp [pure_apply]

theorem reporting_of_error {body : Activity α} {s : Session} {error : ShellError}
    (ended : (body s).result = .error (.shell error)) :
    reporting body s =
      ⟨.ok (.error error.exitCode), (body s).session,
        (body s).actions ++ [.wrote .err (diagnostic error.message)]⟩ := by
  have recovered := recovering_apply body s
  rw [ended] at recovered
  unfold reporting
  rw [bind_apply_of_ok (congrArg Ended.result recovered), recovered]
  rfl

theorem reporting_of_fault {body : Activity α} {s : Session} {fault : Fault}
    (ended : (body s).result = .error fault) (other : ∀ error, fault ≠ .shell error) :
    reporting body s = ⟨.error fault, (body s).session, (body s).actions⟩ := by
  have recovered := recovering_apply body s
  rw [ended] at recovered
  have passed : (recovering body s).result = .error fault := by
    rw [recovered]
    cases fault with
    | shell error => exact absurd rfl (other error)
    | _ => rfl
  unfold reporting
  rw [bind_apply_of_error passed, recovered]

/-- What is written about a death by signal. -/
def signalReport (status : Status) : List Action :=
  match status.signal with
  | some signal => [.wrote .err (diagnostic ("killed by signal ".toList ++ Text.ofInt signal))]
  | none => []

theorem reportSignal_apply (status : Status) (s : Session) :
    reportSignal status s = ⟨.ok (), s, signalReport status⟩ := by
  rw [reportSignal, signalReport]
  cases status.signal <;> rfl

theorem running_signalReport (status : Status) : running (signalReport status) = [] := by
  rw [signalReport]
  cases status.signal <;> rfl

/-! ## Scripts -/

/-- What a script gives whose statements ended so.  A status counts as one number, and a death by
signal is reported; an error of the shell is reported, and counts as its exit code; any other fault
passes.  The children are looked at once in every case. -/
def concluded (ran : Ended Status) : Ended Int :=
  match ran.result with
  | .ok status => ⟨.ok status.toInt, ran.session.reaped, ran.actions ++ signalReport status⟩
  | .error (.shell error) =>
    ⟨.ok error.exitCode, ran.session.reaped, ran.actions ++ [.wrote .err error.report]⟩
  | .error fault => ⟨.error fault, ran.session.reaped, ran.actions⟩

theorem runSource_apply (source : Text) (s : Session) :
    runSource source s = concluded (Statement.runAll .ok (Statement.ofSource source) s) := by
  have reaped :=
    ensuring_apply (reporting (Statement.runAll .ok (Statement.ofSource source))) reap s
  rw [Chain.reap_apply, List.append_nil] at reaped
  unfold runSource
  cases ran : (Statement.runAll .ok (Statement.ofSource source) s).result with
  | ok status =>
    rw [reporting_of_ok ran] at reaped
    rw [bind_apply_of_ok (congrArg Ended.result reaped), reaped, concluded, ran]
    dsimp only
    rw [bind_apply_of_ok (congrArg Ended.result (reportSignal_apply status _)), reportSignal_apply]
    simp [pure_apply]
  | error fault =>
    by_cases shell : ∃ error, fault = .shell error
    · obtain ⟨error, rfl⟩ := shell
      rw [reporting_of_error ran] at reaped
      rw [bind_apply_of_ok (congrArg Ended.result reaped), reaped, concluded, ran]
      simp [pure_apply, ShellError.report]
    · have other : ∀ error, fault ≠ .shell error := fun error same => shell ⟨error, same⟩
      rw [reporting_of_fault ran other] at reaped
      rw [bind_apply_of_error (congrArg Ended.result reaped), reaped, concluded, ran]
      cases fault with
      | shell error => exact absurd rfl (other error)
      | _ => rfl

section

variable {source : Text} {s : Session}

/-- A script of one statement runs it. -/
theorem runSource_of_one {statement : Statement} (means : Statement.ofSource source = [statement])
    (s : Session) : runSource source s = concluded (statement.run s) := by
  have only : Statement.runAll .ok [statement] = statement.run := bind_pure statement.run
  rw [runSource_apply, means, only]

theorem runSource_of_ok {status : Status}
    (ran : (Statement.runAll .ok (Statement.ofSource source) s).result = .ok status) :
    (runSource source s).result = .ok status.toInt ∧
      (runSource source s).session =
        (Statement.runAll .ok (Statement.ofSource source) s).session.reaped ∧
      running (runSource source s).actions =
        running (Statement.runAll .ok (Statement.ofSource source) s).actions := by
  rw [runSource_apply, concluded, ran]
  exact ⟨rfl, rfl, by simp [running_signalReport]⟩

theorem runSource_of_error {error : ShellError}
    (ran : (Statement.runAll .ok (Statement.ofSource source) s).result = .error (.shell error)) :
    running (runSource source s).actions =
      running (Statement.runAll .ok (Statement.ofSource source) s).actions := by
  rw [runSource_apply, concluded, ran]
  simp

/-- A fault that is no error of the shell passes a script, and nothing is reported. -/
theorem runSource_of_fault {fault : Fault}
    (ran : (Statement.runAll .ok (Statement.ofSource source) s).result = .error fault)
    (other : ∀ error, fault ≠ .shell error) :
    runSource source s =
      ⟨.error fault, (Statement.runAll .ok (Statement.ofSource source) s).session.reaped,
        (Statement.runAll .ok (Statement.ofSource source) s).actions⟩ := by
  rw [runSource_apply, concluded, ran]
  cases fault with
  | shell error => exact absurd rfl (other error)
  | _ => rfl

end

/-! ## Lines that were entered -/

/-- What a line gives that was entered and whose statement ended so.  It has a status also after an
error of the shell; otherwise it differs from a script in nothing but the form of the result and
the look at the children. -/
def acknowledged (ran : Ended Status) : Ended (Option Status) :=
  match ran.result with
  | .ok status => ⟨.ok (some status), ran.session, ran.actions ++ signalReport status⟩
  | .error (.shell error) =>
    ⟨.ok (some (.exited error.exitCode)), ran.session, ran.actions ++ [.wrote .err error.report]⟩
  | .error fault => ⟨.error fault, ran.session, ran.actions⟩

/-- A script gives what an entered line gives, as one number, and looks at the children. -/
theorem concluded_eq (ran : Ended Status) :
    concluded ran =
      ⟨(acknowledged ran).result.map fun status => (status.getD .ok).toInt,
        (acknowledged ran).session.reaped, (acknowledged ran).actions⟩ := by
  rcases ran with ⟨fault | status, session, actions⟩
  · cases fault <;> rfl
  · rfl

/-- What is reported about a run that ended so. -/
def reportsOn : Except Fault Status → List Text
  | .ok status =>
    (status.signal.map fun signal =>
      diagnostic ("killed by signal ".toList ++ Text.ofInt signal)).toList
  | .error (.shell error) => [error.report]
  | .error _ => []

theorem actions_acknowledged (ran : Ended Status) :
    (acknowledged ran).actions = ran.actions ++ (reportsOn ran.result).map (.wrote .err) := by
  rcases ran with ⟨fault | status, session, actions⟩
  · cases fault with
    | shell error => rfl
    | _ => exact (List.append_nil actions).symm
  · cases killed : status.signal <;> simp [acknowledged, reportsOn, signalReport, killed]

section

variable {line : Text} {statement : Statement}

theorem runCommitted_of_entered (meant : Statement.entered? line = some statement) :
    runCommitted line = (reporting statement.run >>= fun
      | .error code => pure (some (.exited code))
      | .ok status => do
        reportSignal status
        return some status) := by
  rw [runCommitted]
  rw [Statement.entered?] at meant
  cases trimmed : Text.trim line with
  | nil => simp [trimmed] at meant
  | cons c rest =>
    rw [trimmed] at meant
    obtain rfl := Option.some.inj meant
    rfl

theorem runCommitted_apply (meant : Statement.entered? line = some statement) (s : Session) :
    runCommitted line s = acknowledged (statement.run s) := by
  rw [runCommitted_of_entered meant, acknowledged]
  cases ran : (statement.run s).result with
  | ok status =>
    have here := reporting_of_ok ran
    have signal := reportSignal_apply status (statement.run s).session
    rw [bind_apply_of_ok (congrArg Ended.result here), here]
    dsimp only
    rw [bind_apply_of_ok (congrArg Ended.result signal), signal]
    simp [pure_apply]
  | error fault =>
    by_cases shell : ∃ error, fault = .shell error
    · obtain ⟨error, rfl⟩ := shell
      have here := reporting_of_error ran
      rw [bind_apply_of_ok (congrArg Ended.result here), here]
      simp [pure_apply, ShellError.report]
    · have other : ∀ error, fault ≠ .shell error := fun error same => shell ⟨error, same⟩
      have here := reporting_of_fault ran other
      rw [bind_apply_of_error (congrArg Ended.result here), here]
      cases fault with
      | shell error => exact absurd rfl (other error)
      | _ => rfl

end

end Activity

namespace Console

/-! ## Entering lines -/

section

variable {line : Text} {statement : Statement} {s : Session}

theorem enter_of_blank (blank : Statement.entered? line = none) (s : Session) :
    enter line s = ⟨.ok none, s, [.wrote .out ['\n']]⟩ := by
  rw [enter_apply, runCommitted]
  rw [Statement.entered?] at blank
  cases trimmed : Text.trim line with
  | nil => rfl
  | cons c rest => simp [trimmed] at blank

/-- A line whose statement ends with a status has this status. -/
theorem enter_of_ok (meant : Statement.entered? line = some statement) {status : Status}
    (ran : (statement.run s).result = .ok status) :
    (enter line s).result = .ok (some status) ∧
      (enter line s).session = (statement.run s).session ∧
      running (enter line s).actions = running (statement.run s).actions := by
  rw [enter_apply, runCommitted_apply meant, acknowledged, ran]
  exact ⟨rfl, rfl, by simp [running_signalReport]⟩

/-- A line whose statement ends with an error of the shell has a status all the same. -/
theorem enter_of_error (meant : Statement.entered? line = some statement) {error : ShellError}
    (ran : (statement.run s).result = .error (.shell error)) :
    ∃ status, (enter line s).result = .ok (some status) ∧
      running (enter line s).actions = running (statement.run s).actions := by
  rw [enter_apply, runCommitted_apply meant, acknowledged, ran]
  exact ⟨.exited error.exitCode, rfl, by simp⟩

/-- A fault that is no error of the shell passes a line. -/
theorem enter_of_fault (meant : Statement.entered? line = some statement) {fault : Fault}
    (ran : (statement.run s).result = .error fault) (other : ∀ error, fault ≠ .shell error) :
    (enter line s).result = .error fault ∧
      (enter line s).session = (statement.run s).session ∧
      running (enter line s).actions = running (statement.run s).actions := by
  rw [enter_apply, runCommitted_apply meant, acknowledged, ran]
  cases fault with
  | shell error => exact absurd rfl (other error)
  | _ => exact ⟨rfl, rfl, by simp⟩

/-- A line that was entered, and then the others. -/
theorem mapM_enter_cons {status : Option Status} (entered : (enter line s).result = .ok status)
    (rest : List Text) :
    (line :: rest).mapM enter s =
      ⟨(rest.mapM enter (enter line s).session).result.map (status :: ·),
        (rest.mapM enter (enter line s).session).session,
        (enter line s).actions ++ (rest.mapM enter (enter line s).session).actions⟩ := by
  rw [List.mapM_cons, bind_apply_of_ok entered, bind_pure_apply]

end

/-- Lines whose statements all end with a status leave what the statements leave, and the last one
decides. -/
theorem mapM_enter_of_ok {lines : List Text} {s : Session} {first last : Status}
    (ran : (Statement.runAll first (lines.filterMap Statement.entered?) s).result = .ok last) :
    ∃ statuses, (lines.mapM enter s).result = .ok statuses ∧
      last = statuses.reduceOption.getLastD first ∧
      (lines.mapM enter s).session =
        (Statement.runAll first (lines.filterMap Statement.entered?) s).session ∧
      running (lines.mapM enter s).actions =
        running (Statement.runAll first (lines.filterMap Statement.entered?) s).actions := by
  induction lines generalizing s first with
  | nil => exact ⟨[], rfl, (Except.ok.inj ran).symm, rfl, rfl⟩
  | cons line rest ih =>
    cases meant : Statement.entered? line with
    | none =>
      have here := enter_of_blank meant s
      rw [List.filterMap_cons_none meant] at ran ⊢
      obtain ⟨statuses, completed, decides, session, actions⟩ := ih ran
      rw [mapM_enter_cons (congrArg Ended.result here), here, completed]
      exact ⟨none :: statuses, rfl, decides, session, actions⟩
    | some statement =>
      rw [List.filterMap_cons_some meant, Statement.runAll] at ran ⊢
      obtain ⟨status, here, later⟩ := result_bind_eq_ok.1 ran
      obtain ⟨entered, after, acted⟩ := enter_of_ok meant here
      obtain ⟨statuses, completed, decides, session, actions⟩ := ih later
      rw [mapM_enter_cons entered, bind_apply_of_ok here, after, completed]
      refine ⟨some status :: statuses, rfl, ?_, session, ?_⟩
      · rw [decides, List.reduceOption_cons_of_some]
        exact List.getLastD_cons.symm
      · rw [running_append, running_append, acted, actions]

/-- If one of the statements ends with an error of the shell, the lines do what was done up to it,
and may do more. -/
theorem mapM_enter_of_error {lines : List Text} {s : Session} {first : Status} {error : ShellError}
    (ran : (Statement.runAll first (lines.filterMap Statement.entered?) s).result =
      .error (.shell error)) :
    running (Statement.runAll first (lines.filterMap Statement.entered?) s).actions <+:
      running (lines.mapM enter s).actions := by
  induction lines generalizing s first with
  | nil => contradiction
  | cons line rest ih =>
    cases meant : Statement.entered? line with
    | none =>
      have here := enter_of_blank meant s
      rw [List.filterMap_cons_none meant] at ran ⊢
      rw [mapM_enter_cons (congrArg Ended.result here), here]
      exact ih ran
    | some statement =>
      rw [List.filterMap_cons_some meant, Statement.runAll] at ran ⊢
      cases here : (statement.run s).result with
      | error fault =>
        rw [bind_apply_of_error here] at ran ⊢
        obtain rfl : fault = .shell error := Except.error.inj ran
        obtain ⟨code, entered, acted⟩ := enter_of_error meant here
        rw [mapM_enter_cons entered, running_append, acted]
        exact List.prefix_append _ _
      | ok status =>
        obtain ⟨entered, after, acted⟩ := enter_of_ok meant here
        rw [bind_apply_of_ok here] at ran ⊢
        rw [mapM_enter_cons entered, after, running_append, running_append, acted]
        exact (List.prefix_append_right_inj _).2 (ih ran)

/-- If one of the statements ends with a fault that is no error of the shell, so do the lines, and
leave what the statements leave. -/
theorem mapM_enter_of_fault {lines : List Text} {s : Session} {first : Status} {fault : Fault}
    (ran : (Statement.runAll first (lines.filterMap Statement.entered?) s).result = .error fault)
    (other : ∀ error, fault ≠ .shell error) :
    (lines.mapM enter s).result = .error fault ∧
      (lines.mapM enter s).session =
        (Statement.runAll first (lines.filterMap Statement.entered?) s).session ∧
      running (lines.mapM enter s).actions =
        running (Statement.runAll first (lines.filterMap Statement.entered?) s).actions := by
  induction lines generalizing s first with
  | nil => contradiction
  | cons line rest ih =>
    cases meant : Statement.entered? line with
    | none =>
      have here := enter_of_blank meant s
      rw [List.filterMap_cons_none meant] at ran ⊢
      obtain ⟨broken, session, actions⟩ := ih ran
      rw [mapM_enter_cons (congrArg Ended.result here), here, broken]
      exact ⟨rfl, session, actions⟩
    | some statement =>
      rw [List.filterMap_cons_some meant, Statement.runAll] at ran ⊢
      cases here : (statement.run s).result with
      | error fault' =>
        rw [bind_apply_of_error here] at ran ⊢
        obtain rfl : fault' = fault := Except.error.inj ran
        obtain ⟨entered, after, acted⟩ := enter_of_fault meant here other
        rw [List.mapM_cons, bind_apply_of_error entered]
        exact ⟨rfl, after, acted⟩
      | ok status =>
        obtain ⟨entered, after, acted⟩ := enter_of_ok meant here
        rw [bind_apply_of_ok here] at ran ⊢
        obtain ⟨broken, session, actions⟩ := ih ran
        rw [mapM_enter_cons entered, after, broken]
        exact ⟨rfl, session, by rw [running_append, running_append, acted, actions]⟩

end Console

/-! ## Typing lines -/

/-- Each character of the line is typed as itself, and none breaks it. -/
def Text.Plain (line : Text) : Prop :=
  ∀ c ∈ line, 0x20 ≤ c.toNat ∧ c ∉ ['\x7f', '\u0085', '\u2028', '\u2029']

namespace Text.Plain

variable {line : Text}

theorem unbroken (plain : Plain line) : ∀ c ∈ line, isLineBreak c = false := by
  intro c member
  obtain ⟨low, others⟩ := plain c member
  simp only [List.mem_cons, List.not_mem_nil, or_false, not_or] at others
  obtain ⟨-, next, lines, paragraphs⟩ := others
  have code : ∀ {x : Char}, c ≠ x → c.toNat ≠ x.toNat := fun other same =>
    other (Char.toNat_inj.1 same)
  have next' : c.toNat ≠ 0x85 := code next
  have lines' : c.toNat ≠ 0x2028 := code lines
  have paragraphs' : c.toNat ≠ 0x2029 := code paragraphs
  simp only [isLineBreak, Bool.or_eq_false_iff, Bool.and_eq_false_iff, decide_eq_false_iff_not,
    beq_eq_false_iff_ne]
  omega

theorem map_plainEvent (plain : Plain line) :
    line.map Held.plainEvent = line.map fun c => ⟨.char [c], false⟩ := by
  apply List.map_congr_left
  intro c member
  obtain ⟨low, others⟩ := plain c member
  have notDelete : c ≠ '\x7f' := fun same => others (by simp [same])
  exact Held.plainEvent_typed ⟨c, low, notDelete⟩

theorem unescaped (plain : Plain line) : ChainShell.escapeChar ∉ line := by
  intro member
  have low := (plain ChainShell.escapeChar member).1
  contradiction

end Text.Plain

namespace Editor

/-- Typing at the end of the draft and the enter key commit the draft and what was typed. -/
theorem committed_line (e : Editor) (atEnd : e.draft.cursor = e.draft.elements.length)
    (line : Text) (rest : List KeyEvent) :
    ∃ e' : Editor, e'.draft = {} ∧
      e.committed ((line.map fun c => ⟨.char [c], false⟩) ++ .key .enter false :: rest) =
        (e.draft.contents ++ line) :: e'.committed rest := by
  induction line generalizing e with
  | nil => exact ⟨e.commit, rfl, by simp [committed, KeyEvent.key, KeyEvent.isExit, line?, strike]⟩
  | cons c line ih =>
    let next := e.strike (.char [c])
    have drafted : next.draft =
        { elements := e.draft.elements ++ [[c]], cursor := e.draft.elements.length + 1 } := by
      simp [next, strike, edit, Draft.insert, atEnd]
    obtain ⟨e', fresh, later⟩ := ih next (by simp [drafted])
    refine ⟨e', fresh, ?_⟩
    have contents : next.draft.contents ++ line = e.draft.contents ++ c :: line := by
      simp [drafted, Draft.contents]
    rw [← contents, ← later]
    rfl

/-- What is typed commits the lines that are typed. -/
theorem committed_lines {lines : List Text} (plain : ∀ line ∈ lines, Text.Plain line) (e : Editor)
    (fresh : e.draft = {}) :
    e.committed ((lines.flatMap fun line => line ++ ['\r']).map Held.plainEvent) = lines := by
  induction lines generalizing e with
  | nil => rfl
  | cons line rest ih =>
    have typed := (plain line List.mem_cons_self).map_plainEvent
    obtain ⟨e', fresh', committed⟩ := committed_line e (by rw [fresh]; rfl) line
      ((rest.flatMap fun line => line ++ ['\r']).map Held.plainEvent)
    have later := ih (fun line member => plain line (List.mem_cons_of_mem _ member)) e' fresh'
    rw [later, fresh] at committed
    rw [List.flatMap_cons, List.map_append, List.map_append, typed, List.append_assoc]
    exact committed

end Editor

namespace Console

/-- The interactive shell has ended as entering lines did, but for its front and one more look at
the children: with the status of the last of them as an exit code, or with their fault. -/
structure EndsAs (loop : Ended Int) (ran : Ended (List (Option Status))) : Prop where
  completed : ∀ statuses, ran.result = .ok statuses →
    loop.result = .ok (statuses.reduceOption.getLastD .ok).toInt
  broken : ∀ fault, ran.result = .error fault → loop.result = .error fault
  store : loop.session.store = ran.session.store
  actions : running loop.actions = running ran.actions

theorem running_of_enters {actions entered : List Action} (enters : Enters actions entered) :
    running actions = running entered := by
  rw [← running_filter_isEntering, enters.entered]

/-- On a machine on which no mode call fails the interactive shell has entered the lines that its
editor commits. -/
theorem runEvents_of_keeps (marker : Marker) (events : List KeyEvent) {s : Session}
    (keeps : s.host.Keeps { obedient := true }) :
    EndsAs (runEvents marker events none s)
      ((Editor.committed { history := s.history } events).mapM enter s) := by
  obtain ⟨e', -, simulates⟩ := simulates_attend marker { history := s.history } events
  rcases raw_of_simulates (simulates.redrawn marker) (c := {}) rfl rfl with
    (⟨-, result⟩ | ⟨fault, breaks⟩) | ⟨statuses, c, result, completed, last, session, -, entered⟩
  · have whole : runEvents marker events none s = _ := bind_apply_of_error result _
    have failed : (runEvents marker events none s).result = .error .terminal := by rw [whole]
    have broken : true = false := (confined_runEvents marker events).faults s _ keeps failed
    contradiction
  · have whole : runEvents marker events none s = _ := bind_apply_of_error breaks.result _
    rw [whole]
    have store := congrArg Session.store breaks.session
    refine ⟨?_, ?_, store, running_of_enters breaks.actions⟩
    · intro statuses completed
      rw [breaks.broken] at completed
      contradiction
    · intro fault' broken
      exact congrArg Except.error (Except.error.inj (breaks.broken.symm.trans broken))
  · have whole : runEvents marker events none s = _ := bind_apply_of_ok result _
    have newline : running [.wrote .out ['\r', '\n']] = [] := rfl
    have acted : (runEvents marker events none s).actions = _ ++ [.wrote .out ['\r', '\n']] :=
      congrArg Ended.actions whole
    refine ⟨?_, ?_, ?_, ?_⟩
    · intro statuses' completed'
      obtain rfl : statuses = statuses' := Except.ok.inj (completed.symm.trans completed')
      rw [whole, ← last]
      rfl
    · intro fault broken
      rw [completed] at broken
      contradiction
    · have store := congrArg Session.store session
      rw [whole]
      exact store
    · rw [acted, running_append, newline, List.append_nil, running_of_enters entered]

/-- Lines that are typed at the terminal, in whatever chunks and with whatever pauses, are entered
one after the other. -/
theorem run_of_typed (marker : Marker) {lines : List Text} {reads : List Read} {s : Session}
    (plain : ∀ line ∈ lines, Text.Plain line) (present : .chunk [] ∉ reads)
    (typed : Read.bytes reads = lines.flatMap fun line => Utf8.encode (line ++ ['\r']))
    (keeps : s.host.Keeps { obedient := true }) :
    EndsAs (run marker (.ofReads reads) s) (lines.mapM enter s) := by
  let t := lines.flatMap fun line => line ++ ['\r']
  have sent : Read.bytes reads = Utf8.encode t := by
    rw [typed]
    simp only [t, Utf8.encode, List.flatMap_assoc]
  have unescaped : escapeChar ∉ t := by
    intro member
    obtain ⟨line, found, inside⟩ := List.mem_flatMap.1 member
    rcases List.mem_append.1 inside with inside | inside
    · exact (plain line found).unescaped inside
    · exact absurd (List.mem_singleton.1 inside) (by decide)
  have entered := runEvents_of_keeps marker (t.map Held.plainEvent) keeps
  rw [Editor.committed_lines plain { history := s.history } rfl] at entered
  rw [KeyStream.ofReads_of_unescaped present sent unescaped]
  exact entered

/-- The same lines typed at the terminal and run as a script: if no statement ends with an error of
the shell, the two act alike on processes and files, and leave the same variables and the same exit
code; otherwise the script stops there, and the interactive shell goes on.  What the machine does
not take ends both, with the same fault and alike up to there. -/
theorem run_agrees (marker : Marker) {lines : List Text} {reads : List Read} {s : Session}
    (plain : ∀ line ∈ lines, Text.Plain line) (present : .chunk [] ∉ reads)
    (typed : Read.bytes reads = lines.flatMap fun line => Utf8.encode (line ++ ['\r']))
    (keeps : s.host.Keeps { quiet := true, obedient := true }) :
    let source := ['\n'].intercalate lines
    let statements := Statement.runAll .ok (Statement.ofSource source) s
    let script := runSource source s
    let loop := run marker (.ofReads reads) s
    ((∃ status, statements.result = .ok status) ∧ running loop.actions = running script.actions ∧
        loop.session.store = script.session.store ∧
        ∃ code, loop.result = .ok code ∧ script.result = .ok code) ∨
      ((∃ error, statements.result = .error (.shell error)) ∧
        running script.actions <+: running loop.actions) ∨
      ∃ message, s.host.Declines message ∧ statements.result = .error (.raised message) ∧
        running loop.actions = running script.actions ∧
        loop.session.store = script.session.store ∧
        loop.result = .error (.raised message) ∧ script.result = .error (.raised message) := by
  intro source statements script loop
  have ends := run_of_typed marker plain present typed (Host.keeps_obedient (keeps.obedient rfl))
  have meant : Statement.ofSource source = lines.filterMap Statement.entered? :=
    Statement.ofSource_intercalate fun line member => (plain line member).unbroken
  cases ran : statements.result with
  | ok status =>
    left
    obtain ⟨scripted, reaped, worked⟩ := runSource_of_ok ran
    have ranLines := ran
    simp only [statements, meant] at ranLines reaped worked
    obtain ⟨statuses, completed, decides, after, entered⟩ := mapM_enter_of_ok ranLines
    refine ⟨⟨status, rfl⟩, ?_, ?_, status.toInt, ?_, scripted⟩
    · exact (ends.actions.trans entered).trans worked.symm
    · show loop.session.store = (runSource source s).session.store
      rw [reaped, ends.store, after]
      rfl
    · rw [decides]
      exact ends.completed statuses completed
  | error fault =>
    right
    rcases (confined_runAll .ok (Statement.ofSource source)).faults s fault keeps ran with
      broken | ⟨error, rfl⟩
    · right
      -- The machine keeps its promise, so what passes is what it does not take.
      obtain ⟨message, rfl⟩ : ∃ message, fault = .raised message := by
        cases fault with
        | raised message => exact ⟨message, rfl⟩
        | _ => contradiction
      have other : ∀ error, Fault.raised message ≠ .shell error := by simp
      have scripted := runSource_of_fault ran other
      have ranLines := ran
      simp only [statements, meant] at ranLines scripted
      obtain ⟨broken, after, entered⟩ := mapM_enter_of_fault ranLines other
      refine ⟨message, declines_of_raised ran, rfl, ?_, ?_, ends.broken _ broken, ?_⟩
      · show running loop.actions = running (runSource source s).actions
        rw [scripted]
        exact ends.actions.trans entered
      · show loop.session.store = (runSource source s).session.store
        rw [scripted, ends.store, after]
        rfl
      · show (runSource source s).result = _
        rw [scripted]
    · left
      have worked := runSource_of_error ran
      have ranLines := ran
      simp only [statements, meant] at ranLines worked
      refine ⟨⟨error, rfl⟩, ?_⟩
      rw [worked, ends.actions]
      exact mapM_enter_of_error ranLines

/-- An assignment, a blank line, and a command that dies of a signal; a pause and a cut come inside
a character. -/
theorem run_agrees_in_pieces :
    let lines : List Text := [['x', '=', 'é'], [], ['$', 'x']]
    let reads : List Read :=
      [.chunk [120, 61, 195], .pause, .chunk [169, 13, 13, 36], .chunk [120, 13]]
    let s : Session := { host := { programs := [(['é'], [.starts (-2) 0 0])] } }
    let script := runSource (['\n'].intercalate lines) s
    let loop := run { text := ['$'] } (.ofReads reads) s
    ((∀ line ∈ lines, Text.Plain line) ∧ .chunk [] ∉ reads ∧
        (Read.bytes reads = lines.flatMap fun line => Utf8.encode (line ++ ['\r'])) ∧
        s.host.Keeps { quiet := true, obedient := true }) ∧
      running script.actions = [.started 1 [['é']] ⟨none, .inherited, none⟩, .waited 1 (-2)] ∧
      running loop.actions = running script.actions ∧
      loop.session.store = script.session.store ∧
      loop.result = .ok 130 ∧ script.result = .ok 130 := by
  intro lines reads s script loop
  have plain : ∀ line ∈ lines, Text.Plain line := by
    simp [lines, Text.Plain]
  have typed : Read.bytes reads = lines.flatMap fun line => Utf8.encode (line ++ ['\r']) := by
    decide +kernel
  have keeps : s.host.Keeps { quiet := true, obedient := true } := by
    exact ⟨fun _ => by decide, fun _ call => by cases call <;> rfl, fun _ _ _ => trivial⟩
  have present : Read.chunk [] ∉ reads := by decide
  have scripted : script.result = .ok 130 := by decide +kernel
  have acted : running script.actions =
      [.started 1 [['é']] ⟨none, .inherited, none⟩, .waited 1 (-2)] := by decide +kernel
  rcases run_agrees { text := ['$'] } plain present typed keeps with
    ⟨-, actions, store, code, looped, same⟩ | ⟨⟨error, stopped⟩, -⟩ |
    ⟨message, -, -, -, -, -, raised⟩
  · obtain rfl : 130 = code := Except.ok.inj (scripted.symm.trans same)
    exact ⟨⟨plain, present, typed, keeps⟩, acted, actions, store, looped, scripted⟩
  · have completed :
        (Statement.runAll .ok (Statement.ofSource (['\n'].intercalate lines)) s).result =
          .ok (.ofReturnCode (-2)) := by decide +kernel
    rw [completed] at stopped
    contradiction
  · rw [scripted] at raised
    contradiction

end Console

end ChainShell
