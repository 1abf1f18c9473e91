/-
# ChainShell.Proofs.Children.Ledger — processes read off the actions

The actions of a run together with the machine it began on say everything about the processes
that were started: with which outcome, so how long each will be found running
(`Host.afterActions`), and which of them the session keeps as children (`Host.adopted`).

`Progress` collects what holds of the actions between two states of the machine: processes are
numbered in order; one whose output is piped is never waited for; and every other one is waited
for right after its start, until it ends.  Actions one after the other make progress if both
parts do (`Progress.append`), a stage does (`Stage.progress`), and so does a chain
(`Chain.worked_runLinks`), as long as no wait is given up.
-/
import ChainShell.Proofs.Chain.Views

set_option autoImplicit false

namespace ChainShell

open ChainShell.Activity

namespace Action

/-- The processes that were started, in order. -/
def pids (actions : List Action) : List Nat := (starts actions).map Prod.fst

/-- The process of a start, if its output goes into a pipe. -/
def interior? : Action → Option Nat
  | started pid _ streams => if streams.output = .pipe then some pid else none
  | _ => none

/-- The processes that were started as inner parts of pipelines, in order. -/
def interiors (actions : List Action) : List Nat := actions.filterMap interior?

/-- The processes that a wait saw end. -/
def answered (actions : List Action) : List Nat := (answers actions).map Prod.fst

def isWrite : Action → Bool
  | wrote .. => true
  | _ => false

/-- A process is waited for until it ends, and until then nothing else is done than to close
handles. -/
def Answered (pid : Nat) (actions : List Action) : Prop :=
  ∃ between returnCode rest, actions = between ++ .waited pid returnCode :: rest ∧
    ∀ action ∈ between, action = .interrupted pid ∨ ∃ handle, action = .closed handle

theorem Answered.append {pid : Nat} {actions : List Action} (answered : Answered pid actions)
    (later : List Action) : Answered pid (actions ++ later) := by
  obtain ⟨between, returnCode, rest, rfl, only⟩ := answered
  refine ⟨between, returnCode, rest ++ later, ?_, only⟩
  rw [List.append_assoc, List.cons_append]

theorem Answered.mem {pid : Nat} {actions : List Action} (isAnswered : Answered pid actions) :
    pid ∈ answered actions := by
  obtain ⟨between, returnCode, rest, rfl, -⟩ := isAnswered
  refine List.mem_map.2 ⟨(pid, returnCode), List.mem_filterMap.2 ⟨.waited pid returnCode, ?_, rfl⟩,
    rfl⟩
  exact List.mem_append_right _ List.mem_cons_self

section

variable (first second : List Action)

@[simp] theorem pids_append : pids (first ++ second) = pids first ++ pids second := by
  simp [pids]

@[simp] theorem interiors_append :
    interiors (first ++ second) = interiors first ++ interiors second :=
  List.filterMap_append

@[simp] theorem answered_append :
    answered (first ++ second) = answered first ++ answered second := by
  simp [answered]

end

theorem mem_pids_of_interior {pid : Nat} {actions : List Action}
    (interior : pid ∈ interiors actions) : pid ∈ pids actions := by
  obtain ⟨action, member, isInterior⟩ := List.mem_filterMap.1 interior
  cases action with
  | started other argv streams =>
    dsimp only [interior?] at isInterior
    split at isInterior
    · obtain rfl := Option.some.inj isInterior
      exact List.mem_map.2 ⟨(other, argv), List.mem_filterMap.2 ⟨_, member, rfl⟩, rfl⟩
    · contradiction
  | _ => contradiction

theorem mem_waits_of_answered {pid : Nat} {actions : List Action}
    (isAnswered : pid ∈ answered actions) : pid ∈ waits actions := by
  obtain ⟨⟨pid, returnCode⟩, answer, rfl⟩ := List.mem_map.1 isAnswered
  obtain ⟨action, member, isAnswer⟩ := List.mem_filterMap.1 answer
  cases action with
  | waited other code =>
    obtain ⟨rfl, rfl⟩ := Prod.mk.inj (Option.some.inj isAnswer)
    exact List.mem_filterMap.2 ⟨_, member, rfl⟩
  | _ => contradiction

/-- A view that sees nothing written sees the same without it. -/
theorem filterMap_filter_isWrite {α : Type} {view : Action → Option α}
    (noWrite : ∀ stream text, view (.wrote stream text) = none) (actions : List Action) :
    (actions.filter (!·.isWrite)).filterMap view = actions.filterMap view := by
  rw [List.filterMap_filter]
  congr
  funext action
  cases action with
  | wrote stream text => exact (noWrite stream text).symm
  | _ => rfl

theorem pids_filter_isWrite (actions : List Action) :
    pids (actions.filter (!·.isWrite)) = pids actions := by
  rw [pids, starts, filterMap_filter_isWrite fun _ _ => rfl]
  rfl

/-- A place in what is left without the writes is a place in the whole. -/
theorem cut_of_filter_isWrite {actions before after : List Action} {action : Action}
    (cut : actions.filter (!·.isWrite) = before ++ action :: after) :
    ∃ before' after', actions = before' ++ action :: after' ∧
      before'.filter (!·.isWrite) = before := by
  obtain ⟨first, rest, rfl, isFirst, isRest⟩ := List.filter_eq_append_iff.1 cut
  obtain ⟨written, after', rfl, onlyWritten, -, -⟩ := List.filter_eq_cons_iff.1 isRest
  have nothing : written.filter (!·.isWrite) = [] := List.filter_eq_nil_iff.2 onlyWritten
  refine ⟨first ++ written, after', ?_, ?_⟩
  · rw [List.append_assoc]
  · rw [List.filter_append, isFirst, nothing, List.append_nil]

/-- If no two processes have the same number, the others have another one. -/
theorem not_mem_pids_of_nodup {before after : List Action} {pid : Nat} {argv : List Text}
    {streams : Streams} (distinct : (pids (before ++ .started pid argv streams :: after)).Nodup) :
    pid ∉ pids (before ++ after) := by
  have start : pids (.started pid argv streams :: after) = pid :: pids after := rfl
  rw [pids_append, start, List.perm_middle.nodup_iff, List.nodup_cons] at distinct
  rw [pids_append]
  exact distinct.1

end Action

open ChainShell.Action

/-! ## The machine after some actions -/

namespace Host

/-- The machine after an action, as far as the outcomes of programs go. -/
def afterAction (h : Host) (action : Action) : Host :=
  match action.attempt? with
  | some argv => h.attempted (argv.headD [])
  | none => h

def afterActions (h : Host) (actions : List Action) : Host := actions.foldl afterAction h

theorem afterActions_append (h : Host) (first second : List Action) :
    h.afterActions (first ++ second) = (h.afterActions first).afterActions second :=
  List.foldl_append

theorem afterActions_eq (h : Host) (actions : List Action) :
    h.afterActions actions =
      (attempts actions).foldl (fun h argv => h.attempted (argv.headD [])) h := by
  induction actions generalizing h with
  | nil => rfl
  | cons action rest ih =>
    show (h.afterAction action).afterActions rest = _
    rw [ih, attempts, attempts, List.filterMap_cons, afterAction]
    cases action.attempt? <;> rfl

theorem afterActions_of_silent {h : Host} {actions : List Action} (silent : attempts actions = []) :
    h.afterActions actions = h := by
  rw [afterActions_eq, silent, List.foldl_nil]

theorem afterActions_filter_isWrite (h : Host) (actions : List Action) :
    h.afterActions (actions.filter (!·.isWrite)) = h.afterActions actions := by
  rw [afterActions_eq, afterActions_eq, attempts, attempts,
    filterMap_filter_isWrite fun _ _ => rfl]

theorem outcome_congr {h h' : Host} (same : h.programs = h'.programs) (program : Text) :
    h.outcome program = h'.outcome program := by
  rw [outcome, outcome, same]

theorem afterActions_congr {h h' : Host} (same : h.programs = h'.programs) (actions : List Action) :
    (h.afterActions actions).programs = (h'.afterActions actions).programs := by
  induction actions generalizing h h' with
  | nil => exact same
  | cons action rest ih =>
    apply ih
    unfold afterAction
    cases action.attempt? with
    | none => exact same
    | some argv => exact congrArg (dropOutcome _) same

/-- The child that the session gets with an action: a process whose output goes into a pipe. -/
def adopts? (h : Host) : Action → Option Child
  | .started pid argv streams =>
    match h.outcome (argv.headD []) with
    | .starts returnCode polls interrupts =>
      if streams.output = .pipe then some { pid, returnCode, polls, interrupts } else none
    | .fails _ => none
  | _ => none

/-- The children that the session gets with some actions. -/
def adopted : Host → List Action → List Child
  | _, [] => []
  | h, action :: rest => (h.adopts? action).toList ++ (h.afterAction action).adopted rest

theorem adopted_append (h : Host) (first second : List Action) :
    h.adopted (first ++ second) = h.adopted first ++ (h.afterActions first).adopted second := by
  induction first generalizing h with
  | nil => rfl
  | cons action rest ih =>
    rw [List.cons_append, adopted, adopted, ih, List.append_assoc]
    rfl

theorem adopted_congr {h h' : Host} (same : h.programs = h'.programs) (actions : List Action) :
    h.adopted actions = h'.adopted actions := by
  induction actions generalizing h h' with
  | nil => rfl
  | cons action rest ih =>
    have here : h.adopts? action = h'.adopts? action := by
      unfold adopts?
      cases action <;> simp only [outcome_congr same]
    have next : (h.afterAction action).programs = (h'.afterAction action).programs :=
      afterActions_congr same [action]
    rw [adopted, adopted, here, ih next]

theorem adopted_of_silent {h : Host} {actions : List Action} (silent : attempts actions = []) :
    h.adopted actions = [] := by
  induction actions generalizing h with
  | nil => rfl
  | cons action rest ih =>
    rw [attempts, List.filterMap_eq_nil_iff] at silent
    have nothing : h.adopts? action = none := by
      have notTried := silent action List.mem_cons_self
      cases action with
      | started pid argv streams => contradiction
      | _ => rfl
    have later : attempts rest = [] :=
      List.filterMap_eq_nil_iff.2 fun other member => silent other (List.mem_cons_of_mem _ member)
    rw [adopted, nothing, ih later]
    rfl

end Host

/-! ## Progress -/

/-- The actions lead from one state of the machine to another, and no wait was given up. -/
structure Progress (h : Host) (actions : List Action) (h' : Host) : Prop where
  programs : h'.programs = (h.afterActions actions).programs
  started : h'.started = h.started + (pids actions).length
  /-- Processes are numbered in order. -/
  pids : pids actions = List.range' (h.started + 1) (pids actions).length
  waited : ∀ pid ∈ waits actions, pid ∈ Action.pids actions ∧ pid ∉ interiors actions
  answered_once : (answered actions).Nodup
  /-- A process was started by the next outcome of its program. -/
  outcomes : ∀ before pid argv streams after,
    actions = before ++ .started pid argv streams :: after → ∃ returnCode polls interrupts,
      (h.afterActions before).outcome (argv.headD []) = .starts returnCode polls interrupts
  synchronous : ∀ before pid argv streams after,
    actions = before ++ .started pid argv streams :: after → streams.output ≠ .pipe →
      Answered pid after

namespace Progress

variable {h h' h'' : Host} {first second actions : List Action}

theorem mem_pids_iff (progress : Progress h actions h') {pid : Nat} :
    pid ∈ Action.pids actions ↔ h.started < pid ∧ pid ≤ h'.started := by
  rw [progress.pids, List.mem_range'_1, progress.started]
  omega

theorem disjoint (here : Progress h first h') (there : Progress h' second h'') {pid : Nat}
    (inFirst : pid ∈ Action.pids first) : pid ∉ Action.pids second := by
  rw [here.mem_pids_iff] at inFirst
  rw [there.mem_pids_iff]
  omega

/-- Actions that neither start processes nor wait for them change nothing about them. -/
theorem of_silent (noAttempt : attempts actions = []) (noWait : waits actions = []) :
    Progress h actions h := by
  have noStart : starts actions = [] := by
    rw [starts, List.filterMap_eq_nil_iff]
    rw [attempts, List.filterMap_eq_nil_iff] at noAttempt
    intro action member
    have notTried := noAttempt action member
    cases action with
    | started pid argv streams => contradiction
    | _ => rfl
  have noPid : Action.pids actions = [] := by rw [Action.pids, noStart, List.map_nil]
  have noCut : ∀ before pid argv streams after,
      actions ≠ before ++ .started pid argv streams :: after := by
    rintro before pid argv streams after rfl
    simp [attempts, attempt?] at noAttempt
  refine ⟨?_, ?_, ?_, ?_, ?_, ?_, ?_⟩
  · rw [Host.afterActions_of_silent noAttempt]
  · rw [noPid, List.length_nil, Nat.add_zero]
  · rw [noPid]
    rfl
  · rw [noWait]
    intro pid member
    contradiction
  · have noAnswer : answered actions = [] := by
      rw [List.eq_nil_iff_forall_not_mem]
      intro pid isAnswered
      have waits := mem_waits_of_answered isAnswered
      rw [noWait] at waits
      contradiction
    rw [noAnswer]
    exact List.nodup_nil
  · intro before pid argv streams after cut
    exact absurd cut (noCut before pid argv streams after)
  · intro before pid argv streams after cut
    exact absurd cut (noCut before pid argv streams after)

theorem append (here : Progress h first h') (there : Progress h' second h'') :
    Progress h (first ++ second) h'' := by
  -- The second part gives its processes other numbers, so what one part does with a process is all
  -- that is done with it.
  have apart : ∀ pid, pid ∈ Action.pids first → pid ∉ Action.pids second :=
    fun pid => here.disjoint there
  refine ⟨?_, ?_, ?_, ?_, ?_, ?_, ?_⟩
  · rw [there.programs, Host.afterActions_append]
    exact Host.afterActions_congr here.programs second
  · rw [there.started, here.started, pids_append, List.length_append, Nat.add_assoc]
  · rw [pids_append, List.length_append, ← List.range'_append_1, ← here.pids]
    have next : h.started + 1 + (Action.pids first).length = h'.started + 1 := by
      rw [here.started]
      omega
    rw [next, ← there.pids]
  · intro pid waits
    rw [waits_append, List.mem_append] at waits
    rw [pids_append, interiors_append, List.mem_append, List.mem_append, not_or]
    rcases waits with inFirst | inSecond
    · obtain ⟨started, notInterior⟩ := here.waited pid inFirst
      exact ⟨.inl started, notInterior, fun interior =>
        apart pid started (mem_pids_of_interior interior)⟩
    · obtain ⟨started, notInterior⟩ := there.waited pid inSecond
      exact ⟨.inr started, fun interior => apart pid (mem_pids_of_interior interior) started,
        notInterior⟩
  · rw [answered_append, List.nodup_append]
    refine ⟨here.answered_once, there.answered_once, ?_⟩
    rintro pid inFirst _ inSecond rfl
    exact apart pid (here.waited pid (mem_waits_of_answered inFirst)).1
      (there.waited pid (mem_waits_of_answered inSecond)).1
  · intro before pid argv streams after cut
    rcases cut_cases cut with ⟨rest, inFirst, -⟩ | ⟨inner, rfl, inSecond⟩
    · exact here.outcomes before pid argv streams rest inFirst
    · rw [Host.afterActions_append,
        ← Host.outcome_congr (Host.afterActions_congr here.programs inner)]
      exact there.outcomes inner pid argv streams after inSecond
  · intro before pid argv streams after cut unpiped
    rcases cut_cases cut with ⟨rest, inFirst, rfl⟩ | ⟨inner, rfl, inSecond⟩
    · exact (here.synchronous before pid argv streams rest inFirst unpiped).append second
    · exact there.synchronous inner pid argv streams after inSecond unpiped

end Progress

/-! ## Stages -/

namespace Stage

section

variable {stage : Stage} {child : Child}

theorem exists_child_of_attempt {pid : Nat} {argv : List Text} {streams : Streams}
    (starts : stage.attempt = .started pid argv streams) :
    ∃ child, stage.child? = some child ∧ pid = child.pid ∧
      argv = stage.link.invocation.argv ∧ streams = stage.streams := by
  obtain ⟨link, carried, files, ending⟩ := stage
  cases ending with
  | started child =>
    obtain ⟨rfl, rfl, rfl⟩ := Action.started.inj starts
    exact ⟨child, rfl, rfl, rfl, rfl⟩
  | _ => contradiction

theorem streams_output_iff (stage : Stage) :
    stage.streams.output = .pipe ↔ stage.link.isPiped = true :=
  Streams.output_of_eq_pipe stage.carried stage.link.isPiped stage.files

theorem pids_actions (stage : Stage) :
    Action.pids stage.actions = (stage.child?.map Child.pid).toList := by
  rw [Action.pids, starts_actions, start?_attempt]
  cases stage.child? <;> rfl

theorem interiors_actions (stage : Stage) :
    interiors stage.actions = stage.attempt.interior?.toList := by
  rw [actions, interiors, List.filterMap_append, stage.filterMap_launchActions,
    stage.filterMap_waiting, List.append_nil]
  all_goals intros; rfl

theorem interior?_attempt_of_unpiped (unpiped : stage.link.isPiped = false) :
    stage.attempt.interior? = none := by
  have notPipe : stage.streams.output ≠ .pipe := by
    rw [ne_eq, streams_output_iff, unpiped]
    exact Bool.false_ne_true
  cases attempt : stage.attempt with
  | started pid argv streams =>
    obtain ⟨child, -, -, -, rfl⟩ := exists_child_of_attempt attempt
    exact if_neg notPipe
  | _ => rfl

theorem answered_waitActions (patience : Nat) (child : Child) :
    answered (waitActions patience child) =
      if child.interrupts ≤ patience then [child.pid] else [] := by
  unfold waitActions
  split <;> simp [answered, answers, answer?]

/-- A wait that is not given up comes to the end of the process. -/
theorem answered_of_patient {child : Child} (handles : List Handle)
    (patient : child.interrupts ≤ interruptsAbsorbed) :
    Answered child.pid (handles.map .closed ++ waitActions interruptsAbsorbed child) := by
  have waits : waitActions interruptsAbsorbed child =
      List.replicate (min child.interrupts (interruptsAbsorbed + 1)) (.interrupted child.pid) ++
        [.waited child.pid child.returnCode] := by
    rw [waitActions, if_pos patient]
  rw [waits, ← List.append_assoc]
  refine ⟨_, child.returnCode, [], rfl, ?_⟩
  intro action member
  rcases List.mem_append.1 member with closes | interrupted
  · obtain ⟨handle, -, rfl⟩ := List.mem_map.1 closes
    exact .inr ⟨handle, rfl⟩
  · exact .inl (List.eq_of_mem_replicate interrupted)

end

theorem programs_after_actions (stage : Stage) (s : Session) :
    (stage.after s).host.programs = (s.host.afterActions stage.actions).programs := by
  rw [Host.afterActions_eq, attempts_actions]
  obtain ⟨link, carried, files, ending⟩ := stage
  cases piped : link.isPiped <;> cases ending <;>
    simp [after, afterLaunch, piped, Session.afterOpening, Host.attempted, attempt, attempt?,
      Invocation.argv]

/-- A stage makes progress unless its wait was given up. -/
theorem progress {link : Link} {carried : Option Handle} {s : Session}
    (heldOut : (of link carried s).verdict ≠ some (.error .interrupted)) :
    Progress s.host (of link carried s).actions ((of link carried s).after s).host := by
  have process : ∀ {child}, (of link carried s).child? = some child →
      s.host.outcome link.invocation.executable =
          .starts child.returnCode child.polls child.interrupts ∧
        child.pid = s.host.started + 1 := started_of
  have met : (of link carried s).link = link := rfl
  have programs := programs_after_actions (of link carried s) s
  have started := started_after (of link carried s) s
  -- From here on only the stage counts, not the session it was made from.
  generalize of link carried s = stage at heldOut process met programs started ⊢
  subst met
  refine ⟨programs, ?_, ?_, ?_, ?_, ?_, ?_⟩
  · rw [started, pids_actions]
    cases stage.child? <;> rfl
  · rw [pids_actions]
    cases isChild : stage.child? with
    | none => rfl
    | some child => exact congrArg (fun pid => [pid]) (process isChild).2
  · intro pid waits
    rw [waits_actions] at waits
    obtain ⟨action, member, isWait⟩ := List.mem_filterMap.1 waits
    obtain ⟨child, isChild, isWait', unpiped⟩ := stage.exists_child_of_mem_waiting member
    obtain rfl : child.pid = pid := Option.some.inj (isWait'.symm.trans isWait)
    rw [pids_actions, interiors_actions, isChild, interior?_attempt_of_unpiped unpiped]
    simp
  · rw [answered, answers_actions, waiting]
    split
    · exact List.nodup_nil
    · cases stage.child? with
      | none => exact List.nodup_nil
      | some child =>
        show (answered (waitActions interruptsAbsorbed child)).Nodup
        rw [answered_waitActions]
        split <;> simp
  · intro before pid argv streams after cut
    obtain ⟨rfl, same⟩ := stage.cut_at_attempt cut rfl
    obtain ⟨child, isChild, -, rfl, -⟩ := exists_child_of_attempt same.symm
    rw [Host.afterActions_of_silent (OpenFile.attempts_map_opened stage.files)]
    exact ⟨_, _, _, (process isChild).1⟩
  · intro before pid argv streams after cut unpiped
    obtain ⟨rfl, same⟩ := stage.cut_at_attempt cut rfl
    obtain ⟨child, isChild, rfl, -, rfl⟩ := exists_child_of_attempt same.symm
    have notPiped : stage.link.isPiped = false := by
      rwa [ne_eq, streams_output_iff, Bool.not_eq_true] at unpiped
    have rest : after = stage.closing.map .closed ++ waitActions interruptsAbsorbed child := by
      rw [actions, launchActions, List.append_assoc, List.append_cancel_left_eq,
        List.cons_append, List.cons.injEq, waiting, notPiped, isChild] at cut
      exact cut.2.symm
    rw [rest]
    exact answered_of_patient stage.closing (patient_of_verdict isChild notPiped heldOut)

theorem adopted_actions (stage : Stage) (h : Host) :
    h.adopted stage.actions = (h.adopts? stage.attempt).toList := by
  have silent : attempts (stage.closing.map .closed ++ stage.waiting) = [] := by
    rw [attempts_append, attempts, attempts, filterMap_map_closed (fun _ => rfl),
      stage.filterMap_waiting (fun _ _ => rfl) fun _ => rfl, List.append_nil]
  have opened := OpenFile.attempts_map_opened stage.files
  rw [actions, launchActions, List.append_assoc, Host.adopted_append, Host.adopted_of_silent opened,
    Host.afterActions_of_silent opened, List.nil_append, List.cons_append, Host.adopted,
    Host.adopted_of_silent silent, List.append_nil]

/-- The process of a stage becomes a child if its output is piped. -/
theorem adopts?_attempt (link : Link) (carried : Option Handle) (s : Session) :
    s.host.adopts? (of link carried s).attempt =
      if link.isPiped then (of link carried s).child? else none := by
  cases process : (of link carried s).child? with
  | none =>
    have notStarted : s.host.adopts? (of link carried s).attempt = none := by
      cases attempt : (of link carried s).attempt with
      | started pid argv streams =>
        obtain ⟨child, started, -⟩ := exists_child_of_attempt attempt
        rw [process] at started
        contradiction
      | _ => rfl
    rw [notStarted, ite_self]
  | some child =>
    have outcome : s.host.outcome ((of link carried s).link.invocation.argv.headD []) =
        .starts child.returnCode child.polls child.interrupts := (started_of process).1
    have piped : (of link carried s).streams.output = .pipe ↔ link.isPiped = true :=
      streams_output_iff _
    rw [attempt_of_child? process]
    simp only [Host.adopts?, outcome, piped]

theorem children_after (stage : Stage) (s : Session) :
    (stage.after s).children =
      s.children ++ (if stage.link.isPiped then stage.child? else none).toList := by
  obtain ⟨link, carried, files, ending⟩ := stage
  cases piped : link.isPiped <;> cases ending <;>
    simp [after, afterLaunch, piped, child?, Session.afterOpening]

theorem not_isWrite_of_mem_actions {stage : Stage} {action : Action}
    (member : action ∈ stage.actions) : action.isWrite = false := by
  rw [actions, launchActions, List.append_assoc, List.mem_append, List.cons_append, List.mem_cons,
    List.mem_append] at member
  rcases member with opens | rfl | closes | waits
  · obtain ⟨file, -, rfl⟩ := List.mem_map.1 opens
    rfl
  · unfold attempt
    split <;> rfl
  · obtain ⟨handle, -, rfl⟩ := List.mem_map.1 closes
    rfl
  · have isWait := (stage.wait?_of_mem_waiting waits).1
    cases action with
    | wrote stream text => contradiction
    | _ => rfl

end Stage

/-! ## Chains -/

/-- A chain, or a part of one, has worked: it made progress, every process that it left running is a
child, and nothing was written. -/
structure Worked (s : Session) (actions : List Action) (s' : Session) : Prop where
  progress : Progress s.host actions s'.host
  children : s'.children = s.children ++ s.host.adopted actions
  quiet : ∀ action ∈ actions, action.isWrite = false

theorem Worked.append {s s' s'' : Session} {first second : List Action} (here : Worked s first s')
    (there : Worked s' second s'') : Worked s (first ++ second) s'' where
  progress := here.progress.append there.progress
  children := by
    rw [there.children, here.children, Host.adopted_append, List.append_assoc,
      Host.adopted_congr here.progress.programs]
  quiet := by
    intro action member
    rcases List.mem_append.1 member with inFirst | inSecond
    · exact here.quiet action inFirst
    · exact there.quiet action inSecond

theorem worked_map_closed (handles : List Handle) (s : Session) :
    Worked s (handles.map .closed) s := by
  have noAttempt : attempts (handles.map .closed) = [] :=
    filterMap_map_closed (fun _ => rfl) handles
  have noWait : waits (handles.map .closed) = [] := filterMap_map_closed (fun _ => rfl) handles
  refine ⟨.of_silent noAttempt noWait, ?_, ?_⟩
  · rw [Host.adopted_of_silent noAttempt, List.append_nil]
  · intro action member
    obtain ⟨handle, -, rfl⟩ := List.mem_map.1 member
    rfl

namespace Chain

theorem worked_stage {link : Link} {carried : Option Handle} {s : Session}
    (heldOut : (Stage.of link carried s).verdict ≠ some (.error .interrupted)) :
    Worked s (Stage.of link carried s).actions ((Stage.of link carried s).after s) where
  progress := Stage.progress heldOut
  children := by
    rw [Stage.children_after, Stage.adopted_actions, Stage.adopts?_attempt]
    rfl
  quiet _ member := Stage.not_isWrite_of_mem_actions member

/-- Running the links of a chain works, unless a wait is given up. -/
theorem worked_runLinks {carried : Option Handle} {chain : Chain} {s : Session}
    (heldOut : (runLinks carried chain s).result ≠ .error .interrupted) :
    Worked s (runLinks carried chain s).actions (runLinks carried chain s).session := by
  induction chain generalizing carried s with
  | nil =>
    have nothing := closeAny_apply carried s
    rw [runLinks, bind_apply_of_ok (congrArg Ended.result nothing), nothing]
    exact (worked_map_closed _ s).append (worked_map_closed [] s)
  | cons link rest ih =>
    rw [runLinks_cons] at heldOut ⊢
    cases ended : (Stage.of link carried s).verdict with
    | some result =>
      simp only [ended] at heldOut ⊢
      refine worked_stage ?_
      rw [ended]
      exact fun same => heldOut (Option.some.inj same)
    | none =>
      simp only [ended] at heldOut ⊢
      refine (worked_stage ?_).append (ih heldOut)
      rw [ended]
      exact Option.some_ne_none _ |>.symm

end Chain

end ChainShell
