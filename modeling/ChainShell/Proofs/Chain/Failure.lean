/-
# ChainShell.Proofs.Chain.Failure — how a chain fails

A chain that is not interrupted fails exactly if one of its actions is a failure: a redirect
that is refused, or an attempt to start a process that fails.  That failure decides
everything else (`FailsAt`):

* nothing follows it but the closing of what was open;
* it is that of the link at hand, whose redirects were opened in order up to it
  (`FailsFor`);
* the chain ends with the error that the machine had for it, in the shell's words if the
  machine reported it, and as it is if the call could not be made (`Action.Raises`,
  `OsError.Tells`);
* on a machine that differs in granting just this one demand, the run comes to the same
  place and succeeds there (`mended`).

`run_fails_at` puts this together; the variables are as before, however the chain ends.
-/
import ChainShell.Proofs.Chain.Demands
import ChainShell.Proofs.Chain.Wiring

set_option autoImplicit false

namespace ChainShell

open ChainShell.Action

/-! ## Errors and failures -/

namespace OsError

def number? : OsError → Option Int
  | numbered number _ => some number
  | bare _ | invalid _ => none

/-- The text of an error that has a number. -/
def text? : OsError → Option Text
  | numbered _ text => some text
  | bare _ | invalid _ => none

/-- What is told of an error that was reported: its text, or its full description if there is none
or an empty one. -/
inductive Tells (error : OsError) : Text → Prop where
  | text {text : Text} (found : error.text? = some text) (present : text ≠ []) : Tells error text
  | whole (reported : error.isReport = true)
    (absent : error.text? = none ∨ error.text? = some []) : Tells error error.describe

theorem tells_reason {error : OsError} (reported : error.isReport = true) :
    error.Tells error.reason := by
  cases error with
  | bare text => exact .whole rfl (.inl rfl)
  | numbered number text =>
    cases text with
    | nil => exact .whole rfl (.inr rfl)
    | cons c text => exact .text rfl (List.cons_ne_nil c text)
  | invalid message => contradiction

theorem isNotFound_iff (error : OsError) : error.isNotFound = true ↔ error.number? = some 2 := by
  cases error <;> simp [isNotFound, number?]

end OsError

/-- What may come of something that was refused: an error of the shell, or a failure from
outside. -/
def Fault.OfRefusal (fault : Fault) : Prop :=
  (∃ error, fault = .shell error) ∨ ∃ message, fault = .raised message

theorem OsError.ofRefusal_fault (error : OsError) (told : ShellError) :
    (error.fault told).OfRefusal :=
  (error.fault_cases told).imp (fun ⟨_, same⟩ => ⟨told, same⟩) fun ⟨message, _, same⟩ =>
    ⟨message, same⟩

namespace Action

/-- A redirect that was refused, or an attempt to start a process that failed. -/
def isFailure : Action → Bool
  | openFailed .. | startFailed .. => true
  | _ => false

/-- The action that is there in place of a failure if it succeeds. -/
inductive Mends : (success failure : Action) → Prop where
  | opening (mode : OpenMode) (path : Text) (handle : Handle) :
    Mends (opened mode path handle) (openFailed mode path)
  | start (pid : Nat) (argv : List Text) (streams : Streams) :
    Mends (started pid argv streams) (startFailed argv streams)

/-- What a failure raises for an error of the machine: an error of the shell for one that was
reported, and for a call that could not be made what came of it, and nothing else. -/
inductive Raises : OsError → Action → Fault → Prop where
  | redirect {error : OsError} {mode : OpenMode} {path reason : Text}
    (told : error.Tells reason) :
    Raises error (openFailed mode path) (.shell (.redirectFailed path reason))
  | notFound {error : OsError} {program : Text} {args : List Text} {streams : Streams}
    (number : error.number? = some 2) :
    Raises error (startFailed (program :: args) streams) (.shell (.commandNotFound program none))
  | start {error : OsError} {program reason : Text} {args : List Text} {streams : Streams}
    (number : error.number? ≠ some 2) (told : error.Tells reason) :
    Raises error (startFailed (program :: args) streams)
      (.shell (.commandNotFound program (some reason)))
  | invalid {failure : Action} {message : Text} (fails : failure.isFailure = true) :
    Raises (.invalid message) failure (.raised message)

theorem Raises.ofRefusal {error : OsError} {failure : Action} {fault : Fault}
    (raises : Raises error failure fault) : fault.OfRefusal := by
  cases raises with
  | invalid fails => exact .inr ⟨_, rfl⟩
  | _ => exact .inl ⟨_, rfl⟩

/-- What the shell makes of an error at a redirect is what the failure raises. -/
theorem raises_openFailed (error : OsError) (mode : OpenMode) (path : Text) :
    Raises error (openFailed mode path) (error.fault (.redirectFailed path error.reason)) := by
  rcases error.fault_cases (.redirectFailed path error.reason) with
    ⟨reported, fault⟩ | ⟨message, rfl, fault⟩
  · rw [fault]
    exact .redirect (OsError.tells_reason reported)
  · exact .invalid rfl

/-- What the shell makes of an error at the start of a process is what the failure raises. -/
theorem raises_startFailed (error : OsError) (program : Text) (args : List Text)
    (streams : Streams) :
    Raises error (startFailed (program :: args) streams)
      (error.fault
        (.commandNotFound program (if error.isNotFound then none else some error.reason))) := by
  rcases error.fault_cases
      (.commandNotFound program (if error.isNotFound then none else some error.reason)) with
    ⟨reported, fault⟩ | ⟨message, rfl, fault⟩
  · rw [fault]
    by_cases number : error.number? = some 2
    · rw [if_pos (error.isNotFound_iff.2 number)]
      exact .notFound number
    · rw [if_neg (mt error.isNotFound_iff.1 number)]
      exact .start number (OsError.tells_reason reported)
  · exact .invalid rfl

/-- The programs that were tried. -/
def programsTried (actions : List Action) : List Text := (attempts actions).filterMap List.head?

/-- What an action asked of the machine, if the actions `before` were done first. -/
def demand? (before : List Action) : Action → Option Demand
  | opened _ path _ | openFailed _ path => some (.opening path)
  | started _ (program :: _) _ | startFailed (program :: _) _ =>
    some (.start program ((programsTried before).count program))
  | _ => none

end Action

/-! ## Openings -/

namespace Opening

variable {s s' : Session} {redirects : List (Redirect × Text)}

theorem lookup_of_granted (granted : (of s redirects).refused = none) :
    ∀ redirect ∈ redirects, s.host.openErrors.lookup redirect.2 = none := by
  induction redirects generalizing s with
  | nil => simp
  | cons redirect rest ih =>
    obtain ⟨stream, path⟩ := redirect
    cases found : s.host.openErrors.lookup path with
    | some error => simp [of, found] at granted
    | none =>
      simp only [of, found] at granted
      rintro redirect member
      rcases List.mem_cons.1 member with rfl | member
      · exact found
      · exact ih granted redirect member

theorem lookup_of_refused {redirect : Redirect × Text} {error : OsError}
    (refused : (of s redirects).refused = some (redirect, error)) :
    s.host.openErrors.lookup redirect.2 = some error := by
  induction redirects generalizing s with
  | nil => simp [of] at refused
  | cons first rest ih =>
    obtain ⟨stream, path⟩ := first
    cases found : s.host.openErrors.lookup path with
    | some error' =>
      simp only [of, found, Option.some.injEq, Prod.mk.injEq] at refused
      obtain ⟨rfl, rfl⟩ := refused
      exact found
    | none =>
      simp only [of, found] at refused
      have inRest := ih refused
      exact inRest

/-- On a machine that grants the refused path the same files are opened, and then that one. -/
theorem files_of_spares {redirect : Redirect × Text} {error : OsError}
    (refused : (of s redirects).refused = some (redirect, error))
    (spares : s.host.Spares (.opening redirect.2) s'.host) :
    ∃ handle later, (of s' redirects).files.map OpenFile.opened =
      (of s redirects).files.map OpenFile.opened ++
        .opened redirect.1.mode redirect.2 handle :: later := by
  induction redirects generalizing s s' with
  | nil => simp [of] at refused
  | cons first rest ih =>
    obtain ⟨stream, path⟩ := first
    cases found : s.host.openErrors.lookup path with
    | some error' =>
      simp only [of, found, Option.some.injEq, Prod.mk.injEq] at refused
      obtain ⟨rfl, rfl⟩ := refused
      have granted : s'.host.openErrors.lookup path = none := spares.grants
      simp only [of, found, granted]
      exact ⟨_, _, rfl⟩
    | none =>
      simp only [of, found] at refused
      have other : Demand.opening redirect.2 ≠ .opening path := by
        intro same
        have absent := lookup_of_refused refused
        rw [Demand.opening.inj same] at absent
        exact absurd (found.symm.trans absent) (by simp)
      have granted : s'.host.openErrors.lookup path = none :=
        (spares.openings path other).trans found
      have after : (s.afterOpening 1).host.Spares (.opening redirect.2)
          (s'.afterOpening 1).host :=
        spares.congr rfl rfl rfl rfl (congrArg (· + 1) spares.opened) spares.started
      obtain ⟨handle, later, files⟩ := ih refused after
      refine ⟨handle, later, ?_⟩
      simp only [of, found, granted, List.map_cons, files, spares.opened, List.cons_append]

end Opening

/-! ## Stages -/

namespace Stage

theorem isFailure_attempt_iff (stage : Stage) :
    stage.attempt.isFailure = true ↔ stage.child? = none := by
  obtain ⟨link, carried, files, ending⟩ := stage
  cases ending <;> simp [attempt, child?, isFailure]

theorem exists_fault_of_child? {stage : Stage} (noChild : stage.child? = none) :
    ∃ fault, stage.launched = .error fault := by
  obtain ⟨link, carried, files, ending⟩ := stage
  cases ending with
  | started child => contradiction
  | _ => exact ⟨_, rfl⟩

theorem store_after (stage : Stage) (s : Session) : (stage.after s).store = s.store := by
  obtain ⟨link, carried, files, ending⟩ := stage
  cases piped : link.isPiped <;> cases ending <;>
    simp [after, afterLaunch, piped, Session.afterOpening]

/-- If a process started, all redirects had been granted. -/
theorem granted_of {link : Link} {carried : Option Handle} {s : Session} {child : Child}
    (process : (of link carried s).child? = some child) :
    (Opening.of s (link.invocation.openings carried)).refused = none := by
  cases refused : (Opening.of s (link.invocation.openings carried)).refused with
  | none => rfl
  | some refusal => simp [child?, of, refused] at process

/-- A failure comes right after the redirects were opened. -/
theorem cut_at_failure {stage : Stage} {inner rest : List Action} {failure : Action}
    (cut : stage.actions = inner ++ failure :: rest) (fails : failure.isFailure = true) :
    inner = stage.files.map OpenFile.opened ∧ failure = stage.attempt := by
  cases failure with
  | openFailed mode path =>
    rcases cut_at_opening cut rfl with ⟨⟨file, -, same⟩, -⟩ | place
    · contradiction
    · exact place
  | startFailed argv streams => exact stage.cut_at_attempt cut rfl
  | _ => contradiction

/-- An opening in a stage that goes on comes before its attempt. -/
theorem attempts_ne_nil_of_opening {stage : Stage} {inner rest : List Action} {action : Action}
    (goesOn : stage.verdict = none) (cut : stage.actions = inner ++ action :: rest)
    (opens : action.opening?.isSome) : attempts rest ≠ [] := by
  obtain ⟨child, process⟩ := exists_child_of_goesOn goesOn
  have start := attempt_of_child? process
  rcases cut_at_opening cut opens with ⟨⟨file, -, rfl⟩, silent⟩ | ⟨-, rfl⟩
  · have all := stage.attempts_actions
    have unopened : attempts (file.opened :: rest) = attempts rest := rfl
    rw [cut, attempts_append, silent, unopened, start] at all
    rw [List.nil_append] at all
    simp [all, attempt?]
  · rw [start] at opens
    contradiction

/-- A redirect that was refused: the error that the machine had for it, and the redirects of the
link up to it. -/
theorem refused_split {link : Link} {carried : Option Handle} {s : Session}
    {redirect : Redirect × Text} {error : OsError}
    (ending : (of link carried s).ending = .refused redirect error) :
    ∃ rest, link.invocation.openings carried =
      (of link carried s).files.map OpenFile.opening ++ redirect :: rest := by
  obtain ⟨rest, split⟩ := Opening.prefix_of s (link.invocation.openings carried)
  rw [refused_of ending, List.append_assoc] at split
  exact ⟨rest, split.symm⟩

/-- On a machine that grants what the stage asked for in vain, the stage gets further. -/
theorem mended {link : Link} {carried : Option Handle} {s s' : Session} {demand : Demand}
    (fails : (of link carried s).child? = none)
    (asked : (of link carried s).attempt.demand? [] = some demand)
    (spares : s.host.Spares demand s'.host) :
    ∃ success later, success.Mends (of link carried s).attempt ∧
      (of link carried s').actions =
        (of link carried s).files.map OpenFile.opened ++ success :: later := by
  cases ending : (of link carried s).ending with
  | started child => simp [child?, ending] at fails
  | refused redirect error =>
    have attempt : (of link carried s).attempt = .openFailed redirect.1.mode redirect.2 := by
      rw [Stage.attempt, ending]
    rw [attempt] at asked ⊢
    obtain rfl : .opening redirect.2 = demand := Option.some.inj asked
    obtain ⟨handle, later, files⟩ := Opening.files_of_spares (refused_of ending) spares
    have files' : (of link carried s').files.map OpenFile.opened = _ := files
    have whole := (of link carried s').actions_split
    rw [files', List.append_assoc, List.cons_append] at whole
    exact ⟨_, _, .opening _ _ handle, whole⟩
  | failed error =>
    have attempt : (of link carried s).attempt =
        .startFailed link.invocation.argv (of link carried s).streams := by
      rw [Stage.attempt, ending]
      rfl
    rw [attempt] at asked ⊢
    obtain rfl : .start link.invocation.executable 0 = demand := Option.some.inj asked
    obtain ⟨returnCode, polls, interrupts, starts⟩ := spares.grants
    rw [Host.outcomeAt_zero] at starts
    have opening : Opening.of s' (link.invocation.openings carried) =
        Opening.of s (link.invocation.openings carried) :=
      Opening.of_congr spares.opened fun redirect _ => spares.openings redirect.2 (by simp)
    have files : (of link carried s').files = (of link carried s).files :=
      congrArg Opening.files opening
    have attempt' : (of link carried s').attempt =
        .started (s'.host.started + 1) link.invocation.argv (of link carried s).streams := by
      have ending' : (of link carried s').ending =
          .started ⟨s'.host.started + 1, returnCode, polls, interrupts⟩ := by
        simp only [of, opening, (failed_of ending).2, starts]
      rw [Stage.attempt, ending', Stage.streams, Stage.streams, files]
      rfl
    have whole := (of link carried s').actions_split
    rw [files, attempt'] at whole
    exact ⟨_, _, .start _ _ _, whole⟩

end Stage

namespace Chain

variable {chain : Chain} {s : Session} {earlier later : List Stage} {stage : Stage}

/-! ## What the stages before a failure asked for -/

/-- As long as every process starts, each attempt of a run is that of the next stage. -/
theorem attempts_of_goOn {stages : List Stage} (goOn : ∀ stage ∈ stages, stage.verdict = none) :
    attempts (stages.flatMap Stage.actions) =
      stages.map fun stage => stage.link.invocation.argv := by
  induction stages with
  | nil => rfl
  | cons stage rest ih =>
    obtain ⟨child, process⟩ := Stage.exists_child_of_goesOn (goOn stage List.mem_cons_self)
    have later := ih fun stage member => goOn stage (List.mem_cons_of_mem _ member)
    rw [List.flatMap_cons, attempts_append, Stage.attempts_actions,
      Stage.attempt_of_child? process, later]
    rfl

theorem programsTried_of_goOn {stages : List Stage}
    (goOn : ∀ stage ∈ stages, stage.verdict = none) :
    programsTried (stages.flatMap Stage.actions) = stages.map Stage.program := by
  rw [programsTried, attempts_of_goOn goOn, List.filterMap_map]
  exact congrFun List.filterMap_eq_map stages

/-- The stages of a run that goes on do not ask for a path that the machine refuses. -/
theorem pass_opening {carried : Option Handle} {path : Text} {error : OsError}
    (cut : stagesFrom carried chain s = earlier ++ stage :: later)
    (refused : s.host.openErrors.lookup path = some error) :
    Stage.Pass (.opening path) earlier := by
  induction earlier generalizing carried chain s with
  | nil => trivial
  | cons first earlier ih =>
    cases chain with
    | nil => simp [stagesFrom] at cut
    | cons link rest =>
      rw [stagesFrom] at cut
      cases ended : (Stage.of link carried s).verdict with
      | some result => simp [ended] at cut
      | none =>
        simp only [ended, List.cons_append, List.cons.injEq] at cut
        obtain ⟨rfl, cut⟩ := cut
        have refused' : ((Stage.of link carried s).after s).host.openErrors.lookup path =
            some error := by rw [Stage.openErrors_after, refused]
        refine ⟨?_, by simp, ih cut refused'⟩
        rintro redirect member same
        obtain ⟨child, process⟩ := Stage.exists_child_of_goesOn ended
        have granted := Opening.lookup_of_granted (Stage.granted_of process) redirect member
        rw [← Demand.opening.inj same, refused] at granted
        contradiction

/-- A program that was tried so many times before is asked for then, and not earlier. -/
theorem pass_start (program : Text) (stages : List Stage) :
    let count := (stages.map Stage.program).count program
    Stage.Pass (.start program count) stages ∧
      (Demand.start program count).afterStages stages = .start program 0 := by
  induction stages with
  | nil => exact ⟨trivial, rfl⟩
  | cons stage rest ih =>
    intro count
    have after : (Demand.start program count).after stage.program =
        .start program ((rest.map Stage.program).count program) := by
      by_cases here : program = stage.program
      · simp [count, Demand.after, here]
      · have there : stage.program ≠ program := fun same => here same.symm
        simp [count, Demand.after, here, List.count_cons_of_ne there]
    refine ⟨⟨by simp, ?_, ?_⟩, ?_⟩
    · intro same
      obtain ⟨rfl, first⟩ := Demand.start.inj same
      simp [count] at first
    · rw [after]
      exact ih.1
    · rw [Demand.afterStages, List.foldl_cons, after]
      exact ih.2

theorem afterStages_opening (path : Text) (stages : List Stage) :
    (Demand.opening path).afterStages stages = .opening path := by
  induction stages with
  | nil => rfl
  | cons stage rest ih => exact ih

theorem openErrors_sessionAfter (s : Session) (stages : List Stage) :
    (sessionAfter s stages).host.openErrors = s.host.openErrors := by
  induction stages generalizing s with
  | nil => rfl
  | cons stage rest ih => exact (ih (stage.after s)).trans (stage.openErrors_after s)

theorem store_sessionAfter (s : Session) (stages : List Stage) :
    (sessionAfter s stages).store = s.store := by
  induction stages generalizing s with
  | nil => rfl
  | cons stage rest ih => exact (ih (stage.after s)).trans (stage.store_after s)

theorem outcomeAt_sessionAfter {stages : List Stage}
    (goOn : ∀ stage ∈ stages, stage.verdict = none) (s : Session) (program : Text) (n : Nat) :
    (sessionAfter s stages).host.outcomeAt program n =
      s.host.outcomeAt program (n + (stages.map Stage.program).count program) := by
  induction stages generalizing s with
  | nil => rfl
  | cons stage rest ih =>
    obtain ⟨child, process⟩ := Stage.exists_child_of_goesOn (goOn stage List.mem_cons_self)
    have goOn' : ∀ stage ∈ rest, stage.verdict = none :=
      fun stage member => goOn stage (List.mem_cons_of_mem _ member)
    have later := ih goOn' (stage.after s)
    have here : ∀ n, (stage.after s).host.outcomeAt program n =
        (s.host.attempted stage.program).outcomeAt program n := by
      intro n
      rw [Host.outcomeAt, Host.outcomeAt, Stage.programs_after process, Stage.program]
    rw [sessionAfter, List.foldl_cons]
    refine later.trans ?_
    rw [here, Host.outcomeAt_attempted, List.map_cons]
    by_cases same : program = stage.program
    · subst same
      simp [Nat.add_assoc]
    · have other : stage.program ≠ program := fun eq => same eq.symm
      rw [if_neg same, List.count_cons_of_ne other]

/-! ## The failure of a run -/

/-- The failure is that of a link, and the files were opened for it just before. -/
structure FailsFor (chain : Chain) (link : Link) (files : List OpenFile) (before : List Action)
    (failure : Action) : Prop where
  atPlace : chain[(attempts before).length]? = some link
  /-- Whatever was opened earlier was opened for an earlier link. -/
  opened : ∃ earlier, before = earlier ++ files.map OpenFile.opened ∧
    ∀ first action rest, earlier = first ++ action :: rest → action.opening?.isSome →
      attempts rest ≠ []
  /-- The redirects were opened in order, the input not if the link is fed, up to the one that was
  refused, or all of them. -/
  inOrder : ∃ carried : Option Handle, (carried.isSome ↔ chain.FedAt (attempts before).length) ∧
    (∀ mode path, failure = .openFailed mode path → ∃ stream rest, stream.mode = mode ∧
      link.invocation.openings carried = files.map OpenFile.opening ++ (stream, path) :: rest) ∧
    ∀ argv streams, failure = .startFailed argv streams → argv = link.invocation.argv ∧
      link.invocation.openings carried = files.map OpenFile.opening

/-- How a run fails at one of its actions. -/
structure FailsAt (chain : Chain) (s : Session) (before : List Action) (failure : Action)
    (after : List Action) : Prop where
  /-- Nothing but closing follows. -/
  closing : ∀ action ∈ after, ∃ handle, action = .closed handle
  atLink : ∃ link files, chain.FailsFor link files before failure
  /-- The chain ends with the error of the machine. -/
  error : ∃ demand error fault, failure.demand? before = some demand ∧
    s.host.Refuses error demand ∧ failure.Raises error fault ∧
      (chain.run s).result = .error fault
  /-- The machine could have granted what was asked for. -/
  mendable : ∃ demand host, failure.demand? before = some demand ∧ s.host.Spares demand host
  /-- Then the run had done the same before, and succeeded here. -/
  mended : ∀ demand host, failure.demand? before = some demand → s.host.Spares demand host →
    ∃ success later, success.Mends failure ∧
      (chain.run { s with host }).actions = before ++ success :: later

theorem exists_stage_of_error {stages : List Stage} {fault : Fault}
    (ended : resultOf stages = .error fault) :
    ∃ stage ∈ stages, stage.verdict = some (.error fault) := by
  rw [resultOf] at ended
  cases last : stages.getLast? with
  | none => simp [last] at ended
  | some stage =>
    refine ⟨stage, List.mem_of_getLast? last, ?_⟩
    rw [last, Option.bind_some] at ended
    cases verdict : stage.verdict with
    | none => simp [verdict] at ended
    | some result =>
      rw [verdict] at ended
      exact congrArg some ended

/-- A failure of a run is that of its last stage. -/
theorem exists_stage_of_failure {before after : List Action} {failure : Action}
    (cut : (chain.run s).actions = before ++ failure :: after) (fails : failure.isFailure = true) :
    ∃ earlier stage, chain.stages s = earlier ++ [stage] ∧ stage.child? = none ∧
      before = earlier.flatMap Stage.actions ++ stage.files.map OpenFile.opened ∧
      failure = stage.attempt ∧ after = stage.closing.map .closed := by
  have open_ : failure.released? = none := by cases failure <;> first | rfl | contradiction
  obtain ⟨earlier, stage, later, inner, rest, place, rfl, inside⟩ := exists_stage_of_cut cut open_
  obtain ⟨rfl, rfl⟩ := Stage.cut_at_failure inside fails
  have noChild := stage.isFailure_attempt_iff.1 fails
  obtain ⟨fault, launched⟩ := Stage.exists_fault_of_child? noChild
  obtain ⟨verdict, noPipe, -, -⟩ := Stage.of_fault launched s
  obtain rfl : later = [] := by
    cases later with
    | nil => rfl
    | cons next later =>
      have further : chain.stages s = (earlier ++ [stage]) ++ next :: later := by rw [place]; simp
      have goesOn := (stagesFrom_cut further).1 stage (by simp)
      rw [verdict] at goesOn
      contradiction
  refine ⟨earlier, stage, place, noChild, rfl, rfl, ?_⟩
  have nothingCarried : carriedAfter none (earlier ++ [stage]) = none := by
    simp [carriedAfter, noPipe]
  have noWait : stage.waiting = [] := by simp [Stage.waiting, noChild]
  rw [run_eq, place, nothingCarried, List.flatMap_append, List.flatMap_singleton,
    Stage.actions_split, noWait] at cut
  simpa using cut.symm

/-- What the failed stage asked for: none of the stages before it did, the machine refuses it, and
the chain ends with that error. -/
theorem demand_of_failure (place : chain.stages s = earlier ++ [stage])
    (noChild : stage.child? = none) :
    ∃ demand error fault,
      stage.attempt.demand? (earlier.flatMap Stage.actions ++ stage.files.map OpenFile.opened) =
        some demand ∧
      Stage.Pass demand earlier ∧ stage.attempt.demand? [] = some (demand.afterStages earlier) ∧
      s.host.Refuses error demand ∧ stage.attempt.Raises error fault ∧
      stage.launched = .error fault := by
  obtain ⟨goOn, -, met⟩ := stagesFrom_cut place
  have tried : programsTried (earlier.flatMap Stage.actions ++ stage.files.map OpenFile.opened) =
      earlier.map Stage.program := by
    rw [← programsTried_of_goOn goOn, programsTried, programsTried, attempts_append,
      OpenFile.attempts_map_opened, List.append_nil]
  cases ending : stage.ending with
  | started child => simp [Stage.child?, ending] at noChild
  | refused redirect error =>
    have attempt : stage.attempt = .openFailed redirect.1.mode redirect.2 := by
      rw [Stage.attempt, ending]
    have refused : s.host.openErrors.lookup redirect.2 = some error := by
      rw [met] at ending
      rw [← openErrors_sessionAfter s earlier]
      exact Opening.lookup_of_refused (Stage.refused_of ending)
    refine ⟨.opening redirect.2, error, error.fault (.redirectFailed redirect.2 error.reason), ?_,
      pass_opening place refused, ?_, refused, ?_, ?_⟩
    · rw [attempt]
      rfl
    · rw [attempt, afterStages_opening]
      rfl
    · rw [attempt]
      exact raises_openFailed error _ _
    · simp only [Stage.launched, ending]
  | failed error =>
    let invocation := stage.link.invocation
    have attempt : stage.attempt =
        .startFailed (invocation.executable :: invocation.args) stage.streams := by
      rw [Stage.attempt, ending]
      rfl
    obtain ⟨pass, after⟩ := pass_start invocation.executable earlier
    refine ⟨.start invocation.executable
        ((earlier.map Stage.program).count invocation.executable),
      error, error.fault (.commandNotFound invocation.executable
        (if error.isNotFound then none else some error.reason)), ?_, pass, ?_, ?_, ?_, ?_⟩
    · rw [attempt, demand?, tried]
    · rw [attempt, after]
      rfl
    · rw [met] at ending
      have fails := (Stage.failed_of ending).1
      rw [← Host.outcomeAt_zero, outcomeAt_sessionAfter goOn, Nat.zero_add] at fails
      exact fails
    · rw [attempt]
      exact raises_startFailed error _ _ _
    · simp only [Stage.launched, ending]
      rfl

theorem failsFor_of_failure (place : chain.stages s = earlier ++ [stage]) :
    chain.FailsFor stage.link stage.files
      (earlier.flatMap Stage.actions ++ stage.files.map OpenFile.opened) stage.attempt := by
  obtain ⟨goOn, atPlace, met⟩ := stagesFrom_cut place
  have count : (attempts (earlier.flatMap Stage.actions ++
      stage.files.map OpenFile.opened)).length = earlier.length := by
    rw [attempts_append, OpenFile.attempts_map_opened, List.append_nil,
      length_attempts_of_cut place]
  have taken : stage.carried = carriedAfter none earlier := congrArg Stage.carried met
  refine ⟨by rw [count]; exact atPlace, ⟨_, rfl, ?_⟩, stage.carried, ?_, ?_, ?_⟩
  · intro first action rest cut opens
    obtain ⟨before, part, later, inner, tail, rfl, rfl, inside⟩ := exists_part_of_flatMap cut
    have goesOn := goOn part (by simp)
    have some := Stage.attempts_ne_nil_of_opening goesOn inside opens
    rw [List.flatMap_append, List.flatMap_cons, inside] at cut
    simp only [List.append_assoc, List.cons_append, List.append_cancel_left_eq, List.cons.injEq,
      true_and] at cut
    rw [← cut, attempts_append]
    simp [some]
  · rw [count]
    rcases carried_of_cut place with ⟨fed, previous, pid, -, -, carried⟩ | ⟨unfed, carried⟩
    · simp [carried, fed]
    · simp [carried, unfed]
  · intro mode path failure
    have opens : stage.attempt.opening? = some (mode, path) := by rw [failure]; rfl
    obtain ⟨stream, error, refused, isMode⟩ := Stage.refused_of_opening?_attempt opens
    rw [met] at refused ⊢
    obtain ⟨rest, split⟩ := Stage.refused_split refused
    exact ⟨stream, rest, isMode, split⟩
  · intro argv streams failure
    refine ⟨(Stage.command?_attempt (by rw [failure]; rfl)).1, ?_⟩
    rw [met] at failure ⊢
    have tries : (Stage.of stage.link (carriedAfter none earlier)
        (sessionAfter s earlier)).attempt.attempt?.isSome := by rw [failure]; rfl
    exact (Stage.map_opening_of_attempt tries).symm

theorem failsAt_of_failure {before after : List Action} {failure : Action}
    (cut : (chain.run s).actions = before ++ failure :: after) (fails : failure.isFailure = true) :
    FailsAt chain s before failure after := by
  obtain ⟨earlier, stage, place, noChild, rfl, rfl, rfl⟩ := exists_stage_of_failure cut fails
  obtain ⟨demand, error, fault, asked, pass, askedThere, refused, raises, launched⟩ :=
    demand_of_failure place noChild
  have result : (chain.run s).result = .error fault := by
    have verdict := (Stage.of_fault launched s).1
    rw [run_eq, place]
    simp [resultOf, verdict]
  obtain ⟨host, spared⟩ := s.host.exists_spares demand
  refine ⟨?_, ⟨_, _, failsFor_of_failure place⟩, ⟨_, _, _, asked, refused, raises, result⟩,
    ⟨demand, host, asked, spared⟩, ?_⟩
  · intro action member
    obtain ⟨handle, -, rfl⟩ := List.mem_map.1 member
    exact ⟨handle, rfl⟩
  · intro demand' host asked' spares
    obtain rfl : demand = demand' := Option.some.inj (asked.symm.trans asked')
    let s' : Session := { s with host }
    obtain ⟨spares', later', stages⟩ :=
      stagesFrom_spares place pass (show s.host.Spares demand s'.host from spares)
    obtain ⟨-, -, met⟩ := stagesFrom_cut place
    rw [met] at noChild askedThere
    obtain ⟨success, later, mends, actions⟩ := Stage.mended noChild askedThere spares'
    have taken : stage.carried = carriedAfter none earlier := congrArg Stage.carried met
    rw [← met] at mends actions
    have stages' : chain.stages s' = _ := stages
    have whole := congrArg Ended.actions (run_eq chain s')
    rw [stages', List.flatMap_append, List.flatMap_cons, taken, actions] at whole
    simp only [List.append_assoc, List.cons_append] at whole
    exact ⟨success, _, mends, whole.trans (List.append_assoc _ _ _).symm⟩

/-- A command that the machine does not take ends the chain with what came of it. -/
example :
    let name : Text := ['\x00']
    let message : Text := "embedded null byte".toList
    let s : Session := { host := { programs := [(name, [.fails (.invalid message)])] } }
    (run [⟨{ executable := name }, none⟩] s).result = .error (.raised message) := rfl

end Chain

end ChainShell
