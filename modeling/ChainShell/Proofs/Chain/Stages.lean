/-
# ChainShell.Proofs.Chain.Stages — the run of a chain, link by link

A run meets the links of a chain in order and makes a stage of each (`Stage`): which pipe
was carried to it, which redirects were opened, and how far starting it came.  A stage
knows what was done for it (`actions`), which pipe it hands on (`pipe?`), and whether the
chain ended there and how (`verdict`).  `stagesFrom` lists the stages of a run, and

* `run_eq`: the result of a run is the verdict of its last stage, or success if no stage
  has one, and its actions are those of the stages one after the other, followed by the
  closing of a pipe that nobody took;
* `stagesFrom_cut`: each stage is that of the link at its place, met with what the stages
  before it left, none of which ended the chain.

Facts about runs are proved from these two, without opening an activity again.
-/
import ChainShell.Proofs.Chain.Launch
import ChainShell.Proofs.Trace

set_option autoImplicit false

namespace ChainShell

/-- Whether the output of a link's process goes into a pipe. -/
def Link.isPiped (l : Link) : Bool := l.operator = some .pipe

/-- How far starting an invocation came. -/
inductive Ending where
  | refused (redirect : Redirect × Text) (error : OsError)
  | failed (error : OsError)
  | started (child : Child)
  deriving DecidableEq, Repr

/-- One link of a chain as a run met it. -/
structure Stage where
  link : Link
  /-- The pipe that the link before handed on. -/
  carried : Option Handle
  /-- The redirects that were opened. -/
  files : List OpenFile
  ending : Ending
  deriving DecidableEq, Repr

/-- The session without the children that have ended. -/
def Session.reaped (s : Session) : Session :=
  { s with
    children := s.children.filterMap fun child =>
      if child.polls = 0 then none else some { child with polls := child.polls - 1 } }

namespace Stage

def of (link : Link) (carried : Option Handle) (s : Session) : Stage where
  link
  carried
  files := (Opening.of s (link.invocation.openings carried)).files
  ending :=
    match (Opening.of s (link.invocation.openings carried)).refused with
    | some (redirect, error) => .refused redirect error
    | none =>
      match s.host.outcome link.invocation.executable with
      | .fails error => .failed error
      | .starts returnCode polls interrupts =>
        .started ⟨s.host.started + 1, returnCode, polls, interrupts⟩

def streams (stage : Stage) : Streams := .of stage.carried stage.link.isPiped stage.files

/-- The attempt to start the process, or the redirect that kept it from being made. -/
def attempt (stage : Stage) : Action :=
  match stage.ending with
  | .refused redirect _ => .openFailed redirect.1.mode redirect.2
  | .failed _ => .startFailed stage.link.invocation.argv stage.streams
  | .started child => .started child.pid stage.link.invocation.argv stage.streams

/-- The handles that starting the invocation took, in the order in which they are closed. -/
def closing (stage : Stage) : List Handle :=
  (stage.files.map OpenFile.handle).reverse ++ stage.carried.toList

def launchActions (stage : Stage) : List Action :=
  stage.files.map OpenFile.opened ++ stage.attempt :: stage.closing.map .closed

def launched (stage : Stage) : Except Fault Child :=
  match stage.ending with
  | .refused redirect error => .error (error.fault (.redirectFailed redirect.2 error.reason))
  | .failed error =>
    .error (error.fault (.commandNotFound stage.link.invocation.executable
      (if error.isNotFound then none else some error.reason)))
  | .started child => .ok child

def child? (stage : Stage) : Option Child :=
  match stage.ending with
  | .started child => some child
  | _ => none

/-- The pipe that is carried to the next link. -/
def pipe? (stage : Stage) : Option Handle :=
  if stage.link.isPiped then stage.child?.map fun child => .pipe child.pid else none

def waiting (stage : Stage) : List Action :=
  if stage.link.isPiped then []
  else (stage.child?.map (Activity.waitActions Activity.interruptsAbsorbed)).getD []

def actions (stage : Stage) : List Action := stage.launchActions ++ stage.waiting

/-- How the chain ended with the link, if it did. -/
def verdict (stage : Stage) : Option (Except Fault Status) :=
  match stage.launched with
  | .error fault => some (.error fault)
  | .ok child =>
    if stage.link.isPiped then none
    else if child.interrupts ≤ Activity.interruptsAbsorbed then
      let status := Status.ofReturnCode child.returnCode
      if Link.endsChain stage.link.operator status then some (.ok status) else none
    else some (.error .interrupted)

/-- The session after the invocation was started, or not. -/
def afterLaunch (stage : Stage) (s : Session) : Session :=
  let opened := s.afterOpening stage.files.length
  let attempted := opened.host.attempted stage.link.invocation.executable
  match stage.ending with
  | .refused .. => opened
  | .failed _ => { opened with host := attempted }
  | .started _ => { opened with host := { attempted with started := s.host.started + 1 } }

/-- The session after the link; a process that is left running is a child of it. -/
def after (stage : Stage) (s : Session) : Session :=
  if stage.link.isPiped then
    { stage.afterLaunch s with
      children := (stage.afterLaunch s).children ++ stage.child?.toList }
  else stage.afterLaunch s

end Stage

open Activity

/-- Starting the invocation of a link does what its stage says. -/
theorem Stage.launch_apply (link : Link) (carried : Option Handle) (s : Session) :
    link.invocation.launch carried link.isPiped s =
      let stage := Stage.of link carried s
      ⟨stage.launched, stage.afterLaunch s, stage.launchActions⟩ := by
  rw [Invocation.launch_eq, ensuring_apply]
  cases refused : (Opening.of s (link.invocation.openings carried)).refused with
  | some refusal =>
    obtain ⟨⟨stream, path⟩, error⟩ := refusal
    simp only [withRedirects_of_refused _ _ _ refused, closeAny_apply, Except.bind]
    simp [of, refused, launched, afterLaunch, launchActions, attempt, closing]
  | none =>
    simp only [withRedirects_of_granted _ _ _ refused, closeAny_apply, Except.bind]
    let files := (Opening.of s (link.invocation.openings carried)).files
    cases outcome : s.host.outcome link.invocation.executable with
    | fails error =>
      have fails := start_of_fails (s := s.afterOpening files.length) outcome
      simp only [files] at fails
      simp only [fails]
      simp [of, refused, outcome, launched, afterLaunch, launchActions, attempt, closing, streams,
        Invocation.argv]
    | starts returnCode polls interrupts =>
      have starts := start_of_starts (s := s.afterOpening files.length) outcome
      simp only [files] at starts
      simp only [starts]
      simp [of, refused, outcome, launched, afterLaunch, launchActions, attempt, closing, streams,
        Invocation.argv, Session.afterOpening]

namespace Stage

section

variable {stage : Stage}

theorem child?_of_launched {child : Child} (started : stage.launched = .ok child) :
    stage.child? = some child := by
  obtain ⟨link, carried, files, ending⟩ := stage
  cases ending with
  | started child' =>
    obtain rfl := Except.ok.inj started
    rfl
  | _ => contradiction

theorem launched_of_child? {child : Child} (process : stage.child? = some child) :
    stage.launched = .ok child := by
  obtain ⟨link, carried, files, ending⟩ := stage
  cases ending with
  | started child' =>
    obtain rfl := Option.some.inj process
    rfl
  | _ => contradiction

theorem child?_of_fault {fault : Fault} (failed : stage.launched = .error fault) :
    stage.child? = none := by
  obtain ⟨link, carried, files, ending⟩ := stage
  cases ending with
  | started child => contradiction
  | _ => rfl

/-- The redirects are opened, the attempt is made, and then handles are closed and waits made. -/
theorem actions_split (stage : Stage) :
    stage.actions = stage.files.map OpenFile.opened ++
      stage.attempt :: (stage.closing.map .closed ++ stage.waiting) := by
  rw [actions, launchActions, List.append_assoc, List.cons_append]

/-- If the process did not start, the chain ends, and nothing more is done. -/
theorem of_fault {fault : Fault} (failed : stage.launched = .error fault) (s : Session) :
    stage.verdict = some (.error fault) ∧ stage.pipe? = none ∧
      stage.actions = stage.launchActions ∧ stage.after s = stage.afterLaunch s := by
  have noChild := child?_of_fault failed
  refine ⟨?_, ?_, ?_, ?_⟩
  · rw [verdict, failed]
  · simp [pipe?, noChild]
  · simp [actions, waiting, noChild]
  · simp [after, noChild]

/-- If the output of the process is piped, the process is left running, and the chain goes on. -/
theorem of_piped {child : Child} (started : stage.launched = .ok child)
    (piped : stage.link.isPiped = true) (s : Session) :
    stage.verdict = none ∧ stage.pipe? = some (.pipe child.pid) ∧
      stage.actions = stage.launchActions ∧
      stage.after s = { stage.afterLaunch s with
        children := (stage.afterLaunch s).children ++ [child] } := by
  have process := child?_of_launched started
  refine ⟨?_, ?_, ?_, ?_⟩
  · simp only [verdict, started, if_pos piped]
  · simp [pipe?, process, piped]
  · simp [actions, waiting, piped]
  · simp [after, process, piped]

/-- If the output of the process is not piped, the process is waited for, and decides. -/
theorem of_unpiped {child : Child} (started : stage.launched = .ok child)
    (unpiped : stage.link.isPiped = false) (s : Session) :
    (stage.verdict =
      if child.interrupts ≤ interruptsAbsorbed then
        let status := Status.ofReturnCode child.returnCode
        if Link.endsChain stage.link.operator status then some (.ok status) else none
      else some (.error .interrupted)) ∧
      stage.pipe? = none ∧
      stage.actions = stage.launchActions ++ waitActions interruptsAbsorbed child ∧
      stage.after s = stage.afterLaunch s := by
  have process := child?_of_launched started
  refine ⟨?_, ?_, ?_, ?_⟩
  · simp [verdict, started, unpiped]
  · simp [pipe?, unpiped]
  · simp [actions, waiting, process, unpiped]
  · simp [after, unpiped]

/-- The chain goes on only if the process started. -/
theorem exists_child_of_goesOn (goesOn : stage.verdict = none) :
    ∃ child, stage.child? = some child := by
  cases launched : stage.launched with
  | ok child => exact ⟨child, child?_of_launched launched⟩
  | error fault =>
    rw [verdict, launched] at goesOn
    contradiction

/-- A wait that is not given up is interrupted no more often than the shell puts up with. -/
theorem patient_of_verdict {child : Child} (process : stage.child? = some child)
    (unpiped : stage.link.isPiped = false) (heldOut : stage.verdict ≠ some (.error .interrupted)) :
    child.interrupts ≤ interruptsAbsorbed := by
  refine Decidable.byContradiction fun impatient => heldOut ?_
  simp [verdict, launched_of_child? process, unpiped, impatient]

/-- A stage ends the chain with a fault if its process did not start, or if its wait was given
up. -/
theorem verdict_error_cases {fault : Fault} (ended : stage.verdict = some (.error fault)) :
    stage.launched = .error fault ∨
      fault = .interrupted ∧
        ∃ child, stage.child? = some child ∧ interruptsAbsorbed < child.interrupts := by
  cases launched : stage.launched with
  | error other =>
    rw [verdict, launched] at ended
    exact .inl (congrArg Except.error (Except.error.inj (Option.some.inj ended)))
  | ok child =>
    cases piped : stage.link.isPiped with
    | true => simp [verdict, launched, piped] at ended
    | false =>
      by_cases patient : child.interrupts ≤ interruptsAbsorbed
      · simp only [verdict, launched, piped, patient, if_true, Bool.false_eq_true,
          if_false] at ended
        split at ended <;> simp at ended
      · obtain rfl : Fault.interrupted = fault := by
          simpa [verdict, launched, piped, patient] using ended
        exact .inr ⟨rfl, child, child?_of_launched launched, Nat.lt_of_not_le patient⟩

/-- A stage that ends the chain hands no pipe on. -/
theorem pipe?_of_verdict {result : Except Fault Status} (ended : stage.verdict = some result) :
    stage.pipe? = none := by
  cases launched : stage.launched with
  | error fault => simp [pipe?, child?_of_fault launched]
  | ok child =>
    cases piped : stage.link.isPiped with
    | false => simp [pipe?, piped]
    | true => simp [verdict, launched, piped] at ended

end

/-- A process starts by the next outcome of its program, and under the next number. -/
theorem started_of {link : Link} {carried : Option Handle} {s : Session} {child : Child}
    (process : (of link carried s).child? = some child) :
    s.host.outcome link.invocation.executable =
        .starts child.returnCode child.polls child.interrupts ∧
      child.pid = s.host.started + 1 := by
  unfold child? at process
  split at process
  · rename_i child' ending
    obtain rfl := Option.some.inj process
    simp only [of] at ending
    split at ending
    · contradiction
    · split at ending
      · contradiction
      · rename_i outcome
        obtain rfl := Ending.started.inj ending
        exact ⟨outcome, rfl⟩
  · contradiction

theorem pid_of {link : Link} {carried : Option Handle} {s : Session} {child : Child}
    (process : (of link carried s).child? = some child) : child.pid = s.host.started + 1 :=
  (started_of process).2

/-- A start that fails does so by the next outcome of the program. -/
theorem failed_of {link : Link} {carried : Option Handle} {s : Session} {error : OsError}
    (ending : (of link carried s).ending = .failed error) :
    s.host.outcome link.invocation.executable = .fails error ∧
      (Opening.of s (link.invocation.openings carried)).refused = none := by
  simp only [of] at ending
  split at ending
  · contradiction
  · rename_i granted
    split at ending
    · rename_i outcome
      obtain rfl := Ending.failed.inj ending
      exact ⟨outcome, granted⟩
    · contradiction

theorem refused_of {link : Link} {carried : Option Handle} {s : Session}
    {redirect : Redirect × Text} {error : OsError}
    (ending : (of link carried s).ending = .refused redirect error) :
    (Opening.of s (link.invocation.openings carried)).refused = some (redirect, error) := by
  simp only [of] at ending
  split at ending
  · rename_i refused
    obtain ⟨rfl, rfl⟩ := Ending.refused.inj ending
    exact refused
  · split at ending <;> contradiction

theorem opened_after (stage : Stage) (s : Session) :
    (stage.after s).host.opened = s.host.opened + stage.files.length := by
  obtain ⟨link, carried, files, ending⟩ := stage
  cases piped : link.isPiped <;> cases ending <;>
    simp [after, afterLaunch, piped, Session.afterOpening, Host.attempted]

theorem started_after (stage : Stage) (s : Session) :
    (stage.after s).host.started = s.host.started + stage.child?.toList.length := by
  obtain ⟨link, carried, files, ending⟩ := stage
  cases piped : link.isPiped <;> cases ending <;>
    simp [after, afterLaunch, piped, child?, Session.afterOpening, Host.attempted]

theorem openErrors_after (stage : Stage) (s : Session) :
    (stage.after s).host.openErrors = s.host.openErrors := by
  obtain ⟨link, carried, files, ending⟩ := stage
  cases piped : link.isPiped <;> cases ending <;>
    simp [after, afterLaunch, piped, Session.afterOpening, Host.attempted]

/-- What an attempt keeps of a machine, and counting files and processes does, a stage keeps. -/
theorem host_after {P : Host → Prop} (attempted : ∀ h program, P h → P (h.attempted program))
    (counted : ∀ h opened started, P h → P { h with opened, started }) {s : Session}
    (holds : P s.host) (stage : Stage) : P (stage.after s).host := by
  have opened : P (s.afterOpening stage.files.length).host := counted _ _ _ holds
  have tried := attempted _ stage.link.invocation.executable opened
  have launched : P (stage.afterLaunch s).host := by
    obtain ⟨link, carried, files, ending⟩ := stage
    cases ending with
    | refused redirect error => exact opened
    | failed error => exact tried
    | started child => exact counted _ _ _ tried
  rw [after]
  split
  · exact launched
  · exact launched

theorem programs_after {stage : Stage} {child : Child} (started : stage.child? = some child)
    (s : Session) :
    (stage.after s).host.programs =
      (s.host.attempted stage.link.invocation.executable).programs := by
  obtain ⟨link, carried, files, ending⟩ := stage
  cases ending with
  | started child =>
    cases piped : link.isPiped <;>
      simp [after, afterLaunch, piped, Session.afterOpening, Host.attempted]
  | _ => contradiction

end Stage

namespace Chain

/-! ## One link -/

section

variable {carried : Option Handle} {link : Link} {s after : Session} {actions : List Action}

theorem runLinks_of_fault {fault : Fault}
    (launch : link.invocation.launch carried link.isPiped s = ⟨.error fault, after, actions⟩)
    (rest : Chain) : runLinks carried (link :: rest) s = ⟨.error fault, after, actions⟩ := by
  by_cases operator : link.operator = some .pipe
  · have piped : link.isPiped = true := by simp [Link.isPiped, operator]
    rw [piped] at launch
    rw [runLinks, if_pos operator, bind_apply_of_error (congrArg Ended.result launch), launch]
  · have piped : link.isPiped = false := by simp [Link.isPiped, operator]
    rw [piped] at launch
    rw [runLinks, if_neg operator, bind_apply_of_error (congrArg Ended.result launch), launch]

theorem runLinks_of_piped {child : Child} (piped : link.isPiped = true)
    (launch : link.invocation.launch carried link.isPiped s = ⟨.ok child, after, actions⟩)
    (rest : Chain) :
    runLinks carried (link :: rest) s =
      let later := runLinks (some (.pipe child.pid)) rest
        { after with children := after.children ++ [child] }
      ⟨later.result, later.session, actions ++ later.actions⟩ := by
  have operator : link.operator = some .pipe := by simpa [Link.isPiped] using piped
  have adopted : adopt child after =
      ⟨.ok (), { after with children := after.children ++ [child] }, []⟩ := rfl
  rw [piped] at launch
  rw [runLinks, if_pos operator, bind_apply_of_ok (congrArg Ended.result launch), launch]
  simp only [bind_apply_of_ok (congrArg Ended.result adopted), adopted, List.nil_append]

theorem runLinks_of_waited {child : Child} (unpiped : link.isPiped = false)
    (launch : link.invocation.launch carried link.isPiped s = ⟨.ok child, after, actions⟩)
    (patient : child.interrupts ≤ interruptsAbsorbed) (rest : Chain) :
    runLinks carried (link :: rest) s =
      let status := Status.ofReturnCode child.returnCode
      let waited := actions ++ waitActions interruptsAbsorbed child
      if Link.endsChain link.operator status then ⟨.ok status, after, waited⟩
      else
        let later := runLinks none rest after
        ⟨later.result, later.session, waited ++ later.actions⟩ := by
  have operator : link.operator ≠ some .pipe := by simpa [Link.isPiped] using unpiped
  have answered : await child after =
      ⟨.ok (.ofReturnCode child.returnCode), after, waitActions interruptsAbsorbed child⟩ := by
    rw [await, awaitWithin_apply, if_pos patient]
  rw [unpiped] at launch
  rw [runLinks, if_neg operator, bind_apply_of_ok (congrArg Ended.result launch), launch]
  simp only [bind_apply_of_ok (congrArg Ended.result answered), answered]
  split
  · simp only [pure_apply, List.append_nil]
  · simp only [List.append_assoc]

theorem runLinks_of_interrupted {child : Child} (unpiped : link.isPiped = false)
    (launch : link.invocation.launch carried link.isPiped s = ⟨.ok child, after, actions⟩)
    (impatient : ¬ child.interrupts ≤ interruptsAbsorbed) (rest : Chain) :
    runLinks carried (link :: rest) s =
      ⟨.error .interrupted, after, actions ++ waitActions interruptsAbsorbed child⟩ := by
  have operator : link.operator ≠ some .pipe := by simpa [Link.isPiped] using unpiped
  have interrupted : await child after =
      ⟨.error .interrupted, after, waitActions interruptsAbsorbed child⟩ := by
    rw [await, awaitWithin_apply, if_neg impatient]
  rw [unpiped] at launch
  rw [runLinks, if_neg operator, bind_apply_of_ok (congrArg Ended.result launch), launch]
  simp only [bind_apply_of_error (congrArg Ended.result interrupted), interrupted]

end

/-- A run goes from a link to the next unless the link's stage has a verdict. -/
theorem runLinks_cons (carried : Option Handle) (link : Link) (rest : Chain) (s : Session) :
    runLinks carried (link :: rest) s =
      let stage := Stage.of link carried s
      match stage.verdict with
      | some result => ⟨result, stage.after s, stage.actions⟩
      | none =>
        let later := runLinks stage.pipe? rest (stage.after s)
        ⟨later.result, later.session, stage.actions ++ later.actions⟩ := by
  have launch := Stage.launch_apply link carried s
  -- From here on only the stage counts, not the session it was made from.
  have met : (Stage.of link carried s).link = link := rfl
  generalize Stage.of link carried s = stage at launch met ⊢
  subst met
  cases launched : stage.launched with
  | error fault =>
    obtain ⟨verdict, -, actions, after⟩ := Stage.of_fault launched s
    simp only [launched] at launch
    rw [runLinks_of_fault launch]
    simp only [verdict, actions, after]
  | ok child =>
    simp only [launched] at launch
    cases piped : stage.link.isPiped with
    | true =>
      obtain ⟨verdict, pipe, actions, after⟩ := Stage.of_piped launched piped s
      rw [runLinks_of_piped piped launch]
      simp only [verdict, pipe, actions, after]
    | false =>
      obtain ⟨verdict, pipe, actions, after⟩ := Stage.of_unpiped launched piped s
      by_cases patient : child.interrupts ≤ interruptsAbsorbed
      · rw [if_pos patient] at verdict
        rw [runLinks_of_waited piped launch patient]
        by_cases ends : Link.endsChain stage.link.operator (.ofReturnCode child.returnCode) = true
        · simp only [verdict, actions, after, if_pos ends]
        · simp only [verdict, pipe, actions, after, if_neg ends]
      · rw [if_neg patient] at verdict
        rw [runLinks_of_interrupted piped launch patient]
        simp only [verdict, actions, after]

/-! ## The whole chain -/

/-- The stages of a run that starts with a carried pipe. -/
def stagesFrom : Option Handle → Chain → Session → List Stage
  | _, [], _ => []
  | carried, link :: rest, s =>
    let stage := Stage.of link carried s
    match stage.verdict with
    | some _ => [stage]
    | none => stage :: stagesFrom stage.pipe? rest (stage.after s)

def stages (chain : Chain) (s : Session) : List Stage := stagesFrom none chain s

/-- The pipe that is carried on after some stages. -/
def carriedAfter (carried : Option Handle) (stages : List Stage) : Option Handle :=
  (stages.getLast?.map Stage.pipe?).getD carried

def sessionAfter (s : Session) (stages : List Stage) : Session :=
  stages.foldl (fun s stage => stage.after s) s

/-- The result of a run with these stages: the verdict of the last one, or success. -/
def resultOf (stages : List Stage) : Except Fault Status :=
  (stages.getLast?.bind Stage.verdict).getD (.ok .ok)

theorem carriedAfter_cons (carried : Option Handle) (stage : Stage) (rest : List Stage) :
    carriedAfter carried (stage :: rest) = carriedAfter stage.pipe? rest := by
  cases rest with
  | nil => rfl
  | cons next rest => simp [carriedAfter, List.getLast?_cons]

theorem resultOf_cons {stage : Stage} (goesOn : stage.verdict = none) (rest : List Stage) :
    resultOf (stage :: rest) = resultOf rest := by
  cases rest with
  | nil => simp [resultOf, goesOn]
  | cons next rest => simp [resultOf, List.getLast?_cons]

/-- A run of links is the list of its stages. -/
theorem runLinks_eq (carried : Option Handle) (chain : Chain) (s : Session) :
    runLinks carried chain s =
      let stages := stagesFrom carried chain s
      ⟨resultOf stages, sessionAfter s stages,
        stages.flatMap Stage.actions ++ (carriedAfter carried stages).toList.map .closed⟩ := by
  induction chain generalizing carried s with
  | nil =>
    have nothing := closeAny_apply carried s
    rw [runLinks, bind_apply_of_ok (congrArg Ended.result nothing), nothing]
    simp [pure_apply, stagesFrom, resultOf, sessionAfter, carriedAfter]
  | cons link rest ih =>
    rw [runLinks_cons, stagesFrom]
    cases ended : (Stage.of link carried s).verdict with
    | some result =>
      simp [ended, resultOf, sessionAfter, carriedAfter, Stage.pipe?_of_verdict ended]
    | none =>
      simp only [ended, ih, carriedAfter_cons, resultOf_cons ended]
      simp [sessionAfter]

theorem reap_apply (s : Session) : reap s = ⟨.ok (), s.reaped, []⟩ := rfl

/-- The run of a chain is the list of its stages, the closing of a pipe that is left, and a look
at the children. -/
theorem run_eq (chain : Chain) (s : Session) :
    chain.run s =
      ⟨resultOf (chain.stages s), (sessionAfter s (chain.stages s)).reaped,
        (chain.stages s).flatMap Stage.actions ++
          (carriedAfter none (chain.stages s)).toList.map .closed⟩ := by
  rw [run, ensuring_apply, runLinks_eq]
  simp only [reap_apply, List.append_nil]
  rfl

/-! ## Places in a run -/

/-- A stage of a run is that of the link at its place, met with what the stages before it left,
and none of those ended the chain. -/
theorem stagesFrom_cut {carried : Option Handle} {chain : Chain} {s : Session}
    {earlier later : List Stage} {stage : Stage}
    (cut : stagesFrom carried chain s = earlier ++ stage :: later) :
    (∀ before ∈ earlier, before.verdict = none) ∧ chain[earlier.length]? = some stage.link ∧
      stage = Stage.of stage.link (carriedAfter carried earlier) (sessionAfter s earlier) := by
  induction earlier generalizing carried chain s with
  | nil =>
    cases chain with
    | nil => simp [stagesFrom] at cut
    | cons link rest =>
      have head : stage = Stage.of link carried s := by
        rw [stagesFrom] at cut
        split at cut
        · exact (List.cons.inj cut).1.symm
        · exact (List.cons.inj cut).1.symm
      subst head
      exact ⟨by simp, rfl, rfl⟩
  | cons first earlier ih =>
    cases chain with
    | nil => simp [stagesFrom] at cut
    | cons link rest =>
      rw [stagesFrom] at cut
      cases ended : (Stage.of link carried s).verdict with
      | some result => simp [ended] at cut
      | none =>
        simp only [ended, List.cons_append, List.cons.injEq] at cut
        obtain ⟨rfl, cut⟩ := cut
        obtain ⟨goOn, place, met⟩ := ih cut
        refine ⟨?_, place, ?_⟩
        · intro before member
          rcases List.mem_cons.1 member with rfl | member
          · exact ended
          · exact goOn before member
        · rw [carriedAfter_cons]
          exact met

/-- An action of a run that closes nothing was done for one of its stages. -/
theorem exists_stage_of_cut {chain : Chain} {s : Session} {before after : List Action}
    {action : Action} (cut : (chain.run s).actions = before ++ action :: after)
    (open_ : action.released? = none) :
    ∃ earlier stage later inner rest, chain.stages s = earlier ++ stage :: later ∧
      before = earlier.flatMap Stage.actions ++ inner ∧
      stage.actions = inner ++ action :: rest := by
  rw [run_eq] at cut
  have noClosing : action ∉ (carriedAfter none (chain.stages s)).toList.map Action.closed := by
    intro member
    obtain ⟨handle, -, rfl⟩ := List.mem_map.1 member
    simp [Action.released?] at open_
  obtain ⟨rest, inside⟩ := cut_in_left cut noClosing
  exact exists_part_of_flatMap inside

/-- The stages of a run are those of the first links of the chain, in order. -/
theorem map_link_stagesFrom (carried : Option Handle) (chain : Chain) (s : Session) :
    (stagesFrom carried chain s).map Stage.link =
      chain.take (stagesFrom carried chain s).length := by
  induction chain generalizing carried s with
  | nil => rfl
  | cons link rest ih =>
    rw [stagesFrom]
    cases ended : (Stage.of link carried s).verdict with
    | some result => simp [Stage.of]
    | none => simp [ih, Stage.of]

/-- If no stage ended the chain, every link was met. -/
theorem length_stagesFrom {carried : Option Handle} {chain : Chain} {s : Session}
    (goOn : ∀ stage ∈ stagesFrom carried chain s, stage.verdict = none) :
    (stagesFrom carried chain s).length = chain.length := by
  induction chain generalizing carried s with
  | nil => rfl
  | cons link rest ih =>
    rw [stagesFrom] at goOn ⊢
    cases ended : (Stage.of link carried s).verdict with
    | some result =>
      rw [ended] at goOn
      have goesOn := goOn (Stage.of link carried s) (by simp)
      rw [ended] at goesOn
      contradiction
    | none =>
      rw [ended] at goOn
      have later := ih fun stage member => goOn stage (List.mem_cons_of_mem _ member)
      simp [later]

end Chain

end ChainShell
