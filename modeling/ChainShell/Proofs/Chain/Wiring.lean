/-
# ChainShell.Proofs.Chain.Wiring — what the processes of a chain read and write

The links of a chain are tried in order, so the number of attempts made so far is the place
of the link at hand.  A link is fed if the link before it is tied to it by a pipe
(`Chain.FedAt`).

* Every redirect that is opened, or refused, is one of the link at hand, and never the
  input of a fed link (`Wired.opening`).
* A fed link reads from the pipe of the process that was started for the link before it.
  All other streams are the files that were opened for them, or the shell's own; only the
  output of a link tied to the next by a pipe is a pipe of its own, and its file is then
  opened and closed without being used (`WiredAttempt`).
* No pipe is given to two processes (`Wired.given_once`).

`run_wired` says so for every chain and every session, however the run ends.
-/
import ChainShell.Proofs.Chain.Handles

set_option autoImplicit false

namespace ChainShell

open ChainShell.Action

/-! ## Streams and openings in a run -/

def Output.handle? : Output → Option Handle
  | handle file => some file
  | _ => none

/-- The handles that a process is given. -/
def Streams.handles (streams : Streams) : List Handle :=
  streams.input.toList ++ streams.output.handle?.toList ++ streams.error.toList

/-- The process whose pipe a handle reads from. -/
def Handle.pipe? : Handle → Option Nat
  | pipe pid => some pid
  | file _ => none

theorem Handle.pipe?_eq_some {handle : Handle} {pid : Nat} (reads : handle.pipe? = some pid) :
    handle = pipe pid := by
  cases handle with
  | file number => contradiction
  | pipe other => exact congrArg pipe (Option.some.inj reads)

namespace Action

/-- The command and the streams of an attempt to start a process. -/
def command? : Action → Option (List Text × Streams)
  | started _ argv streams | startFailed argv streams => some (argv, streams)
  | _ => none

/-- The mode and the path of a redirect that is opened or refused. -/
def opening? : Action → Option (OpenMode × Text)
  | opened mode path _ | openFailed mode path => some (mode, path)
  | _ => none

/-- The pipes that processes are given, each as often as it is, by the processes that write to
them. -/
def pipesGiven (actions : List Action) : List Nat :=
  ((actions.filterMap command?).flatMap fun command => command.2.handles).filterMap Handle.pipe?

theorem pipesGiven_append (first second : List Action) :
    pipesGiven (first ++ second) = pipesGiven first ++ pipesGiven second := by
  simp [pipesGiven]

theorem pipesGiven_eq_nil {actions : List Action} (none : actions.filterMap command? = []) :
    pipesGiven actions = [] := by
  rw [pipesGiven, none]
  rfl

/-- The process was started as the one for the link at a place. -/
def StartedFor (actions : List Action) (place pid : Nat) : Prop :=
  ∃ before argv streams after, actions = before ++ started pid argv streams :: after ∧
    (attempts before).length = place

theorem StartedFor.append {actions : List Action} {place pid : Nat}
    (started : StartedFor actions place pid) (more : List Action) :
    StartedFor (actions ++ more) place pid := by
  obtain ⟨before, argv, streams, after, rfl, count⟩ := started
  exact ⟨before, argv, streams, after ++ more, by simp, count⟩

theorem attempt?_of_command {action : Action} {argv : List Text} {streams : Streams}
    (tries : action.command? = some (argv, streams)) : action.attempt? = some argv := by
  cases action with
  | started pid argv' streams' | startFailed argv' streams' =>
    obtain ⟨rfl, rfl⟩ := Prod.mk.inj (Option.some.inj tries)
    rfl
  | _ => contradiction

theorem released?_of_opening {action : Action} (opens : action.opening?.isSome) :
    action.released? = none := by
  cases action with
  | closed handle => contradiction
  | _ => rfl

end Action

/-! ## Redirects of an invocation -/

/-- The handle is that of the file that was opened for the target of a stream; without a target
there is none. -/
def OpenFile.Serve (files : List OpenFile) (stream : Redirect) (target : Option Text)
    (handle : Option Handle) : Prop :=
  match target with
  | none => handle = none
  | some path => ∃ file ∈ files, file.opening = (stream, path) ∧ handle = some file.handle

namespace Invocation

/-- Only redirects of the invocation are opened, and not its input if a pipe is carried. -/
theorem target?_of_mem_openings {i : Invocation} {carried : Option Handle} {stream : Redirect}
    {path : Text} (member : (stream, path) ∈ i.openings carried) :
    i.target? stream = some path ∧ (carried.isSome → stream ≠ .input) := by
  simp only [openings, List.mem_append, Option.mem_toList, Option.map_eq_some_iff,
    Prod.mk.injEq] at member
  rcases member with (input | ⟨target, found, rfl, rfl⟩) | ⟨target, found, rfl, rfl⟩
  · split at input
    · contradiction
    · rename_i uncarried
      simp only [Option.mem_toList, Option.map_eq_some_iff, Prod.mk.injEq] at input
      obtain ⟨target, found, rfl, rfl⟩ := input
      exact ⟨found, fun isCarried => absurd isCarried uncarried⟩
  · exact ⟨found, fun _ => by simp⟩
  · exact ⟨found, fun _ => by simp⟩

/-- Every redirect of the invocation is opened, but for its input if a pipe is carried. -/
theorem find?_openings (i : Invocation) (carried : Option Handle) (stream : Redirect) :
    (i.openings carried).find? (fun redirect => redirect.1 = stream) =
      if carried.isSome ∧ stream = .input then none else (i.target? stream).map (stream, ·) := by
  obtain ⟨executable, args, input, output, error⟩ := i
  cases carried <;> cases input <;> cases output <;> cases error <;> cases stream <;> rfl

/-- Once all its redirects are open, each stream of an invocation that is not carried is served. -/
theorem serve_handleOf {i : Invocation} {carried : Option Handle} {files : List OpenFile}
    (all : files.map OpenFile.opening = i.openings carried) {stream : Redirect}
    (own : carried.isSome → stream ≠ .input) :
    OpenFile.Serve files stream (i.target? stream) (OpenFile.handleOf files stream) := by
  have found := i.find?_openings carried stream
  rw [← all, List.find?_map, if_neg (fun ⟨isCarried, isInput⟩ => own isCarried isInput)] at found
  have same : ((fun redirect : Redirect × Text => decide (redirect.1 = stream)) ∘
      OpenFile.opening) = fun file => decide (file.stream = stream) := rfl
  rw [same] at found
  cases target : i.target? stream with
  | none =>
    rw [target, Option.map_none, Option.map_eq_none_iff] at found
    rw [OpenFile.Serve, OpenFile.handleOf, found]
    rfl
  | some path =>
    rw [target, Option.map_some] at found
    obtain ⟨file, here, opening⟩ := Option.map_eq_some_iff.1 found
    refine ⟨file, List.mem_of_find?_eq_some here, opening, ?_⟩
    rw [OpenFile.handleOf, here]
    rfl

end Invocation

/-- The redirects that were opened, and the one that was refused, are the first ones. -/
theorem Opening.prefix_of (s : Session) (redirects : List (Redirect × Text)) :
    (Opening.of s redirects).files.map OpenFile.opening ++
      ((Opening.of s redirects).refused.map Prod.fst).toList <+: redirects := by
  induction redirects generalizing s with
  | nil => exact List.nil_prefix
  | cons redirect rest ih =>
    obtain ⟨stream, path⟩ := redirect
    cases found : s.host.openErrors.lookup path with
    | some error => simp [of, found]
    | none => simpa [of, found, OpenFile.opening] using ih (s.afterOpening 1)

theorem Streams.output_of_unpiped (carried : Option Handle) (files : List OpenFile) :
    (Streams.of carried false files).output =
      (OpenFile.handleOf files .output).elim .inherited .handle := by
  cases found : OpenFile.handleOf files .output <;> simp [of, Output.choose, found]

namespace Stage

/-! ## The streams of a stage -/

theorem handleOf_files {link : Link} {carried : Option Handle} {s : Session} {stream : Redirect}
    {handle : Handle} (found : OpenFile.handleOf (of link carried s).files stream = some handle) :
    ∃ number, handle = .file number := by
  obtain ⟨file, here, rfl⟩ := Option.map_eq_some_iff.1 found
  have member := List.mem_map_of_mem (f := OpenFile.handle) (List.mem_of_find?_eq_some here)
  rw [handles_of] at member
  obtain ⟨number, -, same⟩ := List.mem_map.1 member
  exact ⟨number, same.symm⟩

theorem command?_attempt {stage : Stage} {argv : List Text} {streams : Streams}
    (tries : stage.attempt.command? = some (argv, streams)) :
    argv = stage.link.invocation.argv ∧ streams = stage.streams := by
  obtain ⟨link, carried, files, ending⟩ := stage
  cases ending with
  | refused redirect error => contradiction
  | _ =>
    obtain ⟨rfl, rfl⟩ := Prod.mk.inj (Option.some.inj tries)
    exact ⟨rfl, rfl⟩

/-- The only pipe among the handles of a stage's streams is the carried one. -/
theorem pipes_streams (link : Link) (carried : Option Handle) (s : Session) :
    ((of link carried s).streams.handles.filterMap Handle.pipe?).Sublist
      (carried.toList.filterMap Handle.pipe?) := by
  have noPipe : ∀ stream,
      (OpenFile.handleOf (of link carried s).files stream).toList.filterMap Handle.pipe? = [] := by
    intro stream
    cases found : OpenFile.handleOf (of link carried s).files stream with
    | none => rfl
    | some handle =>
      obtain ⟨number, rfl⟩ := handleOf_files found
      rfl
  have output : (of link carried s).streams.output.handle?.toList.filterMap Handle.pipe? = [] := by
    have file := noPipe .output
    simp only [streams, Streams.of, Output.choose]
    split
    · rfl
    · split
      · rename_i handle found
        rwa [found] at file
      · rfl
  have error := noPipe .error
  have input : (of link carried s).streams.input.toList.filterMap Handle.pipe? =
      carried.toList.filterMap Handle.pipe? := by
    cases carried with
    | none => exact noPipe .input
    | some handle => rfl
  have given : (of link carried s).streams.handles.filterMap Handle.pipe? =
      carried.toList.filterMap Handle.pipe? := by
    rw [Streams.handles, List.filterMap_append, List.filterMap_append, output, input,
      List.append_nil]
    exact (congrArg _ error).trans (List.append_nil _)
  exact given ▸ List.Sublist.refl _

theorem pipesGiven_actions (link : Link) (carried : Option Handle) (s : Session) :
    (pipesGiven (of link carried s).actions).Sublist (carried.toList.filterMap Handle.pipe?) := by
  have inLaunch : (of link carried s).actions.filterMap command? =
      (of link carried s).attempt.command?.toList := by
    rw [actions, List.filterMap_append, filterMap_launchActions, filterMap_waiting,
      List.append_nil]
    all_goals intros; rfl
  cases tries : (of link carried s).attempt.command? with
  | none =>
    rw [tries] at inLaunch
    rw [pipesGiven_eq_nil inLaunch]
    exact List.nil_sublist _
  | some command =>
    obtain ⟨argv, streams⟩ := command
    obtain ⟨-, rfl⟩ := command?_attempt tries
    rw [tries] at inLaunch
    rw [pipesGiven, inLaunch]
    simpa using pipes_streams link carried s

/-! ## Openings of a stage -/

theorem attempt_ne_opened (stage : Stage) {mode : OpenMode} {path : Text} {handle : Handle} :
    stage.attempt ≠ .opened mode path handle := by
  unfold attempt
  split <;> simp

theorem refused_of_opening?_attempt {stage : Stage} {mode : OpenMode} {path : Text}
    (opens : stage.attempt.opening? = some (mode, path)) :
    ∃ stream error, stage.ending = .refused (stream, path) error ∧ stream.mode = mode := by
  obtain ⟨link, carried, files, ending⟩ := stage
  cases ending with
  | refused redirect error =>
    obtain ⟨rfl, rfl⟩ := Prod.mk.inj (Option.some.inj opens)
    exact ⟨redirect.1, error, rfl, rfl⟩
  | _ => contradiction

/-- The redirects of a stage are those of its link. -/
theorem mem_openings {link : Link} {carried : Option Handle} {s : Session}
    {opening : Redirect × Text} (opens : (∃ file ∈ (of link carried s).files,
      opening = file.opening) ∨ ∃ error, (of link carried s).ending = .refused opening error) :
    opening ∈ link.invocation.openings carried := by
  apply (Opening.prefix_of s (link.invocation.openings carried)).subset
  rcases opens with ⟨file, member, rfl⟩ | ⟨error, ending⟩
  · exact List.mem_append_left _ (List.mem_map_of_mem member)
  · apply List.mem_append_right
    simp only [of] at ending
    split at ending
    · rename_i redirect error' refused
      obtain ⟨rfl, rfl⟩ := Ending.refused.inj ending
      rw [refused]
      exact List.mem_singleton_self _
    · split at ending <;> contradiction

variable {stage : Stage} {inner rest : List Action} {action : Action}

/-- A redirect is opened or refused after those before it were opened, and nothing else was done
for the stage by then. -/
theorem cut_at_opening (cut : stage.actions = inner ++ action :: rest)
    (opens : action.opening?.isSome) :
    (∃ file ∈ stage.files, action = file.opened) ∧ attempts inner = [] ∨
      inner = stage.files.map OpenFile.opened ∧ action = stage.attempt := by
  have notAfter : action ∉ stage.closing.map Action.closed ++ stage.waiting := by
    intro member
    rcases List.mem_append.1 member with closes | waits
    · obtain ⟨handle, -, rfl⟩ := List.mem_map.1 closes
      contradiction
    · have isWait := (stage.wait?_of_mem_waiting waits).1
      cases action <;> contradiction
  rw [actions, launchActions, List.append_assoc, List.cons_append] at cut
  by_cases isOpened : action ∈ stage.files.map OpenFile.opened
  · obtain ⟨file, member, rfl⟩ := List.mem_map.1 isOpened
    have notLater : file.opened ∉
        stage.attempt :: (stage.closing.map Action.closed ++ stage.waiting) := by
      intro later
      rcases List.mem_cons.1 later with isAttempt | later
      · exact stage.attempt_ne_opened isAttempt.symm
      · exact notAfter later
    obtain ⟨later, opens⟩ := cut_in_left cut notLater
    have silent := OpenFile.attempts_map_opened stage.files
    rw [opens, attempts_append, List.append_eq_nil_iff] at silent
    exact .inl ⟨⟨file, member, rfl⟩, silent.1⟩
  · obtain ⟨middle, rfl, place⟩ := cut_in_right cut isOpened
    cases middle with
    | nil =>
      obtain ⟨rfl, -⟩ := List.cons.inj place
      exact .inr ⟨List.append_nil _, rfl⟩
    | cons head middle =>
      obtain ⟨-, later⟩ := List.cons.inj place
      rw [later] at notAfter
      simp at notAfter

end Stage

namespace Chain

/-! ## Wiring -/

/-- The link before the one at a place is tied to it by a pipe. -/
def FedAt (chain : Chain) : (place : Nat) → Prop
  | 0 => False
  | place + 1 => ∃ link, chain[place]? = some link ∧ link.operator = some .pipe

/-- How the process of a link is started, if the actions `before` are done first and the actions
`after` follow. -/
structure WiredAttempt (chain : Chain) (link : Link) (files : List OpenFile)
    (before : List Action) (argv : List Text) (streams : Streams) (after : List Action) :
    Prop where
  atPlace : chain[(attempts before).length]? = some link
  command : argv = link.invocation.executable :: link.invocation.args
  /-- The files were opened just before. -/
  opened : files.map OpenFile.opened <:+ before
  /-- The files are closed again just after, the last one first. -/
  closed : (files.map OpenFile.handle).reverse.map .closed <+: after
  /-- A fed link reads from the pipe of the process started for the link before it. -/
  input_fed : chain.FedAt (attempts before).length → ∃ place pid,
    (attempts before).length = place + 1 ∧ StartedFor before place pid ∧
      streams.input = some (.pipe pid)
  input_own : ¬ chain.FedAt (attempts before).length →
    OpenFile.Serve files .input link.invocation.input streams.input
  output_piped : streams.output = .pipe ↔ link.operator = some .pipe
  output_own : ∃ handle, OpenFile.Serve files .output link.invocation.output handle ∧
    (link.operator ≠ some .pipe → streams.output = handle.elim .inherited .handle)
  error : OpenFile.Serve files .error link.invocation.error streams.error
  /-- None of the files is a pipe. -/
  noPipe : ∀ file ∈ files, ∃ number, file.handle = .file number

/-- The actions of a run of a chain connect its processes as the chain says. -/
structure Wired (chain : Chain) (actions : List Action) : Prop where
  /-- The `n`-th attempt is made for the `n`-th link. -/
  attempt : ∀ before action after argv streams, actions = before ++ action :: after →
    action.command? = some (argv, streams) →
      ∃ link files, chain.WiredAttempt link files before argv streams after
  /-- What is opened or refused is a redirect of the link at hand, and not the input of a fed
  link. -/
  opening : ∀ before action after mode path, actions = before ++ action :: after →
    action.opening? = some (mode, path) →
      ∃ link stream, chain[(attempts before).length]? = some link ∧
        link.invocation.target? stream = some path ∧ stream.mode = mode ∧
        (chain.FedAt (attempts before).length → stream ≠ .input)
  /-- No pipe is given to two processes. -/
  given_once : (pipesGiven actions).Nodup

section

variable {chain : Chain} {s : Session} {earlier later : List Stage} {stage : Stage}

/-- Every stage before another one made an attempt. -/
theorem length_attempts_of_cut (cut : chain.stages s = earlier ++ stage :: later) :
    (attempts (earlier.flatMap Stage.actions)).length = earlier.length := by
  obtain ⟨visits, seen, -⟩ := exists_visits_of_cut cut
  rw [attempts_of_seen seen, List.length_map, length_of_seen seen]

/-- A stage is carried the pipe of the process of the stage before it if its link is fed, and none
otherwise. -/
theorem carried_of_cut (cut : chain.stages s = earlier ++ stage :: later) :
    (chain.FedAt earlier.length ∧ ∃ place pid, earlier.length = place + 1 ∧
      StartedFor (earlier.flatMap Stage.actions) place pid ∧ stage.carried = some (.pipe pid)) ∨
    (¬ chain.FedAt earlier.length ∧ stage.carried = none) := by
  obtain ⟨goOn, -, met⟩ := stagesFrom_cut cut
  have carried : stage.carried = carriedAfter none earlier := congrArg Stage.carried met
  rcases List.eq_nil_or_concat earlier with rfl | ⟨init, previous, rfl⟩
  · exact .inr ⟨id, carried⟩
  · rw [List.concat_eq_append] at cut goOn carried ⊢
    have taken : stage.carried = previous.pipe? := by
      rw [carried, carriedAfter, List.getLast?_concat, Option.map_some, Option.getD_some]
    rw [List.append_assoc, List.singleton_append] at cut
    obtain ⟨-, atPlace, -⟩ := stagesFrom_cut cut
    have goesOn := goOn previous (List.mem_append_right _ (List.mem_singleton_self _))
    obtain ⟨child, process⟩ := Stage.exists_child_of_goesOn goesOn
    rw [List.length_append, List.length_singleton]
    cases piped : previous.link.isPiped with
    | true =>
      refine .inl ⟨⟨previous.link, atPlace, by simpa [Link.isPiped] using piped⟩,
        init.length, child.pid, rfl, ?_, ?_⟩
      · have start : previous.attempt =
            .started child.pid previous.link.invocation.argv previous.streams :=
          Stage.attempt_of_child? process
        refine ⟨init.flatMap Stage.actions ++ previous.files.map OpenFile.opened,
          previous.link.invocation.argv, previous.streams,
          previous.closing.map .closed ++ previous.waiting, ?_, ?_⟩
        · rw [List.flatMap_append, List.flatMap_singleton, Stage.actions, Stage.launchActions,
            start, List.append_assoc, List.append_assoc, List.cons_append]
        · rw [attempts_append, OpenFile.attempts_map_opened, List.append_nil]
          exact length_attempts_of_cut cut
      · rw [taken, Stage.pipe?, if_pos piped, process]
        rfl
    | false =>
      refine .inr ⟨?_, by simp [taken, Stage.pipe?, piped]⟩
      rintro ⟨link, atPlace', operator⟩
      rw [atPlace] at atPlace'
      obtain rfl := Option.some.inj atPlace'
      simp [Link.isPiped, operator] at piped

end

section

variable {chain : Chain} {s : Session} {before after : List Action} {action : Action}

theorem wiredAttempt_run (cut : (chain.run s).actions = before ++ action :: after)
    {argv : List Text} {streams : Streams} (tries : action.command? = some (argv, streams)) :
    ∃ link files, chain.WiredAttempt link files before argv streams after := by
  have isAttempt := attempt?_of_command tries
  obtain ⟨earlier, stage, later, place, rfl, rfl⟩ :=
    exists_stage_of_attempt cut (by rw [isAttempt]; rfl)
  obtain ⟨-, atPlace, met⟩ := stagesFrom_cut place
  obtain ⟨rfl, rfl⟩ := Stage.command?_attempt tries
  have all : stage.files.map OpenFile.opening = stage.link.invocation.openings stage.carried := by
    rw [met] at isAttempt ⊢
    exact Stage.map_opening_of_attempt (by rw [isAttempt]; rfl)
  have count : (attempts (earlier.flatMap Stage.actions ++
      stage.files.map OpenFile.opened)).length = earlier.length := by
    rw [attempts_append, OpenFile.attempts_map_opened, List.append_nil,
      length_attempts_of_cut place]
  have serve : ∀ stream, (stage.carried.isSome → stream ≠ .input) →
      OpenFile.Serve stage.files stream (stage.link.invocation.target? stream)
        (OpenFile.handleOf stage.files stream) :=
    fun stream own => Invocation.serve_handleOf all own
  refine ⟨stage.link, stage.files, ?_⟩
  refine
    { atPlace := ?_, command := rfl, opened := List.suffix_append _ _, closed := ?_,
      input_fed := ?_, input_own := ?_, output_piped := ?_, output_own := ?_,
      error := serve .error fun _ => by simp, noPipe := ?_ }
  · rw [count]
    exact atPlace
  · rw [run_eq, place, List.flatMap_append, List.flatMap_cons, Stage.actions, Stage.launchActions]
      at cut
    simp only [List.append_assoc, List.cons_append, List.append_cancel_left_eq, List.cons.injEq,
      true_and] at cut
    rw [← cut, Stage.closing, List.map_append, List.append_assoc]
    exact List.prefix_append _ _
  · intro fed
    rw [count] at fed ⊢
    rcases carried_of_cut place with ⟨-, previous, pid, next, started, carried⟩ | ⟨unfed, -⟩
    · refine ⟨previous, pid, next, started.append _, ?_⟩
      rw [Stage.streams, Streams.of, carried]
      rfl
    · exact absurd fed unfed
  · intro unfed
    rw [count] at unfed
    rcases carried_of_cut place with ⟨fed, -⟩ | ⟨-, carried⟩
    · exact absurd fed unfed
    · have own := serve .input (by simp [carried])
      simpa [Stage.streams, Streams.of, carried, Invocation.target?] using own
  · exact (Streams.output_of_eq_pipe _ _ _).trans (by simp [Link.isPiped])
  · refine ⟨OpenFile.handleOf stage.files .output, serve .output fun _ => by simp, ?_⟩
    intro unpiped
    have isPiped : stage.link.isPiped = false := by simpa [Link.isPiped] using unpiped
    rw [Stage.streams, isPiped]
    exact Streams.output_of_unpiped _ _
  · intro file member
    have handle := List.mem_map_of_mem (f := OpenFile.handle) member
    rw [met, Stage.handles_of] at handle
    obtain ⟨number, -, same⟩ := List.mem_map.1 handle
    exact ⟨number, same.symm⟩

theorem opening_run (cut : (chain.run s).actions = before ++ action :: after)
    {mode : OpenMode} {path : Text} (opens : action.opening? = some (mode, path)) :
    ∃ link stream, chain[(attempts before).length]? = some link ∧
      link.invocation.target? stream = some path ∧ stream.mode = mode ∧
      (chain.FedAt (attempts before).length → stream ≠ .input) := by
  obtain ⟨earlier, stage, later, inner, rest, place, rfl, inside⟩ :=
    exists_stage_of_cut cut (released?_of_opening (by rw [opens]; rfl))
  obtain ⟨-, atPlace, met⟩ := stagesFrom_cut place
  have isOpening : attempts inner = [] ∧ ∃ stream, stream.mode = mode ∧
      (stream, path) ∈ stage.link.invocation.openings (carriedAfter none earlier) := by
    rw [met] at inside
    rcases Stage.cut_at_opening inside (by rw [opens]; rfl) with
      ⟨⟨file, member, rfl⟩, silent⟩ | ⟨rfl, rfl⟩
    · obtain ⟨rfl, rfl⟩ := Prod.mk.inj (Option.some.inj opens)
      exact ⟨silent, file.stream, rfl, Stage.mem_openings (.inl ⟨file, member, rfl⟩)⟩
    · obtain ⟨stream, error, refused, isMode⟩ := Stage.refused_of_opening?_attempt opens
      exact ⟨OpenFile.attempts_map_opened _, stream, isMode,
        Stage.mem_openings (.inr ⟨error, refused⟩)⟩
  obtain ⟨silent, stream, isMode, member⟩ := isOpening
  obtain ⟨target, unfed⟩ := Invocation.target?_of_mem_openings member
  rw [attempts_append, silent, List.append_nil, length_attempts_of_cut place]
  refine ⟨stage.link, stream, atPlace, target, isMode, ?_⟩
  intro fed
  apply unfed
  rcases carried_of_cut place with ⟨-, previous, pid, -, -, carried⟩ | ⟨notFed, -⟩
  · have taken : stage.carried = carriedAfter none earlier := congrArg Stage.carried met
    rw [← taken, carried]
    rfl
  · exact absurd fed notFed

end

/-- No pipe is given out twice, and only pipes of the run are given out. -/
theorem pipesGiven_stagesFrom (carried : Option Handle) (chain : Chain) (s : Session) :
    (pipesGiven ((stagesFrom carried chain s).flatMap Stage.actions)).Sublist
      ((carried.toList ++ acquired ((stagesFrom carried chain s).flatMap Stage.actions)).filterMap
        Handle.pipe?) := by
  induction chain generalizing carried s with
  | nil => exact List.nil_sublist _
  | cons link rest ih =>
    have here := Stage.pipesGiven_actions link carried s
    rw [stagesFrom]
    cases ended : (Stage.of link carried s).verdict with
    | some result =>
      simp only [List.flatMap_cons, List.flatMap_nil, List.append_nil, List.filterMap_append]
      exact here.trans (List.sublist_append_left _ _)
    | none =>
      have later := ih (Stage.of link carried s).pipe? ((Stage.of link carried s).after s)
      simp only [List.flatMap_cons, pipesGiven_append, acquired_append, Stage.acquired_actions,
        List.filterMap_append] at later ⊢
      apply here.append
      rw [List.append_assoc]
      exact later.trans (List.sublist_append_right _ _)

/-- Running a chain connects its processes as the chain says. -/
theorem run_wired (chain : Chain) (s : Session) : chain.Wired (chain.run s).actions where
  attempt := by
    intro before action after argv streams cut tries
    exact wiredAttempt_run cut tries
  opening := by
    intro before action after mode path cut opens
    exact opening_run cut opens
  given_once := by
    have inRun : pipesGiven (chain.run s).actions =
        pipesGiven ((chain.stages s).flatMap Stage.actions) := by
      rw [run_eq, pipesGiven_append, pipesGiven_eq_nil (filterMap_map_closed (fun _ => rfl) _),
        List.append_nil]
    rw [inRun]
    apply (pipesGiven_stagesFrom none chain s).nodup
    rw [Option.toList_none, List.nil_append]
    apply List.Pairwise.filterMap Handle.pipe? ?_ (nodup_acquired_stagesFrom none chain s).1
    rintro first second different pid isFirst _ isSecond rfl
    apply different
    rw [Handle.pipe?_eq_some isFirst, Handle.pipe?_eq_some isSecond]

end Chain

end ChainShell
