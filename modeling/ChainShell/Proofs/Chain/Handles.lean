/-
# ChainShell.Proofs.Chain.Handles — running a chain closes what it opens

While a chain runs, the shell holds at most one pipe between two links (`Linked`): it is
the pipe of the process started last, and the next link takes it.  A link closes the pipe
it took and the files of its redirects before anything is waited for, so

* every handle that was obtained is closed exactly once, and none is left;
* no handle is held during a wait;
* whenever a process is about to be started, the handles held are the carried pipe and
  the files of that invocation's own redirects.

`run_closesPromptly` says so for every chain and every session, however the run ends.
-/
import ChainShell.Proofs.Chain.Visits

set_option autoImplicit false

namespace ChainShell

open ChainShell.Action

/-! ## No handle is given out twice -/

/-- The session has not given out the handle. -/
def Handle.NewFor (s : Session) : Handle → Prop
  | .file number => s.host.opened < number
  | .pipe pid => s.host.started < pid

namespace Stage

/-- A stage obtains handles that were new before it and are not new after it. -/
theorem newFor_of_mem_acquired {link : Link} {carried : Option Handle} {s : Session}
    {handle : Handle} (member : handle ∈ acquired (of link carried s).actions) :
    handle.NewFor s ∧ ¬ handle.NewFor ((of link carried s).after s) := by
  rw [acquired_actions] at member
  rcases List.mem_append.1 member with isFile | isPipe
  · rw [handles_of] at isFile
    obtain ⟨number, range, rfl⟩ := List.mem_map.1 isFile
    rw [List.mem_range'_1] at range
    simp only [Handle.NewFor, opened_after]
    omega
  · obtain ⟨child, process, rfl⟩ := exists_child_of_pipe? (Option.mem_toList.1 isPipe)
    have pid := pid_of process
    simp only [Handle.NewFor, started_after, process, Option.toList_some, List.length_singleton]
    omega

theorem nodup_acquired (link : Link) (carried : Option Handle) (s : Session) :
    (acquired (of link carried s).actions).Nodup := by
  rw [acquired_actions, handles_of]
  apply List.nodup_append.2
  refine ⟨?_, ?_, ?_⟩
  · rw [List.Nodup, List.pairwise_map]
    apply List.Pairwise.imp _ (List.nodup_range' 1)
    intro number other different same
    exact different (Handle.file.inj same)
  · cases (of link carried s).pipe? <;> simp
  · rintro handle isFile _ isPipe rfl
    obtain ⟨number, -, rfl⟩ := List.mem_map.1 isFile
    obtain ⟨child, -, same⟩ := exists_child_of_pipe? (Option.mem_toList.1 isPipe)
    contradiction

theorem newFor_of_after {stage : Stage} {s : Session} {handle : Handle}
    (later : handle.NewFor (stage.after s)) : handle.NewFor s := by
  cases handle with
  | file number =>
    simp only [Handle.NewFor, opened_after] at later ⊢
    omega
  | pipe pid =>
    simp only [Handle.NewFor, started_after] at later ⊢
    omega

end Stage

namespace Chain

/-! ## The pipe between two links -/

/-- Each stage takes the pipe that the one before it handed on. -/
def Linked : Option Handle → List Stage → Prop
  | _, [] => True
  | carried, stage :: rest => stage.carried = carried ∧ Linked stage.pipe? rest

theorem linked_stagesFrom (carried : Option Handle) (chain : Chain) (s : Session) :
    Linked carried (stagesFrom carried chain s) := by
  induction chain generalizing carried s with
  | nil => trivial
  | cons link rest ih =>
    rw [stagesFrom]
    cases ended : (Stage.of link carried s).verdict with
    | some result => exact ⟨rfl, trivial⟩
    | none => exact ⟨rfl, ih _ _⟩

theorem linked_append {carried : Option Handle} {first second : List Stage} :
    Linked carried (first ++ second) ↔
      Linked carried first ∧ Linked (carriedAfter carried first) second := by
  induction first generalizing carried with
  | nil => simp [Linked, carriedAfter]
  | cons stage first ih =>
    rw [List.cons_append, Linked, Linked, ih, carriedAfter_cons, and_assoc]

/-- Between two links nothing is held but the carried pipe. -/
theorem heldFrom_flatMap_actions {carried : Option Handle} {stages : List Stage}
    (linked : Linked carried stages) :
    heldFrom carried.toList (stages.flatMap Stage.actions) =
      (carriedAfter carried stages).toList := by
  induction stages generalizing carried with
  | nil => rfl
  | cons stage rest ih =>
    obtain ⟨rfl, linked⟩ := linked
    rw [List.flatMap_cons, heldFrom_append, stage.heldFrom_actions, ih linked, carriedAfter_cons]

/-- What a stage closes is what it was handed and what it obtains, but for what it hands on. -/
theorem released_perm_stage (stage : Stage) :
    (released stage.actions ++ stage.pipe?.toList).Perm
      (stage.carried.toList ++ acquired stage.actions) := by
  rw [stage.released_actions, stage.acquired_actions, Stage.closing, ← List.append_assoc]
  apply List.Perm.append_right
  apply List.perm_append_comm.trans
  exact (List.reverse_perm _).append_left _

/-- What the stages close is what they were handed and what they obtain, but for what they hand
on. -/
theorem released_perm {carried : Option Handle} {stages : List Stage}
    (linked : Linked carried stages) :
    (released (stages.flatMap Stage.actions) ++ (carriedAfter carried stages).toList).Perm
      (carried.toList ++ acquired (stages.flatMap Stage.actions)) := by
  induction stages generalizing carried with
  | nil => simp [released, acquired, carriedAfter]
  | cons stage rest ih =>
    obtain ⟨rfl, linked⟩ := linked
    -- The pipe between the first stage and the rest occurs on both sides and is exchanged.
    rw [List.flatMap_cons, released_append, acquired_append, carriedAfter_cons, List.append_assoc,
      ← List.append_assoc stage.carried.toList]
    apply ((ih linked).append_left _).trans
    rw [← List.append_assoc]
    exact (released_perm_stage stage).append_right _

/-- The stages of a run obtain different handles, all of them new. -/
theorem nodup_acquired_stagesFrom (carried : Option Handle) (chain : Chain) (s : Session) :
    (acquired ((stagesFrom carried chain s).flatMap Stage.actions)).Nodup ∧
      ∀ handle ∈ acquired ((stagesFrom carried chain s).flatMap Stage.actions),
        handle.NewFor s := by
  induction chain generalizing carried s with
  | nil => simp [stagesFrom, acquired]
  | cons link rest ih =>
    have alone := Stage.nodup_acquired link carried s
    rw [stagesFrom]
    cases ended : (Stage.of link carried s).verdict with
    | some result =>
      simp only [List.flatMap_cons, List.flatMap_nil, List.append_nil]
      exact ⟨alone, fun handle member => (Stage.newFor_of_mem_acquired member).1⟩
    | none =>
      simp only [List.flatMap_cons, acquired_append]
      obtain ⟨later, new⟩ := ih (Stage.of link carried s).pipe? ((Stage.of link carried s).after s)
      refine ⟨List.nodup_append.2 ⟨alone, later, ?_⟩, ?_⟩
      · rintro handle here _ there rfl
        exact (Stage.newFor_of_mem_acquired here).2 (new handle there)
      · intro handle member
        rcases List.mem_append.1 member with here | there
        · exact (Stage.newFor_of_mem_acquired here).1
        · exact Stage.newFor_of_after (new handle there)

/-! ## The run of a chain -/

/-- The pipe that is carried to the next link after some actions of a chain's run: the one of the
process started last, if its output is piped. -/
def pipeAfter (chain : Chain) (actions : List Action) : Option Handle :=
  ((starts actions).zip chain).getLast?.bind fun (start, link) =>
    if link.isPiped then some (.pipe start.1) else none

/-- The actions of a chain's run leave no handle open, and none for longer than it is needed. -/
structure ClosesPromptly (chain : Chain) (actions : List Action) : Prop where
  /-- Every handle that is obtained is closed exactly once. -/
  closed_once : ∀ handle ∈ acquired actions, actions.count (.closed handle) = 1
  /-- At the end no handle is held. -/
  none_left : openHandles actions = []
  /-- During a wait no handle is held. -/
  none_at_wait : ∀ before action after, actions = before ++ action :: after →
    action.wait?.isSome → openHandles before = []
  /-- The `n`-th attempt to start a process is made for the `n`-th link, right after the redirects
  of that link were opened.  Before that only the pipe carried to the link was held, so at the
  attempt this pipe and the files of the redirects are. -/
  own_at_attempt : ∀ before action after, actions = before ++ action :: after →
    action.attempt?.isSome → ∃ (link : Link) (earlier : List Action) (files : List OpenFile),
      chain[(attempts before).length]? = some link ∧
      before = earlier ++ files.map OpenFile.opened ∧
      files.map OpenFile.opening = link.invocation.openings (chain.pipeAfter earlier) ∧
      openHandles earlier = (chain.pipeAfter earlier).toList ∧
      openHandles before = (chain.pipeAfter earlier).toList ++ files.map OpenFile.handle

/-- The pipe after some visited stages is the one that the last of them handed on. -/
theorem pipeAfter_flatMap {stages : List Stage} {visits : List Visit} {chain : Chain}
    (seen : stages.map Stage.visit? = visits.map some) (met : visits.map Visit.link <+: chain) :
    chain.pipeAfter (stages.flatMap Stage.actions) = carriedAfter none stages := by
  have lastSeen := congrArg List.getLast? seen
  rw [List.getLast?_map, List.getLast?_map] at lastSeen
  rw [pipeAfter, starts_of_seen seen, zip_start met, List.getLast?_map, carriedAfter]
  cases last : stages.getLast? with
  | none =>
    rw [last] at lastSeen
    rw [Option.map_eq_none_iff.1 lastSeen.symm]
    rfl
  | some stage =>
    rw [last] at lastSeen
    obtain ⟨visit, lastVisit, here⟩ := Option.map_eq_some_iff.1 lastSeen.symm
    obtain ⟨-, link, -⟩ := Stage.ending_of_seen here.symm
    have process := Stage.child?_of_seen here.symm
    simp [lastVisit, Stage.pipe?, process, link, Visit.start, Visit.pid]

/-- Before a stage of a run nothing is held but the pipe that it takes. -/
theorem openHandles_earlier {chain : Chain} {s : Session} {earlier later : List Stage}
    {stage : Stage} (cut : chain.stages s = earlier ++ stage :: later) :
    openHandles (earlier.flatMap Stage.actions) = stage.carried.toList := by
  have linked := linked_stagesFrom none chain s
  rw [← stages, cut] at linked
  obtain ⟨before, same, -⟩ := linked_append.1 linked
  rw [same]
  exact heldFrom_flatMap_actions before

theorem count_closed_run {chain : Chain} {s : Session} {handle : Handle}
    (member : handle ∈ acquired (chain.run s).actions) :
    (chain.run s).actions.count (.closed handle) = 1 := by
  have balance := released_perm (linked_stagesFrom none chain s)
  have different := (nodup_acquired_stagesFrom none chain s).1
  rw [← stages] at balance different
  rw [run_eq] at member ⊢
  rw [acquired_append, acquired_map_closed, List.append_nil] at member
  rw [count_closed, released_append, released_map_closed, balance.count_eq, Option.toList_none,
    List.nil_append, different.count, if_pos member]

theorem openHandles_run (chain : Chain) (s : Session) :
    openHandles (chain.run s).actions = [] := by
  rw [run_eq, openHandles_eq, heldFrom_append]
  apply List.perm_nil.1
  apply heldFrom_map_closed
  rw [List.append_nil]
  exact .of_eq (heldFrom_flatMap_actions (linked_stagesFrom none chain s))

section

variable {chain : Chain} {s : Session} {before after : List Action} {action : Action}

theorem openHandles_before_wait (cut : (chain.run s).actions = before ++ action :: after)
    (waits : action.wait?.isSome) : openHandles before = [] := by
  obtain ⟨earlier, stage, later, waited, rest, place, rfl, waiting⟩ :=
    exists_stage_of_wait cut waits
  have unpiped : stage.link.isPiped = false :=
    (stage.wait?_of_mem_waiting (by rw [waiting]; exact List.mem_append_cons_self)).2
  have noPipe : stage.pipe? = none := by simp [Stage.pipe?, unpiped]
  have onlyWaits : ∀ action ∈ waited, action ∈ stage.waiting := by
    intro action member
    rw [waiting]
    exact List.mem_append_left _ member
  have atStage := openHandles_earlier place
  rw [openHandles_eq] at atStage ⊢
  rw [heldFrom_append, atStage, heldFrom_append, stage.heldFrom_launchActions,
    stage.heldFrom_of_mem_waiting onlyWaits, noPipe]
  rfl

/-- What an attempt finds open, in terms of the actions before it and the link it is made for. -/
theorem own_at_attempt_run (cut : (chain.run s).actions = before ++ action :: after)
    (tries : action.attempt?.isSome) :
    ∃ (link : Link) (earlier : List Action) (files : List OpenFile),
      chain[(attempts before).length]? = some link ∧
      before = earlier ++ files.map OpenFile.opened ∧
      files.map OpenFile.opening = link.invocation.openings (chain.pipeAfter earlier) ∧
      openHandles earlier = (chain.pipeAfter earlier).toList ∧
      openHandles before = (chain.pipeAfter earlier).toList ++ files.map OpenFile.handle := by
  obtain ⟨earlier, stage, later, place, rfl, rfl⟩ := exists_stage_of_attempt cut tries
  obtain ⟨-, link, met⟩ := stagesFrom_cut place
  obtain ⟨visits, seen, -⟩ := exists_visits_of_cut place
  have taken : stage.carried = carriedAfter none earlier := congrArg Stage.carried met
  have pipe : chain.pipeAfter (earlier.flatMap Stage.actions) = stage.carried := by
    rw [pipeAfter_flatMap seen (met_of_seen place seen), taken]
  have atStage := openHandles_earlier place
  refine ⟨stage.link, earlier.flatMap Stage.actions, stage.files, ?_, rfl, ?_, ?_, ?_⟩
  · rw [attempts_append, OpenFile.attempts_map_opened, List.append_nil,
      attempts_of_seen seen, List.length_map, length_of_seen seen]
    exact link
  · rw [pipe, taken]
    rw [met] at tries ⊢
    exact Stage.map_opening_of_attempt tries
  · rw [pipe]
    exact atStage
  · rw [openHandles_eq] at atStage ⊢
    rw [heldFrom_append, atStage, OpenFile.heldFrom_map_opened, pipe]

end

/-- Running a chain closes every handle that it obtains, exactly once and before any wait, and
starts each process with no other handles open than that process needs. -/
theorem run_closesPromptly (chain : Chain) (s : Session) :
    chain.ClosesPromptly (chain.run s).actions where
  closed_once := by
    intro handle member
    exact count_closed_run member
  none_left := openHandles_run chain s
  none_at_wait := by
    intro before action after cut waits
    exact openHandles_before_wait cut waits
  own_at_attempt := by
    intro before action after cut tries
    exact own_at_attempt_run cut tries

end Chain

end ChainShell
