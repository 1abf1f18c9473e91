/-
# ChainShell.Proofs.Chain.Views — what the actions of a stage say

A stage shows one attempt to start a process, or none if a redirect was refused
(`attempts_actions`, `starts_actions`); it obtains its files and the pipe that it hands on
(`acquired_actions`), and closes its files and the pipe that it took (`released_actions`);
and what follows the start is waiting for the process, and for no other
(`waits_actions`, `answers_actions`).
-/
import ChainShell.Proofs.Chain.Stages

set_option autoImplicit false

namespace ChainShell

open ChainShell.Action ChainShell.Activity

/-! ## Opened files -/

namespace OpenFile

variable (files : List OpenFile)

/-- A view that sees no opening sees nothing of files being opened. -/
theorem filterMap_map_opened {α : Type} {view : Action → Option α}
    (noOpened : ∀ mode path handle, view (.opened mode path handle) = none) :
    (files.map opened).filterMap view = [] := by
  rw [List.filterMap_eq_nil_iff]
  intro action member
  obtain ⟨file, -, rfl⟩ := List.mem_map.1 member
  exact noOpened _ _ _

theorem attempts_map_opened : attempts (files.map opened) = [] := by
  apply filterMap_map_opened
  intros
  rfl

theorem released_map_opened : released (files.map opened) = [] := by
  apply filterMap_map_opened
  intros
  rfl

theorem acquired_map_opened : acquired (files.map opened) = files.map handle := by
  induction files with
  | nil => rfl
  | cons file files ih =>
    rw [List.map_cons, acquired, List.filterMap_cons]
    exact congrArg (file.handle :: ·) ih

/-- Opening files adds their handles to what is held. -/
theorem heldFrom_map_opened (held : List Handle) :
    heldFrom held (files.map opened) = held ++ files.map handle := by
  rw [heldFrom_of_open (released_map_opened files), acquired_map_opened]

end OpenFile

/-- A process writes into a pipe of its own if its link is tied to the next by one. -/
theorem Streams.output_of_eq_pipe (carried : Option Handle) (piped : Bool)
    (files : List OpenFile) : (Streams.of carried piped files).output = .pipe ↔ piped = true := by
  cases piped <;> cases found : OpenFile.handleOf files .output <;>
    simp [of, Output.choose, found]

namespace Stage

variable (stage : Stage)

/-! ## The process -/

/-- Starting an invocation shows only the attempt to a view that sees no opening and no closing. -/
theorem filterMap_launchActions {α : Type} {view : Action → Option α}
    (noOpened : ∀ mode path handle, view (.opened mode path handle) = none)
    (noClosed : ∀ handle, view (.closed handle) = none) :
    stage.launchActions.filterMap view = (view stage.attempt).toList := by
  have opens := OpenFile.filterMap_map_opened stage.files noOpened
  have closes := filterMap_map_closed noClosed stage.closing
  rw [launchActions, List.filterMap_append, List.filterMap_cons, opens, closes]
  cases view stage.attempt <;> rfl

/-- What follows the start of a process is waiting for it, and only if its output is not piped. -/
theorem exists_child_of_mem_waiting {action : Action} (member : action ∈ stage.waiting) :
    ∃ child, stage.child? = some child ∧ action.wait? = some child.pid ∧
      stage.link.isPiped = false := by
  unfold waiting at member
  split at member
  · simp at member
  · rename_i unpiped
    cases process : stage.child? with
    | none => simp [process] at member
    | some child =>
      refine ⟨child, rfl, ?_, by simpa using unpiped⟩
      simp only [process, Option.map_some, Option.getD_some, waitActions, List.mem_append,
        List.mem_replicate] at member
      rcases member with ⟨-, rfl⟩ | member
      · rfl
      · split at member
        · rw [List.mem_singleton.1 member]
          rfl
        · simp at member

theorem wait?_of_mem_waiting {action : Action} (member : action ∈ stage.waiting) :
    action.wait?.isSome ∧ stage.link.isPiped = false := by
  obtain ⟨child, -, isWait, unpiped⟩ := stage.exists_child_of_mem_waiting member
  exact ⟨by rw [isWait]; rfl, unpiped⟩

theorem filterMap_waiting {α : Type} {view : Action → Option α}
    (noWaited : ∀ pid code, view (.waited pid code) = none)
    (noInterrupted : ∀ pid, view (.interrupted pid) = none) :
    stage.waiting.filterMap view = [] := by
  rw [List.filterMap_eq_nil_iff]
  intro action member
  have isWait := (stage.wait?_of_mem_waiting member).1
  cases action with
  | waited pid code => exact noWaited pid code
  | interrupted pid => exact noInterrupted pid
  | _ => contradiction

theorem attempts_actions : attempts stage.actions = stage.attempt.attempt?.toList := by
  rw [actions, attempts, List.filterMap_append, stage.filterMap_launchActions,
    stage.filterMap_waiting, List.append_nil]
  all_goals intros; rfl

theorem starts_actions : starts stage.actions = stage.attempt.start?.toList := by
  rw [actions, starts, List.filterMap_append, stage.filterMap_launchActions,
    stage.filterMap_waiting, List.append_nil]
  all_goals intros; rfl

theorem start?_attempt :
    stage.attempt.start? =
      stage.child?.map fun child => (child.pid, stage.link.invocation.argv) := by
  obtain ⟨link, carried, files, ending⟩ := stage
  cases ending <;> rfl

theorem attempt_of_child? {stage : Stage} {child : Child} (process : stage.child? = some child) :
    stage.attempt = .started child.pid stage.link.invocation.argv stage.streams := by
  obtain ⟨link, carried, files, ending⟩ := stage
  cases ending with
  | started child' =>
    obtain rfl := Option.some.inj process
    rfl
  | _ => contradiction

theorem wait?_attempt : stage.attempt.wait? = none := by
  unfold attempt
  split <;> rfl

theorem answer?_attempt : stage.attempt.answer? = none := by
  unfold attempt
  split <;> rfl

theorem released?_attempt : stage.attempt.released? = none := by
  unfold attempt
  split <;> rfl

theorem waits_actions : waits stage.actions = waits stage.waiting := by
  rw [actions, waits, List.filterMap_append, stage.filterMap_launchActions, wait?_attempt]
  · rfl
  all_goals intros; rfl

theorem answers_actions : answers stage.actions = answers stage.waiting := by
  rw [actions, answers, List.filterMap_append, stage.filterMap_launchActions, answer?_attempt]
  · rfl
  all_goals intros; rfl

/-! ## The handles -/

/-- Starting a process obtains its pipe if it is piped, and nothing otherwise. -/
theorem acquired?_attempt : stage.attempt.acquired? = stage.pipe? := by
  obtain ⟨link, carried, files, ending⟩ := stage
  cases ending with
  | refused redirect error => simp [attempt, pipe?, child?, acquired?]
  | failed error => simp [attempt, pipe?, child?, acquired?]
  | started child =>
    cases piped : link.isPiped with
    | true =>
      simp [attempt, pipe?, child?, streams, Streams.of, Output.choose, piped, acquired?]
    | false =>
      cases file : OpenFile.handleOf files .output <;>
        simp [attempt, pipe?, streams, Streams.of, Output.choose, piped, file, acquired?]

/-- The files of a stage are numbered from the next number on. -/
theorem handles_of (link : Link) (carried : Option Handle) (s : Session) :
    (of link carried s).files.map OpenFile.handle =
      (List.range' (s.host.opened + 1) (of link carried s).files.length).map Handle.file :=
  Opening.handles_of s (link.invocation.openings carried)

/-- A stage hands on the pipe of its own process. -/
theorem exists_child_of_pipe? {stage : Stage} {handle : Handle} (pipe : stage.pipe? = some handle) :
    ∃ child, stage.child? = some child ∧ handle = .pipe child.pid := by
  rw [pipe?] at pipe
  split at pipe
  · obtain ⟨child, process, same⟩ := Option.map_eq_some_iff.1 pipe
    exact ⟨child, process, same.symm⟩
  · contradiction

theorem acquired_actions :
    acquired stage.actions = stage.files.map OpenFile.handle ++ stage.pipe?.toList := by
  have opens := OpenFile.acquired_map_opened stage.files
  have closes := acquired_map_closed stage.closing
  rw [acquired] at opens closes
  rw [actions, acquired, List.filterMap_append, stage.filterMap_waiting, List.append_nil,
    launchActions, List.filterMap_append, List.filterMap_cons, opens, closes, acquired?_attempt]
  · cases stage.pipe? <;> rfl
  all_goals intros; rfl

theorem released_actions : released stage.actions = stage.closing := by
  have opens := OpenFile.released_map_opened stage.files
  have closes := released_map_closed stage.closing
  rw [released] at opens closes
  rw [actions, released, List.filterMap_append, stage.filterMap_waiting, List.append_nil,
    launchActions, List.filterMap_append, List.filterMap_cons, opens, closes, released?_attempt]
  · rfl
  all_goals intros; rfl

/-- After an invocation was started, only the pipe that is handed on is held. -/
theorem heldFrom_launchActions :
    heldFrom stage.carried.toList stage.launchActions = stage.pipe?.toList := by
  have order : (stage.carried.toList ++ stage.files.map OpenFile.handle ++ stage.pipe?.toList).Perm
      (stage.closing ++ stage.pipe?.toList) := by
    apply List.Perm.append_right
    apply List.perm_append_comm.trans
    exact (List.reverse_perm _).symm.append_right _
  have left := heldFrom_map_closed order
  -- With at most one handle left the order in which the others were closed does not matter.
  rw [launchActions, heldFrom_append, OpenFile.heldFrom_map_opened, heldFrom_cons,
    heldAfter_of_open stage.released?_attempt, acquired?_attempt]
  cases pipe : stage.pipe? with
  | none =>
    rw [pipe] at left
    exact List.perm_nil.1 left
  | some handle =>
    rw [pipe] at left
    exact List.perm_singleton.1 left

/-- Waiting changes nothing about what is held. -/
theorem heldFrom_of_mem_waiting {actions : List Action}
    (waiting : ∀ action ∈ actions, action ∈ stage.waiting) (held : List Handle) :
    heldFrom held actions = held := by
  induction actions generalizing held with
  | nil => rfl
  | cons action actions ih =>
    have isWait := (stage.wait?_of_mem_waiting (waiting action List.mem_cons_self)).1
    have unchanged : heldAfter held action = held := by
      cases action with
      | waited pid code => simp [heldAfter, acquired?]
      | interrupted pid => simp [heldAfter, acquired?]
      | _ => contradiction
    rw [heldFrom_cons, unchanged]
    exact ih (fun action member => waiting action (List.mem_cons_of_mem _ member)) held

theorem heldFrom_actions : heldFrom stage.carried.toList stage.actions = stage.pipe?.toList := by
  rw [actions, heldFrom_append, heldFrom_launchActions]
  exact stage.heldFrom_of_mem_waiting (fun _ member => member) _

/-- If the start of a process was attempted, every redirect of the link had been opened. -/
theorem map_opening_of_attempt {link : Link} {carried : Option Handle} {s : Session}
    (tries : (of link carried s).attempt.attempt?.isSome) :
    (of link carried s).files.map OpenFile.opening = link.invocation.openings carried := by
  apply Opening.map_opening_of
  cases refused : (Opening.of s (link.invocation.openings carried)).refused with
  | none => rfl
  | some refusal => simp [attempt, of, refused, attempt?] at tries

/-! ## Places in a stage -/

/-- An attempt to start a process is made right after the redirects were opened. -/
theorem cut_at_attempt {inner rest : List Action} {action : Action}
    (cut : stage.actions = inner ++ action :: rest) (tries : action.attempt?.isSome) :
    inner = stage.files.map OpenFile.opened ∧ action = stage.attempt := by
  have notOpened : action ∉ stage.files.map OpenFile.opened := by
    intro member
    obtain ⟨file, -, rfl⟩ := List.mem_map.1 member
    contradiction
  have notAfter : action ∉ stage.closing.map Action.closed ++ stage.waiting := by
    intro member
    rcases List.mem_append.1 member with closes | waits
    · obtain ⟨handle, -, rfl⟩ := List.mem_map.1 closes
      contradiction
    · have isWait := (stage.wait?_of_mem_waiting waits).1
      cases action <;> contradiction
  rw [actions, launchActions, List.append_assoc, List.cons_append] at cut
  obtain ⟨middle, rfl, place⟩ := cut_in_right cut notOpened
  cases middle with
  | nil =>
    obtain ⟨rfl, -⟩ := List.cons.inj place
    exact ⟨List.append_nil _, rfl⟩
  | cons head middle =>
    obtain ⟨-, later⟩ := List.cons.inj place
    rw [later] at notAfter
    simp at notAfter

/-- A wait comes after the invocation was started, and only waits come between. -/
theorem cut_at_wait {inner rest : List Action} {action : Action}
    (cut : stage.actions = inner ++ action :: rest) (waits : action.wait?.isSome) :
    ∃ earlier, inner = stage.launchActions ++ earlier ∧
      stage.waiting = earlier ++ action :: rest := by
  apply cut_in_right cut
  intro member
  rw [launchActions] at member
  rcases List.mem_append.1 member with opens | member
  · obtain ⟨file, -, rfl⟩ := List.mem_map.1 opens
    contradiction
  · rcases List.mem_cons.1 member with rfl | closes
    · rw [wait?_attempt] at waits
      contradiction
    · obtain ⟨handle, -, rfl⟩ := List.mem_map.1 closes
      contradiction

end Stage

namespace Chain

variable {chain : Chain} {s : Session} {before after : List Action} {action : Action}

/-- An attempt in a run is that of a stage, right after the stage's redirects were opened. -/
theorem exists_stage_of_attempt (cut : (chain.run s).actions = before ++ action :: after)
    (tries : action.attempt?.isSome) :
    ∃ earlier stage later, chain.stages s = earlier ++ stage :: later ∧
      before = earlier.flatMap Stage.actions ++ stage.files.map OpenFile.opened ∧
      action = stage.attempt := by
  obtain ⟨earlier, stage, later, inner, rest, place, rfl, inside⟩ :=
    exists_stage_of_cut cut (released?_of_attempt tries)
  obtain ⟨rfl, same⟩ := stage.cut_at_attempt inside tries
  exact ⟨earlier, stage, later, place, rfl, same⟩

/-- A wait in a run is one of a stage, after the stage's process was started and perhaps waited for
before. -/
theorem exists_stage_of_wait (cut : (chain.run s).actions = before ++ action :: after)
    (waits : action.wait?.isSome) :
    ∃ earlier stage later waited rest, chain.stages s = earlier ++ stage :: later ∧
      before = earlier.flatMap Stage.actions ++ (stage.launchActions ++ waited) ∧
      stage.waiting = waited ++ action :: rest := by
  obtain ⟨earlier, stage, later, inner, rest, place, rfl, inside⟩ :=
    exists_stage_of_cut cut (released?_of_wait waits)
  obtain ⟨waited, rfl, waiting⟩ := stage.cut_at_wait inside waits
  exact ⟨earlier, stage, later, waited, rest, place, rfl, waiting⟩

theorem attempts_run (chain : Chain) (s : Session) :
    attempts (chain.run s).actions = attempts ((chain.stages s).flatMap Stage.actions) := by
  have inClosing : attempts ((carriedAfter none (chain.stages s)).toList.map .closed) = [] :=
    filterMap_map_closed (fun _ => rfl) _
  rw [run_eq, attempts_append, inClosing, List.append_nil]

end Chain

end ChainShell
