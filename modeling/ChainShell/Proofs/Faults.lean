/-
# ChainShell.Proofs.Faults — which faults there are, and who is to blame

An error of the shell ends a chain, a line or a script, and is reported where these are
used.  Whatever else faults is the machine's doing: a wait that is interrupted too often,
a mode call that fails, or a call that it does not take.  A `Promise` says what of this the
machine does not do, and a machine that keeps its promise keeps it whatever the shell does
to it.

An activity is `Confined` if, on a machine that keeps a promise, it faults only in ways that
are allowed.  Confined activities are closed under sequencing, cleanup and recovery
(`Confined.bind`, `Confined.ensuring`, `Confined.recovering`), and

* running a chain faults with an error of the shell, or as the promise leaves open
  (`confined_run`);
* a line that was entered, and the whole interactive shell, fault only as the promise leaves
  open (`confined_runCommitted`, `confined_runEvents`).

Every machine promises to have no errors but its own (`keeps_own`).  So what goes past the errors
of the shell and is from outside is what the machine at hand does not take (`declines_of_raised`).
-/
import ChainShell.Console
import ChainShell.Proofs.Chain.Failure
import ChainShell.Proofs.Chain.Interrupts
import ChainShell.Proofs.Terminal.Modes

set_option autoImplicit false

namespace ChainShell

open ChainShell.Activity ChainShell.Terminal

/-! ## Promises -/

/-- What a machine promises. -/
structure Promise where
  /-- No wait is interrupted. -/
  quiet : Bool := false
  /-- No mode call fails. -/
  obedient : Bool := false
  /-- What is refused is refused with an error of these. -/
  errors : OsError → Prop := fun _ => True

namespace Promise

/-- The faults that are the machine's doing, and that its promise does not rule out. -/
def LeavesOpen (p : Promise) : Fault → Prop
  | .interrupted => p.quiet = false
  | .terminal => p.obedient = false
  | .raised message => p.errors (.invalid message)
  | _ => False

/-- Such faults, and the errors of the shell. -/
def Allows (p : Promise) (fault : Fault) : Prop :=
  p.LeavesOpen fault ∨ ∃ error, fault = .shell error

/-- What the shell makes of an error that was promised is an error of the shell, or passes. -/
theorem allows_fault {p : Promise} {error : OsError} (promised : p.errors error)
    (told : ShellError) : p.Allows (error.fault told) := by
  rcases error.fault_cases told with ⟨-, same⟩ | ⟨message, rfl, same⟩
  · exact .inr ⟨told, same⟩
  · rw [same]
    exact .inl promised

end Promise

/-- The machine keeps a promise. -/
structure Host.Keeps (p : Promise) (h : Host) : Prop where
  quiet : p.quiet = true →
    ∀ entry ∈ h.programs, ∀ outcome ∈ entry.2, outcome.interrupts = 0
  obedient : p.obedient = true → ∀ call, (h.callCount call).failing = []
  errors : ∀ demand error, h.Refuses error demand → p.errors error

variable {p : Promise} {h : Host}

namespace Host

/-- A machine that promised nothing keeps its promise. -/
theorem keeps_nothing (h : Host) : h.Keeps {} where
  quiet promised := by contradiction
  obedient promised := by contradiction
  errors _ _ _ := trivial

theorem keeps_obedient (obedient : ∀ call, (h.callCount call).failing = []) :
    h.Keeps { obedient := true } where
  quiet promised := by contradiction
  obedient _ := obedient
  errors _ _ _ := trivial

/-- A machine has no errors but its own. -/
theorem keeps_own (h : Host) :
    h.Keeps { errors := fun error => ∃ demand, h.Refuses error demand } where
  quiet promised := by contradiction
  obedient promised := by contradiction
  errors demand error refused := ⟨demand, refused⟩

/-- The next attempt to start a program has one of its outcomes, or finds nothing. -/
theorem outcome_cases (h : Host) (program : Text) :
    (∃ entry ∈ h.programs, h.outcome program ∈ entry.2) ∨ h.outcome program = .fails .notFound := by
  rw [outcome]
  split
  · rename_i first later found
    obtain ⟨_, _, split, -⟩ := List.lookup_eq_some_iff.1 found
    exact .inl ⟨(program, first :: later), by rw [split]; simp, List.mem_cons_self⟩
  · exact .inr rfl

/-- An attempt leaves no new outcomes. -/
theorem exists_of_mem_dropOutcome {program : Text} {programs : List (Text × List Outcome)}
    {entry : Text × List Outcome} (member : entry ∈ dropOutcome program programs) :
    ∃ before ∈ programs, entry.2 ⊆ before.2 := by
  have unchanged : ∀ {others : List (Text × List Outcome)}, entry ∈ others →
      ∃ before ∈ others, entry.2 ⊆ before.2 := fun found => ⟨entry, found, List.Subset.refl _⟩
  induction programs with
  | nil => contradiction
  | cons first rest ih =>
    obtain ⟨name, outcomes⟩ := first
    by_cases here : name = program
    · rcases outcomes with _ | ⟨outcome, _ | ⟨next, later⟩⟩
      · exact unchanged (by simpa [dropOutcome, here] using member)
      · exact unchanged (by simpa [dropOutcome, here] using member)
      · simp only [dropOutcome, here, if_true, List.mem_cons] at member
        rcases member with rfl | member
        · exact ⟨_, List.mem_cons_self, List.subset_cons_self _ _⟩
        · exact ⟨entry, List.mem_cons_of_mem _ member, List.Subset.refl _⟩
    · simp only [dropOutcome, here, if_false, List.mem_cons] at member
      rcases member with rfl | member
      · exact ⟨_, List.mem_cons_self, List.Subset.refl _⟩
      · obtain ⟨before, found, fewer⟩ := ih member
        exact ⟨before, List.mem_cons_of_mem _ found, fewer⟩

namespace Keeps

theorem outcome (keeps : h.Keeps p) (promised : p.quiet = true) (program : Text) :
    (h.outcome program).interrupts = 0 := by
  rcases h.outcome_cases program with ⟨entry, found, member⟩ | missing
  · exact keeps.quiet promised entry found _ member
  · rw [missing]
    rfl

/-- Nothing else of a machine matters to its promise. -/
theorem congr {h' : Host} (keeps : h.Keeps p) (programs : h'.programs = h.programs)
    (openErrors : h'.openErrors = h.openErrors)
    (counts : ∀ call, (h'.callCount call).failing = (h.callCount call).failing) : h'.Keeps p where
  quiet promised := by
    rw [programs]
    exact keeps.quiet promised
  obedient promised call := by
    rw [counts]
    exact keeps.obedient promised call
  errors demand error refused :=
    keeps.errors demand error ((refuses_congr programs openErrors).1 refused)

theorem attempted (keeps : h.Keeps p) (program : Text) : (h.attempted program).Keeps p where
  quiet promised entry member outcome mine := by
    obtain ⟨before, found, fewer⟩ := exists_of_mem_dropOutcome member
    exact keeps.quiet promised before found outcome (fewer mine)
  obedient promised call := by
    have same : (h.attempted program).callCount call = h.callCount call := by cases call <;> rfl
    rw [same]
    exact keeps.obedient promised call
  errors demand error refused := by
    obtain ⟨before, refusedBefore⟩ := exists_refuses_of_attempted refused
    exact keeps.errors before error refusedBefore

theorem called (keeps : h.Keeps p) (call : ModeCall) : (h.called call).Keeps p :=
  keeps.congr (by cases call <;> rfl) (by cases call <;> rfl) fun other => by
    cases call <;> cases other <;> rfl

end Keeps

end Host

/-! ## Chains -/

namespace Stage

/-- A stage leaves a machine that keeps its promise. -/
theorem keeps_after {s : Session} (keeps : s.host.Keeps p) (stage : Stage) :
    (stage.after s).host.Keeps p :=
  host_after (fun _ program kept => kept.attempted program)
    (fun _ _ _ kept => kept.congr rfl rfl fun call => by cases call <;> rfl) keeps stage

/-- A process that was not started was refused, or one of its redirects was. -/
theorem refuses_of_fault {link : Link} {carried : Option Handle} {s : Session} {fault : Fault}
    (failed : (of link carried s).launched = .error fault) :
    ∃ demand error told, s.host.Refuses error demand ∧ fault = error.fault told := by
  rw [launched] at failed
  cases ending : (of link carried s).ending with
  | started child =>
    rw [ending] at failed
    contradiction
  | refused redirect error =>
    rw [ending] at failed
    have refused := Opening.lookup_of_refused (refused_of ending)
    exact ⟨.opening redirect.2, error, _, refused, (Except.error.inj failed).symm⟩
  | failed error =>
    rw [ending] at failed
    have fails : s.host.outcomeAt link.invocation.executable 0 = .fails error :=
      (Host.outcomeAt_zero _ _).trans (failed_of ending).1
    exact ⟨.start link.invocation.executable 0, error, _, fails, (Except.error.inj failed).symm⟩

/-- A stage ends the chain with an error of the shell, or as the promise leaves open. -/
theorem allows_of_verdict {link : Link} {carried : Option Handle} {s : Session} {fault : Fault}
    (keeps : s.host.Keeps p) (ended : (of link carried s).verdict = some (.error fault)) :
    p.Allows fault := by
  rcases verdict_error_cases ended with launched | ⟨rfl, child, process, impatient⟩
  · obtain ⟨demand, error, told, refused, rfl⟩ := refuses_of_fault launched
    exact Promise.allows_fault (keeps.errors demand error refused) told
  · refine .inl (Bool.eq_false_iff.2 fun promised => ?_)
    have quiet := keeps.outcome promised link.invocation.executable
    rw [(started_of process).1] at quiet
    have interrupts : child.interrupts = 0 := quiet
    rw [interrupts] at impatient
    contradiction

end Stage

namespace Chain

/-- A whole run leaves a machine that keeps the promise, and its fault is allowed. -/
theorem keeps_stagesFrom (carried : Option Handle) (chain : Chain) {s : Session}
    (keeps : s.host.Keeps p) :
    (sessionAfter s (stagesFrom carried chain s)).host.Keeps p ∧
      ∀ fault, resultOf (stagesFrom carried chain s) = .error fault → p.Allows fault := by
  induction chain generalizing carried s with
  | nil => exact ⟨keeps, fun fault ended => by contradiction⟩
  | cons link rest ih =>
    have after := Stage.keeps_after keeps (Stage.of link carried s)
    rw [stagesFrom]
    cases ended : (Stage.of link carried s).verdict with
    | some result =>
      refine ⟨after, fun fault result => ?_⟩
      simp only [ended, resultOf, List.getLast?_singleton, Option.bind_some, Option.getD_some]
        at result
      rw [result] at ended
      exact Stage.allows_of_verdict keeps ended
    | none =>
      simp only [resultOf_cons ended]
      exact ih _ after

end Chain

/-! ## Confined activities -/

namespace Activity

/-- On a machine that keeps its promise the activity leaves one that does, and its faults are
allowed. -/
structure Confined {α : Type} (p : Promise) (allowed : Fault → Prop) (body : Activity α) :
    Prop where
  keeps : ∀ s, s.host.Keeps p → (body s).session.host.Keeps p
  faults : ∀ s fault, s.host.Keeps p → (body s).result = .error fault → allowed fault

variable {α β : Type} {allowed : Fault → Prop}

theorem confined_pure (a : α) : Confined p allowed (pure a : Activity α) :=
  ⟨fun _ keeps => keeps, fun _ _ _ ended => by contradiction⟩

theorem confined_fail {fault : Fault} (fine : allowed fault) :
    Confined p allowed (fail fault : Activity α) where
  keeps _ keeps := keeps
  faults _ _ _ ended := Except.error.inj ended ▸ fine

theorem confined_act (action : Action) : Confined p allowed (act action) :=
  ⟨fun _ keeps => keeps, fun _ _ _ ended => by contradiction⟩

theorem confined_modify {change : Session → Session}
    (keeping : ∀ s, s.host.Keeps p → (change s).host.Keeps p) :
    Confined p allowed (modify change) :=
  ⟨keeping, fun _ _ _ ended => by contradiction⟩

theorem confined_get_bind {next : Session → Activity β} (later : ∀ s, Confined p allowed (next s)) :
    Confined p allowed (get >>= next) where
  keeps s := (later s).keeps s
  faults s := (later s).faults s

namespace Confined

theorem bind {first : Activity α} {next : α → Activity β} (here : Confined p allowed first)
    (there : ∀ a, Confined p allowed (next a)) : Confined p allowed (first >>= next) where
  keeps s keeps := by
    have middle := here.keeps s keeps
    cases ended : (first s).result with
    | error fault =>
      rw [bind_apply_of_error ended]
      exact middle
    | ok a =>
      rw [bind_apply_of_ok ended]
      exact (there a).keeps _ middle
  faults s fault keeps faulted := by
    cases ended : (first s).result with
    | error other =>
      rw [bind_apply_of_error ended] at faulted
      exact Except.error.inj faulted ▸ here.faults s other keeps ended
    | ok a =>
      rw [bind_apply_of_ok ended] at faulted
      exact (there a).faults _ fault (here.keeps s keeps) faulted

/-- A cleanup adds its own faults to those of the body. -/
theorem ensuring {body : Activity α} {cleanup : Activity Unit} (here : Confined p allowed body)
    (there : Confined p allowed cleanup) : Confined p allowed (ensuring body cleanup) where
  keeps s keeps := by
    rw [ensuring_apply]
    exact there.keeps _ (here.keeps s keeps)
  faults s fault keeps faulted := by
    rw [ensuring_apply] at faulted
    cases after : (cleanup (body s).session).result with
    | error other =>
      rw [after] at faulted
      exact Except.error.inj faulted ▸ there.faults _ other (here.keeps s keeps) after
    | ok finished =>
      rw [after] at faulted
      exact here.faults s fault keeps faulted

/-- Recovery takes the errors of the shell away. -/
theorem recovering {body : Activity α} (here : Confined p p.Allows body) :
    Confined p p.LeavesOpen (recovering body) where
  keeps s keeps := by
    rw [recovering_apply]
    exact here.keeps s keeps
  faults s fault keeps faulted := by
    rw [recovering_apply] at faulted
    cases ended : (body s).result with
    | ok a => simp [ended] at faulted
    | error other =>
      have blame := here.faults s other keeps ended
      cases other with
      | shell error => simp [ended] at faulted
      | _ =>
        simp only [ended] at faulted
        obtain rfl := Except.error.inj faulted
        rcases blame with broken | ⟨error, same⟩
        · exact broken
        · contradiction

end Confined

/-! ## The shell -/

theorem confined_run (chain : Chain) : Confined p p.Allows chain.run where
  keeps s keeps := by
    rw [Chain.run_eq]
    exact (Chain.keeps_stagesFrom none chain keeps).1
  faults s fault keeps ended := by
    rw [Chain.run_eq] at ended
    exact (Chain.keeps_stagesFrom none chain keeps).2 fault ended

theorem confined_statement (statement : Statement) : Confined p p.Allows statement.run := by
  cases statement with
  | assign name expression =>
    exact Confined.bind (confined_modify fun _ keeps => keeps) fun _ => confined_pure _
  | command line =>
    refine confined_get_bind fun s => ?_
    cases Chain.ofLine s.store line with
    | error error => exact confined_fail (.inr ⟨error, rfl⟩)
    | ok chain => exact confined_run chain

/-- A script faults with an error of the shell, or as the promise leaves open. -/
theorem confined_runAll (status : Status) (statements : List Statement) :
    Confined p p.Allows (Statement.runAll status statements) := by
  induction statements generalizing status with
  | nil => exact confined_pure status
  | cons statement rest ih => exact (confined_statement statement).bind ih

/-- What passes a script and is from outside is what the machine does not take. -/
theorem declines_of_raised {status : Status} {statements : List Statement} {s : Session}
    {message : Text}
    (raised : (Statement.runAll status statements s).result = .error (.raised message)) :
    s.host.Declines message := by
  rcases (confined_runAll status statements).faults s _ s.host.keeps_own raised with
    declined | ⟨error, same⟩
  · exact declined
  · contradiction

theorem confined_reporting {body : Activity α} (here : Confined p p.Allows body) :
    Confined p p.LeavesOpen (reporting body) := by
  refine here.recovering.bind fun outcome => ?_
  cases outcome with
  | error error => exact (confined_act _).bind fun _ => confined_pure _
  | ok a => exact confined_pure _

theorem confined_reportSignal (status : Status) : Confined p allowed (reportSignal status) := by
  rw [reportSignal]
  split
  · exact confined_act _
  · exact confined_pure _

/-- A line that was entered faults only as the promise leaves open. -/
theorem confined_runCommitted (line : Text) : Confined p p.LeavesOpen (runCommitted line) := by
  rw [runCommitted]
  split
  · exact confined_pure _
  · refine (confined_reporting (confined_statement _)).bind fun outcome => ?_
    cases outcome with
    | error code => exact confined_pure _
    | ok status => exact (confined_reportSignal status).bind fun _ => confined_pure _

theorem confined_callMode (call : ModeCall) : Confined p p.LeavesOpen (callMode call) where
  keeps s keeps := by
    rw [callMode_apply]
    dsimp only
    split
    · exact keeps.called call
    · exact keeps.called call
  faults s fault keeps faulted := by
    rw [callMode_apply] at faulted
    dsimp only at faulted
    split at faulted
    · rename_i fails
      obtain rfl : Fault.terminal = fault := Except.error.inj faulted
      refine Bool.eq_false_iff.2 fun promised => ?_
      have none := (keeps.called call).obedient promised call
      rw [none] at fails
      contradiction
    · contradiction

theorem confined_enterRaw : Confined p p.LeavesOpen enterRaw := by
  refine confined_get_bind fun s => ?_
  split
  · refine (confined_callMode .save).bind fun number => ?_
    refine (confined_act _).bind fun _ => ?_
    refine Confined.bind (confined_modify fun _ keeps => keeps) fun _ => ?_
    exact (confined_callMode .enterRaw).bind fun _ => confined_act _
  · exact confined_pure _

theorem confined_leaveRaw : Confined p p.LeavesOpen leaveRaw := by
  refine confined_get_bind fun s => ?_
  cases s.savedMode with
  | none => exact confined_pure _
  | some number =>
    refine Confined.bind (confined_modify fun _ keeps => keeps) fun _ => ?_
    exact (confined_callMode .restore).bind fun _ => confined_act _

variable {body : Activity α}

theorem Confined.raw (confined : Confined p p.LeavesOpen body) :
    Confined p p.LeavesOpen (raw body) :=
  confined_enterRaw.bind fun _ => confined.ensuring confined_leaveRaw

theorem Confined.cooked (confined : Confined p p.LeavesOpen body) :
    Confined p p.LeavesOpen (cooked body) :=
  confined_leaveRaw.bind fun _ => confined.ensuring confined_enterRaw

theorem confined_browse (c : Console) (move : History → History) :
    Confined p p.LeavesOpen (c.browse move) := by
  refine confined_get_bind fun s => ?_
  dsimp only
  split
  · exact confined_pure c
  · exact Confined.bind (confined_modify fun _ keeps => keeps) fun _ => confined_pure _

theorem confined_commit (c : Console) : Confined p p.LeavesOpen c.commit := by
  have entered := (confined_act (.wrote .out ['\n'])).bind fun _ =>
    confined_runCommitted (p := p) c.buffer.contents
  refine entered.cooked.bind fun status => ?_
  cases status with
  | none => exact confined_pure _
  | some status =>
    exact Confined.bind (confined_modify fun _ keeps => keeps) fun _ => confined_pure _

theorem confined_strike (c : Console) (stroke : Stroke) :
    Confined p p.LeavesOpen (c.strike stroke) := by
  cases stroke with
  | char text => exact confined_pure _
  | key key =>
    cases key with
    | enter => exact confined_commit c
    | up | down => exact confined_browse c _
    | _ => exact confined_pure _

theorem confined_attend (marker : Marker) (c : Console) (events : List KeyEvent) :
    Confined p p.LeavesOpen (Console.attend marker none c events) := by
  induction events generalizing c with
  | nil => exact confined_pure c
  | cons event rest ih =>
    rw [Console.attend]
    split
    · exact confined_pure c
    · split
      · exact ih c
      · exact (confined_strike c event.stroke).bind fun next =>
          (confined_act _).bind fun _ => ih next

/-- The interactive shell, as long as its source of events does not fault, faults only as the
promise leaves open. -/
theorem confined_runEvents (marker : Marker) (events : List KeyEvent) :
    Confined p p.LeavesOpen (Console.runEvents marker events none) := by
  have session : Confined p p.LeavesOpen (Console.redraw marker {} >>= fun _ =>
      Console.attend marker none {} events) :=
    (confined_act _).bind fun _ => confined_attend marker {} events
  refine session.raw.bind fun c => (confined_act _).bind fun _ => ?_
  exact Confined.bind (confined_modify fun _ keeps => keeps) fun _ => confined_pure _

end Activity

end ChainShell
