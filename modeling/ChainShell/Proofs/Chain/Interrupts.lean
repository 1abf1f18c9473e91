/-
# ChainShell.Proofs.Chain.Interrupts — what interrupted waits change

A wait for a process may be interrupted, and is then taken up again, but only once.  The
run to compare with is that of the same session on the same machine with no wait
interrupted (`Session.calm`).  Up to the first wait that is given up the two runs meet the
same stages (`stagesFrom_calm`), so

* `gives_up_iff`: a wait is given up exactly if one of the commands that the calm run
  tries, its output not piped, has its wait interrupted more often than the shell puts up
  with;
* `absorbs_of_patient`: if none is, the runs differ in nothing but the interrupted waits.

`run_absorbs` puts the two together.  The shell puts up with one interrupt a wait, and the
second one ends the chain and leaves its process behind (`run_gives_up_twice`).
-/
import ChainShell.Proofs.Chain.Alike
import Mathlib.Data.List.Basic

set_option autoImplicit false

namespace ChainShell

open ChainShell.Action ChainShell.Activity

/-! ## Calm machines -/

/-- The outcome without any interrupt. -/
def Outcome.calm : Outcome → Outcome
  | starts returnCode polls _ => starts returnCode polls 0
  | fails error => fails error

/-- How many waits for the process are interrupted. -/
def Outcome.interrupts : Outcome → Nat
  | starts _ _ interrupts => interrupts
  | fails _ => 0

def Child.calm (child : Child) : Child := { child with interrupts := 0 }

/-- The machine on which no wait is interrupted. -/
def Host.calm (h : Host) : Host :=
  { h with programs := h.programs.map fun entry => (entry.1, entry.2.map Outcome.calm) }

def Session.calm (s : Session) : Session :=
  { s with children := s.children.map Child.calm, host := s.host.calm }

namespace Host

theorem outcome_calm (h : Host) (program : Text) :
    h.calm.outcome program = (h.outcome program).calm := by
  have found : ∀ programs : List (Text × List Outcome),
      (programs.map fun entry => (entry.1, entry.2.map Outcome.calm)).lookup program =
        (programs.lookup program).map fun outcomes => outcomes.map Outcome.calm := by
    intro programs
    induction programs with
    | nil => rfl
    | cons entry rest ih =>
      obtain ⟨name, outcomes⟩ := entry
      cases here : program == name <;> simp [List.lookup_cons, here, ih]
  rw [outcome, outcome, calm, found]
  cases h.programs.lookup program with
  | none => rfl
  | some outcomes => cases outcomes <;> rfl

theorem attempted_calm (h : Host) (program : Text) :
    h.calm.attempted program = (h.attempted program).calm := by
  have dropped : ∀ programs : List (Text × List Outcome),
      dropOutcome program (programs.map fun entry => (entry.1, entry.2.map Outcome.calm)) =
        (dropOutcome program programs).map fun entry => (entry.1, entry.2.map Outcome.calm) := by
    intro programs
    induction programs with
    | nil => rfl
    | cons entry rest ih =>
      obtain ⟨name, outcomes⟩ := entry
      by_cases here : name = program
      · rcases outcomes with _ | ⟨first, _ | ⟨second, later⟩⟩ <;> simp [dropOutcome, here]
      · simp [dropOutcome, here, ih]
  rw [attempted, attempted, calm, dropped]
  rfl

end Host

theorem Opening.of_calm (s : Session) (redirects : List (Redirect × Text)) :
    Opening.of s.calm redirects = Opening.of s redirects :=
  of_congr rfl fun _ _ => rfl

theorem Session.reaped_calm (s : Session) : s.calm.reaped = s.reaped.calm := by
  simp only [reaped, calm, List.filterMap_map, List.map_filterMap]
  congr 2
  funext child
  by_cases ended : child.polls = 0 <;> simp [Child.calm, ended]

/-- A wait that was interrupted. -/
def Action.isInterruption : Action → Bool
  | interrupted _ => true
  | _ => false

/-! ## Stages -/

def Ending.calm : Ending → Ending
  | started child => started child.calm
  | ending => ending

namespace Stage

/-- The stage on the machine on which no wait is interrupted. -/
def calm (stage : Stage) : Stage := { stage with ending := stage.ending.calm }

theorem of_calm (link : Link) (carried : Option Handle) (s : Session) :
    of link carried s.calm = (of link carried s).calm := by
  have outcome : s.calm.host.outcome link.invocation.executable = _ := Host.outcome_calm _ _
  have count : s.calm.host.started = s.host.started := rfl
  simp only [of, calm, Opening.of_calm, outcome, count]
  congr 1
  cases (Opening.of s (link.invocation.openings carried)).refused with
  | some refusal => rfl
  | none => cases s.host.outcome link.invocation.executable <;> rfl

variable (stage : Stage)

theorem child?_calm : stage.calm.child? = stage.child?.map Child.calm := by
  obtain ⟨link, carried, files, ending⟩ := stage
  cases ending <;> rfl

theorem pipe?_calm : stage.calm.pipe? = stage.pipe? := by
  rw [pipe?, pipe?, child?_calm, Option.map_map]
  rfl

theorem launchActions_calm : stage.calm.launchActions = stage.launchActions := by
  obtain ⟨link, carried, files, ending⟩ := stage
  cases ending <;> rfl

theorem afterLaunch_calm (s : Session) :
    stage.calm.afterLaunch s.calm = (stage.afterLaunch s).calm := by
  obtain ⟨link, carried, files, ending⟩ := stage
  have attempted := (s.afterOpening files.length).host.attempted_calm link.invocation.executable
  cases ending with
  | refused redirect error => rfl
  | failed error => exact congrArg (fun host => { s.calm with host := host }) attempted
  | started child =>
    exact congrArg
      (fun host => { s.calm with host := { host with started := s.host.started + 1 } }) attempted

theorem after_calm (s : Session) : stage.calm.after s.calm = (stage.after s).calm := by
  have link : stage.calm.link = stage.link := rfl
  rw [after, after, link, afterLaunch_calm, child?_calm]
  split
  · cases stage.child? <;> simp [Session.calm]
  · rfl

/-- The calm stage never gives a wait up. -/
theorem verdict_calm_ne : stage.calm.verdict ≠ some (.error .interrupted) := by
  obtain ⟨link, carried, files, ending⟩ := stage
  cases ending with
  | refused redirect error => simp [verdict, launched, calm, Ending.calm]
  | failed error => simp [verdict, launched, calm, Ending.calm]
  | started child =>
    cases piped : link.isPiped with
    | true => simp [verdict, launched, calm, Ending.calm, piped]
    | false =>
      by_cases ends : Link.endsChain link.operator (.ofReturnCode child.returnCode) = true <;>
        simp [verdict, launched, calm, Ending.calm, piped, Child.calm, ends]

section

variable {stage : Stage}

theorem verdict_calm (heldOut : stage.verdict ≠ some (.error .interrupted)) :
    stage.calm.verdict = stage.verdict := by
  obtain ⟨link, carried, files, ending⟩ := stage
  cases ending with
  | started child =>
    cases piped : link.isPiped with
    | true => simp [verdict, launched, calm, Ending.calm, piped]
    | false =>
      have patient : child.interrupts ≤ interruptsAbsorbed := patient_of_verdict rfl piped heldOut
      have patient' : child.calm.interrupts ≤ interruptsAbsorbed := Nat.zero_le _
      simp only [verdict, launched, calm, Ending.calm, if_pos patient, if_pos patient']
      rfl
  | _ => rfl

/-- A wait is given up if it is one, and is interrupted too often. -/
theorem gives_up_iff_of {link : Link} {carried : Option Handle} {s : Session} {child : Child}
    (process : (of link carried s).child? = some child) :
    (of link carried s).verdict = some (.error .interrupted) ↔
      interruptsAbsorbed <
        (link.visible (s.host.outcome link.invocation.executable)).interrupts := by
  have met : (of link carried s).link = link := rfl
  rw [(started_of process).1, verdict, launched_of_child? process, met, Link.visible]
  cases piped : link.isPiped with
  | true => simp [Outcome.interrupts]
  | false =>
    by_cases patient : child.interrupts ≤ interruptsAbsorbed
    · by_cases ends : Link.endsChain link.operator (.ofReturnCode child.returnCode) = true <;>
        simp [Outcome.interrupts, patient, ends]
    · simp [Outcome.interrupts, patient, Nat.lt_of_not_le patient]

theorem waiting_of_patient {child : Child} (process : stage.child? = some child)
    (unpiped : stage.link.isPiped = false) (heldOut : stage.verdict ≠ some (.error .interrupted)) :
    stage.waiting = List.replicate child.interrupts (.interrupted child.pid) ++
      [.waited child.pid child.returnCode] := by
  have patient := patient_of_verdict process unpiped heldOut
  rw [waiting, unpiped, process, Option.map_some, waitActions, if_pos patient,
    Nat.min_eq_left (Nat.le_succ_of_le patient)]
  rfl

/-- A stage that does not give its wait up differs from the calm one in the interrupted waits. -/
theorem actions_calm (heldOut : stage.verdict ≠ some (.error .interrupted)) :
    stage.actions.filter (!·.isInterruption) = stage.calm.actions := by
  have launching : stage.launchActions.filter (!·.isInterruption) = stage.launchActions := by
    have noWait : waits stage.launchActions = [] := by
      rw [waits, stage.filterMap_launchActions, wait?_attempt]
      · rfl
      all_goals intros; rfl
    rw [List.filter_eq_self]
    intro action member
    have silent := List.filterMap_eq_nil_iff.1 noWait action member
    cases action with
    | interrupted pid => contradiction
    | _ => rfl
  have waiting' : stage.waiting.filter (!·.isInterruption) = stage.calm.waiting := by
    have link : stage.calm.link = stage.link := rfl
    cases piped : stage.link.isPiped with
    | true => simp [waiting, link, piped]
    | false =>
      cases process : stage.child? with
      | none => simp [waiting, child?_calm, process]
      | some child =>
        have process' : stage.calm.child? = some child.calm := by rw [child?_calm, process]; rfl
        rw [waiting_of_patient process piped heldOut,
          waiting_of_patient process' piped stage.verdict_calm_ne, List.filter_append]
        simp [isInterruption, Child.calm]
  rw [actions, actions, List.filter_append, launching, waiting', launchActions_calm]

end

end Stage

namespace Chain

/-! ## Runs -/

/-- Until a wait is given up the calm run meets the same stages. -/
theorem stagesFrom_calm {carried : Option Handle} {chain : Chain} {s : Session}
    (heldOut : resultOf (stagesFrom carried chain s) ≠ .error .interrupted) :
    stagesFrom carried chain s.calm = (stagesFrom carried chain s).map Stage.calm ∧
      ∀ stage ∈ stagesFrom carried chain s, stage.verdict ≠ some (.error .interrupted) := by
  induction chain generalizing carried s with
  | nil => exact ⟨rfl, by simp [stagesFrom]⟩
  | cons link rest ih =>
    rw [stagesFrom] at heldOut ⊢
    rw [stagesFrom, Stage.of_calm]
    cases ended : (Stage.of link carried s).verdict with
    | some result =>
      simp only [ended, resultOf, List.getLast?_singleton, Option.bind_some, Option.getD_some]
        at heldOut
      have here : (Stage.of link carried s).verdict ≠ some (.error .interrupted) := by
        rw [ended]
        exact fun same => heldOut (Option.some.inj same)
      simp [Stage.verdict_calm here, ended, heldOut]
    | none =>
      have here : (Stage.of link carried s).verdict ≠ some (.error .interrupted) := by simp [ended]
      simp only [ended, resultOf_cons ended] at heldOut
      obtain ⟨same, later⟩ := ih heldOut
      simp only [Stage.verdict_calm here, ended, Stage.pipe?_calm, Stage.after_calm, same]
      refine ⟨rfl, ?_⟩
      intro stage member
      rcases List.mem_cons.1 member with rfl | member
      · exact here
      · exact later stage member

theorem sessionAfter_calm (s : Session) (stages : List Stage) :
    sessionAfter s.calm (stages.map Stage.calm) = (sessionAfter s stages).calm := by
  induction stages generalizing s with
  | nil => rfl
  | cons stage rest ih =>
    show sessionAfter (stage.calm.after s.calm) (rest.map Stage.calm) = _
    rw [Stage.after_calm, ih]
    rfl

/-- The outcomes that the commands met which the calm run tries, as far as a run can tell. -/
def outcomesTried (chain : Chain) (s : Session) : List Outcome :=
  (s.host.visibleOutcomes chain).take (attempts (chain.run s.calm).actions).length

/-- A wait is given up exactly if one of the waits for the processes that the calm run starts is
interrupted too often. -/
theorem gives_up_iff (carried : Option Handle) (chain : Chain) (s : Session) :
    resultOf (stagesFrom carried chain s) = .error .interrupted ↔
      ∃ outcome ∈ (s.host.visibleOutcomes chain).take
        (attempts ((stagesFrom carried chain s.calm).flatMap Stage.actions)).length,
        interruptsAbsorbed < outcome.interrupts := by
  induction chain generalizing carried s with
  | nil => simp [stagesFrom, resultOf, Host.visibleOutcomes]
  | cons link rest ih =>
    have met : (Stage.of link carried s).link = link := rfl
    rw [stagesFrom, stagesFrom, Stage.of_calm, Host.visibleOutcomes]
    cases ending : (Stage.of link carried s).ending with
    | refused redirect error =>
      have verdict : (Stage.of link carried s).verdict =
          some (.error (error.fault (.redirectFailed redirect.2 error.reason))) := by
        simp [Stage.verdict, Stage.launched, ending]
      have calm : (Stage.of link carried s).calm.verdict = _ :=
        (Stage.verdict_calm (by simp [verdict])).trans verdict
      have silent : (Stage.of link carried s).calm.attempt.attempt? = none := by
        simp [Stage.attempt, Stage.calm, ending, Ending.calm, attempt?]
      simp [verdict, calm, resultOf, Stage.attempts_actions, silent]
    | failed error =>
      have verdict : (Stage.of link carried s).verdict =
          some (.error (error.fault (.commandNotFound link.invocation.executable
            (if error.isNotFound then none else some error.reason)))) := by
        simp [Stage.verdict, Stage.launched, ending, met]
      have calm : (Stage.of link carried s).calm.verdict = _ :=
        (Stage.verdict_calm (by simp [verdict])).trans verdict
      have tries : (Stage.of link carried s).calm.attempt.attempt? = some link.invocation.argv := by
        simp [Stage.attempt, Stage.calm, ending, Ending.calm, attempt?, met]
      have outcome := (Stage.failed_of ending).1
      simp [verdict, calm, resultOf, Stage.attempts_actions, tries, outcome, Link.visible,
        Outcome.interrupts]
    | started child =>
      have process : (Stage.of link carried s).child? = some child := by
        rw [Stage.child?, ending]
      have outcome := (Stage.started_of process).1
      have tries : (Stage.of link carried s).calm.attempt.attempt? = some link.invocation.argv := by
        simp [Stage.attempt, Stage.calm, ending, Ending.calm, attempt?, met]
      have later : (s.host.attempted link.invocation.executable).visibleOutcomes rest =
          ((Stage.of link carried s).after s).host.visibleOutcomes rest :=
        (Host.visibleOutcomes_congr (Stage.programs_after process s) rest).symm
      have givesUp := Stage.gives_up_iff_of process
      rw [outcome] at givesUp
      by_cases impatient : (Stage.of link carried s).verdict = some (.error .interrupted)
      · have tooOften := givesUp.1 impatient
        have here : link.visible (.starts child.returnCode child.polls child.interrupts) ∈
            (link.visible (.starts child.returnCode child.polls child.interrupts) ::
              (s.host.attempted link.invocation.executable).visibleOutcomes rest).take 1 := by simp
        refine iff_of_true (by simp [impatient, resultOf]) ?_
        rw [outcome]
        refine ⟨_, List.take_subset_take_left _ ?_ here, tooOften⟩
        split <;> simp [Stage.attempts_actions, tries]
      · rw [Stage.verdict_calm impatient]
        cases ended : (Stage.of link carried s).verdict with
        | some result =>
          rw [ended] at givesUp
          simpa [resultOf, Stage.attempts_actions, tries, outcome, ended] using givesUp
        | none =>
          have patient := mt givesUp.2 impatient
          simp [Stage.pipe?_calm, Stage.after_calm, resultOf_cons ended, ih,
            Stage.attempts_actions, tries, outcome, later, patient]

theorem resultOf_calm_ne (carried : Option Handle) (chain : Chain) (s : Session) :
    resultOf (stagesFrom carried chain s.calm) ≠ .error .interrupted := by
  induction chain generalizing carried s with
  | nil => simp [stagesFrom, resultOf]
  | cons link rest ih =>
    have here := (Stage.of link carried s).verdict_calm_ne
    rw [stagesFrom, Stage.of_calm]
    cases ended : (Stage.of link carried s).calm.verdict with
    | some result =>
      rw [ended] at here
      simpa [resultOf, ended] using here
    | none =>
      simp only [resultOf_cons ended, Stage.after_calm]
      exact ih _ _

theorem resultOf_map_calm {stages : List Stage}
    (heldOut : ∀ stage ∈ stages, stage.verdict ≠ some (.error .interrupted)) :
    resultOf (stages.map Stage.calm) = resultOf stages := by
  rw [resultOf, resultOf, List.getLast?_map]
  cases last : stages.getLast? with
  | none => rfl
  | some stage =>
    have verdict := Stage.verdict_calm (heldOut stage (List.mem_of_getLast? last))
    simp [verdict]

theorem carriedAfter_map_calm (stages : List Stage) :
    carriedAfter none (stages.map Stage.calm) = carriedAfter none stages := by
  rw [carriedAfter, carriedAfter, List.getLast?_map, Option.map_map]
  have pipe : Stage.pipe? ∘ Stage.calm = Stage.pipe? := funext Stage.pipe?_calm
  rw [pipe]

theorem flatMap_actions_calm {stages : List Stage}
    (heldOut : ∀ stage ∈ stages, stage.verdict ≠ some (.error .interrupted)) :
    (stages.map Stage.calm).flatMap Stage.actions =
      (stages.flatMap Stage.actions).filter (!·.isInterruption) := by
  rw [List.flatMap_map, List.filter_flatMap]
  apply List.flatMap_congr
  intro stage member
  exact (Stage.actions_calm (heldOut stage member)).symm

/-- After an interrupt that is put up with comes the same wait again. -/
theorem resumed_of_patient {chain : Chain} {s : Session}
    (heldOut : ∀ stage ∈ chain.stages s, stage.verdict ≠ some (.error .interrupted))
    {before after : List Action} {pid : Nat}
    (cut : (chain.run s).actions = before ++ .interrupted pid :: after) :
    ∃ again code rest,
      after = List.replicate again (.interrupted pid) ++ .waited pid code :: rest := by
  obtain ⟨earlier, stage, later, waited, rest, place, rfl, waiting⟩ := exists_stage_of_wait cut rfl
  have member : stage ∈ chain.stages s := by rw [place]; simp
  have waits : Action.interrupted pid ∈ stage.waiting := by rw [waiting]; simp
  obtain ⟨child, process, isPid, unpiped⟩ := stage.exists_child_of_mem_waiting waits
  obtain rfl : pid = child.pid := Option.some.inj isPid
  have shape := Stage.waiting_of_patient process unpiped (heldOut stage member)
  rw [run_eq, place, List.flatMap_append, List.flatMap_cons, Stage.actions, waiting] at cut
  simp only [List.append_assoc, List.cons_append, List.append_cancel_left_eq, List.cons.injEq,
    true_and] at cut
  rw [shape] at waiting
  rcases cut_cases waiting with ⟨more, interrupts, rfl⟩ | ⟨inner, -, answer⟩
  · obtain ⟨-, -, again⟩ := List.replicate_eq_append_iff.1 interrupts
    rw [List.length_cons, List.replicate_succ] at again
    obtain ⟨-, again⟩ := List.cons.inj again
    rw [← cut, List.append_assoc, again]
    exact ⟨more.length, child.returnCode, _, rfl⟩
  · have onlyAnswer : interrupted child.pid ∈ [.waited child.pid child.returnCode] := by
      rw [answer]
      simp
    simp at onlyAnswer

/-- The run did what the calm one did, but for the waits that were interrupted; each of these it
took up again until it had the return code. -/
structure Absorbs (ended calm : Ended Status) : Prop where
  result : ended.result = calm.result
  actions : ended.actions.filter (!·.isInterruption) = calm.actions
  resumed : ∀ before pid after, ended.actions = before ++ .interrupted pid :: after →
    ∃ again code rest,
      after = List.replicate again (.interrupted pid) ++ .waited pid code :: rest
  session : ended.session.calm = calm.session

theorem absorbs_of_patient {chain : Chain} {s : Session}
    (heldOut : (chain.run s).result ≠ .error .interrupted) :
    Absorbs (chain.run s) (chain.run s.calm) := by
  have result : resultOf (chain.stages s) ≠ .error .interrupted := by rwa [run_eq] at heldOut
  have ⟨same, heldOutAll⟩ := stagesFrom_calm result
  have stages : chain.stages s.calm = (chain.stages s).map Stage.calm := same
  have patient : ∀ stage ∈ chain.stages s, stage.verdict ≠ some (.error .interrupted) := heldOutAll
  refine ⟨?_, ?_, ?_, ?_⟩
  · rw [run_eq, run_eq, stages]
    exact (resultOf_map_calm patient).symm
  · have closing : ∀ handles : List Handle,
        (handles.map Action.closed).filter (!·.isInterruption) = handles.map Action.closed := by
      intro handles
      simp [List.filter_map, Function.comp_def, isInterruption]
    rw [run_eq, run_eq, stages, List.filter_append, closing]
    show _ = ((chain.stages s).map Stage.calm).flatMap Stage.actions ++
      (carriedAfter none ((chain.stages s).map Stage.calm)).toList.map .closed
    rw [carriedAfter_map_calm, flatMap_actions_calm patient]
  · intro before pid after cut
    exact resumed_of_patient patient cut
  · rw [run_eq, run_eq, stages]
    show (sessionAfter s (chain.stages s)).reaped.calm =
      (sessionAfter s.calm ((chain.stages s).map Stage.calm)).reaped
    rw [sessionAfter_calm, Session.reaped_calm]

/-- If no wait is given up, the run only takes up again what was interrupted; and a wait is given up
exactly if one for a command that the calm run tries is interrupted more often than the shell puts
up with. -/
theorem run_absorbs (chain : Chain) (s : Session) :
    (chain.run s.calm).result ≠ .error .interrupted ∧
      ((chain.run s).result = .error .interrupted ↔
        ∃ outcome ∈ chain.outcomesTried s, interruptsAbsorbed < outcome.interrupts) ∧
      ((chain.run s).result ≠ .error .interrupted → Absorbs (chain.run s) (chain.run s.calm)) := by
  refine ⟨?_, ?_, absorbs_of_patient⟩
  · rw [run_eq]
    exact resultOf_calm_ne none chain s
  · rw [outcomesTried, attempts_run, run_eq]
    exact gives_up_iff none chain s

/-- One interrupt of a wait is put up with, and the second one is not: the chain ends, and its
process, which would have ended well, is neither waited for nor a child of the session. -/
theorem run_gives_up_twice :
    let chain : Chain := [⟨{ executable := ['w'] }, none⟩]
    let s (interrupts : Nat) : Session :=
      { host := { programs := [(['w'], [.starts 0 0 interrupts])] } }
    (chain.run (s 1)).result = .ok .ok ∧ (chain.run (s 2)).result = .error .interrupted ∧
      (chain.run (s 2).calm).result = .ok .ok ∧ answers (chain.run (s 2)).actions = [] ∧
      (chain.run (s 2)).session.children = [] := by
  intro chain s
  refine ⟨rfl, rfl, rfl, rfl, rfl⟩

end Chain

end ChainShell
