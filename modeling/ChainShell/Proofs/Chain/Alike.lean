/-
# ChainShell.Proofs.Chain.Alike — what a run cannot tell about its machine

A run of a chain learns how a process ends only if it waits for it, and it never waits for
a process whose output is piped.  `Host.visibleOutcomes` lists what the links of a chain
meet on a machine, without the part that a run does not learn.

* Two stages of one link that meet the same visible outcome are `Alike`: they give the
  same verdict, try the same command, and both hand a pipe on or neither does.
* Two runs that meet the same visible outcomes try the same commands and have the same
  result, whatever else differs (`run_alike`).
-/
import ChainShell.Proofs.Chain.Views

set_option autoImplicit false

namespace ChainShell

open ChainShell.Action ChainShell.Activity

/-! ## Visible outcomes -/

/-- What a run can tell of an outcome: if the output is piped, not how the process ends. -/
def Link.visible (link : Link) : Outcome → Outcome
  | .starts returnCode polls interrupts =>
    if link.isPiped then .starts 0 0 0 else .starts returnCode polls interrupts
  | .fails error => .fails error

/-- The visible outcomes that the links of a chain meet if each is tried in turn. -/
def Host.visibleOutcomes (h : Host) : Chain → List Outcome
  | [] => []
  | link :: rest =>
    link.visible (h.outcome link.invocation.executable) ::
      (h.attempted link.invocation.executable).visibleOutcomes rest

/-- The outcomes are those of the machine's programs. -/
theorem Host.visibleOutcomes_congr {first second : Host} (same : second.programs = first.programs)
    (chain : Chain) : second.visibleOutcomes chain = first.visibleOutcomes chain := by
  induction chain generalizing first second with
  | nil => rfl
  | cons link rest ih =>
    have outcome : second.outcome link.invocation.executable =
        first.outcome link.invocation.executable := by rw [Host.outcome, Host.outcome, same]
    have later : (second.attempted link.invocation.executable).visibleOutcomes rest =
        (first.attempted link.invocation.executable).visibleOutcomes rest := by
      apply ih
      rw [Host.attempted, Host.attempted, same]
    rw [visibleOutcomes, visibleOutcomes, outcome, later]

theorem Opening.refused_congr {s s' : Session} (same : s'.host.openErrors = s.host.openErrors)
    (redirects : List (Redirect × Text)) :
    (Opening.of s' redirects).refused = (Opening.of s redirects).refused := by
  induction redirects generalizing s s' with
  | nil => rfl
  | cons redirect rest ih =>
    obtain ⟨stream, path⟩ := redirect
    cases found : s.host.openErrors.lookup path with
    | some error => simp [Opening.of, same, found]
    | none =>
      simp only [Opening.of, same, found]
      exact ih same

/-! ## Stages that are alike -/

/-- What a run can tell of an ending: not the number of the process, and if the output is piped,
not how the process ends. -/
def Link.visibleEnding (link : Link) : Ending → Ending
  | .started child => .started (if link.isPiped then ⟨0, 0, 0, 0⟩ else { child with pid := 0 })
  | ending => ending

namespace Stage

theorem visibleEnding_of (link : Link) (carried : Option Handle) (s : Session) :
    link.visibleEnding (of link carried s).ending =
      match (Opening.of s (link.invocation.openings carried)).refused with
      | some (redirect, error) => .refused redirect error
      | none =>
        match link.visible (s.host.outcome link.invocation.executable) with
        | .fails error => .failed error
        | .starts returnCode polls interrupts => .started ⟨0, returnCode, polls, interrupts⟩ := by
  cases refused : (Opening.of s (link.invocation.openings carried)).refused with
  | some refusal => simp only [of, refused, Link.visibleEnding]
  | none =>
    cases outcome : s.host.outcome link.invocation.executable with
    | fails error => simp only [of, refused, outcome, Link.visibleEnding, Link.visible]
    | starts returnCode polls interrupts =>
      cases piped : link.isPiped <;>
        simp [of, refused, outcome, Link.visibleEnding, Link.visible, piped]

/-- What two stages of one link have in common if the visible parts of their endings are the
same. -/
structure Alike (first second : Stage) : Prop where
  verdict : second.verdict = first.verdict
  attempt : second.attempt.attempt? = first.attempt.attempt?
  pipe : second.pipe?.isSome = first.pipe?.isSome

theorem Alike.of_ending {first second : Stage} (sameLink : second.link = first.link)
    (ending : first.link.visibleEnding second.ending = first.link.visibleEnding first.ending) :
    Alike first second := by
  obtain ⟨link, carried, files, ending₁⟩ := first
  obtain ⟨link', carried', files', ending₂⟩ := second
  obtain rfl : link' = link := sameLink
  cases ending₁ with
  | refused redirect error =>
    cases ending₂ with
    | refused redirect' error' =>
      obtain ⟨rfl, rfl⟩ := Ending.refused.inj ending
      exact ⟨rfl, rfl, rfl⟩
    | _ => contradiction
  | failed error =>
    cases ending₂ with
    | failed error' =>
      obtain rfl := Ending.failed.inj ending
      exact ⟨rfl, rfl, rfl⟩
    | _ => contradiction
  | started child =>
    cases ending₂ with
    | started child' =>
      have children := Ending.started.inj ending
      cases piped : link'.isPiped with
      | true =>
        refine ⟨?_, rfl, ?_⟩
        · simp [Stage.verdict, launched, piped]
        · simp [pipe?, child?, piped]
      | false =>
        simp only [piped, Bool.false_eq_true, if_false, Child.mk.injEq] at children
        obtain ⟨-, code, -, interrupts⟩ := children
        refine ⟨?_, rfl, ?_⟩
        · simp [Stage.verdict, launched, piped, code, interrupts]
        · simp [pipe?, piped]
    | _ => contradiction

theorem alike_of {link : Link} {carried carried' : Option Handle} {s s' : Session}
    (pipe : carried'.isSome = carried.isSome) (errors : s'.host.openErrors = s.host.openErrors)
    (outcome : link.visible (s'.host.outcome link.invocation.executable) =
      link.visible (s.host.outcome link.invocation.executable)) :
    Alike (of link carried s) (of link carried' s') := by
  have openings : link.invocation.openings carried' = link.invocation.openings carried := by
    rw [Invocation.openings, Invocation.openings, pipe]
  have endings : link.visibleEnding (of link carried' s').ending =
      link.visibleEnding (of link carried s).ending := by
    rw [visibleEnding_of, visibleEnding_of, openings, Opening.refused_congr errors, outcome]
  exact .of_ending rfl endings

end Stage

namespace Chain

/-! ## Runs that are alike -/

/-- Runs that meet the same visible outcomes try the same commands and have the same result. -/
theorem stagesFrom_alike {chain : Chain} {carried carried' : Option Handle} {s s' : Session}
    (pipe : carried'.isSome = carried.isSome) (errors : s'.host.openErrors = s.host.openErrors)
    (outcomes : s'.host.visibleOutcomes chain = s.host.visibleOutcomes chain) :
    resultOf (stagesFrom carried' chain s') = resultOf (stagesFrom carried chain s) ∧
      attempts ((stagesFrom carried' chain s').flatMap Stage.actions) =
        attempts ((stagesFrom carried chain s).flatMap Stage.actions) := by
  induction chain generalizing carried carried' s s' with
  | nil => exact ⟨rfl, rfl⟩
  | cons link rest ih =>
    rw [Host.visibleOutcomes, Host.visibleOutcomes] at outcomes
    obtain ⟨outcome, later⟩ := List.cons.inj outcomes
    have alike := Stage.alike_of pipe errors outcome
    rw [stagesFrom, stagesFrom]
    cases ended : (Stage.of link carried s).verdict with
    | some result =>
      have ended' := alike.verdict.trans ended
      simp [ended', resultOf, ended, Stage.attempts_actions, alike.attempt]
    | none =>
      have ended' := alike.verdict.trans ended
      obtain ⟨child, process⟩ := Stage.exists_child_of_goesOn ended
      obtain ⟨child', process'⟩ := Stage.exists_child_of_goesOn ended'
      have errors' : ((Stage.of link carried' s').after s').host.openErrors =
          ((Stage.of link carried s).after s).host.openErrors := by
        rw [Stage.openErrors_after, Stage.openErrors_after, errors]
      have outcomes' : ((Stage.of link carried' s').after s').host.visibleOutcomes rest =
          ((Stage.of link carried s).after s).host.visibleOutcomes rest := by
        rw [Host.visibleOutcomes_congr (Stage.programs_after process' s'),
          Host.visibleOutcomes_congr (Stage.programs_after process s)]
        exact later
      obtain ⟨result, attempts⟩ := ih alike.pipe errors' outcomes'
      simp [ended', resultOf_cons ended, resultOf_cons ended', Stage.attempts_actions,
        alike.attempt, result, attempts]

theorem run_alike {chain : Chain} {s s' : Session}
    (errors : s'.host.openErrors = s.host.openErrors)
    (outcomes : s'.host.visibleOutcomes chain = s.host.visibleOutcomes chain) :
    (chain.run s').result = (chain.run s).result ∧
      attempts (chain.run s').actions = attempts (chain.run s).actions := by
  have noPipe : (none : Option Handle).isSome = (none : Option Handle).isSome := rfl
  obtain ⟨result, tried⟩ := stagesFrom_alike noPipe errors outcomes
  constructor
  · rw [run_eq, run_eq]
    exact result
  · rw [attempts_run, attempts_run]
    exact tried

end Chain

end ChainShell
