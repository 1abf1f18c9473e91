/-
# ChainShell.Proofs.Chain.Deaths — what becomes of a chain when a process ends

A process that was waited for either decides the chain or does not, and nothing but its link
and its return code says which.  This holds of every run, also of one that ends with an error:

* one that decides ends the run with its status, and no further command is tried
  (`result_of_decidedAt`);
* after one that does not, the next command is tried, or one of its redirects is refused
  (`goes_on_after`).

A process that a signal killed counts as a failure, since the status of its return code is no
success.  So it ends a chain at `&&`, which then has 128 and more for its number, and it never
ends one at `||` (`CountsDeaths`).
-/
import ChainShell.Proofs.Chain.Course
import ChainShell.Proofs.Chain.Failure
import ChainShell.Proofs.Children.Ledger
import ChainShell.Proofs.Status

set_option autoImplicit false

namespace ChainShell

open ChainShell.Action ChainShell.Activity

/-! ## Answers -/

namespace Stage

variable {stage : Stage} {pid : Nat} {code : Int}

/-- A stage whose process was seen to end is a visit, and its output is not piped. -/
theorem exists_visit_of_answer (answered : (pid, code) ∈ answers stage.actions) :
    ∃ visit, stage.visit? = some visit ∧ visit.link.isPiped = false ∧ visit.pid = pid ∧
      visit.child.returnCode = code := by
  rw [answers_actions] at answered
  obtain ⟨action, member, isAnswer⟩ := List.mem_filterMap.1 answered
  obtain ⟨child, process, -, unpiped⟩ := stage.exists_child_of_mem_waiting member
  rw [waiting, unpiped, process] at member
  simp only [Bool.false_eq_true, if_false, Option.map_some, Option.getD_some, waitActions,
    List.mem_append] at member
  rcases member with interrupted | waited
  · rw [List.eq_of_mem_replicate interrupted] at isAnswer
    contradiction
  · split at waited
    · rename_i patient
      rw [List.mem_singleton.1 waited] at isAnswer
      obtain ⟨rfl, rfl⟩ := Prod.mk.inj (Option.some.inj isAnswer)
      refine ⟨⟨stage.link, child⟩, ?_, unpiped, rfl, rfl⟩
      rw [visit?, process, Option.bind_some, if_pos (.inr patient)]
    · contradiction

end Stage

namespace Chain

/-- The process that was started at a place was waited for and ended with the return code. -/
def AnsweredAt (chain : Chain) (actions : List Action) (place : Nat) (link : Link) (code : Int) :
    Prop :=
  chain[place]? = some link ∧
    ∃ pid argv, (starts actions)[place]? = some (pid, argv) ∧ (pid, code) ∈ answers actions

theorem decidedAt_iff_answeredAt {chain : Chain} {actions : List Action} {place : Nat}
    {status : Status} :
    chain.DecidedAt actions place status ↔ ∃ link code, chain.AnsweredAt actions place link code ∧
      status = .ofReturnCode code ∧ link.Decides status := by
  constructor
  · rintro ⟨link, pid, argv, code, atLink, atStart, answered, same, decides⟩
    exact ⟨link, code, ⟨atLink, pid, argv, atStart, answered⟩, same, decides⟩
  · rintro ⟨link, code, ⟨atLink, pid, argv, atStart, answered⟩, same, decides⟩
    exact ⟨link, pid, argv, code, atLink, atStart, answered, same, decides⟩

/-! ## The processes of a run -/

section

variable {chain : Chain} {s : Session}

theorem starts_run (chain : Chain) (s : Session) :
    starts (chain.run s).actions = starts ((chain.stages s).flatMap Stage.actions) := by
  have inClosing : starts ((carriedAfter none (chain.stages s)).toList.map .closed) = [] :=
    filterMap_map_closed (fun _ => rfl) _
  rw [run_eq, starts_append, inClosing, List.append_nil]

/-- The processes of a run can be told apart, however it ends. -/
theorem nodup_pids_run (chain : Chain) (s : Session) : (pids (chain.run s).actions).Nodup := by
  rw [pids, starts_run, stages, pids_stagesFrom]
  exact List.nodup_range' 1

/-- The process of a stage is the one that was started at its place. -/
theorem start_at_cut {earlier later : List Stage} {stage : Stage} {child : Child}
    (cut : chain.stages s = earlier ++ stage :: later) (process : stage.child? = some child) :
    (starts (chain.run s).actions)[earlier.length]? =
      some (child.pid, stage.link.invocation.argv) := by
  obtain ⟨visits, seen, -⟩ := exists_visits_of_cut cut
  have here : starts stage.actions = [(child.pid, stage.link.invocation.argv)] := by
    rw [stage.starts_actions, stage.start?_attempt, process]
    rfl
  rw [starts_run, cut, List.flatMap_append, List.flatMap_cons, starts_append, starts_append,
    starts_of_seen seen, here, ← length_of_seen seen,
    List.getElem?_append_right (by simp), List.length_map, Nat.sub_self]
  rfl

/-- A process that was seen to end belongs to the stage at its place. -/
theorem exists_stage_of_answeredAt {place : Nat} {link : Link} {code : Int}
    (answered : chain.AnsweredAt (chain.run s).actions place link code) :
    ∃ earlier stage later visit, chain.stages s = earlier ++ stage :: later ∧
      earlier.length = place ∧ stage.visit? = some visit ∧ visit.link = link ∧
      link.isPiped = false ∧ visit.child.returnCode = code := by
  obtain ⟨atLink, pid, argv, atStart, answer⟩ := answered
  obtain ⟨action, member, isAnswer⟩ := List.mem_filterMap.1 answer
  obtain ⟨before, after, cut⟩ := List.append_of_mem member
  have waits : action.wait?.isSome := by
    cases action with
    | waited other code => rfl
    | _ => contradiction
  obtain ⟨earlier, stage, later, waited, rest, place', -, waiting⟩ := exists_stage_of_wait cut waits
  have inStage : (pid, code) ∈ answers stage.actions := by
    rw [stage.answers_actions, waiting]
    exact List.mem_filterMap.2 ⟨action, by simp, isAnswer⟩
  obtain ⟨visit, seen, unpiped, rfl, rfl⟩ := Stage.exists_visit_of_answer inStage
  have atStage := start_at_cut place' (Stage.child?_of_seen seen)
  -- No other process has the number, so the two places are one.
  have numbers : (pids (chain.run s).actions)[place]? =
      (pids (chain.run s).actions)[earlier.length]? := by
    rw [pids, List.getElem?_map, List.getElem?_map, atStart, atStage]
    rfl
  obtain ⟨inside, -⟩ := List.getElem?_eq_some_iff.1 atStart
  have samePlace := (List.getElem?_inj (by rwa [pids, List.length_map])
    (nodup_pids_run chain s)).1 numbers
  obtain ⟨-, link', -⟩ := Stage.ending_of_seen seen
  have atStage := (stagesFrom_cut place').2.1
  rw [← samePlace, atLink, link'] at atStage
  obtain rfl := Option.some.inj atStage
  exact ⟨earlier, stage, later, visit, place', samePlace.symm, seen, rfl, unpiped, rfl⟩

/-! ## What comes after a process has ended -/

/-- A stage that ends a run is the last one. -/
theorem result_of_verdict {earlier later : List Stage} {stage : Stage}
    {result : Except Fault Status} (cut : chain.stages s = earlier ++ stage :: later)
    (ended : stage.verdict = some result) : later = [] ∧ (chain.run s).result = result := by
  have last : later = [] := by
    cases later with
    | nil => rfl
    | cons next later =>
      rw [← List.singleton_append, ← List.append_assoc] at cut
      have goesOn := (stagesFrom_cut cut).1 stage (by simp)
      rw [ended] at goesOn
      contradiction
  subst last
  refine ⟨rfl, ?_⟩
  rw [run_eq, cut, resultOf, List.getLast?_concat, Option.bind_some, ended]
  rfl

theorem attempts_of_cut {earlier later : List Stage} {stage : Stage} {argv : List Text}
    (cut : chain.stages s = earlier ++ stage :: later)
    (tries : stage.attempt.attempt? = some argv) :
    attempts (chain.run s).actions = attempts (earlier.flatMap Stage.actions) ++
      argv :: attempts (later.flatMap Stage.actions) := by
  rw [attempts_run, cut, List.flatMap_append, List.flatMap_cons, attempts_append, attempts_append,
    stage.attempts_actions, tries]
  rfl

/-- A process that decides the chain ends the run, and no command is tried after it. -/
theorem result_of_decidedAt {place : Nat} {status : Status}
    (decided : chain.DecidedAt (chain.run s).actions place status) :
    (chain.run s).result = .ok status ∧
      (attempts (chain.run s).actions).length = place + 1 := by
  obtain ⟨link, code, answered, rfl, decides⟩ := decidedAt_iff_answeredAt.1 decided
  obtain ⟨earlier, stage, later, visit, cut, rfl, seen, rfl, -, rfl⟩ :=
    exists_stage_of_answeredAt answered
  have verdict : stage.verdict = some (.ok visit.status) := by
    rw [Stage.verdict_of_seen seen, Visit.decision]
    exact congrArg (Option.map Except.ok) (if_pos decides)
  obtain ⟨rfl, result⟩ := result_of_verdict cut verdict
  refine ⟨result, ?_⟩
  have tries : stage.attempt.attempt? = some stage.link.invocation.argv := by
    rw [Stage.attempt_of_child? (Stage.child?_of_seen seen)]
    rfl
  rw [attempts_of_cut cut tries, List.length_append, length_attempts_of_cut cut]
  rfl

/-- After a process that does not decide the chain the next command is tried, unless one of its
redirects is refused. -/
theorem goes_on_after {place : Nat} {link next : Link} {code : Int}
    (answered : chain.AnsweredAt (chain.run s).actions place link code)
    (undecided : ¬ link.Decides (.ofReturnCode code)) (isNext : chain[place + 1]? = some next) :
    (attempts (chain.run s).actions)[place + 1]? = some next.invocation.argv ∨
      ∃ stream path error, next.invocation.target? stream = some path ∧
        s.host.Refuses error (.opening path) ∧
        (chain.run s).result = .error (error.fault (.redirectFailed path error.reason)) := by
  obtain ⟨earlier, stage, later, visit, cut, rfl, seen, rfl, -, rfl⟩ :=
    exists_stage_of_answeredAt answered
  have goesOn : stage.verdict = none := by
    rw [Stage.verdict_of_seen seen, Visit.decision]
    exact congrArg (Option.map Except.ok) (if_neg undecided)
  cases later with
  | nil =>
    -- Every link was met, and so was the next one.
    have goOn : ∀ met ∈ chain.stages s, met.verdict = none := by
      intro met member
      rw [cut] at member
      rcases List.mem_append.1 member with before | isLast
      · exact (stagesFrom_cut cut).1 met before
      · rwa [List.mem_singleton.1 isLast]
    have count : earlier.length + 1 = chain.length := by
      rw [← length_stagesFrom goOn, ← stages, cut, List.length_append]
      rfl
    rw [count, List.getElem?_eq_none (Nat.le_refl _)] at isNext
    contradiction
  | cons met later =>
    rw [← List.singleton_append, ← List.append_assoc] at cut
    obtain ⟨-, atPlace, isStage⟩ := stagesFrom_cut cut
    rw [List.length_append, List.length_singleton, isNext] at atPlace
    obtain rfl := Option.some.inj atPlace
    have count := length_attempts_of_cut cut
    rw [List.length_append, List.length_singleton] at count
    have tried {argv : List Text} (tries : met.attempt.attempt? = some argv) :
        (attempts (chain.run s).actions)[earlier.length + 1]? = some argv := by
      rw [attempts_of_cut cut tries, ← count, List.getElem?_append_right (Nat.le_refl _),
        Nat.sub_self]
      rfl
    cases ending : met.ending with
    | started child => exact .inl (tried (by rw [Stage.attempt, ending]; rfl))
    | failed error => exact .inl (tried (by rw [Stage.attempt, ending]; rfl))
    | refused redirect error =>
      have verdict : met.verdict =
          some (.error (error.fault (.redirectFailed redirect.2 error.reason))) := by
        rw [Stage.verdict, Stage.launched, ending]
      rw [isStage] at ending
      obtain ⟨target, -⟩ := Invocation.target?_of_mem_openings
        (Stage.mem_openings (.inr ⟨error, ending⟩))
      have refused : s.host.openErrors.lookup redirect.2 = some error := by
        rw [← openErrors_sessionAfter s (earlier ++ [stage])]
        exact Opening.lookup_of_refused (Stage.refused_of ending)
      exact .inr ⟨redirect.1, redirect.2, error, target, refused, (result_of_verdict cut verdict).2⟩

end

/-! ## Deaths by signal -/

/-- In a run of a chain, a process that a signal killed counts as a failure. -/
structure CountsDeaths (chain : Chain) (s : Session) : Prop where
  /-- Before `&&`, and without an operator, the chain ends: with a status that tells the signal and
  is no success, and without another command being tried. -/
  ends : ∀ (place : Nat) (link : Link) (signal : Int), 0 < signal →
    chain.AnsweredAt (chain.run s).actions place link (-signal) →
    link.operator = none ∨ link.operator = some .and →
      ∃ status, (chain.run s).result = .ok status ∧ status.success = false ∧
        status.toInt = 128 + signal ∧ (attempts (chain.run s).actions).length = place + 1
  /-- Before `||` the chain goes on, and ends only if the next command's redirects do it. -/
  goes_on : ∀ (place : Nat) (link next : Link) (signal : Int), 0 < signal →
    chain.AnsweredAt (chain.run s).actions place link (-signal) → link.operator = some .or →
    chain[place + 1]? = some next →
      (attempts (chain.run s).actions)[place + 1]? = some next.invocation.argv ∨
        ∃ stream path error, next.invocation.target? stream = some path ∧
          s.host.Refuses error (.opening path) ∧
          (chain.run s).result = .error (error.fault (.redirectFailed path error.reason))

theorem countsDeaths (chain : Chain) (s : Session) : chain.CountsDeaths s where
  ends := by
    intro place link signal positive answered operator
    have failed : (Status.ofReturnCode (-signal)).success = false := by
      rw [Bool.eq_false_iff, ne_eq, Status.success_ofReturnCode]
      omega
    have decides : link.Decides (.ofReturnCode (-signal)) :=
      operator.imp_right fun isAnd => .inl ⟨isAnd, failed⟩
    obtain ⟨result, count⟩ := result_of_decidedAt
      (decidedAt_iff_answeredAt.2 ⟨link, -signal, answered, rfl, decides⟩)
    refine ⟨_, result, failed, ?_, count⟩
    rw [Status.toInt_ofReturnCode, if_pos (by omega)]
    omega
  goes_on := by
    intro place link next signal positive answered operator isNext
    refine goes_on_after answered ?_ isNext
    simp only [Link.Decides, operator, reduceCtorEq, false_and, true_and, false_or,
      Status.success_ofReturnCode, Option.some.injEq]
    omega

end Chain

end ChainShell
