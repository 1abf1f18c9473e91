/-
# ChainShell.Proofs.Chain.Course — how far a chain goes, and what it answers

A run that ends with a status tries the commands of the first links, each once and in
order.  It goes on over links whose output is piped without waiting, and waits for every
other process before it goes on; it stops at the first of those whose status decides the
chain, which is then the answer, and if there is none it tries every link and answers
success (`Course`).

* A run that ends with a status has the course of its visits (`course_of_ok`).
* A chain read from a line always has a deciding link, the last one
  (`getLast?_operator_of_ofLine`), so its answer is the status of the process started last
  (`Course.status_of_last`).

`run_course` puts these together, and adds that the way in which piped processes end makes
no difference.
-/
import ChainShell.Proofs.Chain.Acceptance
import ChainShell.Proofs.Chain.Alike
import ChainShell.Proofs.Chain.Visits

set_option autoImplicit false

namespace ChainShell

open ChainShell.Action ChainShell.Activity

/-! ## What decides a chain -/

namespace Chain

/-- The process that was started at a place was waited for, and its status decides the chain. -/
def DecidedAt (chain : Chain) (actions : List Action) (place : Nat) (status : Status) : Prop :=
  ∃ link pid argv code, chain[place]? = some link ∧ (starts actions)[place]? = some (pid, argv) ∧
    (pid, code) ∈ answers actions ∧ status = .ofReturnCode code ∧ link.Decides status

/-- The processes that were seen to end are those that were started for links without a pipe, in
the same order. -/
def AllAnswered (chain : Chain) (actions : List Action) : Prop :=
  (answers actions).map Prod.fst =
    (((starts actions).zip chain).filter fun (_, link) => !link.isPiped).map (·.1.1)

/-- The actions of a run of a chain that ended with a status. -/
structure Course (chain : Chain) (actions : List Action) (status : Status) : Prop where
  /-- The commands of the first links were tried, each once and in order. -/
  tried : attempts actions <+: chain.map (·.invocation.argv)
  /-- Each attempt started a process. -/
  started : (starts actions).map Prod.snd = attempts actions
  /-- The processes can be told apart. -/
  distinct : ((starts actions).map Prod.fst).Nodup
  /-- Every process whose output was not piped was waited for until it ended. -/
  answered : chain.AllAnswered actions
  /-- It had ended when the next link was tried. -/
  answered_before : ∀ before action after, actions = before ++ action :: after →
    action.attempt?.isSome → chain.AllAnswered before
  /-- A process whose output was piped was never waited for. -/
  unwaited : ∀ (place : Nat) (link : Link) pid argv, chain[place]? = some link →
    link.operator = some .pipe → (starts actions)[place]? = some (pid, argv) → pid ∉ waits actions
  /-- No process but the last one decided the chain. -/
  undecided : ∀ place other, place + 1 < (attempts actions).length →
    ¬ chain.DecidedAt actions place other
  /-- The last one did, or none did, every link was tried and the status is success. -/
  decided : (∃ place, place + 1 = (attempts actions).length ∧
      chain.DecidedAt actions place status) ∨
    (attempts actions = chain.map (·.invocation.argv) ∧ status = .ok ∧
      ∀ place other, ¬ chain.DecidedAt actions place other)

/-! ## The course of visits -/

section

variable {chain : Chain} {actions : List Action} {visits : List Visit}

/-- The actions try the commands of the visits of the first links, start their processes and see
them end. -/
structure Shows (chain : Chain) (actions : List Action) (visits : List Visit) : Prop where
  met : visits.map Visit.link <+: chain
  attempts : attempts actions = visits.map Visit.argv
  starts : starts actions = visits.map Visit.start
  answers : answers actions = visits.filterMap Visit.answer?

/-- The visits of the first stages of a run show in their actions. -/
theorem shows_of_seen {s : Session} {earlier later : List Stage}
    (cut : chain.stages s = earlier ++ later) (seen : earlier.map Stage.visit? = visits.map some) :
    chain.Shows (earlier.flatMap Stage.actions) visits where
  met := met_of_seen cut seen
  attempts := attempts_of_seen seen
  starts := starts_of_seen seen
  answers := answers_of_seen seen

namespace Shows

theorem append_silent (shows : chain.Shows actions visits) {more : List Action}
    (noAttempts : Action.attempts more = []) (noStarts : Action.starts more = [])
    (noAnswers : Action.answers more = []) : chain.Shows (actions ++ more) visits where
  met := shows.met
  attempts := by rw [attempts_append, noAttempts, List.append_nil, shows.attempts]
  starts := by rw [starts_append, noStarts, List.append_nil, shows.starts]
  answers := by rw [answers_append, noAnswers, List.append_nil, shows.answers]

theorem allAnswered (shows : chain.Shows actions visits) : chain.AllAnswered actions := by
  rw [AllAnswered, shows.answers, shows.starts, zip_start shows.met, List.map_filterMap,
    List.filter_map, List.map_map, ← List.filterMap_eq_map, List.filterMap_filter]
  congr
  funext visit
  cases piped : visit.link.isPiped <;> simp [Visit.answer?, piped, Visit.start]

theorem link_at (shows : chain.Shows actions visits) {place : Nat} {visit : Visit}
    (atVisit : visits[place]? = some visit) : chain[place]? = some visit.link := by
  obtain ⟨rest, rfl⟩ := shows.met
  obtain ⟨inside, -⟩ := List.getElem?_eq_some_iff.1 atVisit
  rw [List.getElem?_append_left (by rwa [List.length_map]), List.getElem?_map, atVisit]
  rfl

theorem start_at (shows : chain.Shows actions visits) {place : Nat} {start : Nat × List Text}
    (atStart : (Action.starts actions)[place]? = some start) :
    ∃ visit, visits[place]? = some visit ∧ visit.start = start := by
  rw [shows.starts, List.getElem?_map] at atStart
  exact Option.map_eq_some_iff.1 atStart

/-- A place is decided by the decision of the visit there. -/
theorem decidedAt_iff (shows : chain.Shows actions visits)
    (distinct : (visits.map Visit.pid).Nodup) {place : Nat} {status : Status} :
    chain.DecidedAt actions place status ↔
      ∃ visit, visits[place]? = some visit ∧ visit.decision = some status := by
  constructor
  · rintro ⟨link, pid, argv, code, atLink, atStart, answered, rfl, decides⟩
    obtain ⟨visit, atVisit, same⟩ := shows.start_at atStart
    rw [shows.link_at atVisit] at atLink
    obtain rfl := Option.some.inj atLink
    rw [shows.answers, List.mem_filterMap] at answered
    obtain ⟨other, member, answer⟩ := answered
    rw [Visit.answer?] at answer
    split at answer
    · contradiction
    · obtain ⟨samePid, rfl⟩ := Prod.mk.inj (Option.some.inj answer)
      have pid' : visit.pid = pid := congrArg Prod.fst same
      obtain rfl := Visit.eq_of_pid distinct atVisit member (samePid.trans pid'.symm)
      exact ⟨other, atVisit, if_pos decides⟩
  · rintro ⟨visit, atVisit, decision⟩
    rw [Visit.decision] at decision
    split at decision
    · rename_i decides
      obtain rfl := Option.some.inj decision
      have unpiped : visit.link.isPiped = false := by
        cases piped : visit.link.isPiped with
        | false => rfl
        | true => exact absurd decides (Link.not_decides_of_isPiped piped _)
      refine ⟨visit.link, visit.pid, visit.argv, visit.child.returnCode, shows.link_at atVisit,
        ?_, ?_, rfl, decides⟩
      · rw [shows.starts, List.getElem?_map, atVisit]
        rfl
      · rw [shows.answers, List.mem_filterMap]
        refine ⟨visit, List.mem_of_getElem? atVisit, ?_⟩
        simp [Visit.answer?, unpiped]
    · contradiction

end Shows

end

/-- Among visits that end a chain, only the last one can decide it. -/
theorem Settles.decision_eq_none {visits : List Visit} {status : Status}
    (settles : Settles visits status) {place : Nat} {visit : Visit}
    (atVisit : visits[place]? = some visit) (notLast : place + 1 < visits.length) :
    visit.decision = none := by
  rcases settles with ⟨earlier, last, rfl, -, goOn⟩ | ⟨-, goOn⟩
  · rw [List.length_append, List.length_singleton] at notLast
    rw [List.getElem?_append_left (by omega)] at atVisit
    exact goOn visit (List.mem_of_getElem? atVisit)
  · exact goOn visit (List.mem_of_getElem? atVisit)

/-! ## The course of a run -/

section

variable {chain : Chain} {s : Session} {visits : List Visit}

theorem shows_run (seen : (chain.stages s).map Stage.visit? = visits.map some) :
    chain.Shows (chain.run s).actions visits := by
  have shows : chain.Shows ((chain.stages s).flatMap Stage.actions) visits :=
    shows_of_seen (List.append_nil _).symm seen
  rw [run_eq]
  apply shows.append_silent
  all_goals apply filterMap_map_closed; intros; rfl

/-- A link is tried when every process before it that is not piped has answered. -/
theorem allAnswered_before {before after : List Action} {action : Action}
    (cut : (chain.run s).actions = before ++ action :: after) (tries : action.attempt?.isSome) :
    chain.AllAnswered before := by
  obtain ⟨earlier, stage, later, place, rfl, -⟩ := exists_stage_of_attempt cut tries
  obtain ⟨visits, seen, -⟩ := exists_visits_of_cut place
  have shows : chain.Shows (earlier.flatMap Stage.actions ++ stage.files.map OpenFile.opened)
      visits := by
    apply (shows_of_seen place seen).append_silent
    all_goals apply OpenFile.filterMap_map_opened; intros; rfl
  exact shows.allAnswered

/-- Only processes without a pipe are waited for. -/
theorem mem_waits_run (seen : (chain.stages s).map Stage.visit? = visits.map some) {pid : Nat}
    (waited : pid ∈ waits (chain.run s).actions) :
    ∃ visit ∈ visits, visit.link.isPiped = false ∧ visit.pid = pid := by
  apply mem_waits_of_seen seen
  rw [run_eq, waits_append] at waited
  rcases List.mem_append.1 waited with inStages | inClosing
  · exact inStages
  · rw [waits, filterMap_map_closed (fun _ => rfl)] at inClosing
    contradiction

theorem course_of_ok {status : Status} (ended : (chain.run s).result = .ok status) :
    chain.Course (chain.run s).actions status := by
  have result : resultOf (chain.stages s) = .ok status := by rw [← ended, run_eq]
  obtain ⟨visits, seen, settles⟩ := exists_visits_of_ok result
  have shows := shows_run seen
  have distinct : (visits.map Visit.pid).Nodup := by
    rw [pids_of_seen seen]
    exact List.nodup_range' 1
  have count : (attempts (chain.run s).actions).length = visits.length := by
    rw [shows.attempts, List.length_map]
  have commands : visits.map Visit.argv = (visits.map Visit.link).map (·.invocation.argv) := by
    rw [List.map_map]
    rfl
  refine ⟨?_, ?_, ?_, shows.allAnswered, ?_, ?_, ?_, ?_⟩
  · rw [shows.attempts, commands]
    exact shows.met.map _
  · rw [shows.attempts, shows.starts, List.map_map]
    rfl
  · rw [shows.starts, List.map_map]
    exact distinct
  · intro before action after cut tries
    exact allAnswered_before cut tries
  · intro place link pid argv atLink operator atStart waited
    obtain ⟨visit, atVisit, start⟩ := shows.start_at atStart
    obtain ⟨other, member, unpiped, samePid⟩ := mem_waits_run seen waited
    have pid' : visit.pid = pid := congrArg Prod.fst start
    obtain rfl := Visit.eq_of_pid distinct atVisit member (samePid.trans pid'.symm)
    rw [shows.link_at atVisit] at atLink
    obtain rfl := Option.some.inj atLink
    simp [Link.isPiped, operator] at unpiped
  · intro place other notLast decided
    rw [count] at notLast
    obtain ⟨visit, atVisit, decision⟩ := (shows.decidedAt_iff distinct).1 decided
    rw [settles.decision_eq_none atVisit notLast] at decision
    contradiction
  · rcases settles with ⟨earlier, last, rfl, decision, -⟩ | ⟨success, goOn⟩
    · refine .inl ⟨earlier.length, ?_, ?_⟩
      · rw [count, List.length_append, List.length_singleton]
      · apply (shows.decidedAt_iff distinct).2
        exact ⟨last, List.getElem?_concat_length, decision⟩
    · refine .inr ⟨?_, success, ?_⟩
      · have all : visits.map Visit.link = chain := by
          apply shows.met.eq_of_length
          rw [List.length_map]
          exact length_of_goOn seen goOn
        rw [shows.attempts, commands, all]
      · intro place other decided
        obtain ⟨visit, atVisit, decision⟩ := (shows.decidedAt_iff distinct).1 decided
        rw [goOn visit (List.mem_of_getElem? atVisit)] at decision
        contradiction

end

/-! ## Chains read from a line -/

theorem getLast?_operator_of_ofLine {store : Store} {line : Text} {chain : Chain}
    (read : ofLine store line = .ok chain) :
    ∃ link, chain.getLast? = some link ∧ link.operator = none := by
  obtain ⟨sentence, -, -, rfl⟩ := ofTokens_eq_ok_iff.1 read
  clear read
  induction sentence with
  | last phrase => exact ⟨_, rfl, rfl⟩
  | tied phrase operator sign rest ih =>
    obtain ⟨link, last, final⟩ := ih
    exact ⟨link, by rw [Sentence.chain, List.getLast?_cons, last]; rfl, final⟩

theorem runLine_of_ok {s : Session} {line : Text} {chain : Chain}
    (read : ofLine s.store line = .ok chain) : runLine line s = chain.run s := by
  have session : (Activity.get s).result = .ok s := rfl
  rw [runLine, bind_apply_of_ok session]
  simp only [Activity.get, read, List.nil_append]

/-- If the last link has no operator, the last process decides the chain. -/
theorem Course.decidedAt_of_last {chain : Chain} {actions : List Action} {status : Status}
    (course : chain.Course actions status) {link : Link} (last : chain.getLast? = some link)
    (final : link.operator = none) :
    ∃ place, place + 1 = (attempts actions).length ∧ chain.DecidedAt actions place status := by
  refine course.decided.resolve_right ?_
  -- The last link would have been tried and waited for, and without an operator it decides.
  rintro ⟨all, -, undecided⟩
  have count := congrArg List.length course.started
  rw [List.length_map, all, List.length_map] at count
  rw [List.getLast?_eq_getElem?] at last
  obtain ⟨inside, -⟩ := List.getElem?_eq_some_iff.1 last
  obtain ⟨⟨pid, argv⟩, atStart⟩ : ∃ start, (starts actions)[chain.length - 1]? = some start :=
    ⟨_, List.getElem?_eq_getElem (by omega)⟩
  have awaited : pid ∈ (answers actions).map Prod.fst := by
    rw [course.answered, List.mem_map]
    refine ⟨((pid, argv), link), ?_, rfl⟩
    rw [List.mem_filter]
    refine ⟨?_, by simp [Link.isPiped, final]⟩
    apply List.mem_of_getElem?
    exact List.getElem?_zip_eq_some.2 ⟨atStart, last⟩
  obtain ⟨⟨pid', code⟩, answered, rfl⟩ := List.mem_map.1 awaited
  exact undecided (chain.length - 1) (.ofReturnCode code)
    ⟨link, pid', argv, code, last, atStart, answered, rfl, .inl final⟩

/-- The status is then that of the process started last. -/
theorem Course.status_of_last {chain : Chain} {actions : List Action} {status : Status}
    (course : chain.Course actions status) {link : Link} (last : chain.getLast? = some link)
    (final : link.operator = none) :
    ∃ pid argv code, (starts actions).getLast? = some (pid, argv) ∧ (pid, code) ∈ answers actions ∧
      status = .ofReturnCode code := by
  obtain ⟨place, isLast, -, pid, argv, code, -, atStart, answered, same, -⟩ :=
    course.decidedAt_of_last last final
  refine ⟨pid, argv, code, ?_, answered, same⟩
  have count := congrArg List.length course.started
  rw [List.length_map] at count
  rw [List.getLast?_eq_getElem?, count, ← isLast, Nat.add_sub_cancel]
  exact atStart

/-! ## Everything together -/

/-- A run that ends with a status follows its course; it does not depend on how piped processes
end; and if the chain was read from a line, the status is that of the process started last. -/
theorem run_course {chain : Chain} {s : Session} {status : Status}
    (ended : (chain.run s).result = .ok status) :
    chain.Course (chain.run s).actions status ∧
    (∀ s' : Session, s'.host.openErrors = s.host.openErrors →
      s'.host.visibleOutcomes chain = s.host.visibleOutcomes chain →
      (chain.run s').result = .ok status ∧
        attempts (chain.run s').actions = attempts (chain.run s).actions) ∧
    ∀ line, ofLine s.store line = .ok chain → (runLine line s).result = .ok status ∧
      ∃ pid argv code, (starts (runLine line s).actions).getLast? = some (pid, argv) ∧
        (pid, code) ∈ answers (runLine line s).actions ∧ status = .ofReturnCode code := by
  have course := course_of_ok ended
  refine ⟨course, ?_, ?_⟩
  · intro s' errors outcomes
    obtain ⟨result, tried⟩ := run_alike errors outcomes
    exact ⟨result.trans ended, tried⟩
  · intro line read
    obtain ⟨link, last, final⟩ := getLast?_operator_of_ofLine read
    rw [runLine_of_ok read]
    exact ⟨ended, course.status_of_last last final⟩

/-- A line whose second process can keep the third and the fourth from being started. -/
def guardedLine : Text := "w | g && t ; e".toList

def guardedChain : Chain :=
  [⟨{ executable := ['w'] }, some .pipe⟩, ⟨{ executable := ['g'] }, some .and⟩,
    ⟨{ executable := ['t'] }, some .sequence⟩, ⟨{ executable := ['e'] }, none⟩]

/-- A session whose machine knows the programs of the line; `g` fails. -/
def guardedSession (piped : Outcome) : Session :=
  { host :=
      { programs := [(['w'], [piped]), (['g'], [.starts 4 0 1]), (['t'], [.starts 0 0 0])] } }

theorem run_course_guarded :
    let s := guardedSession (.starts 0 0 0)
    let s' := guardedSession (.starts (-9) 2 5)
    (guardedChain.run s).result = .ok (.exited 4) ∧
    guardedChain.Course (guardedChain.run s).actions (.exited 4) ∧
    ((guardedChain.run s').result = .ok (.exited 4) ∧
      attempts (guardedChain.run s').actions = attempts (guardedChain.run s).actions) ∧
    (runLine guardedLine s).result = .ok (.exited 4) ∧
      ∃ pid argv code, (starts (runLine guardedLine s).actions).getLast? = some (pid, argv) ∧
        (pid, code) ∈ answers (runLine guardedLine s).actions ∧
        Status.exited 4 = .ofReturnCode code := by
  intro s s'
  have ended : (guardedChain.run s).result = .ok (.exited 4) := rfl
  obtain ⟨course, alike, ofLine⟩ := run_course ended
  refine ⟨ended, course, alike s' rfl rfl, ?_⟩
  exact ofLine guardedLine rfl

end Chain

end ChainShell
