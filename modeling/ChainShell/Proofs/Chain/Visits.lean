/-
# ChainShell.Proofs.Chain.Visits — the processes of a run

A stage whose process started, and ended if it was waited for, is a visit: a link and the
process that was started for it.  A visit decides the chain or lets it go on
(`Visit.decision`), and what the actions of visited stages say is read off the visits
(`starts_of_seen`, `attempts_of_seen`, `answers_of_seen`, `mem_waits_of_seen`).

* Every stage before another one is a visit, and lets the chain go on
  (`exists_visits_of_cut`).
* Every stage of a run that ended with a status is a visit (`exists_visits_of_ok`).
* The processes of a run are numbered one after the other (`pids_stagesFrom`, `pids_of_seen`).
-/
import ChainShell.Proofs.Chain.Views

set_option autoImplicit false

namespace ChainShell

open ChainShell.Action ChainShell.Activity

/-! ## Visits -/

/-- The chain ends after the link with the status of its process: there is no operator, or the
operator asks for the other outcome. -/
def Link.Decides (link : Link) (status : Status) : Prop :=
  link.operator = none ∨ (link.operator = some .and ∧ status.success = false) ∨
    (link.operator = some .or ∧ status.success = true)

instance (link : Link) (status : Status) : Decidable (link.Decides status) :=
  inferInstanceAs (Decidable (_ ∨ _ ∨ _))

theorem Link.decides_iff (link : Link) (status : Status) :
    link.Decides status ↔ Link.endsChain link.operator status = true := by
  obtain ⟨invocation, operator⟩ := link
  rcases operator with - | (_ | _ | _ | _) <;> simp [Decides, endsChain]

theorem Link.not_decides_of_isPiped {link : Link} (piped : link.isPiped = true) (status : Status) :
    ¬ link.Decides status := by
  have operator : link.operator = some .pipe := by simpa [isPiped] using piped
  simp [Decides, operator]

/-- A link and the process that was started for it. -/
structure Visit where
  link : Link
  child : Child

namespace Visit

variable (visit : Visit)

def pid : Nat := visit.child.pid

def argv : List Text := visit.link.invocation.argv

def start : Nat × List Text := (visit.pid, visit.argv)

def status : Status := .ofReturnCode visit.child.returnCode

/-- The end of the process, if it was waited for. -/
def answer? : Option (Nat × Int) :=
  if visit.link.isPiped then none else some (visit.pid, visit.child.returnCode)

/-- The status that the chain ends with after the visit, if it does. -/
def decision : Option Status := if visit.link.Decides visit.status then some visit.status else none

end Visit

namespace Stage

/-- The stage as a visit: its process started, and if it was waited for, the wait was not given
up. -/
def visit? (stage : Stage) : Option Visit :=
  stage.child?.bind fun child =>
    if stage.link.isPiped = true ∨ child.interrupts ≤ interruptsAbsorbed then
      some ⟨stage.link, child⟩
    else none

variable {stage : Stage} {visit : Visit}

theorem ending_of_seen (seen : stage.visit? = some visit) :
    stage.ending = .started visit.child ∧ stage.link = visit.link ∧
      (visit.link.isPiped = true ∨ visit.child.interrupts ≤ interruptsAbsorbed) := by
  obtain ⟨link, carried, files, ending⟩ := stage
  cases ending with
  | refused redirect error => simp [visit?, child?] at seen
  | failed error => simp [visit?, child?] at seen
  | started child =>
    simp only [visit?, child?, Option.bind_some] at seen
    split at seen
    · obtain rfl := Option.some.inj seen
      exact ⟨rfl, rfl, ‹_›⟩
    · contradiction

theorem child?_of_seen (seen : stage.visit? = some visit) : stage.child? = some visit.child := by
  obtain ⟨ending, -, -⟩ := ending_of_seen seen
  rw [child?, ending]

/-- The verdict on a visited stage is the visit's decision. -/
theorem verdict_of_seen (seen : stage.visit? = some visit) :
    stage.verdict = visit.decision.map .ok := by
  obtain ⟨ending, link, answered⟩ := ending_of_seen seen
  have launched : stage.launched = .ok visit.child := by rw [launched, ending]
  rw [verdict, launched, link]
  by_cases piped : visit.link.isPiped = true
  · have goesOn : visit.decision = none := if_neg (Link.not_decides_of_isPiped piped _)
    rw [goesOn]
    exact if_pos piped
  · have patient := answered.resolve_left piped
    simp only [if_neg piped, if_pos patient, ← Link.decides_iff, Visit.decision]
    by_cases decides : visit.link.Decides visit.status
    · rw [if_pos decides]
      exact if_pos decides
    · rw [if_neg decides]
      exact if_neg decides

/-- A stage that is no visit ended the chain with a fault. -/
theorem verdict_of_unseen (unseen : stage.visit? = none) :
    ∃ fault, stage.verdict = some (.error fault) := by
  obtain ⟨link, carried, files, ending⟩ := stage
  cases ending with
  | refused redirect error => exact ⟨_, rfl⟩
  | failed error => exact ⟨_, rfl⟩
  | started child =>
    simp only [visit?, child?, Option.bind_some, ite_eq_right_iff, reduceCtorEq, imp_false,
      not_or] at unseen
    obtain ⟨unpiped, impatient⟩ := unseen
    exact ⟨.interrupted, by simp [verdict, launched, unpiped, impatient]⟩

theorem answers_of_seen (seen : stage.visit? = some visit) :
    answers stage.actions = visit.answer?.toList := by
  obtain ⟨ending, link, answered⟩ := ending_of_seen seen
  rw [answers_actions, waiting, child?_of_seen seen, link, Visit.answer?]
  by_cases piped : visit.link.isPiped = true
  · rw [if_pos piped, if_pos piped]
    rfl
  · have patient := answered.resolve_left piped
    have noAnswer : (List.replicate (min visit.child.interrupts (interruptsAbsorbed + 1))
        (Action.interrupted visit.child.pid)).filterMap answer? = [] := by
      rw [List.filterMap_replicate_of_none rfl]
    rw [if_neg piped, if_neg piped, Option.map_some, Option.getD_some, waitActions,
      if_pos patient, answers, List.filterMap_append, noAnswer]
    rfl

/-- A wait in a visited stage is one for the visit's process, whose output is not piped. -/
theorem mem_waits_of_seen (seen : stage.visit? = some visit) {pid : Nat}
    (waited : pid ∈ waits stage.actions) : visit.link.isPiped = false ∧ visit.pid = pid := by
  obtain ⟨-, link, -⟩ := ending_of_seen seen
  rw [waits_actions, waits, List.mem_filterMap] at waited
  obtain ⟨action, member, isWait⟩ := waited
  obtain ⟨child, process, waitsFor, unpiped⟩ := stage.exists_child_of_mem_waiting member
  rw [child?_of_seen seen] at process
  obtain rfl := Option.some.inj process
  rw [isWait] at waitsFor
  exact ⟨link ▸ unpiped, (Option.some.inj waitsFor).symm⟩

end Stage

/-! ## Stages one after the other -/

section

variable {stages : List Stage} {visits : List Visit}

/-- What is read off visited stages one by one can be read off the visits. -/
theorem flatMap_of_seen {β : Type} {ofStage : Stage → List β} {ofVisit : Visit → List β}
    (agree : ∀ stage visit, stage.visit? = some visit → ofStage stage = ofVisit visit)
    (seen : stages.map Stage.visit? = visits.map some) :
    stages.flatMap ofStage = visits.flatMap ofVisit := by
  induction stages generalizing visits with
  | nil =>
    cases visits with
    | nil => rfl
    | cons visit visits => simp at seen
  | cons stage stages ih =>
    cases visits with
    | nil => simp at seen
    | cons visit visits =>
      obtain ⟨here, later⟩ := List.cons.inj seen
      rw [List.flatMap_cons, List.flatMap_cons, agree stage visit here, ih later]

theorem map_of_seen {β : Type} {ofStage : Stage → β} {ofVisit : Visit → β}
    (agree : ∀ stage visit, stage.visit? = some visit → ofStage stage = ofVisit visit)
    (seen : stages.map Stage.visit? = visits.map some) :
    stages.map ofStage = visits.map ofVisit := by
  rw [List.map_eq_flatMap, List.map_eq_flatMap]
  apply flatMap_of_seen _ seen
  intro stage visit here
  rw [agree stage visit here]

theorem length_of_seen (seen : stages.map Stage.visit? = visits.map some) :
    visits.length = stages.length := by
  have lengths := congrArg List.length seen
  rw [List.length_map, List.length_map] at lengths
  exact lengths.symm

theorem map_link_of_seen (seen : stages.map Stage.visit? = visits.map some) :
    stages.map Stage.link = visits.map Visit.link :=
  map_of_seen (fun _ _ here => (Stage.ending_of_seen here).2.1) seen

/-- Visited stages go on when their visits do not decide the chain. -/
theorem goOn_iff_of_seen (seen : stages.map Stage.visit? = visits.map some) :
    (∀ stage ∈ stages, stage.verdict = none) ↔ ∀ visit ∈ visits, visit.decision = none := by
  have verdicts : stages.map Stage.verdict = visits.map fun visit => visit.decision.map .ok :=
    map_of_seen (fun _ _ here => Stage.verdict_of_seen here) seen
  rw [← List.forall_mem_map (f := Stage.verdict) (P := (· = none)), verdicts, List.forall_mem_map]
  simp only [Option.map_eq_none_iff]

theorem starts_of_seen (seen : stages.map Stage.visit? = visits.map some) :
    starts (stages.flatMap Stage.actions) = visits.map Visit.start := by
  rw [starts, List.filterMap_flatMap, List.map_eq_flatMap]
  apply flatMap_of_seen _ seen
  intro stage visit here
  obtain ⟨-, link, -⟩ := Stage.ending_of_seen here
  have start := stage.starts_actions
  rw [stage.start?_attempt, Stage.child?_of_seen here, link] at start
  exact start

theorem attempts_of_seen (seen : stages.map Stage.visit? = visits.map some) :
    attempts (stages.flatMap Stage.actions) = visits.map Visit.argv := by
  rw [attempts, List.filterMap_flatMap, List.map_eq_flatMap]
  apply flatMap_of_seen _ seen
  intro stage visit here
  obtain ⟨ending, link, -⟩ := Stage.ending_of_seen here
  have attempt := stage.attempts_actions
  rw [Stage.attempt, ending, link] at attempt
  exact attempt

theorem answers_of_seen (seen : stages.map Stage.visit? = visits.map some) :
    answers (stages.flatMap Stage.actions) = visits.filterMap Visit.answer? := by
  rw [answers, List.filterMap_flatMap, ← List.flatMap_singleton' visits, List.filterMap_flatMap]
  apply flatMap_of_seen _ seen
  intro stage visit here
  have answer := Stage.answers_of_seen here
  rw [answers] at answer
  rw [answer, List.filterMap_cons]
  cases visit.answer? <;> rfl

theorem mem_waits_of_seen (seen : stages.map Stage.visit? = visits.map some) {pid : Nat}
    (waited : pid ∈ waits (stages.flatMap Stage.actions)) :
    ∃ visit ∈ visits, visit.link.isPiped = false ∧ visit.pid = pid := by
  rw [waits, List.filterMap_flatMap, List.mem_flatMap] at waited
  obtain ⟨stage, member, here⟩ := waited
  have isVisit := List.mem_map_of_mem (f := Stage.visit?) member
  rw [seen, List.mem_map] at isVisit
  obtain ⟨visit, member', same⟩ := isVisit
  exact ⟨visit, member', Stage.mem_waits_of_seen same.symm here⟩

end

/-- Different visits have different processes. -/
theorem Visit.eq_of_pid {visits : List Visit} (distinct : (visits.map Visit.pid).Nodup)
    {visit other : Visit} {place : Nat} (atVisit : visits[place]? = some visit)
    (member : other ∈ visits) (same : other.pid = visit.pid) : other = visit := by
  obtain ⟨place', inside, atOther⟩ := List.getElem_of_mem member
  have atOther' : visits[place']? = some other := by rw [List.getElem?_eq_getElem inside, atOther]
  have samePlace : place' = place := by
    apply (List.getElem?_inj (by rwa [List.length_map]) distinct).1
    rw [List.getElem?_map, List.getElem?_map, atOther', atVisit, Option.map_some, Option.map_some,
      same]
  rw [samePlace, atVisit] at atOther'
  exact (Option.some.inj atOther').symm

namespace Chain

theorem exists_visits {stages : List Stage} (isVisit : ∀ stage ∈ stages, stage.visit?.isSome) :
    ∃ visits : List Visit, stages.map Stage.visit? = visits.map some := by
  induction stages with
  | nil => exact ⟨[], rfl⟩
  | cons stage stages ih =>
    obtain ⟨visit, here⟩ := Option.isSome_iff_exists.1 (isVisit stage List.mem_cons_self)
    obtain ⟨visits, later⟩ := ih fun stage member => isVisit stage (List.mem_cons_of_mem _ member)
    exact ⟨visit :: visits, by rw [List.map_cons, List.map_cons, here, later]⟩

theorem visit?_of_goesOn {stage : Stage} (goesOn : stage.verdict = none) :
    stage.visit?.isSome := by
  cases seen : stage.visit? with
  | some visit => rfl
  | none =>
    obtain ⟨fault, failed⟩ := Stage.verdict_of_unseen seen
    rw [goesOn] at failed
    contradiction

/-! ## Visits of a run -/

variable {chain : Chain} {s : Session} {visits : List Visit}

/-- The starts of the visits of the first links, next to their links. -/
theorem zip_start (met : visits.map Visit.link <+: chain) :
    (visits.map Visit.start).zip chain = visits.map fun visit => (visit.start, visit.link) := by
  obtain ⟨rest, rfl⟩ := met
  induction visits with
  | nil => rfl
  | cons visit visits ih =>
    rw [List.map_cons, List.map_cons, List.cons_append, List.zip_cons_cons, ih, List.map_cons]

/-- The visits of the first stages of a run are visits of the first links. -/
theorem met_of_seen {earlier later : List Stage} (cut : chain.stages s = earlier ++ later)
    (seen : earlier.map Stage.visit? = visits.map some) : visits.map Visit.link <+: chain := by
  have links := map_link_stagesFrom none chain s
  rw [← stages, cut, List.map_append] at links
  rw [← map_link_of_seen seen]
  exact (List.prefix_append _ _).trans (links ▸ List.take_prefix _ _)

/-- The stages before another one are visits, and none of them decided the chain. -/
theorem exists_visits_of_cut {earlier later : List Stage} {stage : Stage}
    (cut : chain.stages s = earlier ++ stage :: later) :
    ∃ visits : List Visit, earlier.map Stage.visit? = visits.map some ∧
      ∀ visit ∈ visits, visit.decision = none := by
  obtain ⟨goOn, -, -⟩ := stagesFrom_cut cut
  obtain ⟨visits, seen⟩ := exists_visits fun stage member => visit?_of_goesOn (goOn stage member)
  exact ⟨visits, seen, (goOn_iff_of_seen seen).1 goOn⟩

/-- If no visit decided the chain, there is one for every link. -/
theorem length_of_goOn (seen : (chain.stages s).map Stage.visit? = visits.map some)
    (goOn : ∀ visit ∈ visits, visit.decision = none) : visits.length = chain.length := by
  rw [length_of_seen seen]
  exact length_stagesFrom ((goOn_iff_of_seen seen).2 goOn)

/-- The visits end a chain with a status: the last one decided it and no other did, or none did and
the status is success. -/
def Settles (visits : List Visit) (status : Status) : Prop :=
  (∃ earlier last, visits = earlier ++ [last] ∧ last.decision = some status ∧
    ∀ visit ∈ earlier, visit.decision = none) ∨
  (status = .ok ∧ ∀ visit ∈ visits, visit.decision = none)

/-- The stages of a run that ended with a status are visits, which ended it so. -/
theorem exists_visits_of_ok {status : Status} (ended : resultOf (chain.stages s) = .ok status) :
    ∃ visits : List Visit, (chain.stages s).map Stage.visit? = visits.map some ∧
      Settles visits status := by
  rcases List.eq_nil_or_concat (chain.stages s) with none | ⟨earlier, last, cut⟩
  · rw [none] at ended ⊢
    exact ⟨[], rfl, .inr ⟨(Except.ok.inj ended).symm, by simp⟩⟩
  · rw [List.concat_eq_append] at cut
    obtain ⟨visits, seen, goOn⟩ := exists_visits_of_cut cut
    have verdict : resultOf (chain.stages s) = last.verdict.getD (.ok .ok) := by
      rw [cut, resultOf, List.getLast?_concat, Option.bind_some]
    rw [ended] at verdict
    cases here : last.visit? with
    | none =>
      obtain ⟨fault, failed⟩ := Stage.verdict_of_unseen here
      rw [failed] at verdict
      contradiction
    | some visit =>
      refine ⟨visits ++ [visit], ?_, ?_⟩
      · rw [cut, List.map_append, seen, List.map_append, List.map_singleton, here]
        rfl
      · rw [Stage.verdict_of_seen here] at verdict
        cases decided : visit.decision with
        | some status' =>
          rw [decided] at verdict
          obtain rfl := Except.ok.inj verdict
          exact .inl ⟨visits, visit, rfl, decided, goOn⟩
        | none =>
          rw [decided] at verdict
          refine .inr ⟨Except.ok.inj verdict, ?_⟩
          intro other member
          rcases List.mem_append.1 member with before | isLast
          · exact goOn other before
          · rw [List.mem_singleton.1 isLast]
            exact decided

/-- The processes of a run are numbered one after the other, however it ends. -/
theorem pids_stagesFrom (carried : Option Handle) (chain : Chain) (s : Session) :
    let actions := (stagesFrom carried chain s).flatMap Stage.actions
    (starts actions).map Prod.fst = List.range' (s.host.started + 1) (starts actions).length := by
  induction chain generalizing carried s with
  | nil => rfl
  | cons link rest ih =>
    have here := (Stage.of link carried s).starts_actions
    rw [Stage.start?_attempt] at here
    rw [stagesFrom]
    cases ended : (Stage.of link carried s).verdict with
    | some result =>
      simp only [List.flatMap_cons, List.flatMap_nil, List.append_nil, here]
      cases process : (Stage.of link carried s).child? with
      | none => rfl
      | some child => exact congrArg (fun pid => [pid]) (Stage.pid_of process)
    | none =>
      obtain ⟨child, process⟩ := Stage.exists_child_of_goesOn ended
      have later := ih (Stage.of link carried s).pipe? ((Stage.of link carried s).after s)
      rw [Stage.started_after, process] at later
      simp only [List.flatMap_cons, starts_append, here, process, Option.map_some,
        Option.toList_some, List.singleton_append, List.map_cons, List.length_cons,
        List.range'_succ, List.cons.injEq]
      exact ⟨Stage.pid_of process, later⟩

theorem pids_of_seen {carried : Option Handle}
    (seen : (stagesFrom carried chain s).map Stage.visit? = visits.map some) :
    visits.map Visit.pid = List.range' (s.host.started + 1) visits.length := by
  have numbers := pids_stagesFrom carried chain s
  simp only [starts_of_seen seen, List.map_map, List.length_map] at numbers
  exact numbers

end Chain

end ChainShell
