/-
# ChainShell.Proofs.Chain.Demands — machines that differ in one answer

A run of a chain asks its machine for two kinds of things: to open a path, and to start a
program, which may have been asked for before (`Demand`).  A machine answers each demand
by itself (`Host.outcomeAt`), so there is a machine that grants one demand and answers all
others as before (`Host.Spares`, `exists_spares`).

The two machines are the same to a run until it makes that demand: as long as the stages of
a run do not ask for it (`Stage.Pass`), they are met on both machines, and then the stage
of the same link follows (`stagesFrom_spares`).
-/
import ChainShell.Proofs.Chain.Views

set_option autoImplicit false

namespace ChainShell

/-- Something that a run asks of its machine: to open a path, or to start a program that it asked
for so many times before. -/
inductive Demand where
  | opening (path : Text)
  | start (program : Text) (earlier : Nat)
  deriving DecidableEq, Repr

/-- The demand as it is counted after one more attempt to start a program. -/
def Demand.after (program : Text) : Demand → Demand
  | opening path => opening path
  | start name earlier => start name (if name = program then earlier - 1 else earlier)

/-! ## Answers -/

namespace Host

/-- The outcome of an attempt to start a program after so many others; the last one repeats. -/
def outcomeAt (h : Host) (program : Text) (earlier : Nat) : Outcome :=
  match h.programs.lookup program with
  | none => .fails .notFound
  | some outcomes => (outcomes[min earlier (outcomes.length - 1)]?).getD (.fails .notFound)

def Refuses (h : Host) (error : OsError) : Demand → Prop
  | .opening path => h.openErrors.lookup path = some error
  | .start program earlier => h.outcomeAt program earlier = .fails error

/-- There is a call that the machine does not take, and the message is what comes of it. -/
def Declines (h : Host) (message : Text) : Prop := ∃ demand, h.Refuses (.invalid message) demand

def Grants (h : Host) : Demand → Prop
  | .opening path => h.openErrors.lookup path = none
  | .start program earlier => ∃ returnCode polls interrupts,
      h.outcomeAt program earlier = .starts returnCode polls interrupts

/-- The second machine grants the demand, and otherwise answers as the first one. -/
structure Spares (h : Host) (demand : Demand) (h' : Host) : Prop where
  grants : h'.Grants demand
  openings : ∀ path, demand ≠ .opening path →
    h'.openErrors.lookup path = h.openErrors.lookup path
  outcomes : ∀ program earlier, demand ≠ .start program earlier →
    h'.outcomeAt program earlier = h.outcomeAt program earlier
  opened : h'.opened = h.opened
  started : h'.started = h.started

theorem outcomeAt_zero (h : Host) (program : Text) : h.outcomeAt program 0 = h.outcome program := by
  rw [outcomeAt, outcome]
  cases h.programs.lookup program with
  | none => rfl
  | some outcomes => cases outcomes <;> rfl

/-- The outcomes that are left after an attempt. -/
def laterOutcomes : List Outcome → List Outcome
  | _ :: next :: later => next :: later
  | outcomes => outcomes

theorem lookup_dropOutcome (program name : Text) (programs : List (Text × List Outcome)) :
    (dropOutcome program programs).lookup name =
      if name = program then (programs.lookup name).map laterOutcomes
      else programs.lookup name := by
  induction programs with
  | nil => simp [dropOutcome]
  | cons entry rest ih =>
    obtain ⟨key, outcomes⟩ := entry
    by_cases here : key = program
    · subst here
      by_cases same : name = key
      · subst same
        rcases outcomes with _ | ⟨first, _ | ⟨second, later⟩⟩ <;> simp [dropOutcome, laterOutcomes]
      · rcases outcomes with _ | ⟨first, _ | ⟨second, later⟩⟩ <;>
          simp [dropOutcome, List.lookup_cons, same, beq_false_of_ne]
    · by_cases same : name = key
      · subst same
        simp [dropOutcome, here]
      · simp [dropOutcome, here, List.lookup_cons, beq_false_of_ne same, ih]

/-- An attempt takes one outcome of its program, and nothing of the others. -/
theorem outcomeAt_attempted (h : Host) (program name : Text) (earlier : Nat) :
    (h.attempted program).outcomeAt name earlier =
      h.outcomeAt name (if name = program then earlier + 1 else earlier) := by
  simp only [outcomeAt, attempted, lookup_dropOutcome]
  by_cases same : name = program
  · simp only [same, if_true]
    cases h.programs.lookup program with
    | none => rfl
    | some outcomes =>
      rcases outcomes with _ | ⟨first, _ | ⟨second, later⟩⟩
      · rfl
      · simp [laterOutcomes]
      · simp [laterOutcomes, Nat.succ_min_succ]
  · simp only [same, if_false]

/-! ### What is refused -/

section

variable {h h' : Host} {demand : Demand} {error : OsError}

/-- Nothing else of a machine decides what it refuses. -/
theorem refuses_congr (programs : h'.programs = h.programs)
    (openErrors : h'.openErrors = h.openErrors) :
    h'.Refuses error demand ↔ h.Refuses error demand := by
  cases demand with
  | opening path => rw [Refuses, Refuses, openErrors]
  | start program earlier => rw [Refuses, Refuses, outcomeAt, outcomeAt, programs]

/-- A machine has no new errors after an attempt. -/
theorem exists_refuses_of_attempted {program : Text}
    (refused : (h.attempted program).Refuses error demand) : ∃ before, h.Refuses error before := by
  cases demand with
  | opening path => exact ⟨.opening path, refused⟩
  | start name earlier =>
    rw [Refuses, outcomeAt_attempted] at refused
    exact ⟨.start name _, refused⟩

/-- The machine's errors are those that are listed, and the one of a program that is not. -/
theorem holds_of_refuses {P : OsError → Prop} (missing : P .notFound)
    (openings : ∀ entry ∈ h.openErrors, P entry.2)
    (starts : ∀ entry ∈ h.programs, ∀ error, .fails error ∈ entry.2 → P error)
    (refused : h.Refuses error demand) : P error := by
  cases demand with
  | opening path =>
    obtain ⟨before, after, split, -⟩ := List.lookup_eq_some_iff.1 refused
    exact openings (path, error) (by rw [split]; simp)
  | start program earlier =>
    rw [Refuses, outcomeAt] at refused
    split at refused
    · obtain rfl := Outcome.fails.inj refused
      exact missing
    · rename_i outcomes found
      obtain ⟨before, after, split, -⟩ := List.lookup_eq_some_iff.1 found
      cases chosen : outcomes[min earlier (outcomes.length - 1)]? with
      | none =>
        rw [chosen] at refused
        obtain rfl := Outcome.fails.inj refused
        exact missing
      | some outcome =>
        rw [chosen] at refused
        obtain rfl : outcome = .fails error := refused
        exact starts (program, outcomes) (by rw [split]; simp) error (List.mem_of_getElem? chosen)

end

/-! ### Other machines -/

/-- From some attempt on the outcome stays the same. -/
theorem exists_outcomeAt_const (h : Host) (program : Text) :
    ∃ last, ∀ earlier, last ≤ earlier → h.outcomeAt program earlier = h.outcomeAt program last := by
  simp only [outcomeAt]
  cases h.programs.lookup program with
  | none => exact ⟨0, fun _ _ => rfl⟩
  | some outcomes =>
    refine ⟨outcomes.length - 1, fun earlier late => ?_⟩
    simp only [Nat.min_eq_right late, Nat.min_self]

/-- A machine on which a program has the outcomes of a function, the last of which repeats. -/
def withOutcomes (h : Host) (program : Text) (last : Nat) (outcome : Nat → Outcome) : Host :=
  { h with programs := (program, (List.range (last + 1)).map outcome) :: h.programs }

theorem outcomeAt_withOutcomes (h : Host) (program name : Text) (last earlier : Nat)
    (outcome : Nat → Outcome) :
    (h.withOutcomes program last outcome).outcomeAt name earlier =
      if name = program then outcome (min earlier last) else h.outcomeAt name earlier := by
  by_cases same : name = program
  · have inRange : min earlier last < last + 1 := by omega
    simp [outcomeAt, withOutcomes, same, inRange]
  · simp [outcomeAt, withOutcomes, same, List.lookup_cons, beq_false_of_ne]

/-- Every demand could have been granted. -/
theorem exists_spares (h : Host) (demand : Demand) : ∃ h', h.Spares demand h' := by
  cases demand with
  | opening path =>
    let errors := h.openErrors.filter fun entry => entry.1 != path
    have lookup : ∀ other, errors.lookup other =
        if other = path then none else h.openErrors.lookup other :=
      fun other => Store.lookup_filter_bne path other h.openErrors
    refine ⟨{ h with openErrors := errors }, ?_, ?_, fun _ _ _ => rfl, rfl, rfl⟩
    · exact (lookup path).trans (if_pos rfl)
    · intro other different
      exact (lookup other).trans (if_neg fun same => different (congrArg _ same.symm))
  | start program earlier =>
    obtain ⟨last, const⟩ := h.exists_outcomeAt_const program
    let bound := max last (earlier + 1)
    let outcome (n : Nat) : Outcome :=
      if n = earlier then .starts 0 0 0 else h.outcomeAt program n
    refine ⟨h.withOutcomes program bound outcome, ?_, fun _ _ => rfl, ?_, rfl, rfl⟩
    · refine ⟨0, 0, 0, ?_⟩
      rw [outcomeAt_withOutcomes, if_pos rfl, Nat.min_eq_left (by omega)]
      exact if_pos rfl
    · intro name other different
      rw [outcomeAt_withOutcomes]
      by_cases same : name = program
      · subst same
        have notHere : other ≠ earlier := fun same => different (same ▸ rfl)
        have stays : h.outcomeAt name (min other bound) = h.outcomeAt name other := by
          by_cases inside : other ≤ bound
          · rw [Nat.min_eq_left inside]
          · rw [const other (by omega), const _ (by omega)]
        rw [if_pos rfl, ← stays]
        exact if_neg (by omega)
      · exact if_neg same

/-- An attempt that is not the one granted leaves machines that differ in the same answer. -/
theorem Spares.attempted {h h' : Host} {demand : Demand} (spares : h.Spares demand h')
    {program : Text} (other : demand ≠ .start program 0) :
    (h.attempted program).Spares (demand.after program) (h'.attempted program) where
  grants := by
    cases demand with
    | opening path => exact spares.grants
    | start name earlier =>
      obtain ⟨returnCode, polls, interrupts, starts⟩ := spares.grants
      refine ⟨returnCode, polls, interrupts, ?_⟩
      rw [outcomeAt_attempted, ← starts]
      by_cases same : name = program
      · subst same
        have later : earlier ≠ 0 := fun first => other (first ▸ rfl)
        simp only [if_true]
        rw [Nat.sub_add_cancel (Nat.pos_of_ne_zero later)]
      · simp only [same, if_false]
  openings path different := spares.openings path fun same => different (by rw [same]; rfl)
  outcomes name earlier different := by
    rw [outcomeAt_attempted, outcomeAt_attempted]
    refine spares.outcomes _ _ fun same => different ?_
    subst same
    by_cases here : name = program
    · simp [Demand.after, here]
    · simp [Demand.after, here]
  opened := spares.opened
  started := spares.started

/-- Nothing else of the machines matters. -/
theorem Spares.congr {h h' k k' : Host} {demand : Demand} (spares : h.Spares demand h')
    (programs : k.programs = h.programs) (errors : k.openErrors = h.openErrors)
    (programs' : k'.programs = h'.programs) (errors' : k'.openErrors = h'.openErrors)
    (opened : k'.opened = k.opened) (started : k'.started = k.started) : k.Spares demand k' where
  grants := by
    cases demand with
    | opening path => simpa only [Grants, errors'] using spares.grants
    | start program earlier => simpa only [Grants, outcomeAt, programs'] using spares.grants
  openings path different := by
    rw [errors, errors']
    exact spares.openings path different
  outcomes program earlier different := by
    rw [outcomeAt, outcomeAt, programs, programs']
    exact spares.outcomes program earlier different
  opened := opened
  started := started

end Host

/-! ## Runs -/

namespace Stage

theorem of_congr {link : Link} {carried : Option Handle} {s s' : Session}
    (opening : Opening.of s' (link.invocation.openings carried) =
      Opening.of s (link.invocation.openings carried))
    (outcome : s'.host.outcome link.invocation.executable =
      s.host.outcome link.invocation.executable)
    (started : s'.host.started = s.host.started) : of link carried s' = of link carried s := by
  rw [of, of, opening, outcome, started]

def program (stage : Stage) : Text := stage.link.invocation.executable

/-- None of the stages asks for the demand. -/
def Pass (demand : Demand) : List Stage → Prop
  | [] => True
  | stage :: rest =>
    (∀ redirect ∈ stage.link.invocation.openings stage.carried, demand ≠ .opening redirect.2) ∧
      demand ≠ .start stage.program 0 ∧ Pass (demand.after stage.program) rest

end Stage

/-- The demand as it is counted after some stages. -/
def Demand.afterStages (demand : Demand) (stages : List Stage) : Demand :=
  stages.foldl (fun demand stage => demand.after stage.program) demand

namespace Chain

/-- A run on the machine that grants a demand meets the same stages until the demand is made. -/
theorem stagesFrom_spares {carried : Option Handle} {chain : Chain} {s s' : Session}
    {demand : Demand} {earlier later : List Stage} {stage : Stage}
    (cut : stagesFrom carried chain s = earlier ++ stage :: later)
    (pass : Stage.Pass demand earlier) (spares : s.host.Spares demand s'.host) :
    (sessionAfter s earlier).host.Spares (demand.afterStages earlier)
        (sessionAfter s' earlier).host ∧
      ∃ later', stagesFrom carried chain s' =
        earlier ++ Stage.of stage.link stage.carried (sessionAfter s' earlier) :: later' := by
  induction earlier generalizing carried chain s s' demand with
  | nil =>
    refine ⟨spares, ?_⟩
    cases chain with
    | nil => simp [stagesFrom] at cut
    | cons link rest =>
      have head : stage = Stage.of link carried s := by
        rw [stagesFrom] at cut
        split at cut <;> exact (List.cons.inj cut).1.symm
      subst head
      rw [stagesFrom]
      split
      · exact ⟨[], rfl⟩
      · exact ⟨_, rfl⟩
  | cons first earlier ih =>
    obtain ⟨openings, start, pass⟩ := pass
    cases chain with
    | nil => simp [stagesFrom] at cut
    | cons link rest =>
      rw [stagesFrom] at cut
      cases ended : (Stage.of link carried s).verdict with
      | some result => simp [ended] at cut
      | none =>
        simp only [ended, List.cons_append, List.cons.injEq] at cut
        obtain ⟨rfl, cut⟩ := cut
        have same : Stage.of link carried s' = Stage.of link carried s := by
          refine Stage.of_congr (Opening.of_congr spares.opened ?_) ?_ spares.started
          · intro redirect member
            exact spares.openings redirect.2 (openings redirect member)
          · rw [← Host.outcomeAt_zero, ← Host.outcomeAt_zero]
            exact spares.outcomes _ _ start
        obtain ⟨child, process⟩ := Stage.exists_child_of_goesOn ended
        have after : ((Stage.of link carried s).after s).host.Spares
            (demand.after link.invocation.executable)
              ((Stage.of link carried s).after s').host := by
          refine (spares.attempted start).congr (Stage.programs_after process s)
            (Stage.openErrors_after _ s) (Stage.programs_after process s')
            (Stage.openErrors_after _ s') ?_ ?_
          · rw [Stage.opened_after, Stage.opened_after, spares.opened]
          · rw [Stage.started_after, Stage.started_after, spares.started]
        obtain ⟨spares', later', stages⟩ := ih cut pass after
        refine ⟨spares', later', ?_⟩
        rw [stagesFrom, same]
        simp only [ended, stages]
        rfl

end Chain

end ChainShell
