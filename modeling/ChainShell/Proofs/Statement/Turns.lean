/-
# ChainShell.Proofs.Statement.Turns — the statements that get their turn

Statements run one after the other up to the first that faults.  Each of those that run finds
the session that the one before it left; this is its turn (`Turn`), and a run of statements is
the list of its turns (`runAll_eq`): its result is that of the last turn, and its actions are
those of the turns one after the other.

* `turns_cut`: a turn is that of the statement at its place, finds what the turns before it
  left, and follows on statements that all came to their ends.
* `last_of_fault`: a turn that faults is the last one.
* `map_statement_of_completed`: without a fault every statement gets its turn.
* `found_of_kept`: what every statement keeps of a session, every turn finds and leaves.
-/
import ChainShell.Statement.Run

set_option autoImplicit false

namespace ChainShell

open ChainShell.Activity

/-- A statement that runs, and the session that it finds. -/
structure Turn where
  statement : Statement
  found : Session

namespace Turn

/-- How the statement ended. -/
def ended (turn : Turn) : Ended Status := turn.statement.run turn.found

/-- The statement came to its end. -/
def Completed (turn : Turn) : Prop := ∃ status, turn.ended.result = .ok status

/-- What the last turn gives, and what there is without one. -/
def atEnd {α : Type} (read : Turn → α) (turns : List Turn) (otherwise : α) : α :=
  (turns.getLast?.map read).getD otherwise

theorem atEnd_cons {α : Type} (read : Turn → α) (turn : Turn) (rest : List Turn) (otherwise : α) :
    atEnd read (turn :: rest) otherwise = atEnd read rest (read turn) := by
  rw [atEnd, atEnd, List.getLast?_cons]
  cases rest.getLast? <;> rfl

end Turn

open Turn

namespace Statement

/-- The turns of a run of statements, up to the first that faults. -/
def turns : List Statement → Session → List Turn
  | [], _ => []
  | statement :: rest, s =>
    match (statement.run s).result with
    | .error _ => [⟨statement, s⟩]
    | .ok _ => ⟨statement, s⟩ :: turns rest (statement.run s).session

section

variable {statement : Statement} {s : Session}

theorem turns_of_fault {fault : Fault} (faulted : (statement.run s).result = .error fault)
    (rest : List Statement) : turns (statement :: rest) s = [⟨statement, s⟩] := by
  rw [turns, faulted]

theorem turns_of_ok {status : Status} (ran : (statement.run s).result = .ok status)
    (rest : List Statement) :
    turns (statement :: rest) s = ⟨statement, s⟩ :: turns rest (statement.run s).session := by
  rw [turns, ran]

end

/-- A run of statements is the list of its turns. -/
theorem runAll_eq (status : Status) (statements : List Statement) (s : Session) :
    runAll status statements s =
      let turns := turns statements s
      ⟨atEnd (·.ended.result) turns (.ok status), atEnd (·.ended.session) turns s,
        turns.flatMap (·.ended.actions)⟩ := by
  induction statements generalizing status s with
  | nil => rfl
  | cons statement rest ih =>
    rw [runAll]
    cases ran : (statement.run s).result with
    | error fault =>
      rw [bind_apply_of_error ran, turns_of_fault ran]
      exact Ended.ext ran.symm rfl (List.append_nil _).symm
    | ok middle =>
      rw [bind_apply_of_ok ran, turns_of_ok ran, ih]
      dsimp only
      rw [atEnd_cons, atEnd_cons, List.flatMap_cons, Turn.ended, ran]

theorem result_runAll (status : Status) (statements : List Statement) (s : Session) :
    (runAll status statements s).result =
      ((turns statements s).getLast?.map (·.ended.result)).getD (.ok status) := by
  rw [runAll_eq]
  rfl

section

variable {statements : List Statement} {s : Session}

theorem turns_cut {earlier later : List Turn} {turn : Turn}
    (cut : turns statements s = earlier ++ turn :: later) :
    (∀ before ∈ earlier, before.Completed) ∧ statements[earlier.length]? = some turn.statement ∧
      turn.found = atEnd (·.ended.session) earlier s := by
  induction earlier generalizing statements s with
  | nil =>
    cases statements with
    | nil => contradiction
    | cons statement rest =>
      obtain rfl : ⟨statement, s⟩ = turn := by
        rw [turns] at cut
        split at cut
        · exact (List.cons.inj cut).1
        · exact (List.cons.inj cut).1
      exact ⟨by simp, rfl, rfl⟩
  | cons first earlier ih =>
    cases statements with
    | nil => contradiction
    | cons statement rest =>
      cases ran : (statement.run s).result with
      | error fault =>
        rw [turns_of_fault ran] at cut
        simp at cut
      | ok status =>
        rw [turns_of_ok ran, List.cons_append] at cut
        obtain ⟨rfl, inRest⟩ := List.cons.inj cut
        obtain ⟨completed, place, found⟩ := ih inRest
        refine ⟨List.forall_mem_cons.2 ⟨⟨status, ran⟩, completed⟩, place, ?_⟩
        rw [atEnd_cons]
        exact found

theorem last_of_fault {turn : Turn} {fault : Fault} (member : turn ∈ turns statements s)
    (faulted : turn.ended.result = .error fault) :
    (turns statements s).getLast? = some turn := by
  obtain ⟨earlier, later, cut⟩ := List.append_of_mem member
  cases later with
  | nil => rw [cut, List.getLast?_concat]
  | cons next later =>
    rw [← List.singleton_append, ← List.append_assoc] at cut
    obtain ⟨status, ran⟩ := (turns_cut cut).1 turn (by simp)
    rw [faulted] at ran
    contradiction

/-- A run that faults has a last turn, which faulted. -/
theorem exists_last_of_fault {status : Status} {fault : Fault}
    (faulted : (runAll status statements s).result = .error fault) :
    ∃ turn, (turns statements s).getLast? = some turn ∧ turn.ended.result = .error fault := by
  rw [result_runAll] at faulted
  cases last : (turns statements s).getLast? with
  | none =>
    rw [last] at faulted
    contradiction
  | some turn =>
    rw [last] at faulted
    exact ⟨turn, rfl, faulted⟩

theorem completed_of_ok {status final : Status}
    (ran : (runAll status statements s).result = .ok final) :
    ∀ turn ∈ turns statements s, turn.Completed := by
  intro turn member
  cases ended : turn.ended.result with
  | ok status => exact ⟨status, ended⟩
  | error fault =>
    rw [result_runAll, last_of_fault member ended, Option.map_some, Option.getD_some, ended] at ran
    contradiction

/-- The statements that get their turn are the first ones. -/
theorem map_statement_turns (statements : List Statement) (s : Session) :
    (turns statements s).map Turn.statement <+: statements := by
  induction statements generalizing s with
  | nil => exact List.prefix_rfl
  | cons statement rest ih =>
    cases ran : (statement.run s).result with
    | error fault =>
      rw [turns_of_fault ran]
      exact List.prefix_append [statement] rest
    | ok status =>
      rw [turns_of_ok ran]
      exact List.prefix_cons_inj statement |>.2 (ih _)

theorem map_statement_of_completed (completed : ∀ turn ∈ turns statements s, turn.Completed) :
    (turns statements s).map Turn.statement = statements := by
  induction statements generalizing s with
  | nil => rfl
  | cons statement rest ih =>
    cases ran : (statement.run s).result with
    | error fault =>
      rw [turns_of_fault ran] at completed
      obtain ⟨status, ran'⟩ := completed ⟨statement, s⟩ List.mem_cons_self
      rw [Turn.ended, ran] at ran'
      contradiction
    | ok status =>
      rw [turns_of_ok ran] at completed ⊢
      rw [List.map_cons, ih fun turn member => completed turn (List.mem_cons_of_mem _ member)]

theorem found_of_kept {P : Session → Prop}
    (kept : ∀ statement ∈ statements, ∀ s, P s → P (statement.run s).session) (holds : P s) :
    ∀ turn ∈ turns statements s, P turn.found ∧ P turn.ended.session := by
  induction statements generalizing s with
  | nil => simp [turns]
  | cons statement rest ih =>
    have left := kept statement List.mem_cons_self s holds
    cases ran : (statement.run s).result with
    | error fault =>
      rw [turns_of_fault ran]
      exact List.forall_mem_cons.2 ⟨⟨holds, left⟩, by simp⟩
    | ok status =>
      rw [turns_of_ok ran]
      refine List.forall_mem_cons.2 ⟨⟨holds, left⟩, ?_⟩
      exact ih (fun other member => kept other (List.mem_cons_of_mem _ member)) left

theorem session_of_kept {P : Session → Prop} (status : Status)
    (kept : ∀ statement ∈ statements, ∀ s, P s → P (statement.run s).session) (holds : P s) :
    P (runAll status statements s).session := by
  rw [runAll_eq]
  dsimp only
  rw [atEnd]
  cases last : (turns statements s).getLast? with
  | none => exact holds
  | some turn => exact (found_of_kept kept holds turn (List.mem_of_getLast? last)).2

end

end Statement

end ChainShell
