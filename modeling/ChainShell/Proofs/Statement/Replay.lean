/-
# ChainShell.Proofs.Statement.Replay — only assignments change variables

A run of statements stops at its end or at the first command that faults (`StopsAfter`).
The store it leaves is that of its assignments up to there, replayed in order, each with
its expression expanded in the store that those before it left (`Store.replay`).  Commands
have no part in this: a chain leaves the store as it was, however it ends (`store_runLine`).

A replay changes no name but those that are assigned (`get?_replay_of_unassigned`), and of
those the last assignment counts (`get?_replay_of_assigned`).

`runAll_replays` says this of every run.
-/
import ChainShell.Proofs.Chain.Failure
import ChainShell.Proofs.Statement.Composition
import Mathlib.Data.List.Basic

set_option autoImplicit false

namespace ChainShell

open ChainShell.Activity

/-- The name that a statement sets, and the expression it sets it to. -/
def Statement.binding? : Statement → Option (Text × Text)
  | .assign name expression => some (name, expression)
  | .command _ => none

/-! ## Replaying assignments -/

namespace Store

/-- The store after the assignments among some statements. -/
def replay (store : Store) (statements : List Statement) : Store :=
  (statements.filterMap Statement.binding?).foldl
    (fun store binding => store.set binding.1 (store.expand binding.2)) store

variable (store : Store) {name : Text}

theorem replay_append (first second : List Statement) :
    store.replay (first ++ second) = (store.replay first).replay second := by
  rw [replay, List.filterMap_append, List.foldl_append]
  rfl

theorem replay_cons (statement : Statement) (rest : List Statement) :
    store.replay (statement :: rest) = (store.replay [statement]).replay rest :=
  store.replay_append [statement] rest

/-- A name that is not assigned keeps its value. -/
theorem get?_replay_of_unassigned {statements : List Statement}
    (unassigned : ∀ expression, .assign name expression ∉ statements) :
    (store.replay statements).get? name = store.get? name := by
  induction statements generalizing store with
  | nil => rfl
  | cons statement rest ih =>
    have later := ih (store.replay [statement]) fun expression member =>
      unassigned expression (List.mem_cons_of_mem _ member)
    rw [replay_cons, later]
    cases statement with
    | command line => rfl
    | assign other expression =>
      have another : name ≠ other := by
        rintro rfl
        exact unassigned expression List.mem_cons_self
      show (store.set other (store.expand expression)).get? name = store.get? name
      rw [get?_set, if_neg another]

/-- A name that is assigned has the value that its last assignment had for it. -/
theorem get?_replay_of_assigned (before : List Statement) (expression : Text)
    {after : List Statement} (last : ∀ other, .assign name other ∉ after) :
    (store.replay (before ++ .assign name expression :: after)).get? name =
      some ((store.replay before).expand expression) := by
  rw [replay_append, replay_cons, get?_replay_of_unassigned _ last]
  show ((store.replay before).set name ((store.replay before).expand expression)).get? name = _
  rw [get?_set, if_pos rfl]

end Store

/-! ## Single statements -/

/-- A command leaves the store as it was, whether it ends with a status or with a fault. -/
theorem Chain.store_runLine (line : Text) (s : Session) :
    (runLine line s).session.store = s.store := by
  rw [runLine, get_bind_apply]
  cases ofLine s.store line with
  | error error => rfl
  | ok chain =>
    dsimp only
    rw [run_eq]
    exact store_sessionAfter s (chain.stages s)

namespace Statement

theorem store_run (statement : Statement) (s : Session) :
    (statement.run s).session.store = s.store.replay [statement] := by
  cases statement with
  | assign name expression => rfl
  | command line => exact Chain.store_runLine line s

/-- Only commands fault. -/
theorem exists_line_of_fault {statement : Statement} {s : Session} {fault : Fault}
    (faulted : (statement.run s).result = .error fault) : ∃ line, statement = .command line := by
  cases statement with
  | assign name expression => contradiction
  | command line => exact ⟨line, rfl⟩

/-! ## Runs -/

/-- A run of the statements of `done` and then `left` gets through those of `done` and no further: it
is at its end, or the next statement is a command that faults. -/
structure StopsAfter (status : Status) (done left : List Statement) (s : Session) : Prop where
  completed : ∃ last, (runAll status done s).result = .ok last
  stopped : left = [] ∨ ∃ line rest fault, left = .command line :: rest ∧
    (Chain.runLine line (runAll status done s).session).result = .error fault

theorem exists_stop (status : Status) (statements : List Statement) (s : Session) :
    ∃ done left, statements = done ++ left ∧ StopsAfter status done left s := by
  induction statements generalizing status s with
  | nil => exact ⟨[], [], rfl, ⟨status, rfl⟩, .inl rfl⟩
  | cons statement rest ih =>
    cases ran : (statement.run s).result with
    | error fault =>
      obtain ⟨line, rfl⟩ := exists_line_of_fault ran
      exact ⟨[], .command line :: rest, rfl, ⟨status, rfl⟩, .inr ⟨line, rest, fault, rfl, ran⟩⟩
    | ok middle =>
      obtain ⟨done, left, rfl, completed, stopped⟩ := ih middle (statement.run s).session
      have goesOn : runAll status (statement :: done) s = _ := bind_apply_of_ok ran _
      refine ⟨statement :: done, left, rfl, ?_, ?_⟩
      · rw [goesOn]
        exact completed
      · rw [goesOn]
        exact stopped

/-- Statements that all come to their ends leave the store of their assignments. -/
theorem store_of_completed {status last : Status} {done : List Statement} {s : Session}
    (completed : (runAll status done s).result = .ok last) :
    (runAll status done s).session.store = s.store.replay done := by
  induction done generalizing status s with
  | nil => rfl
  | cons statement rest ih =>
    obtain ⟨middle, ran, later⟩ := result_bind_eq_ok.1 completed
    rw [runAll, bind_apply_of_ok ran, Store.replay_cons, ← store_run]
    exact ih later

/-- The command at which a run stops changes no variable. -/
theorem StopsAfter.store_eq {status : Status} {done left : List Statement} {s : Session}
    (stops : StopsAfter status done left s) :
    (runAll status (done ++ left) s).session.store = s.store.replay done := by
  obtain ⟨⟨last, completed⟩, stopped⟩ := stops
  have store := store_of_completed completed
  rw [runAll_append, bind_apply_of_ok completed]
  rcases stopped with rfl | ⟨line, rest, fault, rfl, faulted⟩
  · exact store
  · have ended : runAll last (.command line :: rest) (runAll status done s).session = _ :=
      bind_apply_of_error faulted _
    rw [ended]
    exact (Chain.store_runLine line _).trans store

/-- Every run of statements stops somewhere, and however it ends, it leaves the store of the
assignments before that place: a name that is not among them keeps its value, and one that is has
the value of its last expression in the store of that moment.  A command changes no variable. -/
theorem runAll_replays :
    (∀ status statements s, ∃ done left, statements = done ++ left ∧
        StopsAfter status done left s) ∧
      (∀ status done left s, StopsAfter status done left s →
        let store := (runAll status (done ++ left) s).session.store
        store = s.store.replay done ∧
          (∀ name, (∀ expression, .assign name expression ∉ done) →
            store.get? name = s.store.get? name) ∧
          ∀ before name expression after, done = before ++ .assign name expression :: after →
            (∀ other, .assign name other ∉ after) →
              store.get? name = some ((s.store.replay before).expand expression)) ∧
      ∀ line s, (Chain.runLine line s).session.store = s.store := by
  refine ⟨exists_stop, ?_, Chain.store_runLine⟩
  intro status done left s stops store
  have replayed : store = s.store.replay done := stops.store_eq
  rw [replayed]
  refine ⟨rfl, fun name => s.store.get?_replay_of_unassigned, ?_⟩
  rintro before name expression after rfl last
  exact s.store.get?_replay_of_assigned before expression last

/-- A variable that is set in terms of itself, and then named by a command that is not found. -/
theorem runAll_replays_itself :
    let done : List Statement :=
      [.assign ['x'] ['a'], .command ['l'], .assign ['x'] "$x$x".toList]
    let left : List Statement := [.command "$x".toList, .assign ['x'] ['b']]
    let s : Session :=
      { store := ⟨[(['k'], ['v'])]⟩, host := { programs := [(['l'], [.starts 1 0 0])] } }
    let ended := runAll .ok (done ++ left) s
    StopsAfter .ok done left s ∧
      ended.result = .error (.shell (.commandNotFound ['a', 'a'] none)) ∧
      ended.session.store.get? ['x'] = some ['a', 'a'] ∧
      ended.session.store.get? ['k'] = some ['v'] := by
  intro done left s ended
  have stops : StopsAfter .ok done left s := by
    refine ⟨⟨.ok, by decide +kernel⟩, .inr ?_⟩
    exact ⟨_, _, .shell (.commandNotFound ['a', 'a'] none), rfl, by decide +kernel⟩
  obtain ⟨-, kept, assigned⟩ := runAll_replays.2.1 .ok done left s stops
  refine ⟨stops, by decide +kernel, ?_, ?_⟩
  · have last := assigned [.assign ['x'] ['a'], .command ['l']] ['x'] _ [] rfl (by simp)
    rw [last]
    decide
  · rw [kept ['k'] (by simp [done])]
    rfl

end Statement

end ChainShell
