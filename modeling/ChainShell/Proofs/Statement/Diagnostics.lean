/-
# ChainShell.Proofs.Statement.Diagnostics — one line for what went wrong

A script is cut into lines, so none of its statements holds a line break, and none gets one on
the way: an assignment stores an expansion of its expression, a command leaves the variables as
they are, and neither makes the machine say more than it would have said before (`lacks_run`).
This holds of every turn of a run, so a break that the machine's errors do not tell

* is never in the value of a variable, in a text of a chain that is read, in a path that is
  opened, or in a command or argument of a process;
* is not in what is reported at the end, either.  A run reports nothing before (`reports_runAll`),
  and then the error that stopped it, or the death of the process that decided its last chain,
  in one line, or nothing (`reports_runSource`).

`runSource_keepsOut` says this of every script, and of each break by itself.
-/
import ChainShell.Proofs.Chain.Absence
import ChainShell.Proofs.Statement.Grammar
import ChainShell.Proofs.Statement.SingleLine
import ChainShell.Proofs.Statement.Turns

set_option autoImplicit false

namespace ChainShell

open ChainShell.Action ChainShell.Activity

variable {c : Char}

/-! ## Chains -/

/-- Neither the variables nor what the machine says of its errors has the character. -/
structure Session.Lacks (c : Char) (s : Session) : Prop where
  store : s.store.Lacks c
  host : s.host.Lacks c

/-- The session that is left lacks the character, everything was done without it, and the error, if
there was one, does not quote it. -/
structure Ended.Lacks {α : Type} (c : Char) (ended : Ended α) : Prop where
  session : ended.session.Lacks c
  actions : ∀ action ∈ ended.actions, action.Lacks c
  error : ∀ error, ended.result = .error (.shell error) → ∀ text ∈ error.quoted, c ∉ text

theorem Chain.lacks_run {chain : Chain} {s : Session} (breaks : Text.isLineBreak c = true)
    (absent : chain.Lacks c) (lacks : s.Lacks c) : (chain.run s).Lacks c where
  session := by
    have store : (chain.run s).session.store = s.store := by
      rw [run_eq]
      exact store_sessionAfter s (chain.stages s)
    exact ⟨store ▸ lacks.store, chain.lacks_host_run lacks.host⟩
  actions _ := lacks_action_run absent
  error _ := lacks_of_failed breaks absent lacks.host

/-! ## Statements -/

namespace Statement

/-- The expression or the command lacks the character. -/
def Lacks (c : Char) : Statement → Prop
  | assign _ expression => c ∉ expression
  | command line => c ∉ line

theorem lacks_ofLine {line : Text} (absent : c ∉ line) : (ofLine line).Lacks c := by
  cases said : ofLine line with
  | assign name expression =>
    obtain ⟨before, after, rfl, -, -⟩ := (ofLine_eq_assign_iff.1 said).spelt
    intro inside
    apply absent
    simp [inside]
  | command text =>
    obtain ⟨rfl, -⟩ := ofLine_eq_command_iff.1 said
    exact absent

/-- The lines of a script have no breaks. -/
theorem lacks_of_mem_ofSource (breaks : Text.isLineBreak c = true) {source : Text} :
    ∀ statement ∈ ofSource source, statement.Lacks c := by
  intro statement member
  obtain ⟨line, rfl, -, unbroken⟩ := exists_line_of_mem_ofSource member
  exact lacks_ofLine (Text.notMem_of_unbroken breaks unbroken)

/-- A statement keeps the character out that it does not have itself. -/
theorem lacks_run (breaks : Text.isLineBreak c = true) {statement : Statement} {s : Session}
    (absent : statement.Lacks c) (lacks : s.Lacks c) : (statement.run s).Lacks c := by
  cases statement with
  | assign name expression =>
    have store : (s.store.assign name expression).Lacks c :=
      lacks.store.set name (lacks.store.expand absent)
    exact ⟨⟨store, lacks.host⟩, fun _ member => by contradiction, fun _ failed => by contradiction⟩
  | command line =>
    rw [run]
    cases read : Chain.ofLine s.store line with
    | error error =>
      rw [Chain.runLine_of_error read]
      refine ⟨lacks, fun _ member => by contradiction, fun other failed => ?_⟩
      obtain rfl := Fault.shell.inj (Except.error.inj failed)
      exact Chain.lacks_of_unread absent read
    | ok chain =>
      rw [Chain.runLine_of_ok read]
      exact Chain.lacks_run breaks (Chain.lacks_ofLine lacks.store absent read) lacks

theorem reports_runAll (status : Status) (statements : List Statement) (s : Session) :
    reports (runAll status statements s).actions = [] := by
  rw [runAll_eq, reports, List.filterMap_eq_nil_iff]
  intro action member
  obtain ⟨turn, -, inside⟩ := List.mem_flatMap.1 member
  have silent := turn.statement.reports_run turn.found
  rw [reports, List.filterMap_eq_nil_iff] at silent
  exact silent action inside

end Statement

/-! ## Scripts -/

open Statement

/-- In a run of a script a character stays out of what is kept, what is asked of the machine, and
what is reported. -/
structure KeepsOut (c : Char) (source : Text) (s : Session) : Prop where
  /-- Nothing is reported, or one message. -/
  report : reports (runSource source s).actions = [] ∨ ∃ message, c ∉ message ∧
    reports (runSource source s).actions = ["dcsh: ".toList ++ message ++ ['\n']]
  /-- No statement finds a variable with a value that has the character, or leaves one. -/
  stores : ∀ turn ∈ turns (ofSource source) s,
    turn.found.store.Lacks c ∧ turn.ended.session.store.Lacks c
  left : (runSource source s).session.store.Lacks c
  /-- No command or argument of a chain has it, and no target of a redirect, whether it comes to run
  or not. -/
  chains : ∀ turn ∈ turns (ofSource source) s, ∀ line chain, turn.statement = .command line →
    Chain.ofLine turn.found.store line = .ok chain → chain.Lacks c
  /-- No command or argument of a process has it, and no path that is opened. -/
  actions : ∀ action ∈ (runSource source s).actions, action.Lacks c

variable {source : Text} {s : Session}

theorem session_acknowledged (ran : Ended Status) : (acknowledged ran).session = ran.session := by
  rcases ran with ⟨fault | status, session, actions⟩
  · cases fault <;> rfl
  · rfl

/-- What is reported is what the run of the statements ended with. -/
theorem reports_runSource (source : Text) (s : Session) :
    reports (runSource source s).actions =
      reportsOn (runAll .ok (ofSource source) s).result := by
  rw [runSource_apply, concluded_eq]
  dsimp only
  rw [actions_acknowledged, reports_append, reports_runAll, reports_map_wrote, List.nil_append]

/-- A report is one line around a message that quotes what an error quotes, or tells a signal. -/
theorem reportsOn_cases (breaks : Text.isLineBreak c = true) {result : Except Fault Status}
    (quoted : ∀ error, result = .error (.shell error) → ∀ text ∈ error.quoted, c ∉ text) :
    reportsOn result = [] ∨ ∃ message, c ∉ message ∧ reportsOn result = [diagnostic message] := by
  cases result with
  | ok status =>
    cases killed : status.signal with
    | none =>
      left
      rw [reportsOn, killed]
      rfl
    | some signal =>
      have opening := Text.notMem_of_any breaks (t := "killed by signal ".toList) rfl
      refine .inr ⟨_, List.not_mem_append opening (Text.notMem_ofInt breaks signal), ?_⟩
      rw [reportsOn, killed]
      rfl
  | error fault =>
    cases fault with
    | shell error => exact .inr ⟨error.message, error.notMem_message breaks (quoted error rfl), rfl⟩
    | _ => exact .inl rfl

/-- What is neither in the variables nor told by the machine's errors stays out of a script's run,
if it is a line break. -/
theorem runSource_keepsOut (breaks : Text.isLineBreak c = true) (store : s.store.Lacks c)
    (host : s.host.Lacks c) (source : Text) : KeepsOut c source s := by
  have lacks : s.Lacks c := ⟨store, host⟩
  have absent : ∀ statement ∈ ofSource source, statement.Lacks c := lacks_of_mem_ofSource breaks
  have kept : ∀ statement ∈ ofSource source, ∀ s : Session, s.Lacks c →
      (statement.run s).session.Lacks c :=
    fun statement member s lacks => (lacks_run breaks (absent statement member) lacks).session
  have found := found_of_kept kept lacks
  have said : ∀ turn ∈ turns (ofSource source) s, turn.statement.Lacks c := fun turn member =>
    absent _ ((map_statement_turns _ s).subset (List.mem_map_of_mem member))
  have ended : ∀ turn ∈ turns (ofSource source) s, turn.ended.Lacks c := fun turn member =>
    lacks_run breaks (said turn member) (found turn member).1
  refine ⟨?_, ?_, ?_, ?_, ?_⟩
  · rw [reports_runSource]
    apply reportsOn_cases breaks
    intro error failed
    obtain ⟨turn, last, faulted⟩ := exists_last_of_fault failed
    have member := List.mem_of_getLast? last
    exact (ended turn member).error error faulted
  · exact fun turn member => ⟨(found turn member).1.store, (found turn member).2.store⟩
  · rw [runSource_apply, concluded_eq]
    dsimp only
    rw [session_acknowledged]
    exact (session_of_kept .ok kept lacks).store
  · intro turn member line chain command read
    have inLine := said turn member
    rw [command] at inLine
    exact Chain.lacks_ofLine (found turn member).1.store inLine read
  · intro action member
    rw [runSource_apply, concluded_eq] at member
    dsimp only at member
    rw [actions_acknowledged, List.mem_append, runAll_eq] at member
    rcases member with ran | reported
    · obtain ⟨turn, inTurns, inside⟩ := List.mem_flatMap.1 ran
      exact (ended turn inTurns).actions action inside
    · obtain ⟨text, -, rfl⟩ := List.mem_map.1 reported
      trivial

/-- A path with a tab in it comes out of a variable and is quoted by the error that stops the
script.  The machine's text for it has no line feed, but another break. -/
theorem runSource_keepsOut_lineFeed :
    let source := "d = /no\twhere\n\"$d\" a > $d\r\nz = $d\n".toList
    let s : Session :=
      { host := { openErrors := [("/no\twhere".toList, .numbered 21 "Is a\rdirectory".toList)] } }
    Text.isLineBreak '\n' = true ∧ s.store.Lacks '\n' ∧ s.host.Lacks '\n' ∧
      KeepsOut '\n' source s ∧
      reports (runSource source s).actions =
        ["dcsh: ".toList ++ "/no\twhere: Is a\rdirectory".toList ++ ['\n']] := by
  intro source s
  have breaks : Text.isLineBreak '\n' = true := by decide
  have store : s.store.Lacks '\n' := Store.lacks_empty _
  have openings : ∀ entry ∈ s.host.openErrors, entry.2.Lacks '\n' := by
    intro entry member
    rw [List.mem_singleton.1 member]
    show '\n' ∉ "Is a\rdirectory".toList
    decide
  have host : s.host.Lacks '\n' := Host.lacks_of_entries breaks openings (by simp [s])
  exact ⟨breaks, store, host, runSource_keepsOut breaks store host source, by decide +kernel⟩

end ChainShell
