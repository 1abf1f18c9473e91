/-
# ChainShell.Proofs.Statement.ExitStatus — the exit code of a script

A script ends with one number, and the number tells how its last statement ended
(`ExitsWith`).  It is 0 exactly if every statement came to its end and the last one, if there
is one, was an assignment or a command whose deciding process returned 0.  A deciding process
of the last statement that was killed by a signal makes it 128 and the signal, and an error of
the shell at any statement makes it the exit code of the error, whatever ran before.  A script
that asks for what the machine does not take has no exit code, and nothing decides its last
statement (`BreaksOff`).

That no failure turns into 0 on the way rests on two things.  The status of a return code is
success exactly if it counts as 0, and the shell makes no other statuses
(`ConsistentStatuses`); and what decides a chain is the process that ended it, so a death by
signal counts as a failure there (`Chain.CountsDeaths`).
-/
import ChainShell.Proofs.Chain.Deaths
import ChainShell.Proofs.Options.ExitCode
import ChainShell.Proofs.Statement.Turns

set_option autoImplicit false

namespace ChainShell

open ChainShell.Action ChainShell.Activity

namespace Turn

/-- The turn is that of a command, and its chain was decided by a process with the return code. -/
def DecidedBy (turn : Turn) (code : Int) : Prop :=
  ∃ line chain place link, turn.statement = .command line ∧
    Chain.ofLine turn.found.store line = .ok chain ∧
    chain.AnsweredAt turn.ended.actions place link code ∧ link.Decides (.ofReturnCode code)

def IsAssignment (turn : Turn) : Prop := ∃ name expression, turn.statement = .assign name expression

variable {turn : Turn}

theorem ended_of_ofLine {line : Text} {chain : Chain} (command : turn.statement = .command line)
    (read : Chain.ofLine turn.found.store line = .ok chain) :
    turn.ended = chain.run turn.found := by
  rw [ended, command]
  exact Chain.runLine_of_ok read

theorem result_of_isAssignment (assigns : turn.IsAssignment) : turn.ended.result = .ok .ok := by
  obtain ⟨name, expression, said⟩ := assigns
  rw [ended, said]
  rfl

theorem result_of_decidedBy {code : Int} (decided : turn.DecidedBy code) :
    turn.ended.result = .ok (.ofReturnCode code) := by
  obtain ⟨line, chain, place, link, command, read, answered, decides⟩ := decided
  rw [ended_of_ofLine command read] at answered ⊢
  exact (Chain.result_of_decidedAt
    (Chain.decidedAt_iff_answeredAt.2 ⟨link, code, answered, rfl, decides⟩)).1

/-- A turn that ended with a fault was decided by nothing. -/
theorem undecided_of_fault {fault : Fault} (faulted : turn.ended.result = .error fault) :
    ¬ turn.IsAssignment ∧ ∀ code, ¬ turn.DecidedBy code := by
  constructor
  · intro assigns
    rw [result_of_isAssignment assigns] at faulted
    contradiction
  · intro code decided
    rw [result_of_decidedBy decided] at faulted
    contradiction

theorem toInt_of_decidedBy {code : Int} (decided : turn.DecidedBy code) {status : Status}
    (ran : turn.ended.result = .ok status) :
    status.toInt = if code < 0 then 128 - code else code := by
  rw [result_of_decidedBy decided] at ran
  obtain rfl := Except.ok.inj ran
  exact Status.toInt_ofReturnCode code

/-- A turn that ended with a status is that of an assignment, or a process decided it. -/
theorem isAssignment_or_decidedBy {status : Status} (ran : turn.ended.result = .ok status) :
    turn.IsAssignment ∨ ∃ code, turn.DecidedBy code := by
  cases said : turn.statement with
  | assign name expression => exact .inl ⟨name, expression, said⟩
  | command line =>
    cases read : Chain.ofLine turn.found.store line with
    | error error =>
      rw [ended, said, Statement.run, Chain.runLine_of_error read] at ran
      contradiction
    | ok chain =>
      rw [ended_of_ofLine said read] at ran
      obtain ⟨link, last, final⟩ := Chain.getLast?_operator_of_ofLine read
      obtain ⟨place, -, decided⟩ := (Chain.course_of_ok ran).decidedAt_of_last last final
      obtain ⟨link, code, answered, rfl, decides⟩ := Chain.decidedAt_iff_answeredAt.1 decided
      refine .inr ⟨code, line, chain, place, link, said, read, ?_, decides⟩
      rwa [ended_of_ofLine said read]

/-- The status of a turn counts as 0 if no process decided it, or one that returned 0. -/
theorem toInt_eq_zero_iff {status : Status} (ran : turn.ended.result = .ok status) :
    status.toInt = 0 ↔ turn.IsAssignment ∨ turn.DecidedBy 0 := by
  constructor
  · intro zero
    rcases isAssignment_or_decidedBy ran with assigns | ⟨code, decided⟩
    · exact .inl assigns
    · rw [toInt_of_decidedBy decided ran] at zero
      obtain rfl : code = 0 := by
        split at zero <;> omega
      exact .inr decided
  · rintro (assigns | decided)
    · rw [result_of_isAssignment assigns] at ran
      obtain rfl := Except.ok.inj ran
      rfl
    · exact toInt_of_decidedBy decided ran

end Turn

namespace Statement

/-! ## Scripts -/

/-- A script ended with the exit code, which tells how its statements did. -/
structure ExitsWith (source : Text) (s : Session) (code : Int) : Prop where
  result : (runSource source s).result = .ok code
  /-- The exit code is 0 exactly if every statement got its turn, none was stopped by an error, and
  the last one, if there is one, was an assignment or was decided by a process that returned 0. -/
  zero : code = 0 ↔
    (turns (ofSource source) s).map Turn.statement = ofSource source ∧
    (∀ turn ∈ turns (ofSource source) s, ∀ error, turn.ended.result ≠ .error (.shell error)) ∧
    ∀ last ∈ (turns (ofSource source) s).getLast?, last.IsAssignment ∨ last.DecidedBy 0
  /-- A last command whose deciding process was killed shows the signal. -/
  killed : ∀ last ∈ (turns (ofSource source) s).getLast?, ∀ signal : Int, 0 < signal →
    last.DecidedBy (-signal) → code = 128 + signal
  /-- A last command whose deciding process returned shows what it returned. -/
  returned : ∀ last ∈ (turns (ofSource source) s).getLast?, ∀ returned : Int, 0 ≤ returned →
    last.DecidedBy returned → code = returned
  /-- An error shows whatever ran before, and it was the last thing to happen. -/
  failed : ∀ turn ∈ turns (ofSource source) s, ∀ error, turn.ended.result = .error (.shell error) →
    code = error.exitCode ∧ code ≠ 0 ∧ (turns (ofSource source) s).getLast? = some turn

/-- A script ended without an exit code, where the machine did not take what was asked for. -/
structure BreaksOff (source : Text) (s : Session) (message : Text) : Prop where
  result : (runSource source s).result = .error (.raised message)
  declines : s.host.Declines message
  /-- Its last statement is a command, and no process decided it. -/
  undecided : ∀ last ∈ (turns (ofSource source) s).getLast?,
    ¬ last.IsAssignment ∧ ∀ code, ¬ last.DecidedBy code

variable {source : Text} {s : Session}

theorem exitsWith_of_error {error : ShellError}
    (ran : (runAll .ok (ofSource source) s).result = .error (.shell error)) :
    ExitsWith source s error.exitCode := by
  obtain ⟨stopped, last, faulted⟩ := exists_last_of_fault ran
  have nonzero : (error.exitCode : Int) ≠ 0 := Int.natCast_ne_zero.2 error.exitCode_ne_zero
  -- A turn that was decided by a process ended with a status, and the last one did not.
  have undecided : ∀ turn ∈ (turns (ofSource source) s).getLast?, ∀ code,
      ¬ turn.DecidedBy code := by
    intro turn isLast code decided
    obtain rfl := Option.some.inj (last.symm.trans isLast)
    exact (Turn.undecided_of_fault faulted).2 code decided
  refine ⟨?_, ?_, ?_, ?_, ?_⟩
  · rw [runSource_apply, concluded, ran]
  · refine iff_of_false nonzero ?_
    rintro ⟨-, noError, -⟩
    exact noError stopped (List.mem_of_getLast? last) error faulted
  · intro turn isLast signal _ decided
    exact absurd decided (undecided turn isLast _)
  · intro turn isLast code _ decided
    exact absurd decided (undecided turn isLast _)
  · intro turn member other failed
    have isLast := last_of_fault member failed
    obtain rfl := Option.some.inj (last.symm.trans isLast)
    rw [faulted] at failed
    obtain rfl := Fault.shell.inj (Except.error.inj failed)
    exact ⟨rfl, nonzero, isLast⟩

theorem exitsWith_of_ok {status : Status}
    (ran : (runAll .ok (ofSource source) s).result = .ok status) :
    ExitsWith source s status.toInt := by
  have completed := completed_of_ok ran
  have noError : ∀ turn ∈ turns (ofSource source) s, ∀ error,
      turn.ended.result ≠ .error (.shell error) := by
    intro turn member error failed
    obtain ⟨status, ended⟩ := completed turn member
    rw [failed] at ended
    contradiction
  have ended : ∀ last ∈ (turns (ofSource source) s).getLast?, last.ended.result = .ok status := by
    intro last isLast
    rw [result_runAll, isLast] at ran
    exact ran
  have lastSucceeded : status.toInt = 0 ↔
      ∀ last ∈ (turns (ofSource source) s).getLast?, last.IsAssignment ∨ last.DecidedBy 0 := by
    cases last : (turns (ofSource source) s).getLast? with
    | none =>
      rw [result_runAll, last] at ran
      obtain rfl := Except.ok.inj ran
      exact iff_of_true rfl (by simp)
    | some turn =>
      rw [Turn.toInt_eq_zero_iff (ended turn last)]
      simp
  refine ⟨?_, ?_, ?_, ?_, ?_⟩
  · rw [runSource_apply, concluded, ran]
  · constructor
    · intro zero
      exact ⟨map_statement_of_completed completed, noError, lastSucceeded.1 zero⟩
    · rintro ⟨-, -, succeeded⟩
      exact lastSucceeded.2 succeeded
  · intro last isLast signal positive decided
    rw [Turn.toInt_of_decidedBy decided (ended last isLast), if_pos (by omega)]
    omega
  · intro last isLast code nonnegative decided
    rw [Turn.toInt_of_decidedBy decided (ended last isLast), if_neg (by omega)]
  · intro turn member error failed
    exact absurd failed (noError turn member error)

theorem breaksOff_of_raised {message : Text}
    (ran : (runAll .ok (ofSource source) s).result = .error (.raised message)) :
    BreaksOff source s message := by
  obtain ⟨stopped, last, faulted⟩ := exists_last_of_fault ran
  refine ⟨?_, declines_of_raised ran, ?_⟩
  · rw [runSource_apply, concluded, ran]
  · intro turn isLast
    obtain rfl := Option.some.inj (last.symm.trans isLast)
    exact Turn.undecided_of_fault faulted

/-- A script in which no wait is given up ends with an exit code, or where the machine does not take
what is asked for. -/
theorem exitsWith_or_breaksOff (patient : (runSource source s).result ≠ .error .interrupted) :
    (∃ code, ExitsWith source s code) ∨ ∃ message, BreaksOff source s message := by
  cases ran : (runAll .ok (ofSource source) s).result with
  | ok status => exact .inl ⟨_, exitsWith_of_ok ran⟩
  | error fault =>
    rcases (candid_runAll .ok (ofSource source) s).faults fault ran with
      rfl | ⟨error, rfl⟩ | ⟨message, rfl⟩
    · rw [runSource_apply, concluded, ran] at patient
      contradiction
    · exact .inl ⟨_, exitsWith_of_error ran⟩
    · exact .inr ⟨message, breaksOff_of_raised ran⟩

end Statement

/-! ## Statuses -/

/-- Wherever the shell gives a status, it counts as 0 exactly if it is success. -/
structure ConsistentStatuses : Prop where
  processes : ∀ child, Gives Status.Consistent (await child)
  chains : ∀ chain : Chain, Gives Status.Consistent chain.run
  statements : ∀ statement : Statement, Gives Status.Consistent statement.run
  scripts : ∀ statements, Gives Status.Consistent (Statement.runAll .ok statements)
  lines : ∀ line, Gives (fun given => ∀ status ∈ given, status.Consistent) (runCommitted line)
  sessions : ∀ marker fault events,
    Gives (fun console => console.last.Consistent) (Console.attend marker fault {} events)

theorem consistentStatuses : ConsistentStatuses where
  processes child := (gives_awaitWithin _ _ child).mono fun _ => Status.Returned.consistent
  chains chain := chain.gives_run.mono fun _ => Status.Returned.consistent
  statements statement := statement.gives_run.mono fun _ => Status.Returned.consistent
  scripts statements :=
    (Statement.gives_runAll Status.returned_ok statements).mono fun _ => Status.Returned.consistent
  lines line := (gives_runCommitted line).mono fun _ returned status given =>
    (returned status given).consistent
  sessions marker fault events :=
    (Console.gives_attend marker fault Status.returned_ok events).mono fun _ =>
      Status.Returned.consistent

/-! ## Everything together -/

/-- A script in which no wait is given up ends with an exit code that is 0 only after success,
unless it asks for what the machine does not take.  No status that the shell gives takes part in a
confusion of the two, and in every run of a chain a process that a signal killed counts as a
failure. -/
theorem runSource_exitsWith :
    (∀ source s, (runSource source s).result ≠ .error .interrupted →
      (∃ code, Statement.ExitsWith source s code) ∨
        ∃ message, Statement.BreaksOff source s message) ∧
    ConsistentStatuses ∧ ∀ (chain : Chain) s, chain.CountsDeaths s :=
  ⟨fun _ _ => Statement.exitsWith_or_breaksOff, consistentStatuses, Chain.countsDeaths⟩

/-- The first process of the last line is killed by signal 15, the second one is tried nevertheless,
and killed by signal 9. -/
theorem runSource_exitsWith_killed :
    let source := "p = one\n$p || two\n".toList
    let s : Session :=
      { host :=
          { programs := [("one".toList, [.starts (-15) 0 0]), ("two".toList, [.starts (-9) 0 1])] } }
    (runSource source s).result ≠ .error .interrupted ∧
      (∃ code, Statement.ExitsWith source s code) ∧ (runSource source s).result = .ok 137 ∧
      attempts (runSource source s).actions = [["one".toList], ["two".toList]] := by
  intro source s
  have patient : (runSource source s).result ≠ .error .interrupted := by decide +kernel
  have killed : (runSource source s).result = .ok 137 := by decide +kernel
  rcases runSource_exitsWith.1 source s patient with exits | ⟨message, breaksOff⟩
  · exact ⟨patient, exits, killed, by decide +kernel⟩
  · exact absurd (killed.symm.trans breaksOff.result) (by simp)

end ChainShell
