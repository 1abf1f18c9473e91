/-
# ChainShell.Proofs.Children.Rounds — looks at the children, call by call

A shell is used by calls on one session: command lines, chains, lines that were entered,
scripts, and explicit looks at the children (`Call`).  A call that faults leaves its session to
the next one (`Call.runAll`).

The looks at the children cut the actions of a run into rounds (`Call.roundsAll`).  Every chain
that runs ends a round, however it ends itself; and so does every source, and every explicit
look.  What a command line, an entered line or a script looks at is what its chains look at.

`Accounted` says what the rounds tell about the processes and the children of the session they
end in: a child of a round that `n` looks have followed, its own included, is still there if it
answered all of them (`Child.aged`, `Host.kept`).  Every call accounts for its processes so
(`accounts_call`), and then so does every list of calls (`accounted_runAll`).
-/
import ChainShell.Proofs.Children.Ledger
import ChainShell.Statement.Run

set_option autoImplicit false

namespace ChainShell

open ChainShell.Action ChainShell.Activity

/-! ## Calls -/

/-- Something that a shell is asked to do on a session. -/
inductive Call where
  /-- Runs a command line. -/
  | line (text : Text)
  | chain (chain : Chain)
  /-- Runs a line that was entered. -/
  | committed (text : Text)
  | script (statements : List Statement)
  /-- Runs a script as a program of its own. -/
  | source (text : Text)
  | reap
  deriving DecidableEq, Repr

namespace Call

def run : Call → Activity Unit
  | line text => do
    let _ ← Chain.runLine text
    return ()
  | chain links => do
    let _ ← links.run
    return ()
  | committed text => do
    let _ ← runCommitted text
    return ()
  | script statements => do
    let _ ← Statement.runAll .ok statements
    return ()
  | source text => do
    let _ ← runSource text
    return ()
  | reap => Activity.reap

/-- Makes calls one after the other, whether or not the ones before ended with a fault. -/
def runAll (calls : List Call) : Activity (List (Except Fault Unit)) :=
  calls.mapM fun call => attempt call.run

end Call

/-! ## Rounds -/

def Chain.rounds (chain : Chain) (s : Session) : List (List Action) := [(chain.run s).actions]

namespace Statement

def rounds : Statement → Session → List (List Action)
  | assign .., _ => []
  | command line, s =>
    match Chain.ofLine s.store line with
    | .error _ => []
    | .ok chain => chain.rounds s

def roundsAll : List Statement → Session → List (List Action)
  | [], _ => []
  | statement :: rest, s =>
    statement.rounds s ++
      match (statement.run s).result with
      | .error _ => []
      | .ok _ => roundsAll rest (statement.run s).session

end Statement

namespace Call

/-- The actions of a call, cut after each look at the children. -/
def rounds : Call → Session → List (List Action)
  | line text, s => (Statement.command text).rounds s
  | chain links, s => links.rounds s
  | committed text, s =>
    match Text.trim text with
    | [] => []
    | trimmed => (Statement.ofLine trimmed).rounds s
  | script statements, s => Statement.roundsAll statements s
  | source text, s => Statement.roundsAll (Statement.ofSource text) s ++ [[]]
  | reap, _ => [[]]

def roundsAll : List Call → Session → List (List Action)
  | [], _ => []
  | call :: rest, s => call.rounds s ++ roundsAll rest (call.run s).session

end Call

/-! ## Children that are looked at -/

/-- A child after some looks, if it was found running every time. -/
def Child.aged (looks : Nat) (child : Child) : Option Child :=
  if child.polls < looks then none else some { child with polls := child.polls - looks }

theorem Child.aged_bind_aged (first second : Nat) (child : Child) :
    (child.aged first).bind (Child.aged second) = child.aged (first + second) := by
  by_cases ended : child.polls < first
  · have endedThen : child.polls < first + second := by omega
    rw [aged, aged, if_pos ended, if_pos endedThen]
    rfl
  · rw [aged, if_neg ended, Option.bind_some, aged, aged]
    by_cases endedLater : child.polls < first + second
    · have rest : child.polls - first < second := by omega
      rw [if_pos endedLater, if_pos rest]
    · have rest : ¬ child.polls - first < second := by omega
      rw [if_neg endedLater, if_neg rest, Nat.sub_sub]

theorem Child.filterMap_aged_aged (first second : Nat) (children : List Child) :
    (children.filterMap (Child.aged first)).filterMap (Child.aged second) =
      children.filterMap (Child.aged (first + second)) := by
  rw [List.filterMap_filterMap]
  simp only [aged_bind_aged]

theorem Session.children_reaped (s : Session) :
    s.reaped.children = s.children.filterMap (Child.aged 1) := by
  unfold reaped Child.aged
  simp only [Nat.lt_one_iff]

/-- The children that some rounds leave behind. -/
def Host.kept : Host → List (List Action) → List Child
  | _, [] => []
  | h, round :: rest =>
    (h.adopted round).filterMap (Child.aged (rest.length + 1)) ++ (h.afterActions round).kept rest

theorem Host.kept_congr {h h' : Host} (same : h.programs = h'.programs)
    (rounds : List (List Action)) : h.kept rounds = h'.kept rounds := by
  induction rounds generalizing h h' with
  | nil => rfl
  | cons round rest ih =>
    rw [kept, kept, adopted_congr same, ih (afterActions_congr same round)]

theorem Host.kept_append (h : Host) (first second : List (List Action)) :
    h.kept (first ++ second) =
      (h.kept first).filterMap (Child.aged second.length) ++
        (h.afterActions first.flatten).kept second := by
  induction first generalizing h with
  | nil => rfl
  | cons round rest ih =>
    have looks : (rest ++ second).length + 1 = rest.length + 1 + second.length := by
      rw [List.length_append]
      omega
    rw [List.cons_append, kept, kept, ih, looks, List.filterMap_append,
      Child.filterMap_aged_aged, List.flatten_cons, afterActions_append, List.append_assoc]

/-! ## Accounts -/

/-- The rounds account for the processes and the children that the actions leave. -/
structure Accounted (s : Session) (rounds : List (List Action)) (s' : Session)
    (actions : List Action) : Prop where
  /-- The rounds are the actions, except what was written. -/
  flatten : rounds.flatten = actions.filter (!·.isWrite)
  progress : Progress s.host actions s'.host
  children : s'.children =
    s.children.filterMap (Child.aged rounds.length) ++ s.host.kept rounds

namespace Accounted

variable {s s' s'' : Session} {first second : List (List Action)} {actions later : List Action}

theorem append (here : Accounted s first s' actions) (there : Accounted s' second s'' later) :
    Accounted s (first ++ second) s'' (actions ++ later) where
  flatten := by rw [List.flatten_append, List.filter_append, here.flatten, there.flatten]
  progress := here.progress.append there.progress
  children := by
    rw [there.children, here.children, List.filterMap_append, Child.filterMap_aged_aged,
      List.length_append, Host.kept_append, here.flatten, Host.afterActions_filter_isWrite,
      List.append_assoc, Host.kept_congr here.progress.programs]

/-- Writing, and changing nothing that processes depend on, needs no account. -/
theorem of_quiet (children : s'.children = s.children) (host : s'.host = s.host)
    (quiet : ∀ action ∈ actions, action.isWrite = true) : Accounted s [] s' actions where
  flatten := by
    symm
    rw [List.flatten_nil, List.filter_eq_nil_iff]
    intro action member
    rw [quiet action member]
    exact Bool.false_ne_true
  progress := by
    have unseen : ∀ {α : Type} (view : Action → Option α),
        (∀ stream text, view (.wrote stream text) = none) → actions.filterMap view = [] := by
      intro α view noWrite
      rw [List.filterMap_eq_nil_iff]
      intro action member
      have written := quiet action member
      cases action with
      | wrote stream text => exact noWrite stream text
      | _ => contradiction
    rw [host]
    exact .of_silent (unseen attempt? fun _ _ => rfl) (unseen wait? fun _ _ => rfl)
  children := by
    rw [children]
    show s.children = s.children.filterMap some ++ []
    rw [List.filterMap_some, List.append_nil]

theorem of_nothing (children : s'.children = s.children) (host : s'.host = s.host) :
    Accounted s [] s' [] :=
  of_quiet children host fun _ member => absurd member List.not_mem_nil

/-- A round ends with a look at the children. -/
theorem of_worked (worked : Worked s actions s') : Accounted s [actions] s'.reaped actions where
  flatten := by
    symm
    rw [List.flatten_singleton, List.filter_eq_self]
    intro action member
    rw [worked.quiet action member]
    rfl
  progress := worked.progress
  children := by
    rw [Session.children_reaped, worked.children, List.filterMap_append]
    show _ = _ ++ ((s.host.adopted actions).filterMap (Child.aged 1) ++ [])
    rw [List.append_nil]
    rfl

end Accounted

namespace Activity

variable {α β : Type}

/-- The rounds account for the activity, unless a wait is given up. -/
def Accounts (body : Activity α) (rounds : Session → List (List Action)) : Prop :=
  ∀ s, (body s).result ≠ .error .interrupted →
    Accounted s (rounds s) (body s).session (body s).actions

/-- The activity only writes. -/
def Quiet (body : Activity α) : Prop :=
  ∀ s, (body s).session = s ∧ ∀ action ∈ (body s).actions, action.isWrite = true

theorem quiet_pure (a : α) : Quiet (pure a : Activity α) := by
  intro s
  exact ⟨rfl, by simp [pure_apply]⟩

theorem Quiet.bind {first : Activity α} {next : α → Activity β} (here : Quiet first)
    (later : ∀ a, Quiet (next a)) : Quiet (first >>= next) := by
  intro s
  obtain ⟨same, writes⟩ := here s
  cases ended : (first s).result with
  | error fault =>
    rw [bind_apply_of_error ended]
    exact ⟨same, writes⟩
  | ok a =>
    obtain ⟨same', writes'⟩ := later a (first s).session
    rw [bind_apply_of_ok ended]
    refine ⟨same'.trans same, fun action member => ?_⟩
    rcases List.mem_append.1 member with here | there
    · exact writes action here
    · exact writes' action there

theorem quiet_diagnose (message : Text) : Quiet (diagnose message) := by
  intro s
  exact ⟨rfl, by simp [diagnose, write, act, isWrite]⟩

theorem quiet_reportSignal (status : Status) : Quiet (reportSignal status) := by
  unfold reportSignal
  split
  · exact quiet_diagnose _
  · exact quiet_pure ()

theorem Accounts.bind_quiet {body : Activity α} {next : α → Activity β}
    {rounds : Session → List (List Action)} (accounts : Accounts body rounds)
    (quiet : ∀ a, Quiet (next a)) : Accounts (body >>= next) rounds := by
  intro s heldOut
  cases ended : (body s).result with
  | error fault =>
    rw [bind_apply_of_error ended] at heldOut ⊢
    apply accounts s
    rw [ended]
    intro same
    obtain rfl := Except.error.inj same
    exact heldOut rfl
  | ok a =>
    rw [bind_apply_of_ok ended]
    obtain ⟨same, writes⟩ := quiet a (body s).session
    have here := accounts s (by simp [ended])
    have after := Accounted.of_quiet (congrArg Session.children same)
      (congrArg Session.host same) writes
    have whole := here.append after
    rwa [List.append_nil] at whole

theorem Accounts.recovering {body : Activity α} {rounds : Session → List (List Action)}
    (accounts : Accounts body rounds) : Accounts (recovering body) rounds := by
  intro s heldOut
  rw [recovering_apply] at heldOut ⊢
  apply accounts s
  intro interrupted
  rw [interrupted] at heldOut
  exact heldOut rfl

theorem Accounts.reporting {body : Activity α} {rounds : Session → List (List Action)}
    (accounts : Accounts body rounds) : Accounts (reporting body) rounds := by
  refine accounts.recovering.bind_quiet fun result => ?_
  cases result with
  | ok a => exact quiet_pure _
  | error error => exact (quiet_diagnose _).bind fun _ => quiet_pure _

/-- A look at the children ends a round, also after a fault. -/
theorem Accounts.ensuring_reap {body : Activity α} {rounds : Session → List (List Action)}
    (accounts : Accounts body rounds) :
    Accounts (ensuring body reap) fun s => rounds s ++ [[]] := by
  intro s heldOut
  rw [ensuring_apply] at heldOut ⊢
  have here := accounts s heldOut
  exact here.append (.of_worked (worked_map_closed [] _))

/-! ## Calls -/

theorem accounts_chain (chain : Chain) : Accounts chain.run chain.rounds := by
  intro s heldOut
  have ran : chain.run s = _ := ensuring_apply (chain.runLinks none) reap s
  rw [ran] at heldOut
  have worked := Chain.worked_runLinks heldOut
  have actions : (chain.run s).actions = (chain.runLinks none s).actions := by
    rw [ran]
    exact List.append_nil _
  rw [Chain.rounds, actions, ran]
  exact .of_worked worked

theorem accounts_statement (statement : Statement) :
    Accounts statement.run statement.rounds := by
  cases statement with
  | assign name expression =>
    intro s _
    exact .of_nothing rfl rfl
  | command line =>
    intro s heldOut
    have ran : (Statement.command line).run s =
        (match Chain.ofLine s.store line with
        | .error error => failShell error
        | .ok chain => chain.run) s := rfl
    rw [ran] at heldOut ⊢
    rw [Statement.rounds]
    cases read : Chain.ofLine s.store line with
    | error error =>
      exact .of_nothing rfl rfl
    | ok chain =>
      rw [read] at heldOut
      exact accounts_chain chain s heldOut

theorem accounts_statements (status : Status) (statements : List Statement) :
    Accounts (Statement.runAll status statements) (Statement.roundsAll statements) := by
  induction statements generalizing status with
  | nil =>
    intro s _
    exact .of_nothing rfl rfl
  | cons statement rest ih =>
    intro s heldOut
    rw [Statement.runAll] at heldOut ⊢
    rw [Statement.roundsAll]
    cases ended : (statement.run s).result with
    | error fault =>
      rw [bind_apply_of_error ended] at heldOut ⊢
      rw [List.append_nil]
      apply accounts_statement statement s
      rw [ended]
      exact heldOut
    | ok status' =>
      rw [bind_apply_of_ok ended] at heldOut ⊢
      have here := accounts_statement statement s (by simp [ended])
      exact here.append (ih status' _ heldOut)

theorem accounts_committed (text : Text) :
    Accounts (runCommitted text) (Call.committed text).rounds := by
  unfold runCommitted
  cases trimmed : Text.trim text with
  | nil =>
    intro s _
    rw [Call.rounds, trimmed]
    exact .of_nothing rfl rfl
  | cons first rest =>
    have rounds : (Call.committed text).rounds = (Statement.ofLine (first :: rest)).rounds := by
      funext s
      rw [Call.rounds, trimmed]
    rw [rounds]
    refine (accounts_statement _).reporting.bind_quiet fun result => ?_
    cases result with
    | error code => exact quiet_pure _
    | ok status => exact (quiet_reportSignal status).bind fun _ => quiet_pure _

theorem accounts_source (text : Text) : Accounts (runSource text) (Call.source text).rounds := by
  have statements := accounts_statements .ok (Statement.ofSource text)
  refine statements.reporting.ensuring_reap.bind_quiet fun result => ?_
  cases result with
  | error code => exact quiet_pure _
  | ok status => exact (quiet_reportSignal status).bind fun _ => quiet_pure _

/-- Every call accounts for its processes. -/
theorem accounts_call (call : Call) : Accounts call.run call.rounds := by
  cases call with
  | line text => exact (accounts_statement (.command text)).bind_quiet fun _ => quiet_pure ()
  | chain links => exact (accounts_chain links).bind_quiet fun _ => quiet_pure ()
  | committed text => exact (accounts_committed text).bind_quiet fun _ => quiet_pure ()
  | script statements =>
    exact (accounts_statements .ok statements).bind_quiet fun _ => quiet_pure ()
  | source text => exact (accounts_source text).bind_quiet fun _ => quiet_pure ()
  | reap =>
    intro s _
    exact .of_worked (worked_map_closed [] s)

end Activity

namespace Call

theorem runAll_cons_apply (call : Call) (rest : List Call) (s : Session) :
    runAll (call :: rest) s =
      let ended := call.run s
      let later := runAll rest ended.session
      ⟨later.result.map (ended.result :: ·), later.session, ended.actions ++ later.actions⟩ := by
  have made : (attempt call.run s).result = .ok (call.run s).result := rfl
  have session : (attempt call.run s).session = (call.run s).session := rfl
  have actions : (attempt call.run s).actions = (call.run s).actions := rfl
  have cons : runAll (call :: rest) =
      attempt call.run >>= fun result => runAll rest >>= fun results => pure (result :: results) :=
    List.mapM_cons
  rw [cons, bind_apply_of_ok made, session, actions, bind_pure_apply]

theorem accounted_runAll {calls : List Call} {s : Session} {results : List (Except Fault Unit)}
    (made : (runAll calls s).result = .ok results) (heldOut : .error .interrupted ∉ results) :
    Accounted s (roundsAll calls s) (runAll calls s).session (runAll calls s).actions := by
  induction calls generalizing s results with
  | nil =>
    exact .of_nothing rfl rfl
  | cons call rest ih =>
    rw [runAll_cons_apply] at made ⊢
    cases later : (runAll rest (call.run s).session).result with
    | error fault =>
      simp [later, Except.map] at made
    | ok results' =>
      simp only [later, Except.map] at made
      obtain rfl := Except.ok.inj made
      rw [List.mem_cons, not_or] at heldOut
      have here := accounts_call call s (Ne.symm heldOut.1)
      exact here.append (ih later heldOut.2)

end Call

end ChainShell
