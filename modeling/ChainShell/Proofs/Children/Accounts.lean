/-
# ChainShell.Proofs.Children.Accounts — every process is accounted for

After any calls on a session that had no children, each process that was started is one of two
kinds.  A process whose output is not piped was waited for right after its start, until it
ended, and never again.  A process whose output is piped was never waited for; it is a child of
the session for as long as every look at it found it running.

How often a look finds a process running is up to the machine: the outcome by which the process
was started says so.  `Host.mem_pids_kept_iff` follows one process through the rounds after its
start, and `Call.runAll_accountsFor` is the conclusion for all of them.
-/
import ChainShell.Proofs.Children.Rounds
import Mathlib.Control.Monad.Basic

set_option autoImplicit false

namespace ChainShell

open ChainShell.Action ChainShell.Activity

/-! ## Who is a child -/

theorem Child.pids_aged_sublist (looks : Nat) (children : List Child) :
    ((children.filterMap (Child.aged looks)).map Child.pid).Sublist (children.map Child.pid) := by
  induction children with
  | nil => exact List.Sublist.slnil
  | cons child rest ih =>
    unfold aged at ih ⊢
    rw [List.filterMap_cons]
    split
    · exact ih.cons _
    · rename_i survivor found
      split at found
      · contradiction
      · obtain rfl := Option.some.inj found
        exact ih.cons_cons _

namespace Host

theorem interior?_of_adopts? {h : Host} {action : Action} {child : Child}
    (adopted : h.adopts? action = some child) : action.interior? = some child.pid := by
  cases action with
  | started pid argv streams =>
    dsimp only [adopts?] at adopted
    cases outcome : h.outcome (argv.headD []) with
    | fails error =>
      rw [outcome] at adopted
      contradiction
    | starts returnCode polls interrupts =>
      simp only [outcome] at adopted
      split at adopted
      · rename_i piped
        obtain rfl := Option.some.inj adopted
        exact if_pos piped
      · contradiction
  | _ => contradiction

/-- Only processes whose output is piped are adopted. -/
theorem pids_adopted_sublist (h : Host) (actions : List Action) :
    ((h.adopted actions).map Child.pid).Sublist (interiors actions) := by
  induction actions generalizing h with
  | nil => exact List.Sublist.slnil
  | cons action rest ih =>
    have cons : interiors (action :: rest) = action.interior?.toList ++ interiors rest := by
      rw [interiors, List.filterMap_cons]
      cases action.interior? <;> rfl
    have here : ((h.adopts? action).toList.map Child.pid).Sublist action.interior?.toList := by
      cases adopted : h.adopts? action with
      | none => exact List.nil_sublist _
      | some child =>
        rw [interior?_of_adopts? adopted]
        exact List.Sublist.refl _
    rw [Host.adopted, List.map_append, cons]
    exact here.append (ih _)

theorem pids_kept_sublist (h : Host) (rounds : List (List Action)) :
    ((h.kept rounds).map Child.pid).Sublist (interiors rounds.flatten) := by
  induction rounds generalizing h with
  | nil => exact List.Sublist.slnil
  | cons round rest ih =>
    rw [kept, List.map_append, List.flatten_cons, interiors_append]
    exact ((Child.pids_aged_sublist _ _).trans (h.pids_adopted_sublist round)).append (ih _)

/-- A child is still there if it was found running by every look since its start. -/
theorem mem_pids_kept_iff {h : Host} {earlier later : List (List Action)}
    {before after : List Action} {start : Action} {child : Child}
    (adopts : (h.afterActions (earlier.flatten ++ before)).adopts? start = some child)
    (alone : child.pid ∉ pids ((earlier.flatten ++ before) ++ (after ++ later.flatten))) :
    child.pid ∈ (h.kept (earlier ++ (before ++ start :: after) :: later)).map Child.pid ↔
      later.length + 1 ≤ child.polls := by
  simp only [pids_append, List.mem_append, not_or] at alone
  obtain ⟨⟨notEarlier, notBefore⟩, notAfter, notLater⟩ := alone
  -- Whatever else is kept has another number.
  have other : ∀ {children : List Child} {actions : List Action},
      (children.map Child.pid).Sublist (interiors actions) → child.pid ∉ pids actions →
        child.pid ∉ children.map Child.pid :=
    fun sub notStarted member => notStarted (mem_pids_of_interior (sub.subset member))
  have agedOther : ∀ {h : Host} {actions : List Action}, child.pid ∉ pids actions →
      child.pid ∉ ((h.adopted actions).filterMap (Child.aged (later.length + 1))).map Child.pid :=
    other ((Child.pids_aged_sublist _ _).trans (pids_adopted_sublist _ _))
  have missEarlier := other ((Child.pids_aged_sublist (later.length + 1) _).trans
    (h.pids_kept_sublist earlier)) notEarlier
  have missLater := fun h : Host => other (h.pids_kept_sublist later) notLater
  rw [afterActions_append] at adopts
  rw [kept_append, kept, adopted_append, adopted, adopts]
  simp only [List.filterMap_append, List.map_append, List.mem_append, List.length_cons,
    missEarlier, agedOther notBefore, agedOther notAfter, missLater, false_or, or_false]
  by_cases survives : later.length + 1 ≤ child.polls
  · have stays : ¬ child.polls < later.length + 1 := by omega
    simp [Child.aged, stays, survives]
  · have ends : child.polls < later.length + 1 := by omega
    simp [Child.aged, ends, survives]

end Host

/-! ## All processes -/

namespace Call

/-- What there is to say about the processes of some calls. -/
structure AccountsFor (calls : List Call) (s : Session)
    (ended : Ended (List (Except Fault Unit))) : Prop where
  /-- The rounds are what was done, except what was written. -/
  rounds : (roundsAll calls s).flatten = ended.actions.filter (!·.isWrite)
  /-- No two processes have the same number. -/
  distinct : (pids ended.actions).Nodup
  /-- A process whose output is not piped is waited for at once, and seen to end once. -/
  synchronous : ∀ before pid argv streams after,
    ended.actions = before ++ .started pid argv streams :: after → streams.output ≠ .pipe →
      Answered pid after ∧ (answered ended.actions).count pid = 1
  /-- A process whose output is piped is never waited for. -/
  interior : ∀ pid ∈ interiors ended.actions, pid ∉ waits ended.actions
  /-- Children are processes whose output is piped, in the order of their starts. -/
  children : (ended.session.children.map Child.pid).Sublist (interiors ended.actions)
  /-- Such a process is a child unless there were more looks since its start than would find it
  running. -/
  kept : ∀ earlier before pid argv streams after later,
    roundsAll calls s = earlier ++ (before ++ .started pid argv streams :: after) :: later →
      streams.output = .pipe →
        ∃ returnCode polls interrupts,
          (s.host.afterActions (earlier.flatten ++ before)).outcome (argv.headD []) =
              .starts returnCode polls interrupts ∧
            (pid ∈ ended.session.children.map Child.pid ↔ later.length + 1 ≤ polls)

/-- Calls account for every process, unless one of them gives up a wait. -/
theorem runAll_accountsFor {calls : List Call} {s : Session} {results : List (Except Fault Unit)}
    (childless : s.children = []) (made : (runAll calls s).result = .ok results)
    (heldOut : .error .interrupted ∉ results) : AccountsFor calls s (runAll calls s) := by
  have accounted := accounted_runAll made heldOut
  have progress := accounted.progress
  have children : (runAll calls s).session.children = s.host.kept (roundsAll calls s) := by
    rw [accounted.children, childless]
    rfl
  have distinct : (pids (runAll calls s).actions).Nodup := by
    rw [progress.pids]
    exact List.nodup_range'
  refine ⟨accounted.flatten, distinct, ?_, ?_, ?_, ?_⟩
  · intro before pid argv streams after cut unpiped
    have answered := progress.synchronous before pid argv streams after cut unpiped
    have member : pid ∈ Action.answered (runAll calls s).actions := by
      rw [cut, answered_append]
      exact List.mem_append_right _ answered.mem
    rw [progress.answered_once.count, if_pos member]
    exact ⟨answered, rfl⟩
  · intro pid isInterior isWaited
    exact (progress.waited pid isWaited).2 isInterior
  · have sub := s.host.pids_kept_sublist (roundsAll calls s)
    rw [accounted.flatten, interiors, filterMap_filter_isWrite fun _ _ => rfl] at sub
    rw [children]
    exact sub
  · intro earlier before pid argv streams after later cut piped
    have flat : (runAll calls s).actions.filter (!·.isWrite) =
        (earlier.flatten ++ before) ++ .started pid argv streams :: (after ++ later.flatten) := by
      rw [← accounted.flatten, cut]
      simp
    obtain ⟨before', after', cut', same⟩ := cut_of_filter_isWrite flat
    obtain ⟨returnCode, polls, interrupts, outcome⟩ :=
      progress.outcomes before' pid argv streams after' cut'
    rw [← Host.afterActions_filter_isWrite, same] at outcome
    refine ⟨returnCode, polls, interrupts, outcome, ?_⟩
    have adopts : (s.host.afterActions (earlier.flatten ++ before)).adopts?
        (.started pid argv streams) = some { pid, returnCode, polls, interrupts } := by
      simp only [Host.adopts?, outcome, if_pos piped]
    rw [← pids_filter_isWrite, flat] at distinct
    rw [children, cut]
    exact Host.mem_pids_kept_iff adopts (not_mem_pids_of_nodup distinct)

/-- A pipeline that cannot be completed, an entered line that is interrupted once, and a script. -/
def mixedCalls : List Call :=
  [.line "p | q".toList, .committed " r ".toList, .source "p | r\np | q".toList, .reap]

theorem runAll_accountsFor_mixed :
    let s : Session :=
      { host := { programs := [(['p'], [.starts 0 3 0]), (['r'], [.starts 1 0 1])] } }
    let missing : Fault := .shell (.commandNotFound ['q'] none)
    let results : List (Except Fault Unit) := [.error missing, .ok (), .ok (), .ok ()]
    s.children = [] ∧ (runAll mixedCalls s).result = .ok results ∧
      .error .interrupted ∉ results ∧ AccountsFor mixedCalls s (runAll mixedCalls s) := by
  intro s missing results
  have made : (runAll mixedCalls s).result = .ok results := by decide +kernel
  have heldOut : .error .interrupted ∉ results := by decide
  exact ⟨rfl, made, heldOut, runAll_accountsFor rfl made heldOut⟩

end Call

end ChainShell
