/-
# ChainShell.Proofs.Trace — what a list of actions says

The facts about a run that outlast it are read off its actions: which commands were
tried and which of them started (`attempts`, `starts`), which processes were waited for
and what they answered (`waits`, `answers`), and which handles were obtained and closed
(`acquired`, `released`).  Each view is a list in the order of the actions.

`heldFrom` follows the handles that are held along a run, part by part.
-/
import ChainShell.Host

set_option autoImplicit false

namespace ChainShell

namespace Action

def attempt? : Action → Option (List Text)
  | started _ argv _ | startFailed argv _ => some argv
  | _ => none

/-- The number of a process that was started, and its command and arguments. -/
def start? : Action → Option (Nat × List Text)
  | started pid argv _ => some (pid, argv)
  | _ => none

/-- The process of a wait, finished or interrupted. -/
def wait? : Action → Option Nat
  | waited pid _ | interrupted pid => some pid
  | _ => none

/-- The process that a wait saw end, and its return code. -/
def answer? : Action → Option (Nat × Int)
  | waited pid code => some (pid, code)
  | _ => none

def released? : Action → Option Handle
  | closed handle => some handle
  | _ => none

def attempts (actions : List Action) : List (List Text) := actions.filterMap attempt?

def starts (actions : List Action) : List (Nat × List Text) := actions.filterMap start?

/-- The processes that were waited for, each as often as it was. -/
def waits (actions : List Action) : List Nat := actions.filterMap wait?

def answers (actions : List Action) : List (Nat × Int) := actions.filterMap answer?

def acquired (actions : List Action) : List Handle := actions.filterMap acquired?

def released (actions : List Action) : List Handle := actions.filterMap released?

section

variable (first second : List Action)

@[simp] theorem attempts_append : attempts (first ++ second) = attempts first ++ attempts second :=
  List.filterMap_append

@[simp] theorem starts_append : starts (first ++ second) = starts first ++ starts second :=
  List.filterMap_append

@[simp] theorem waits_append : waits (first ++ second) = waits first ++ waits second :=
  List.filterMap_append

@[simp] theorem answers_append : answers (first ++ second) = answers first ++ answers second :=
  List.filterMap_append

@[simp] theorem acquired_append : acquired (first ++ second) = acquired first ++ acquired second :=
  List.filterMap_append

@[simp] theorem released_append : released (first ++ second) = released first ++ released second :=
  List.filterMap_append

end

theorem released?_of_attempt {action : Action} (tries : action.attempt?.isSome) :
    action.released? = none := by
  cases action with
  | closed handle => contradiction
  | _ => rfl

theorem released?_of_wait {action : Action} (waits : action.wait?.isSome) :
    action.released? = none := by
  cases action with
  | closed handle => contradiction
  | _ => rfl

theorem count_closed (actions : List Action) (handle : Handle) :
    actions.count (closed handle) = (released actions).count handle := by
  rw [released, List.count_filterMap]
  apply List.countP_congr
  intro action _
  cases action <;> simp [released?]

theorem released_map_closed (handles : List Handle) : released (handles.map closed) = handles := by
  induction handles with
  | nil => rfl
  | cons handle handles ih =>
    rw [List.map_cons, released, List.filterMap_cons]
    exact congrArg (handle :: ·) ih

/-- A view that sees no closing sees nothing of handles being closed. -/
theorem filterMap_map_closed {α : Type} {view : Action → Option α}
    (noClosed : ∀ handle, view (closed handle) = none) (handles : List Handle) :
    (handles.map closed).filterMap view = [] := by
  rw [List.filterMap_eq_nil_iff]
  intro action member
  obtain ⟨handle, -, rfl⟩ := List.mem_map.1 member
  exact noClosed handle

theorem acquired_map_closed (handles : List Handle) : acquired (handles.map closed) = [] :=
  filterMap_map_closed (fun _ => rfl) handles

/-! ## Handles held along a run -/

/-- The handles that are held after some actions, if some were held before. -/
def heldFrom (held : List Handle) (actions : List Action) : List Handle :=
  actions.foldl heldAfter held

theorem openHandles_eq (actions : List Action) : openHandles actions = heldFrom [] actions := rfl

theorem heldFrom_cons (held : List Handle) (action : Action) (actions : List Action) :
    heldFrom held (action :: actions) = heldFrom (heldAfter held action) actions := rfl

theorem heldFrom_append (held : List Handle) (first second : List Action) :
    heldFrom held (first ++ second) = heldFrom (heldFrom held first) second :=
  List.foldl_append

theorem heldAfter_of_open {action : Action} (open_ : action.released? = none)
    (held : List Handle) : heldAfter held action = held ++ action.acquired?.toList := by
  cases action with
  | closed handle => simp [released?] at open_
  | _ => rfl

/-- Actions that close nothing add what they obtain to what is held. -/
theorem heldFrom_of_open {actions : List Action} (open_ : released actions = [])
    (held : List Handle) : heldFrom held actions = held ++ acquired actions := by
  induction actions generalizing held with
  | nil => exact (List.append_nil held).symm
  | cons action actions ih =>
    rw [released, List.filterMap_eq_nil_iff] at open_
    have first : action.released? = none := open_ action List.mem_cons_self
    have later : released actions = [] := by
      rw [released, List.filterMap_eq_nil_iff]
      intro other member
      exact open_ other (List.mem_cons_of_mem _ member)
    rw [heldFrom_cons, ih later, heldAfter_of_open first, List.append_assoc, acquired, acquired,
      List.filterMap_cons]
    cases action.acquired? <;> rfl

/-- Closing handles in any order leaves the others. -/
theorem heldFrom_map_closed {held handles rest : List Handle}
    (same : held.Perm (handles ++ rest)) : (heldFrom held (handles.map closed)).Perm rest := by
  induction handles generalizing held with
  | nil => exact same
  | cons handle handles ih =>
    apply ih
    have erased := same.erase handle
    rwa [List.cons_append, List.erase_cons_head] at erased

end Action

/-! ## Cutting a run into parts -/

variable {α β : Type}

/-- A place in two parts lies in one of them. -/
theorem cut_cases {first second before after : List β} {action : β}
    (cut : first ++ second = before ++ action :: after) :
    (∃ rest, first = before ++ action :: rest ∧ after = rest ++ second) ∨
      ∃ inner, before = first ++ inner ∧ second = inner ++ action :: after := by
  rcases List.append_eq_append_iff.1 cut with ⟨middle, rfl, rest⟩ | ⟨middle, rfl, rest⟩
  · exact .inr ⟨middle, rfl, rest⟩
  · cases middle with
    | nil => exact .inr ⟨[], by simp, rest.symm⟩
    | cons head middle =>
      obtain ⟨rfl, rfl⟩ := List.cons.inj rest
      exact .inl ⟨middle, rfl, rfl⟩

/-- A place in two parts that is not in the first lies in the second. -/
theorem cut_in_right {first second before after : List β} {action : β}
    (cut : first ++ second = before ++ action :: after) (absent : action ∉ first) :
    ∃ inner, before = first ++ inner ∧ second = inner ++ action :: after := by
  rcases cut_cases cut with ⟨rest, rfl, -⟩ | inSecond
  · simp at absent
  · exact inSecond

/-- A place in two parts that is not in the second lies in the first. -/
theorem cut_in_left {first second before after : List β} {action : β}
    (cut : first ++ second = before ++ action :: after) (absent : action ∉ second) :
    ∃ rest, first = before ++ action :: rest := by
  rcases cut_cases cut with ⟨rest, inFirst, -⟩ | ⟨inner, -, rfl⟩
  · exact ⟨rest, inFirst⟩
  · simp at absent

/-- A place in the parts of a run lies in one of the parts. -/
theorem exists_part_of_flatMap {parts : List α} {actionsOf : α → List β} {before after : List β}
    {action : β} (cut : parts.flatMap actionsOf = before ++ action :: after) :
    ∃ earlier part later inner rest, parts = earlier ++ part :: later ∧
      before = earlier.flatMap actionsOf ++ inner ∧ actionsOf part = inner ++ action :: rest := by
  induction parts generalizing before with
  | nil => simp at cut
  | cons part parts ih =>
    rw [List.flatMap_cons] at cut
    rcases cut_cases cut with ⟨rest, here, -⟩ | ⟨inner, rfl, later⟩
    · exact ⟨[], part, parts, before, rest, rfl, rfl, here⟩
    · obtain ⟨earlier, found, later', inner', tail, rfl, rfl, inside⟩ := ih later
      exact ⟨part :: earlier, found, later', inner', tail, rfl, by simp, inside⟩

end ChainShell
