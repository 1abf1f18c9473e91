/-
# ChainShell.Activity — computations of the shell

An `Activity` starts from a session and ends with a value or a `Fault`, the session
it leaves, and the actions it took.  The session is left also by a fault: what was
assigned, started or entered before it stays.

Activities are sequenced by `>>=`, whose actions are those of the first part followed
by those of the second.  `ensuring` runs a second activity after a first one whatever
the outcome, and `recovering` turns an error of the shell into a value.
-/
import ChainShell.Error
import ChainShell.History
import ChainShell.Host
import ChainShell.Store.Basic
import ChainShell.Text.Numeral

set_option autoImplicit false

namespace ChainShell

/-! ## Sessions and faults -/

/-- What a shell keeps from one line to the next, and the machine it runs on. -/
structure Session where
  store : Store := {}
  /-- Processes that were started as inner parts of pipelines and not yet seen to end. -/
  children : List Child := []
  history : History := {}
  /-- The number of the terminal mode to go back to, while the terminal is raw. -/
  savedMode : Option Nat := none
  host : Host := {}

def Session.isRaw (s : Session) : Bool := s.savedMode.isSome

/-- Why an activity ended without a value. -/
inductive Fault where
  | shell (error : ShellError)
  /-- A wait was interrupted once more than the shell puts up with. -/
  | interrupted
  /-- A call for the terminal's mode failed. -/
  | terminal
  /-- The parameter of a key could not be read. -/
  | key (error : NumeralError)
  /-- A script is no well-formed UTF-8. -/
  | encoding
  /-- A command was to be explained, or to be run, and has no text. -/
  | noCommand (explained : Bool)
  /-- A failure from outside, with its message. -/
  | raised (message : Text)
  deriving DecidableEq, Repr

def Fault.message : Fault → Text
  | shell error => error.message
  | interrupted | encoding => []
  | terminal => "(25, 'Inappropriate ioctl for device')".toList
  | key error => error.message
  | noCommand _ => "no command".toList
  | raised message => message

/-- The fault of an error: what the shell says of it, if the machine reported it.  Nothing is said
of a call that could not be made, which goes on as a failure from outside. -/
def OsError.fault (error : OsError) (told : ShellError) : Fault :=
  match error with
  | invalid message => .raised message
  | numbered .. | bare _ => .shell told

/-- How an activity ended: its result, the session it left, and what it did. -/
@[ext] structure Ended (α : Type) where
  result : Except Fault α
  session : Session
  actions : List Action

def Activity (α : Type) : Type := Session → Ended α

namespace Activity

variable {α β : Type}

/-! ## Sequencing -/

def bind (first : Activity α) (next : α → Activity β) : Activity β := fun s =>
  let ended := first s
  match ended.result with
  | .error fault => ⟨.error fault, ended.session, ended.actions⟩
  | .ok a =>
    let later := next a ended.session
    ⟨later.result, later.session, ended.actions ++ later.actions⟩

instance : Monad Activity where
  pure a := fun s => ⟨.ok a, s, []⟩
  bind := bind

def fail (fault : Fault) : Activity α := fun s => ⟨.error fault, s, []⟩

def failShell (error : ShellError) : Activity α := fail (.shell error)

def get : Activity Session := fun s => ⟨.ok s, s, []⟩

def modify (change : Session → Session) : Activity Unit := fun s => ⟨.ok (), change s, []⟩

def modifyHost (change : Host → Host) : Activity Unit :=
  modify fun s => { s with host := change s.host }

def act (action : Action) : Activity Unit := fun s => ⟨.ok (), s, [action]⟩

/-- Runs an activity for its result, faults included. -/
def attempt (body : Activity α) : Activity (Except Fault α) := fun s =>
  let ended := body s
  ⟨.ok ended.result, ended.session, ended.actions⟩

def ofResult : Except Fault α → Activity α
  | .ok a => pure a
  | .error fault => fail fault

/-- Runs `body` and then `cleanup`, whether `body` ended with a value or a fault.  A fault of
`cleanup` takes the place of the result. -/
def ensuring (body : Activity α) (cleanup : Activity Unit) : Activity α := do
  let result ← attempt body
  cleanup
  ofResult result

/-- Runs an activity and gives an error of the shell as a value; other faults pass. -/
def recovering (body : Activity α) : Activity (Except ShellError α) := do
  match ← attempt body with
  | .ok a => pure (.ok a)
  | .error (.shell error) => pure (.error error)
  | .error fault => fail fault

/-! ## Laws of sequencing -/

theorem pure_apply (a : α) (s : Session) : (pure a : Activity α) s = ⟨.ok a, s, []⟩ := rfl

theorem bind_apply_of_ok {first : Activity α} {s : Session} {a : α}
    (h : (first s).result = .ok a) (next : α → Activity β) :
    (first >>= next) s =
      ⟨(next a (first s).session).result, (next a (first s).session).session,
        (first s).actions ++ (next a (first s).session).actions⟩ := by
  show bind first next s = _
  simp only [bind, h]

theorem bind_apply_of_error {first : Activity α} {s : Session} {fault : Fault}
    (h : (first s).result = .error fault) (next : α → Activity β) :
    (first >>= next) s = ⟨.error fault, (first s).session, (first s).actions⟩ := by
  show bind first next s = _
  simp only [bind, h]

theorem bind_apply_congr {first first' : Activity α} {s : Session} (same : first s = first' s)
    (next : α → Activity β) : (first >>= next) s = (first' >>= next) s := by
  show bind first next s = bind first' next s
  rw [bind, bind, same]

theorem bind_pure_apply (body : Activity α) (f : α → β) (s : Session) :
    (body >>= fun a => pure (f a)) s =
      ⟨(body s).result.map f, (body s).session, (body s).actions⟩ := by
  cases ended : (body s).result with
  | error fault =>
    rw [bind_apply_of_error ended]
    rfl
  | ok a =>
    rw [bind_apply_of_ok ended, pure_apply, List.append_nil]
    rfl

/-- Two activities end with a value if the first one does and the second one does after it. -/
theorem result_bind_eq_ok {first : Activity α} {next : α → Activity β} {s : Session} {b : β} :
    ((first >>= next) s).result = .ok b ↔
      ∃ a, (first s).result = .ok a ∧ (next a (first s).session).result = .ok b := by
  cases ended : (first s).result with
  | error fault =>
    rw [bind_apply_of_error ended]
    simp
  | ok a =>
    rw [bind_apply_of_ok ended]
    simp

theorem mem_actions_bind {first : Activity α} {s : Session} {action : Action}
    (member : action ∈ (first s).actions) (next : α → Activity β) :
    action ∈ ((first >>= next) s).actions := by
  cases ended : (first s).result with
  | error fault =>
    rw [bind_apply_of_error ended]
    exact member
  | ok a =>
    rw [bind_apply_of_ok ended]
    exact List.mem_append_left _ member

theorem get_bind_apply (next : Session → Activity β) (s : Session) :
    (get >>= next) s = next s s := rfl

theorem modify_bind_apply (change : Session → Session) (next : Unit → Activity β) (s : Session) :
    (modify change >>= next) s = next () (change s) := rfl

theorem act_bind_apply (action : Action) (next : Unit → Activity β) (s : Session) :
    (act action >>= next) s =
      ⟨(next () s).result, (next () s).session, action :: (next () s).actions⟩ := rfl

/-- What `ensuring` leaves is what `cleanup` leaves, and it does what both do. -/
theorem ensuring_apply (body : Activity α) (cleanup : Activity Unit) (s : Session) :
    ensuring body cleanup s =
      ⟨(cleanup (body s).session).result.bind fun _ => (body s).result,
        (cleanup (body s).session).session,
        (body s).actions ++ (cleanup (body s).session).actions⟩ := by
  have first : (attempt body s).result = .ok (body s).result := rfl
  unfold ensuring
  rw [bind_apply_of_ok first]
  have session : (attempt body s).session = (body s).session := rfl
  have actions : (attempt body s).actions = (body s).actions := rfl
  rw [session, actions]
  cases after : (cleanup (body s).session).result with
  | error fault => rw [bind_apply_of_error after]; rfl
  | ok finished =>
    rw [bind_apply_of_ok after]
    cases (body s).result with
    | error fault => simp [ofResult, fail, Except.bind]
    | ok a => simp [ofResult, pure_apply, Except.bind]

/-- What is to follow in any case also follows a second part, if the first one gave a value. -/
theorem ensuring_bind_of_ok {first : Activity α} {s : Session} {a : α}
    (ended : (first s).result = .ok a) (next : α → Activity β) (cleanup : Activity Unit) :
    ensuring (first >>= next) cleanup s = (first >>= fun a => ensuring (next a) cleanup) s := by
  rw [ensuring_apply, bind_apply_of_ok ended, bind_apply_of_ok ended, ensuring_apply,
    List.append_assoc]

/-- Only an error of the shell becomes a value. -/
theorem recovering_apply (body : Activity α) (s : Session) :
    recovering body s =
      ⟨match (body s).result with
        | .ok a => .ok (.ok a)
        | .error (.shell error) => .ok (.error error)
        | .error fault => .error fault, (body s).session, (body s).actions⟩ := by
  have tried : (attempt body s).result = .ok (body s).result := rfl
  unfold recovering
  rw [bind_apply_of_ok tried]
  cases (body s).result with
  | ok a => simp [attempt, pure_apply]
  | error fault => cases fault <;> simp [attempt, pure_apply, fail]

instance : LawfulMonad Activity :=
  LawfulMonad.mk' Activity
    (fun x => by
      funext s
      show bind x (fun a => pure a) s = x s
      cases h : (x s).result with
      | error fault => simp only [bind, h]; ext <;> simp [h]
      | ok a => simp only [bind, h]; ext <;> simp [h, pure_apply])
    (fun a f => by
      funext s
      show bind (pure a) f s = f a s
      simp [bind, pure_apply])
    (fun x f g => by
      funext s
      show bind (bind x f) g s = bind x (fun a => bind (f a) g) s
      cases hx : (x s).result with
      | error fault => simp [bind, hx]
      | ok a =>
        cases hf : (f a (x s).session).result with
        | error fault => simp [bind, hx, hf]
        | ok b => simp [bind, hx, hf])

/-! ## The machine -/

def write (stream : OutputStream) (text : Text) : Activity Unit := act (.wrote stream text)

def openFile (mode : OpenMode) (path : Text) : Activity Handle := do
  let host := (← get).host
  match host.openErrors.lookup path with
  | some error =>
    act (.openFailed mode path)
    fail (error.fault (.redirectFailed path error.reason))
  | none =>
    let handle := Handle.file (host.opened + 1)
    modifyHost fun h => { h with opened := h.opened + 1 }
    act (.opened mode path handle)
    return handle

def close (handle : Handle) : Activity Unit := act (.closed handle)

def start (executable : Text) (args : List Text) (streams : Streams) : Activity Child := do
  let outcome := (← get).host.outcome executable
  modifyHost (·.attempted executable)
  match outcome with
  | .fails error =>
    act (.startFailed (executable :: args) streams)
    fail (error.fault
      (.commandNotFound executable (if error.isNotFound then none else some error.reason)))
  | .starts returnCode polls interrupts =>
    modifyHost fun h => { h with started := h.started + 1 }
    let pid := (← get).host.started
    act (.started pid (executable :: args) streams)
    return { pid, returnCode, polls, interrupts }

/-- Makes a mode call and gives its number. -/
def callMode (call : ModeCall) : Activity Nat := do
  modifyHost (·.called call)
  let count := (← get).host.callCount call
  if count.made ∈ count.failing then
    act (.modeFailed call)
    fail .terminal
  return count.made

end Activity

end ChainShell
