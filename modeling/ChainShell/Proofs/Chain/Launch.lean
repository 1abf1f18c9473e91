/-
# ChainShell.Proofs.Chain.Launch — what the parts of starting an invocation do

Starting an invocation opens its redirects one after the other, tries to start the process
unless one of them was refused, closes what was opened in the opposite order, and closes
the carried pipe last.  Each part has one equation that gives its result, the session it
leaves and its actions:

* `openFile_of_granted`, `openFile_of_refused`: one redirect;
* `withRedirects_of_granted`, `withRedirects_of_refused`: all of them (`Opening`);
* `start_of_starts`, `start_of_fails`: the process;
* `awaitWithin_apply`: the wait for it.

`launch_eq` puts an invocation's parts together.
-/
import ChainShell.Chain.Run

set_option autoImplicit false

namespace ChainShell

/-! ## Errors -/

namespace OsError

/-- Whether the machine reported the error itself, and not only could not be asked. -/
def isReport : OsError → Bool
  | invalid _ => false
  | numbered .. | bare _ => true

/-- Either the shell has words for an error, or it was not reported and passes as it is. -/
theorem fault_cases (error : OsError) (told : ShellError) :
    error.isReport = true ∧ error.fault told = .shell told ∨
      ∃ message, error = .invalid message ∧ error.fault told = .raised message := by
  cases error with
  | invalid message => exact .inr ⟨message, rfl, rfl⟩
  | _ => exact .inl ⟨rfl, rfl⟩

theorem fault_eq_shell_iff {error : OsError} {told raised : ShellError} :
    error.fault told = .shell raised ↔ error.isReport = true ∧ told = raised := by
  cases error <;> simp [fault, isReport]

@[simp] theorem fault_ne_interrupted (error : OsError) (told : ShellError) :
    error.fault told ≠ .interrupted := by
  rcases error.fault_cases told with ⟨-, same⟩ | ⟨message, -, same⟩ <;> simp [same]

end OsError

/-! ## Opening redirects -/

/-- Whether the target of a redirect is opened to be read or to be written. -/
def Redirect.mode : Redirect → OpenMode
  | .input => .read
  | .output | .error => .write

/-- The redirects that starting an invocation opens, in order; the input only if no pipe is
carried. -/
def Invocation.openings (i : Invocation) (carried : Option Handle) : List (Redirect × Text) :=
  (if carried.isSome then [] else (i.input.map (Redirect.input, ·)).toList) ++
    (i.output.map (Redirect.output, ·)).toList ++ (i.error.map (Redirect.error, ·)).toList

structure OpenFile where
  stream : Redirect
  path : Text
  handle : Handle
  deriving DecidableEq, Repr

namespace OpenFile

def opening (file : OpenFile) : Redirect × Text := (file.stream, file.path)

def opened (file : OpenFile) : Action := .opened file.stream.mode file.path file.handle

end OpenFile

/-- What came of opening redirects one after the other: the files, and the first redirect that was
refused, which ended it. -/
structure Opening where
  files : List OpenFile
  refused : Option ((Redirect × Text) × OsError)

def Session.afterOpening (s : Session) (files : Nat) : Session :=
  { s with host := { s.host with opened := s.host.opened + files } }

def Opening.of (s : Session) : List (Redirect × Text) → Opening
  | [] => ⟨[], none⟩
  | (stream, path) :: rest =>
    match s.host.openErrors.lookup path with
    | some error => ⟨[], some ((stream, path), error)⟩
    | none =>
      let later := of (s.afterOpening 1) rest
      { later with files := ⟨stream, path, .file (s.host.opened + 1)⟩ :: later.files }

@[simp] theorem Session.afterOpening_zero (s : Session) : s.afterOpening 0 = s := rfl

theorem Session.afterOpening_succ (s : Session) (n : Nat) :
    (s.afterOpening 1).afterOpening n = s.afterOpening (n + 1) := by
  simp only [afterOpening, Nat.add_assoc, Nat.add_comm 1 n]

/-- The files are numbered from the next number on. -/
theorem Opening.handles_of (s : Session) (redirects : List (Redirect × Text)) :
    (Opening.of s redirects).files.map OpenFile.handle =
      (List.range' (s.host.opened + 1) (Opening.of s redirects).files.length).map Handle.file := by
  induction redirects generalizing s with
  | nil => rfl
  | cons redirect rest ih =>
    obtain ⟨stream, path⟩ := redirect
    cases found : s.host.openErrors.lookup path with
    | some error => simp [of, found]
    | none => simp [of, found, ih, List.range'_succ, Session.afterOpening]

theorem Opening.map_opening_of (s : Session) (redirects : List (Redirect × Text))
    (granted : (Opening.of s redirects).refused = none) :
    (Opening.of s redirects).files.map OpenFile.opening = redirects := by
  induction redirects generalizing s with
  | nil => rfl
  | cons redirect rest ih =>
    obtain ⟨stream, path⟩ := redirect
    cases found : s.host.openErrors.lookup path with
    | some error => simp [of, found] at granted
    | none =>
      simp only [of, found] at granted ⊢
      rw [List.map_cons, ih _ granted]
      rfl

/-- What comes of opening redirects depends on the paths alone, and on the next number. -/
theorem Opening.of_congr {s s' : Session} {redirects : List (Redirect × Text)}
    (opened : s'.host.opened = s.host.opened)
    (errors : ∀ redirect ∈ redirects,
      s'.host.openErrors.lookup redirect.2 = s.host.openErrors.lookup redirect.2) :
    Opening.of s' redirects = Opening.of s redirects := by
  induction redirects generalizing s s' with
  | nil => rfl
  | cons redirect rest ih =>
    obtain ⟨stream, path⟩ := redirect
    have here := errors (stream, path) List.mem_cons_self
    have later : Opening.of (s'.afterOpening 1) rest = Opening.of (s.afterOpening 1) rest :=
      ih (congrArg (· + 1) opened) fun redirect member =>
        errors redirect (List.mem_cons_of_mem _ member)
    rw [of, of, here, later, opened]

namespace Activity

variable {α : Type}

/-- Opens redirects one after the other, each for as long as the rest runs. -/
def withRedirects (body : List OpenFile → Activity α) : List (Redirect × Text) → Activity α
  | [] => body []
  | (stream, path) :: rest => do
    let handle ← openFile stream.mode path
    ensuring (withRedirects (fun files => body (⟨stream, path, handle⟩ :: files)) rest)
      (close handle)

theorem openFile_of_refused {s : Session} {path : Text} {error : OsError}
    (found : s.host.openErrors.lookup path = some error) (mode : OpenMode) :
    openFile mode path s =
      ⟨.error (error.fault (.redirectFailed path error.reason)), s, [.openFailed mode path]⟩ := by
  have session : (get s).result = .ok s := rfl
  unfold openFile
  rw [bind_apply_of_ok session]
  simp only [get, found]
  rfl

theorem openFile_of_granted {s : Session} {path : Text}
    (found : s.host.openErrors.lookup path = none) (mode : OpenMode) :
    openFile mode path s =
      ⟨.ok (.file (s.host.opened + 1)), s.afterOpening 1,
        [.opened mode path (.file (s.host.opened + 1))]⟩ := by
  have session : (get s).result = .ok s := rfl
  unfold openFile
  rw [bind_apply_of_ok session]
  simp only [get, found]
  rfl

theorem close_apply (handle : Handle) (s : Session) :
    close handle s = ⟨.ok (), s, [.closed handle]⟩ := rfl

theorem closeAny_apply (handle : Option Handle) (s : Session) :
    closeAny handle s = ⟨.ok (), s, handle.toList.map .closed⟩ := by
  cases handle <;> rfl

/-- A granted redirect is open while the rest runs and is closed after it. -/
theorem withRedirects_cons_of_granted {s : Session} {path : Text}
    (found : s.host.openErrors.lookup path = none) (body : List OpenFile → Activity α)
    (stream : Redirect) (rest : List (Redirect × Text)) :
    withRedirects body ((stream, path) :: rest) s =
      let file : OpenFile := ⟨stream, path, .file (s.host.opened + 1)⟩
      let ended := withRedirects (fun files => body (file :: files)) rest (s.afterOpening 1)
      ⟨ended.result, ended.session, file.opened :: (ended.actions ++ [.closed file.handle])⟩ := by
  have opened := openFile_of_granted found stream.mode
  rw [withRedirects, bind_apply_of_ok (congrArg Ended.result opened), opened]
  simp only [ensuring_apply, close_apply]
  rfl

/-- Redirects that are all granted stay open while the body runs and are closed after it. -/
theorem withRedirects_of_granted (body : List OpenFile → Activity α)
    (redirects : List (Redirect × Text)) (s : Session)
    (granted : (Opening.of s redirects).refused = none) :
    withRedirects body redirects s =
      let files := (Opening.of s redirects).files
      let ended := body files (s.afterOpening files.length)
      ⟨ended.result, ended.session,
        files.map OpenFile.opened ++ ended.actions ++
          (files.map OpenFile.handle).reverse.map .closed⟩ := by
  induction redirects generalizing s body with
  | nil => simp [withRedirects, Opening.of]
  | cons redirect rest ih =>
    obtain ⟨stream, path⟩ := redirect
    cases found : s.host.openErrors.lookup path with
    | some error => simp [Opening.of, found] at granted
    | none =>
      simp only [Opening.of, found] at granted
      simp only [withRedirects_cons_of_granted found, ih _ _ granted]
      simp [Opening.of, found, Session.afterOpening_succ]

/-- A refused redirect ends the opening, and the files before it are closed. -/
theorem withRedirects_of_refused (body : List OpenFile → Activity α)
    (redirects : List (Redirect × Text)) (s : Session) {stream : Redirect} {path : Text}
    {error : OsError} (refused : (Opening.of s redirects).refused = some ((stream, path), error)) :
    withRedirects body redirects s =
      let files := (Opening.of s redirects).files
      ⟨.error (error.fault (.redirectFailed path error.reason)), s.afterOpening files.length,
        files.map OpenFile.opened ++ .openFailed stream.mode path ::
          (files.map OpenFile.handle).reverse.map .closed⟩ := by
  induction redirects generalizing s body with
  | nil => simp [Opening.of] at refused
  | cons redirect rest ih =>
    obtain ⟨stream', path'⟩ := redirect
    cases found : s.host.openErrors.lookup path' with
    | some error' =>
      simp only [Opening.of, found, Option.some.injEq, Prod.mk.injEq] at refused
      obtain ⟨⟨rfl, rfl⟩, rfl⟩ := refused
      have failed := openFile_of_refused found stream'.mode
      rw [withRedirects, bind_apply_of_error (congrArg Ended.result failed), failed]
      simp [Opening.of, found]
    | none =>
      simp only [Opening.of, found] at refused
      simp only [withRedirects_cons_of_granted found, ih _ _ refused]
      simp [Opening.of, found, Session.afterOpening_succ]

/-! ## The process -/

theorem start_of_fails {s : Session} {executable : Text} {error : OsError}
    (fails : s.host.outcome executable = .fails error) (args : List Text) (streams : Streams) :
    start executable args streams s =
      ⟨.error (error.fault (.commandNotFound executable
          (if error.isNotFound then none else some error.reason))),
        { s with host := s.host.attempted executable },
        [.startFailed (executable :: args) streams]⟩ := by
  have session : (get s).result = .ok s := rfl
  unfold start
  rw [bind_apply_of_ok session]
  simp only [get, fails]
  rfl

theorem start_of_starts {s : Session} {executable : Text} {returnCode : Int}
    {polls interrupts : Nat}
    (starts : s.host.outcome executable = .starts returnCode polls interrupts) (args : List Text)
    (streams : Streams) :
    start executable args streams s =
      ⟨.ok ⟨s.host.started + 1, returnCode, polls, interrupts⟩,
        { s with
          host := { s.host.attempted executable with started := s.host.started + 1 } },
        [.started (s.host.started + 1) (executable :: args) streams]⟩ := by
  have session : (get s).result = .ok s := rfl
  unfold start
  rw [bind_apply_of_ok session]
  simp only [get, starts]
  rfl

/-- The waits for a process, of which at most `patience` may be interrupted. -/
def waitActions (patience : Nat) (child : Child) : List Action :=
  List.replicate (min child.interrupts (patience + 1)) (.interrupted child.pid) ++
    if child.interrupts ≤ patience then [.waited child.pid child.returnCode] else []

theorem awaitWithin_apply (patience interrupts : Nat) (child : Child) (s : Session) :
    awaitWithin patience interrupts child s =
      ⟨if interrupts ≤ patience then .ok (.ofReturnCode child.returnCode)
        else .error .interrupted, s,
        waitActions patience { child with interrupts }⟩ := by
  induction patience generalizing interrupts with
  | zero =>
    cases interrupts with
    | zero => rfl
    | succ interrupts => simp [awaitWithin, waitActions]; rfl
  | succ patience ih =>
    cases interrupts with
    | zero => simp [awaitWithin, waitActions]; rfl
    | succ interrupts =>
      have acted : act (.interrupted child.pid) s = ⟨.ok (), s, [.interrupted child.pid]⟩ := rfl
      rw [awaitWithin, bind_apply_of_ok (congrArg Ended.result acted), acted, ih]
      simp [waitActions, Nat.succ_min_succ, List.replicate_succ]

end Activity

/-! ## An invocation -/

/-- The handle of a stream's file, if it was redirected. -/
def OpenFile.handleOf (files : List OpenFile) (stream : Redirect) : Option Handle :=
  (files.find? fun file => file.stream = stream).map OpenFile.handle

/-- The streams of a process: a carried pipe is its input in place of the input's file, and a pipe
of its own its output in place of the output's file. -/
def Streams.of (carried : Option Handle) (piped : Bool) (files : List OpenFile) : Streams where
  input := carried.or (OpenFile.handleOf files .input)
  output := .choose piped (OpenFile.handleOf files .output)
  error := OpenFile.handleOf files .error

open Activity

/-- An invocation starts its process while its redirects are open, and then closes the carried
pipe. -/
theorem Invocation.launch_eq (i : Invocation) (carried : Option Handle) (piped : Bool) :
    i.launch carried piped =
      ensuring
        (withRedirects (fun files => start i.executable i.args (.of carried piped files))
          (i.openings carried))
        (closeAny carried) := by
  obtain ⟨executable, args, input, output, error⟩ := i
  cases carried <;> cases input <;> cases output <;> cases error <;> rfl

end ChainShell
