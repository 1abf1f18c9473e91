/-
# ChainShell.Proofs.Chain.Absence — a character that stays out

A line break that is neither in a line, nor in the value of a variable, nor in what the machine
says of its errors, does not come in on the way.  Tokens are pieces of the line, an expansion
copies pieces of the line and values, and the wording of the errors has no line breaks of its
own (`ShellError.notMem_message`).  So it is

* in no text of the chain that the line says, and not quoted by the error if it says none
  (`lacks_ofLine`, `lacks_of_unread`);
* in no path that is opened, and no command or argument of a process (`lacks_action_run`);
* not quoted by the error that ends a run (`lacks_of_failed`), nor in what the machine says of
  its errors after it (`lacks_host_run`).
-/
import ChainShell.Proofs.Chain.Acceptance
import ChainShell.Proofs.Chain.Failure
import ChainShell.Proofs.Chain.Quoting
import ChainShell.Proofs.Text.Numeral
import ChainShell.Proofs.Token.Scanning

set_option autoImplicit false

namespace ChainShell

variable {c : Char}

/-! ## Texts -/

namespace Text

/-- A text without breaks does not have a character that is one. -/
theorem notMem_of_unbroken {t : Text} (breaks : isLineBreak c = true)
    (unbroken : ∀ d ∈ t, isLineBreak d = false) : c ∉ t := by
  intro member
  rw [unbroken c member] at breaks
  contradiction

theorem notMem_of_any {t : Text} (breaks : isLineBreak c = true)
    (unbroken : t.any isLineBreak = false) : c ∉ t :=
  notMem_of_unbroken breaks (by simpa using unbroken)

theorem notMem_ofNat (breaks : isLineBreak c = true) (n : Nat) : c ∉ ofNat n := by
  apply notMem_of_unbroken breaks
  intro d member
  have digit := isDigit_of_mem_ofNat member
  have bounds : 0x30 ≤ d.toNat ∧ d.toNat ≤ 0x39 := by
    simpa [Char.isDigit, UInt32.le_iff_toNat_le] using digit
  rw [Bool.eq_false_iff, ne_eq]
  simp only [isLineBreak, Bool.or_eq_true, Bool.and_eq_true, decide_eq_true_eq, beq_iff_eq]
  omega

theorem notMem_ofInt (breaks : isLineBreak c = true) (n : Int) : c ∉ ofInt n := by
  cases n with
  | ofNat n => exact notMem_ofNat breaks n
  | negSucc n =>
    have sign : c ≠ '-' := by
      rintro rfl
      exact absurd breaks (by decide)
    exact List.not_mem_cons_of_ne_of_not_mem sign (notMem_ofNat breaks (n + 1))

end Text

/-! ## Errors -/

/-- What the error of the machine says lacks the character.  One that was not reported has nothing
to say. -/
def OsError.Lacks (c : Char) : OsError → Prop
  | numbered _ text | bare text => c ∉ text
  | invalid _ => True

theorem OsError.Lacks.tells {error : OsError} {reason : Text} (lacks : error.Lacks c)
    (breaks : Text.isLineBreak c = true) (told : error.Tells reason) : c ∉ reason := by
  cases told with
  | text found present =>
    cases error with
    | numbered number text =>
      obtain rfl := Option.some.inj found
      exact lacks
    | bare text | invalid text => contradiction
  | whole reported absent =>
    cases error with
    | invalid message => contradiction
    | bare text =>
      have inText : c ∉ text := lacks
      exact inText
    | numbered number text =>
      have inText : c ∉ text := lacks
      have opening := Text.notMem_of_any breaks (t := "[Errno ".toList) rfl
      have closing := Text.notMem_of_any breaks (t := "] ".toList) rfl
      have inNumber := Text.notMem_ofInt breaks number
      exact List.not_mem_append
        (List.not_mem_append (List.not_mem_append opening inNumber) closing) inText

namespace ShellError

/-- The texts that a message quotes. -/
def quoted : ShellError → List Text
  | general message | malformed message => [message]
  | expectedWord found => found.toList
  | emptyCommand written => [written]
  | unexpectedCharacter found _ => [Text.quote [found]]
  | commandNotFound command reason => command :: reason.toList
  | redirectFailed path reason => [path, reason]

/-- What a message has of its own has no breaks. -/
theorem notMem_message {error : ShellError} (breaks : Text.isLineBreak c = true)
    (lacks : ∀ text ∈ error.quoted, c ∉ text) : c ∉ error.message := by
  have wording (t : Text) (unbroken : t.any Text.isLineBreak = false) : c ∉ t :=
    Text.notMem_of_any breaks unbroken
  have colon := wording ": ".toList rfl
  have quote := wording ['\''] rfl
  cases error with
  | general message | malformed message =>
    have inMessage : c ∉ message := lacks message List.mem_cons_self
    exact inMessage
  | expectedWord found =>
    cases found with
    | none => exact wording "syntax error: expected a word, found end of input".toList rfl
    | some found =>
      have inFound : c ∉ found := lacks found List.mem_cons_self
      have opening := wording "syntax error: expected a word, found '".toList rfl
      exact List.not_mem_append (List.not_mem_append opening inFound) quote
  | emptyCommand written =>
    have inWritten : c ∉ written := lacks written List.mem_cons_self
    cases written with
    | nil => exact wording "syntax error: empty command name".toList rfl
    | cons d written =>
      have opening := wording "syntax error: command name '".toList rfl
      have closing := wording "' is empty after substitution".toList rfl
      exact List.not_mem_append (List.not_mem_append opening inWritten) closing
  | unexpectedCharacter found position =>
    have inFound : c ∉ Text.quote [found] := lacks _ List.mem_cons_self
    have opening := wording "syntax error: unexpected character ".toList rfl
    have middle := wording " at column ".toList rfl
    have column := Text.notMem_ofNat breaks (position + 1)
    exact List.not_mem_append
      (List.not_mem_append (List.not_mem_append opening inFound) middle) column
  | commandNotFound command reason =>
    have inCommand : c ∉ command := lacks command List.mem_cons_self
    have opening := wording "command not found: ".toList rfl
    rcases reason with _ | _ | ⟨d, reason⟩
    · exact List.not_mem_append opening inCommand
    · exact List.not_mem_append opening inCommand
    · have inReason : c ∉ d :: reason := lacks _ (List.mem_cons_of_mem _ List.mem_cons_self)
      exact List.not_mem_append (List.not_mem_append inCommand colon) inReason
  | redirectFailed path reason =>
    have inPath : c ∉ path := lacks path List.mem_cons_self
    have inReason : c ∉ reason := lacks reason (List.mem_cons_of_mem _ List.mem_cons_self)
    exact List.not_mem_append (List.not_mem_append inPath colon) inReason

end ShellError

/-! ## Tokens and expansions -/

theorem Token.mem_of_mem_valueOf {kind : Kind} {lexeme : Text} (member : c ∈ valueOf kind lexeme) :
    c ∈ lexeme := by
  rw [valueOf] at member
  split at member
  · exact List.mem_of_mem_tail ((List.dropLast_subset _) member)
  · exact member

/-- The values of tokens are pieces of what was scanned. -/
theorem Token.Scans.mem_of_mem_value {table : List Kind} {position : Nat} {t : Text} {scan : Scan}
    (scans : Scans table position t scan) :
    ∀ token ∈ scan.tokens, ∀ c ∈ token.value, c ∈ t := by
  induction scans with
  | done | stuck =>
    intro token member
    contradiction
  | token blank found goesOn ih =>
    refine List.forall_mem_cons.2 ⟨fun c member => ?_, fun token member c inside => ?_⟩
    · exact List.mem_append_right _ (List.mem_append_left _ (mem_of_mem_valueOf member))
    · exact List.mem_append_right _ (List.mem_append_right _ (ih token member c inside))

/-- No variable has a value with the character. -/
def Store.Lacks (c : Char) (store : Store) : Prop :=
  ∀ name value, store.get? name = some value → c ∉ value

namespace Store

theorem lacks_empty (c : Char) : Store.empty.Lacks c := by
  intro name value found
  contradiction

theorem Lacks.getD {store : Store} (lacks : store.Lacks c) (name : Text) :
    c ∉ store.getD name := by
  rw [Store.getD]
  cases found : store.get? name with
  | none => exact List.not_mem_nil
  | some value => exact lacks name value found

theorem Lacks.set {store : Store} (lacks : store.Lacks c) (name : Text) {value : Text}
    (absent : c ∉ value) : (store.set name value).Lacks c := by
  intro other given found
  rw [get?_set] at found
  split at found
  · obtain rfl := Option.some.inj found
    exact absent
  · exact lacks other given found

/-- An expansion copies characters of the text, and values. -/
theorem Lacks.expand {store : Store} (lacks : store.Lacks c) {t : Text} (absent : c ∉ t) :
    c ∉ store.expand t := by
  rw [Store.expand, List.mem_flatMap]
  rintro ⟨piece, member, inside⟩
  cases piece with
  | plain d =>
    obtain rfl := List.mem_singleton.1 inside
    apply absent
    rw [← Piece.spell_pieces t]
    exact List.mem_flatMap.2 ⟨.plain c, member, List.mem_singleton_self c⟩
  | bare name => exact lacks.getD name inside
  | braced before name after => exact lacks.getD name inside

end Store

/-! ## Reading a line -/

namespace Invocation

/-- None of the texts has the character. -/
def Lacks (c : Char) (i : Invocation) : Prop := ∀ text ∈ i.texts, c ∉ text

variable {i : Invocation}

theorem Lacks.addArg (lacks : i.Lacks c) {arg : Text} (absent : c ∉ arg) :
    (i.addArg arg).Lacks c := by
  intro text member
  have origin : text = arg ∨ text ∈ i.texts := by
    simp only [texts, argv, Invocation.addArg, List.cons_append, List.mem_cons, List.mem_append,
      List.not_mem_nil, or_false] at member ⊢
    tauto
  rcases origin with rfl | mine
  · exact absent
  · exact lacks text mine

theorem Lacks.redirect (lacks : i.Lacks c) (stream : Redirect) {target : Text}
    (absent : c ∉ target) : (i.redirect stream target).Lacks c := by
  intro text member
  have origin : text = target ∨ text ∈ i.texts := by
    cases stream <;>
      simp only [texts, argv, Invocation.redirect, List.cons_append, List.mem_cons,
        List.mem_append, Option.toList_some, List.not_mem_nil, or_false] at member ⊢ <;>
      tauto
  rcases origin with rfl | mine
  · exact absent
  · exact lacks text mine

theorem Lacks.target (lacks : i.Lacks c) {stream : Redirect} {path : Text}
    (target : i.target? stream = some path) : c ∉ path := by
  apply lacks
  cases stream <;> simp [texts, ← target, target?]

end Invocation

namespace Chain

/-- None of the texts of the invocations has the character. -/
def Lacks (c : Char) (chain : Chain) : Prop := ∀ link ∈ chain, link.invocation.Lacks c

def Expect.Lacks (c : Char) : Expect → Prop
  | .command => True
  | .more i | .target _ i => i.Lacks c

variable {store : Store}

theorem lacks_parseFrom {expect : Expect} {tokens : List Token} {chain : Chain}
    (lacks : store.Lacks c) (expected : expect.Lacks c) (values : ∀ token ∈ tokens, c ∉ token.value)
    (read : parseFrom store expect tokens = .ok chain) : chain.Lacks c := by
  fun_induction parseFrom store expect tokens generalizing chain with
  | case1 i =>
    obtain rfl := Except.ok.inj read
    intro link member
    rw [List.mem_singleton.1 member]
    exact expected
  | case2 | case3 | case4 | case6 | case8 => contradiction
  | case5 token rest _ _ ih =>
    obtain ⟨here, later⟩ := List.forall_mem_cons.1 values
    refine ih ?_ later read
    intro text member
    rw [List.mem_singleton.1 member]
    exact lacks.expand here
  | case7 stream i token rest _ ih =>
    obtain ⟨here, later⟩ := List.forall_mem_cons.1 values
    exact ih (expected.redirect stream (lacks.expand here)) later read
  | case9 i token rest _ ih =>
    obtain ⟨here, later⟩ := List.forall_mem_cons.1 values
    exact ih (expected.addArg (lacks.expand here)) later read
  | case10 i token rest stream _ ih =>
    exact ih expected (List.forall_mem_cons.1 values).2 read
  | case11 i token rest operator _ ih =>
    cases others : parseFrom store .command rest with
    | error error =>
      rw [others] at read
      contradiction
    | ok links =>
      rw [others] at read
      obtain rfl := Except.ok.inj read
      have later := ih trivial (List.forall_mem_cons.1 values).2 others
      exact List.forall_mem_cons.2 ⟨expected, later⟩

theorem notMem_value {line : Text} (absent : c ∉ line) :
    ∀ token ∈ Token.ofLine line, c ∉ token.value := by
  intro token member inside
  exact absent ((Token.scans_scan Token.Kind.all line).mem_of_mem_value token member c inside)

theorem lacks_ofLine {line : Text} {chain : Chain} (lacks : store.Lacks c) (absent : c ∉ line)
    (read : ofLine store line = .ok chain) : chain.Lacks c := by
  have nothing : Expect.Lacks c .command := trivial
  exact lacks_parseFrom lacks nothing (notMem_value absent) read

/-- The error of a line that says no chain quotes a token of the line, or nothing. -/
theorem lacks_of_unread {line : Text} {error : ShellError} (absent : c ∉ line)
    (unread : ofLine store line = .error error) : ∀ text ∈ error.quoted, c ∉ text := by
  cases offence_of_ofTokens unread with
  | @atToken before after token split =>
    have inToken := notMem_value absent token (by rw [split]; simp)
    have quotes : token.offence.quoted = [token.value] := by
      rw [Token.offence]
      split <;> rfl
    rw [quotes]
    simpa using inToken
  | atEnd => simp [ShellError.quoted]

end Chain

/-! ## Running a chain -/

/-- The machine has no error that tells the character. -/
def Host.Lacks (c : Char) (h : Host) : Prop :=
  ∀ demand error, h.Refuses error demand → error.Lacks c

/-- The paths that are opened, and the command and the arguments of a process, lack the
character. -/
def Action.Lacks (c : Char) : Action → Prop
  | opened _ path _ | openFailed _ path => c ∉ path
  | started _ argv _ | startFailed argv _ => ∀ text ∈ argv, c ∉ text
  | _ => True

namespace Host

variable {h h' : Host}

theorem lacks_of_entries (breaks : Text.isLineBreak c = true)
    (openings : ∀ entry ∈ h.openErrors, entry.2.Lacks c)
    (starts : ∀ entry ∈ h.programs, ∀ error, .fails error ∈ entry.2 → error.Lacks c) :
    h.Lacks c := by
  have missing : OsError.notFound.Lacks c :=
    Text.notMem_of_any breaks (t := "No such file or directory".toList) rfl
  exact fun demand error refused => holds_of_refuses missing openings starts refused

theorem Lacks.congr (lacks : h.Lacks c) (programs : h'.programs = h.programs)
    (openErrors : h'.openErrors = h.openErrors) : h'.Lacks c := fun demand error refused =>
  lacks demand error ((refuses_congr programs openErrors).1 refused)

theorem Lacks.attempted (lacks : h.Lacks c) (program : Text) : (h.attempted program).Lacks c := by
  intro demand error refused
  obtain ⟨before, refusedBefore⟩ := exists_refuses_of_attempted refused
  exact lacks before error refusedBefore

end Host

namespace Chain

theorem lacks_sessionAfter {s : Session} (lacks : s.host.Lacks c) (stages : List Stage) :
    (sessionAfter s stages).host.Lacks c := by
  induction stages generalizing s with
  | nil => exact lacks
  | cons stage rest ih =>
    refine ih (Stage.host_after ?_ ?_ lacks stage)
    · exact fun _ program lacks => lacks.attempted program
    · exact fun _ _ _ lacks => lacks.congr rfl rfl

theorem lacks_host_run (chain : Chain) {s : Session} (lacks : s.host.Lacks c) :
    (chain.run s).session.host.Lacks c := by
  rw [run_eq]
  exact lacks_sessionAfter lacks (chain.stages s)

variable {chain : Chain} {s : Session}

/-- What is opened is a target of the chain, and what is started an invocation of it. -/
theorem lacks_action_run (lacks : chain.Lacks c) {action : Action}
    (member : action ∈ (chain.run s).actions) : action.Lacks c := by
  obtain ⟨before, after, cut⟩ := List.append_of_mem member
  have path {mode : OpenMode} {path : Text} (opens : action.opening? = some (mode, path)) :
      c ∉ path := by
    obtain ⟨link, stream, atPlace, target, -⟩ := opening_run cut opens
    exact (lacks link (List.mem_of_getElem? atPlace)).target target
  have argv {argv : List Text} {streams : Streams}
      (tries : action.command? = some (argv, streams)) : ∀ text ∈ argv, c ∉ text := by
    obtain ⟨link, files, wired⟩ := wiredAttempt_run cut tries
    rw [wired.command]
    intro text inside
    exact lacks link (List.mem_of_getElem? wired.atPlace) text (List.mem_append_left _ inside)
  cases action with
  | opened mode other handle => exact path rfl
  | openFailed mode other => exact path rfl
  | started pid other streams => exact argv rfl
  | startFailed other streams => exact argv rfl
  | _ => trivial

/-- The error that ends a run quotes a target or a command of the chain, and what the machine says
of its error. -/
theorem lacks_of_failed (breaks : Text.isLineBreak c = true) (lacks : chain.Lacks c)
    (host : s.host.Lacks c) {error : ShellError}
    (failed : (chain.run s).result = .error (.shell error)) : ∀ text ∈ error.quoted, c ∉ text := by
  rw [run_eq] at failed
  obtain ⟨stage, member, verdict⟩ := exists_stage_of_error failed
  obtain ⟨earlier, later, cut⟩ := List.append_of_mem member
  obtain ⟨-, atPlace, met⟩ := stagesFrom_cut cut
  have mine := lacks stage.link (List.mem_of_getElem? atPlace)
  have told (demand : Demand) {error : OsError} (reported : error.isReport = true)
      (refused : (sessionAfter s earlier).host.Refuses error demand) : c ∉ error.reason :=
    (lacks_sessionAfter host earlier demand error refused).tells breaks
      (OsError.tells_reason reported)
  have launched : stage.launched = .error (.shell error) := by
    rcases Stage.verdict_error_cases verdict with launched | ⟨interrupted, -⟩
    · exact launched
    · contradiction
  rw [Stage.launched] at launched
  cases ending : stage.ending with
  | started child =>
    rw [ending] at launched
    contradiction
  | refused redirect error =>
    rw [ending] at launched
    obtain ⟨reported, rfl⟩ := OsError.fault_eq_shell_iff.1 (Except.error.inj launched)
    rw [met] at ending
    have target := Invocation.target?_of_mem_openings (Stage.mem_openings (.inr ⟨error, ending⟩))
    have reason := told (.opening redirect.2) reported
      (Opening.lookup_of_refused (Stage.refused_of ending))
    exact List.forall_mem_cons.2 ⟨mine.target target.1, by simpa using reason⟩
  | failed error =>
    rw [ending] at launched
    obtain ⟨reported, rfl⟩ := OsError.fault_eq_shell_iff.1 (Except.error.inj launched)
    rw [met] at ending
    have reason := told (.start stage.link.invocation.executable 0) reported
      ((Host.outcomeAt_zero _ _).trans (Stage.failed_of ending).1)
    have command := mine stage.link.invocation.executable List.mem_cons_self
    refine List.forall_mem_cons.2 ⟨command, ?_⟩
    split
    · simp
    · simpa using reason

end Chain

end ChainShell
