/-
# ChainShell.Proofs.Key.Signals — the pieces of what is typed, and which of them are hostile

What a terminal delivers is a row of signals: characters, escape keys and escape sequences.
`Held.cutAll` cuts a text into its signals, and never fails: what is held and the text are
the signals one after the other and what is held then (`text_cutAll`), and each sequence
ends as soon as it may (`proper_cutAll`).  A signal names a key event or none
(`Signal.event?`), and reading a text is cutting it and taking the events of its signals
(`run_of_harmless`).

Reading fails only at a signal that is hostile (`Signal.Hostile`): a control sequence that
names a key, with a parameter for the modifiers that is made of digits and is no numeral,
since one of the digits is not decimal or they are too many (`run_of_hostile`).

`performAll_signals` says so for every sequence of calls of a decoder, and for the
interactive shell.
-/
import ChainShell.Proofs.Faults
import ChainShell.Proofs.Key.Stream
import ChainShell.Proofs.Text.Numeral
import Mathlib.Data.List.DropRight

set_option autoImplicit false

namespace ChainShell

open Held (arrow? hasControl isFinal fields plainEvent)

/-- A piece of what is typed. -/
inductive Signal where
  /-- A character other than the escape character. -/
  | plain (c : Char)
  /-- The escape character alone. -/
  | escape
  | single (final : Char)
  | control (parameters : Text) (final : Char)
  deriving DecidableEq, Repr

/-- A row of digits that is no numeral: not all of them are decimal, or they are too many. -/
def Text.Unreadable (t : Text) : Prop :=
  t ≠ [] ∧ (∀ c ∈ t, isDigit c = true) ∧ ((∃ c ∈ t, isDecimal c = false) ∨ maxDigits < t.length)

namespace Signal

def text : Signal → Text
  | plain c => [c]
  | escape => [escapeChar]
  | single final => [escapeChar, 'O', final]
  | control parameters final => escapeChar :: '[' :: parameters ++ [final]

/-- The first final character of a control sequence ends it. -/
def Proper : Signal → Prop
  | plain c => c ≠ escapeChar
  | control parameters final => (∀ c ∈ parameters, isFinal c = false) ∧ isFinal final = true
  | _ => True

/-- The parameters of a control sequence. -/
def parameters : Signal → List Text
  | control parameters _ => parameters.splitOn ';'
  | _ => []

/-- The key that a sequence names. -/
def key? : Signal → Option Key
  | single final => arrow? final
  | control parameters final =>
    (arrow? final).or
      (if final = '~' ∧ (parameters.splitOn ';').head? = some ['3'] then some .delete else none)
  | _ => none

/-- Whether the second parameter is made of digits and says that control was held. -/
def hasControl (signal : Signal) : Bool :=
  signal.parameters[1]?.any fun parameter =>
    parameter ≠ [] && parameter.all Text.isDigit && Held.hasControl (Text.digitsValue parameter)

def event? : Signal → Option KeyEvent
  | plain c => some (plainEvent c)
  | escape => some (.key .escape false)
  | single final => (arrow? final).map fun key => .key key false
  | control parameters final =>
    (control parameters final).key?.map fun key => .key key (control parameters final).hasControl

/-- A sequence that names a key, with a row of digits for its modifiers that is no numeral. -/
def Hostile (signal : Signal) : Prop :=
  signal.key?.isSome ∧ ∃ parameter ∈ signal.parameters[1]?, Text.Unreadable parameter

end Signal

namespace Held

/-- The signals that a character completes, and what is held after it. -/
def cut : Held → Char → List Signal × Held
  | nothing, c => if c = escapeChar then ([], escape) else ([.plain c], nothing)
  | escape, c =>
    if c = 'O' then ([], single)
    else if c = '[' then ([], control [])
    else if c = escapeChar then ([.escape], escape)
    else ([.escape, .plain c], nothing)
  | single, c => ([.single c], nothing)
  | control reversed, c =>
    if isFinal c then ([.control reversed.reverse c], nothing) else ([], control (c :: reversed))

/-- The signals that a text completes, and what is held after it. -/
def cutAll : Held → Text → List Signal × Held
  | held, [] => ([], held)
  | held, c :: rest =>
    let now := cut held c
    let later := cutAll now.2 rest
    (now.1 ++ later.1, later.2)

theorem text_cut (held : Held) (c : Char) :
    (cut held c).1.flatMap Signal.text ++ (cut held c).2.text = held.text ++ [c] := by
  cases held with
  | nothing =>
    by_cases isEscape : c = escapeChar
    · simp [cut, isEscape, text]
    · simp [cut, isEscape, text, Signal.text]
  | escape =>
    by_cases isSingle : c = 'O'
    · simp [cut, isSingle, text]
    · by_cases isControl : c = '['
      · simp [cut, isControl, text]
      · by_cases isEscape : c = escapeChar
        · simp [cut, isEscape, text, Signal.text, escapeChar]
        · simp [cut, isSingle, isControl, isEscape, text, Signal.text]
  | single => simp [cut, text, Signal.text]
  | control reversed =>
    by_cases ends : isFinal c = true
    · simp [cut, ends, text, Signal.text]
    · simp [cut, ends, text]

/-- Nothing of a text is lost in cutting it. -/
theorem text_cutAll (held : Held) (t : Text) :
    (cutAll held t).1.flatMap Signal.text ++ (cutAll held t).2.text = held.text ++ t := by
  induction t generalizing held with
  | nil => simp [cutAll]
  | cons c rest ih =>
    have now := text_cut held c
    rw [cutAll, List.flatMap_append, List.append_assoc, ih, ← List.append_assoc, now]
    simp

/-- The characters that are held of a control sequence do not end it. -/
def Proper : Held → Prop
  | control reversed => ∀ c ∈ reversed, isFinal c = false
  | _ => True

theorem proper_cut {held : Held} (proper : held.Proper) (c : Char) :
    (∀ signal ∈ (cut held c).1, signal.Proper) ∧ (cut held c).2.Proper := by
  cases held with
  | nothing =>
    by_cases isEscape : c = escapeChar <;> simp [cut, isEscape, Signal.Proper, Proper]
  | escape =>
    by_cases isSingle : c = 'O'
    · simp [cut, isSingle, Proper]
    · by_cases isControl : c = '['
      · simp [cut, isControl, Proper]
      · by_cases isEscape : c = escapeChar
        · simp [cut, isEscape, Signal.Proper, Proper, escapeChar]
        · simp [cut, isSingle, isControl, isEscape, Signal.Proper, Proper]
  | single => simp [cut, Signal.Proper, Proper]
  | control reversed =>
    have inside : ∀ c ∈ reversed, isFinal c = false := proper
    by_cases ends : isFinal c = true
    · simpa [cut, ends, Signal.Proper, Proper] using inside
    · simpa [cut, ends, Proper] using inside

/-- A text is cut at the first characters that may end its sequences. -/
theorem proper_cutAll {held : Held} (proper : held.Proper) (t : Text) :
    (∀ signal ∈ (cutAll held t).1, signal.Proper) ∧ (cutAll held t).2.Proper := by
  induction t generalizing held with
  | nil => exact ⟨by simp [cutAll], proper⟩
  | cons c rest ih =>
    obtain ⟨here, after⟩ := proper_cut proper c
    obtain ⟨there, last⟩ := ih after
    refine ⟨fun signal member => ?_, last⟩
    rcases List.mem_append.1 member with first | later
    · exact here signal first
    · exact there signal later

/-! ## Events -/

theorem fields_eq_splitOn (t : Text) : fields t = t.splitOn ';' := by
  induction t with
  | nil => rfl
  | cons c rest ih =>
    obtain ⟨first, others, split⟩ := List.exists_cons_of_ne_nil (List.splitOn_ne_nil ';' rest)
    rw [fields, ih, split, List.splitOn_eq_splitOnP, List.splitOnP_cons_eq_if_modifyHead,
      ← List.splitOn_eq_splitOnP, split]
    by_cases separates : c = ';'
    · simp [separates]
    · simp [separates, Text.consFirst]

section

variable {parameters : Text}

theorem modifier_of_harmless (final : Char)
    (harmless : ∀ parameter ∈ (parameters.splitOn ';')[1]?, ¬ Text.Unreadable parameter) :
    modifier (fields parameters) = .ok (Signal.hasControl (.control parameters final)) := by
  rw [Signal.hasControl, Signal.parameters, fields_eq_splitOn]
  rcases split : parameters.splitOn ';' with _ | ⟨first, _ | ⟨second, rest⟩⟩
  · rfl
  · rfl
  · have readable := harmless second (by simp [split])
    simp only [modifier, List.getElem?_cons_succ, List.getElem?_cons_zero, Option.any_some]
    by_cases digits : second ≠ [] ∧ second.all Text.isDigit = true
    · rw [if_pos digits]
      have ⟨present, all⟩ := digits
      have all' : ∀ c ∈ second, Text.isDigit c = true := List.all_eq_true.1 all
      have decimal : ∀ c ∈ second, Text.isDecimal c = true := by
        intro c member
        by_contra other
        exact readable ⟨present, all', .inl ⟨c, member, by simpa using other⟩⟩
      have short : second.length ≤ Text.maxDigits := by
        by_contra long
        exact readable ⟨present, all', .inr (Nat.lt_of_not_le long)⟩
      rw [Text.numeral_of_readable decimal short]
      simp [Except.map, present, all]
    · rw [if_neg digits]
      rcases not_and_or.1 digits with absent | other
      · simp [not_not.1 absent]
      · simp [other]

theorem modifier_of_hostile {parameter : Text} (second : parameter ∈ (parameters.splitOn ';')[1]?)
    (unreadable : Text.Unreadable parameter) : ∃ e, modifier (fields parameters) = .error e := by
  rw [fields_eq_splitOn]
  rcases split : parameters.splitOn ';' with _ | ⟨first, _ | ⟨other, rest⟩⟩
  · simp [split] at second
  · simp [split] at second
  · obtain rfl : other = parameter := by simpa [split] using second
    obtain ⟨present, digits, unlike⟩ := unreadable
    obtain ⟨e, failed⟩ := Text.numeral_of_unreadable unlike
    refine ⟨e, ?_⟩
    rw [modifier, if_pos ⟨present, List.all_eq_true.2 digits⟩, failed]
    rfl

theorem sequenceEvent_eq (parameters : Text) (final : Char) :
    sequenceEvent parameters final =
      match (Signal.control parameters final).key? with
      | some key => (modifier (fields parameters)).map fun control => some (.key key control)
      | none => .ok none := by
  rw [sequenceEvent, Signal.key?, ← fields_eq_splitOn]
  cases arrow? final <;> rfl

end

/-- The event of a sequence is that of its signal, unless the signal is hostile. -/
theorem sequenceEvent_of_harmless {parameters : Text} {final : Char}
    (harmless : ¬ Signal.Hostile (.control parameters final)) :
    sequenceEvent parameters final = .ok (Signal.event? (.control parameters final)) := by
  rw [sequenceEvent_eq, Signal.event?]
  cases named : (Signal.control parameters final).key? with
  | none => rfl
  | some key =>
    have readable := modifier_of_harmless final fun parameter second unreadable =>
      harmless ⟨by rw [named]; rfl, parameter, second, unreadable⟩
    simp only [readable]
    rfl

theorem sequenceEvent_of_hostile {parameters : Text} {final : Char}
    (hostile : Signal.Hostile (.control parameters final)) :
    ∃ e, sequenceEvent parameters final = .error e := by
  obtain ⟨named, parameter, second, unreadable⟩ := hostile
  obtain ⟨key, named⟩ := Option.isSome_iff_exists.1 named
  obtain ⟨e, failed⟩ := modifier_of_hostile second unreadable
  exact ⟨e, by rw [sequenceEvent_eq, named, failed]; rfl⟩

/-! ## Reading -/

theorem step_of_harmless {held : Held} {c : Char}
    (harmless : ∀ signal ∈ (cut held c).1, ¬ signal.Hostile) :
    step held c = .ok ((cut held c).1.filterMap Signal.event?, (cut held c).2) := by
  cases held with
  | nothing =>
    by_cases isEscape : c = escapeChar
    · simp [step, ground, cut, isEscape]
    · simp [step, ground, cut, isEscape, Signal.event?]
  | escape =>
    by_cases isSingle : c = 'O'
    · simp [step, cut, isSingle]
    · by_cases isControl : c = '['
      · simp [step, cut, isControl]
      · by_cases isEscape : c = escapeChar
        · simp [step, ground, cut, isEscape, Signal.event?, escapeChar]
        · simp [step, ground, cut, isSingle, isControl, isEscape, Signal.event?]
  | single =>
    cases named : arrow? c <;> simp [step, cut, named, Signal.event?]
  | control reversed =>
    by_cases ends : isFinal c = true
    · simp only [cut, ends, if_true, List.mem_singleton, forall_eq] at harmless
      simp only [step, cut, ends, if_true, sequenceEvent_of_harmless harmless]
      cases named : Signal.event? (.control reversed.reverse c) <;> simp [Except.map, named]
    · simp [step, cut, ends]

theorem step_of_hostile {held : Held} {c : Char} {signal : Signal}
    (completed : signal ∈ (cut held c).1) (hostile : signal.Hostile) :
    ∃ e, step held c = .error e := by
  cases held with
  | control reversed =>
    by_cases ends : isFinal c = true
    · simp only [cut, ends, if_true, List.mem_singleton] at completed
      subst completed
      obtain ⟨e, failed⟩ := sequenceEvent_of_hostile hostile
      exact ⟨e, by rw [step, if_pos ends, failed]; rfl⟩
    · simp [cut, ends] at completed
  | _ =>
    obtain ⟨named, parameter, second, -⟩ := hostile
    cases signal with
    | control parameters final =>
      simp only [cut] at completed
      repeat' split at completed
      all_goals simp at completed
    | _ => simp [Signal.parameters] at second

/-- Reading a text whose signals are harmless gives their events. -/
theorem run_of_harmless {held : Held} {t : Text}
    (harmless : ∀ signal ∈ (cutAll held t).1, ¬ signal.Hostile) :
    run held t = .ok ((cutAll held t).1.filterMap Signal.event?, (cutAll held t).2) := by
  induction t generalizing held with
  | nil => rfl
  | cons c rest ih =>
    rw [cutAll] at harmless
    have here := step_of_harmless fun signal member =>
      harmless signal (List.mem_append_left _ member)
    have later := ih fun signal member => harmless signal (List.mem_append_right _ member)
    rw [run, here]
    simp only [bind, Except.bind, later, cutAll, List.filterMap_append]
    rfl

/-- Reading a text fails if one of its signals is hostile. -/
theorem run_of_hostile {held : Held} {t : Text} {signal : Signal}
    (member : signal ∈ (cutAll held t).1) (hostile : signal.Hostile) :
    ∃ e, run held t = .error e := by
  induction t generalizing held with
  | nil => contradiction
  | cons c rest ih =>
    by_cases here : ∃ signal ∈ (cut held c).1, signal.Hostile
    · obtain ⟨first, completed, hostile⟩ := here
      obtain ⟨e, failed⟩ := step_of_hostile completed hostile
      exact ⟨e, by rw [run, failed]; rfl⟩
    · have harmless : ∀ signal ∈ (cut held c).1, ¬ signal.Hostile :=
        fun signal completed hostile => here ⟨signal, completed, hostile⟩
      rw [cutAll] at member
      rcases List.mem_append.1 member with completed | later
      · exact absurd hostile (harmless signal completed)
      · obtain ⟨e, failed⟩ := ih later
        refine ⟨e, ?_⟩
        rw [run, step_of_harmless harmless]
        simp only [bind, Except.bind, failed]

end Held

/-! ## Calls -/

namespace Decoder

/-- A call of a decoder. -/
inductive Call where
  | feed (bytes : List UInt8)
  | flush
  deriving DecidableEq, Repr

def perform (d : Decoder) : Call → Except NumeralError (List KeyEvent) × Decoder
  | .feed bytes => d.feed bytes
  | .flush => (.ok d.flush.1, d.flush.2)

/-- The answers to a sequence of calls; after an error the decoder goes on. -/
def performAll : Decoder → List Call → List (Except NumeralError (List KeyEvent))
  | _, [] => []
  | d, call :: rest => (d.perform call).1 :: (d.perform call).2.performAll rest

/-- The signals that a call completes, and what the decoder holds after it; a lone escape character
that is given up on is one. -/
def cut (d : Decoder) : Call → List Signal × Decoder
  | .feed bytes =>
    let decoded := Utf8.decodeReplacing d.utf8 bytes
    let cut := d.held.cutAll decoded.1
    (cut.1, { utf8 := decoded.2, held := cut.2 })
  | .flush => (if d.held = .escape then [.escape] else [], { d with held := .nothing })

/-- The signals that each of the calls completes. -/
def signals : Decoder → List Call → List (List Signal)
  | _, [] => []
  | d, call :: rest => (d.cut call).1 :: (d.cut call).2.signals rest

theorem perform_of_harmless {d : Decoder} {call : Call}
    (harmless : ∀ signal ∈ (d.cut call).1, ¬ signal.Hostile) :
    d.perform call = (.ok ((d.cut call).1.filterMap Signal.event?), (d.cut call).2) := by
  cases call with
  | flush =>
    by_cases lone : d.held = .escape
    · simp [perform, flush, cut, lone, Signal.event?]
    · simp [perform, flush, cut, lone]
  | feed bytes =>
    have read := Held.run_of_harmless harmless
    simp only [perform, feed, cut, read]

theorem perform_of_hostile {d : Decoder} {call : Call} {signal : Signal}
    (member : signal ∈ (d.cut call).1) (hostile : signal.Hostile) :
    ∃ e, (d.perform call).1 = .error e := by
  cases call with
  | flush =>
    have lone : signal = .escape := by
      simp only [cut] at member
      split at member <;> simp_all
    simp [lone, Signal.Hostile, Signal.key?] at hostile
  | feed bytes =>
    obtain ⟨e, failed⟩ := Held.run_of_hostile member hostile
    exact ⟨e, by simp only [perform, feed, failed]⟩

theorem performAll_of_harmless {d : Decoder} {calls : List Call}
    (harmless : ∀ signal ∈ (d.signals calls).flatten, ¬ signal.Hostile) :
    d.performAll calls =
      (d.signals calls).map fun signals => .ok (signals.filterMap Signal.event?) := by
  induction calls generalizing d with
  | nil => rfl
  | cons call rest ih =>
    rw [signals, List.flatten_cons] at harmless
    have here := perform_of_harmless fun signal member =>
      harmless signal (List.mem_append_left _ member)
    have later := ih fun signal member => harmless signal (List.mem_append_right _ member)
    rw [performAll, here, later, signals, List.map_cons]

/-- If a call fails, a signal was hostile. -/
theorem exists_hostile_of_error {d : Decoder} {calls : List Call} {e : NumeralError}
    (failed : .error e ∈ d.performAll calls) :
    ∃ signal ∈ (d.signals calls).flatten, signal.Hostile := by
  by_contra none
  have harmless : ∀ signal ∈ (d.signals calls).flatten, ¬ signal.Hostile :=
    fun signal member hostile => none ⟨signal, member, hostile⟩
  rw [performAll_of_harmless harmless] at failed
  simp at failed

theorem performAll_of_hostile {d : Decoder} {calls : List Call} {signal : Signal}
    (member : signal ∈ (d.signals calls).flatten) (hostile : signal.Hostile) :
    ∃ e, .error e ∈ d.performAll calls := by
  induction calls generalizing d with
  | nil => contradiction
  | cons call rest ih =>
    by_cases here : ∃ signal ∈ (d.cut call).1, signal.Hostile
    · obtain ⟨first, completed, hostile⟩ := here
      obtain ⟨e, failed⟩ := perform_of_hostile completed hostile
      exact ⟨e, by rw [performAll, failed]; exact List.mem_cons_self⟩
    · have harmless : ∀ signal ∈ (d.cut call).1, ¬ signal.Hostile :=
        fun signal completed hostile => here ⟨signal, completed, hostile⟩
      rw [signals, List.flatten_cons] at member
      rcases List.mem_append.1 member with completed | later
      · exact absurd hostile (harmless signal completed)
      · obtain ⟨e, failed⟩ := ih later
        refine ⟨e, ?_⟩
        rw [performAll, perform_of_harmless harmless]
        exact List.mem_cons_of_mem _ failed

end Decoder

/-! ## The interactive shell -/

/-- The calls that reads are good for, if each fits into one portion. -/
def Read.calls : List Read → List Decoder.Call
  | [] | .chunk [] :: _ => [.flush]
  | .pause :: rest => .flush :: calls rest
  | .chunk (b :: bytes) :: rest => .feed (b :: bytes) :: calls rest

/-- Only a failed call ends the events of a terminal. -/
theorem Decoder.mem_performAll_of_fault {d : Decoder} {reads : List Read} {e : NumeralError}
    (fault : (d.readPortions reads).fault = some e) :
    .error e ∈ d.performAll (Read.calls reads) := by
  induction reads generalizing d with
  | nil => simp [readPortions] at fault
  | cons read rest ih =>
    cases read with
    | pause =>
      have later : ((d.flush.2).readPortions rest).fault = some e := by
        rw [readPortions] at fault
        split at fault
        · exact fault
        · rename_i idle
          have same : d.flush.2 = d := by
            obtain ⟨utf8, held⟩ := d
            have nothing : held = .nothing := by simpa [pending] using idle
            rw [nothing]
            rfl
          rwa [same]
      exact List.mem_cons_of_mem _ (ih later)
    | chunk bytes =>
      cases bytes with
      | nil => simp [readPortions] at fault
      | cons b bytes =>
        rw [readPortions] at fault
        rw [Read.calls, performAll, perform]
        rcases fed : d.feed (b :: bytes) with ⟨e' | events, next⟩
        · simp only [fed] at fault
          obtain rfl := Option.some.inj fault
          exact List.mem_cons_self
        · simp only [fed] at fault
          exact List.mem_cons_of_mem _ (ih fault)

/-- Without a hostile signal no call of a decoder fails, each gives the events of its signals, and
the signals that name no event are dropped; with one, some call fails.  So if the decoder ends the
interactive shell, one of the signals was hostile. -/
theorem Decoder.performAll_signals (d : Decoder) (calls : List Call) :
    ((∃ e, .error e ∈ d.performAll calls) ↔
        ∃ signal ∈ (d.signals calls).flatten, signal.Hostile) ∧
      ((∀ signal ∈ (d.signals calls).flatten, ¬ signal.Hostile) →
        d.performAll calls =
          (d.signals calls).map fun signals => .ok (signals.filterMap Signal.event?)) ∧
      ∀ marker reads s e, (Console.run marker (.ofReads reads) s).result = .error (.key e) →
        ∃ signal ∈ (Decoder.signals {} (Read.calls (Read.portioned reads))).flatten,
          signal.Hostile := by
  refine ⟨⟨fun ⟨e, failed⟩ => exists_hostile_of_error failed, ?_⟩, performAll_of_harmless, ?_⟩
  · rintro ⟨signal, member, hostile⟩
    exact performAll_of_hostile member hostile
  · intro marker reads s e ended
    cases fault : (KeyStream.ofReads reads).fault with
    | some e' => exact exists_hostile_of_error (mem_performAll_of_fault fault)
    | none =>
      rw [Console.run, fault] at ended
      have broken := (Activity.confined_runEvents marker _).faults s _ s.host.keeps_nothing ended
      contradiction

/-- A superscript two is a digit, but not a decimal one: an arrow with it for its modifiers ends
both the call and the shell. -/
theorem Decoder.performAll_superscript :
    let bytes : List UInt8 := [0x1B, 0x5B, 0x31, 0x3B, 0xC2, 0xB2, 0x41]
    Decoder.performAll {} [.feed bytes] = [.error (.invalid ['²'])] ∧
      (Console.run ⟨[], 0⟩ (.ofReads [.chunk bytes]) {}).result =
        .error (.key (.invalid ['²'])) := by
  intro bytes
  have failed : Decoder.feed {} bytes = (.error (.invalid ['²']), {}) := by decide +kernel
  have stream : KeyStream.ofReads [.chunk bytes] = ⟨[], some (.invalid ['²'])⟩ := by
    have short : portions bytes = [bytes] := portions_of_short (by decide)
    simp only [KeyStream.ofReads, Read.portioned, List.flatMap_singleton, short, List.map_singleton]
    rw [readPortions, failed]
  refine ⟨?_, ?_⟩
  · rw [performAll, perform, failed]
    rfl
  · rw [stream]
    rfl

end ChainShell
