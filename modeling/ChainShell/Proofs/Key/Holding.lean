/-
# ChainShell.Proofs.Key.Holding — what a decoder holds back

Characters that have been read are signals, one after the other, and the beginning of a signal
that is not complete (`Cuts`).  A beginning can only be that of an escape sequence
(`Unfinished`): the escape character alone, with `O`, or with `[` and characters that do not
complete it.  A text is cut in one way only, and that is how the machine of the decoder cuts it
(`cuts_iff`).

The bytes that are fed to a decoder are one stream for its characters, in which neither chunks
nor flushes show (`utf8_after`).  A flush settles the characters before it.  So what counts
after a sequence of calls are the characters since the last flush (`Call.unsettled`), and
`performAll_holds` says, for calls without an error, that the decoder holds the beginning that
they end with, and that all before it are signals whose events are the answers; and what a flush
makes of that.
-/
import ChainShell.Proofs.Key.Signals
import ChainShell.Proofs.Text.Utf8

set_option autoImplicit false

namespace ChainShell

open Held (isFinal cutAll)

/-! ## How a text is cut -/

/-- A character that completes a control sequence: one from `@` to `~`. -/
def Completes (c : Char) : Prop := 0x40 ≤ c.toNat ∧ c.toNat ≤ 0x7E

theorem isFinal_iff {c : Char} : isFinal c = true ↔ Completes c := by
  simp [isFinal, Completes]

theorem not_isFinal_iff {c : Char} : isFinal c = false ↔ ¬ Completes c := by
  rw [← isFinal_iff, Bool.not_eq_true]

/-- Nothing, or the beginning of an escape sequence that more characters can complete. -/
inductive Unfinished : Text → Prop where
  | nothing : Unfinished []
  | escape : Unfinished [escapeChar]
  | single : Unfinished [escapeChar, 'O']
  | control {parameters : Text} (inside : ∀ c ∈ parameters, ¬ Completes c) :
    Unfinished (escapeChar :: '[' :: parameters)

/-- A text is a row of signals and, after them, the beginning of one that is not complete. -/
inductive Cuts : Text → List Signal → Text → Prop where
  | held {rest : Text} (unfinished : Unfinished rest) : Cuts rest [] rest
  | plain {c : Char} {t rest : Text} {signals : List Signal} (other : c ≠ escapeChar)
      (goesOn : Cuts t signals rest) :
    Cuts (c :: t) (.plain c :: signals) rest
  | escape {c : Char} {t rest : Text} {signals : List Signal} (alone : c ≠ '[' ∧ c ≠ 'O')
      (goesOn : Cuts (c :: t) signals rest) :
    Cuts (escapeChar :: c :: t) (.escape :: signals) rest
  | single {final : Char} {t rest : Text} {signals : List Signal} (goesOn : Cuts t signals rest) :
    Cuts (escapeChar :: 'O' :: final :: t) (.single final :: signals) rest
  | control {parameters t rest : Text} {final : Char} {signals : List Signal}
      (inside : ∀ c ∈ parameters, ¬ Completes c) (ends : Completes final)
      (goesOn : Cuts t signals rest) :
    Cuts (escapeChar :: '[' :: (parameters ++ final :: t)) (.control parameters final :: signals)
      rest

namespace Held

theorem unfinished_text {held : Held} (proper : held.Proper) : Unfinished held.text := by
  cases held with
  | nothing => exact .nothing
  | escape => exact .escape
  | single => exact .single
  | control reversed =>
    refine .control fun c member => not_isFinal_iff.1 ?_
    exact proper c (List.mem_reverse.1 member)

/-- The machine cuts what it holds and a text after it. -/
theorem cuts_cutAll {held : Held} (proper : held.Proper) (t : Text) :
    Cuts (held.text ++ t) (cutAll held t).1 (cutAll held t).2.text := by
  induction t generalizing held with
  | nil =>
    rw [List.append_nil]
    exact .held (unfinished_text proper)
  | cons c t ih =>
    have goesOn := ih (proper_cut proper c).2
    rw [cutAll]
    cases held with
    | nothing =>
      by_cases isEscape : c = escapeChar
      · subst isEscape
        exact goesOn
      · simp only [cut, if_neg isEscape] at goesOn ⊢
        exact .plain isEscape goesOn
    | escape =>
      by_cases isSingle : c = 'O'
      · subst isSingle
        exact goesOn
      · by_cases isControl : c = '['
        · subst isControl
          exact goesOn
        · by_cases isEscape : c = escapeChar
          · simp only [cut, if_neg isSingle, if_neg isControl, if_pos isEscape] at goesOn ⊢
            subst isEscape
            exact .escape ⟨isControl, isSingle⟩ goesOn
          · simp only [cut, if_neg isSingle, if_neg isControl, if_neg isEscape] at goesOn ⊢
            exact .escape ⟨isControl, isSingle⟩ (.plain isEscape goesOn)
    | single => exact .single goesOn
    | control reversed =>
      by_cases ends : isFinal c = true
      · simp only [cut, if_pos ends] at goesOn ⊢
        have inside : ∀ c ∈ reversed.reverse, ¬ Completes c := fun c member =>
          not_isFinal_iff.1 (proper c (List.mem_reverse.1 member))
        exact .control inside (isFinal_iff.1 ends) goesOn
      · simp only [cut, if_neg ends] at goesOn ⊢
        simpa only [text, List.reverse_cons, List.append_assoc, List.cons_append,
          List.nil_append] using goesOn

theorem cutAll_append (held : Held) (a b : Text) :
    cutAll held (a ++ b) =
      ((cutAll held a).1 ++ (cutAll (cutAll held a).2 b).1, (cutAll (cutAll held a).2 b).2) := by
  induction a generalizing held with
  | nil => rfl
  | cons c a ih => simp only [List.cons_append, cutAll, ih, List.append_assoc]

theorem cutAll_parameters {parameters reversed : Text}
    (inside : ∀ c ∈ parameters, ¬ Completes c) :
    cutAll (.control reversed) parameters = ([], .control (parameters.reverse ++ reversed)) := by
  induction parameters generalizing reversed with
  | nil => rfl
  | cons c parameters ih =>
    obtain ⟨notFinal, inside⟩ := List.forall_mem_cons.1 inside
    rw [cutAll, cut, if_neg (by rwa [isFinal_iff])]
    simp only [ih inside, List.reverse_cons, List.append_assoc]
    rfl

/-- However a text is cut, that is how the machine cuts it. -/
theorem cutAll_of_cuts {t rest : Text} {signals : List Signal} (cuts : Cuts t signals rest) :
    (cutAll .nothing t).1 = signals ∧ (cutAll .nothing t).2.text = rest := by
  induction cuts with
  | held unfinished =>
    cases unfinished with
    | nothing => exact ⟨rfl, rfl⟩
    | escape => exact ⟨rfl, rfl⟩
    | single => exact ⟨rfl, rfl⟩
    | @control parameters inside =>
      have opened : cutAll .nothing (escapeChar :: '[' :: parameters) =
          cutAll (.control []) parameters := rfl
      rw [opened, cutAll_parameters inside]
      simp [text]
  | @plain c t rest signals other goesOn ih =>
    rw [cutAll, cut, if_neg other]
    exact ⟨congrArg _ ih.1, ih.2⟩
  | @escape c t rest signals alone goesOn ih =>
    have lone : cutAll .nothing (escapeChar :: c :: t) =
        (.escape :: (cutAll .nothing (c :: t)).1, (cutAll .nothing (c :: t)).2) := by
      have opened : cutAll .nothing (escapeChar :: c :: t) = cutAll .escape (c :: t) := rfl
      rw [opened, cutAll, cutAll]
      by_cases isEscape : c = escapeChar
      · simp only [cut, if_neg alone.1, if_neg alone.2, if_pos isEscape]
        rfl
      · simp only [cut, if_neg alone.1, if_neg alone.2, if_neg isEscape]
        rfl
    rw [lone]
    exact ⟨congrArg _ ih.1, ih.2⟩
  | single goesOn ih => exact ⟨congrArg _ ih.1, ih.2⟩
  | @control parameters t rest final signals inside ends goesOn ih =>
    have completed : cutAll .nothing (escapeChar :: '[' :: (parameters ++ final :: t)) =
        (.control parameters final :: (cutAll .nothing t).1, (cutAll .nothing t).2) := by
      have opened : cutAll .nothing (escapeChar :: '[' :: (parameters ++ final :: t)) =
          cutAll (.control []) (parameters ++ final :: t) := rfl
      rw [opened, cutAll_append, cutAll_parameters inside, cutAll, cut,
        if_pos (isFinal_iff.2 ends), List.append_nil, List.reverse_reverse]
      rfl
    rw [completed]
    exact ⟨congrArg _ ih.1, ih.2⟩

/-- A text is cut in one way only. -/
theorem cuts_iff {t rest : Text} {signals : List Signal} :
    Cuts t signals rest ↔
      signals = (cutAll .nothing t).1 ∧ rest = (cutAll .nothing t).2.text := by
  constructor
  · intro cuts
    obtain ⟨same, held⟩ := cutAll_of_cuts cuts
    exact ⟨same.symm, held.symm⟩
  · rintro ⟨rfl, rfl⟩
    have proper : Held.nothing.Proper := trivial
    exact cuts_cutAll proper t

end Held

/-! ## Calls -/

/-- An escape sequence, and no single key. -/
def Signal.IsSequence : Signal → Prop
  | single _ | control _ _ => True
  | plain _ | escape => False

/-- Only sequences are dropped. -/
theorem Signal.isSequence_of_event? {signal : Signal} (dropped : signal.event? = none) :
    signal.IsSequence := by
  cases signal with
  | single | control => trivial
  | plain | escape => contradiction

namespace Decoder

namespace Call

def isFeed : Call → Bool
  | feed _ => true
  | flush => false

/-- The bytes that calls feed. -/
def bytes (calls : List Call) : List UInt8 :=
  calls.flatMap fun
    | feed bytes => bytes
    | flush => []

/-- The calls up to the last flush. -/
def settled (calls : List Call) : List Call := calls.rdropWhile isFeed

/-- The characters of the bytes that calls feed; flushes do not show in them. -/
def characters (calls : List Call) : Text := (Utf8.decodeReplacing .start (bytes calls)).1

/-- Where the bytes that calls feed lead the decoder of characters. -/
def utf8 (calls : List Call) : Utf8.State := (Utf8.decodeReplacing .start (bytes calls)).2

/-- The characters since the last flush. -/
def unsettled (calls : List Call) : Text :=
  (characters calls).drop (characters (settled calls)).length

theorem bytes_append (a b : List Call) : bytes (a ++ b) = bytes a ++ bytes b :=
  List.flatMap_append

theorem bytes_concat_feed (calls : List Call) (fed : List UInt8) :
    bytes (calls ++ [.feed fed]) = bytes calls ++ fed := by
  rw [bytes_append]
  simp [bytes]

theorem bytes_concat_flush (calls : List Call) : bytes (calls ++ [.flush]) = bytes calls := by
  rw [bytes_append]
  simp [bytes]

theorem settled_concat_feed (calls : List Call) (fed : List UInt8) :
    settled (calls ++ [.feed fed]) = settled calls :=
  List.rdropWhile_concat_pos isFeed calls _ rfl

theorem settled_concat_flush (calls : List Call) :
    settled (calls ++ [.flush]) = calls ++ [.flush] :=
  List.rdropWhile_concat_neg isFeed calls _ (by simp [isFeed])

theorem characters_concat_feed (calls : List Call) (fed : List UInt8) :
    characters (calls ++ [.feed fed]) =
      characters calls ++ (Utf8.decodeReplacing (utf8 calls) fed).1 := by
  rw [characters, bytes_concat_feed, Utf8.decodeReplacing_append]
  rfl

theorem characters_settled_isPrefix (calls : List Call) :
    characters (settled calls) <+: characters calls := by
  obtain ⟨recent, whole⟩ := List.rdropWhile_prefix isFeed calls
  have fed : bytes calls = bytes (settled calls) ++ bytes recent := by
    rw [← bytes_append, settled, whole]
  rw [characters, characters, fed, Utf8.decodeReplacing_append]
  exact List.prefix_append _ _

theorem unsettled_concat_feed (calls : List Call) (fed : List UInt8) :
    unsettled (calls ++ [.feed fed]) =
      unsettled calls ++ (Utf8.decodeReplacing (utf8 calls) fed).1 := by
  rw [unsettled, settled_concat_feed, characters_concat_feed,
    List.drop_append_of_le_length (characters_settled_isPrefix calls).length_le]
  rfl

theorem unsettled_concat_flush (calls : List Call) : unsettled (calls ++ [.flush]) = [] := by
  rw [unsettled, settled_concat_flush, List.drop_length]

end Call

/-- The decoder after a sequence of calls. -/
def after (d : Decoder) (calls : List Call) : Decoder :=
  calls.foldl (fun d call => (d.perform call).2) d

theorem after_concat (d : Decoder) (calls : List Call) (call : Call) :
    d.after (calls ++ [call]) = ((d.after calls).perform call).2 := by
  rw [after, List.foldl_append]
  rfl

theorem performAll_concat (d : Decoder) (calls : List Call) (call : Call) :
    d.performAll (calls ++ [call]) = d.performAll calls ++ [((d.after calls).perform call).1] := by
  induction calls generalizing d with
  | nil => rfl
  | cons first calls ih => rw [List.cons_append, performAll, ih, performAll, List.cons_append]; rfl

theorem length_performAll (d : Decoder) (calls : List Call) :
    (d.performAll calls).length = calls.length := by
  induction calls generalizing d with
  | nil => rfl
  | cons call calls ih => rw [performAll, List.length_cons, ih, List.length_cons]

/-- The bytes that are held of a character do not depend on where the flushes are. -/
theorem utf8_after (calls : List Call) : (after {} calls).utf8 = Call.utf8 calls := by
  induction calls using List.reverseRecOn with
  | nil => rfl
  | append_singleton calls call ih =>
    rw [after_concat]
    cases call with
    | flush => rw [Call.utf8, Call.bytes_concat_flush, ← Call.utf8, ← ih]; rfl
    | feed fed =>
      rw [Call.utf8, Call.bytes_concat_feed, Utf8.decodeReplacing_append, ← Call.utf8, ← ih,
        perform, feed]
      split <;> rfl

/-- A call without an error gives the events of the signals that it completes. -/
theorem perform_of_ok {d : Decoder} {call : Call} {events : List KeyEvent}
    (quiet : (d.perform call).1 = .ok events) :
    events = (d.cut call).1.filterMap Signal.event? ∧ (d.perform call).2 = (d.cut call).2 := by
  have harmless : ∀ signal ∈ (d.cut call).1, ¬ signal.Hostile := by
    intro signal member hostile
    obtain ⟨e, failed⟩ := perform_of_hostile member hostile
    rw [quiet] at failed
    contradiction
  rw [perform_of_harmless harmless] at quiet ⊢
  exact ⟨(Except.ok.inj quiet).symm, rfl⟩

/-- Without an error the machine has cut the characters since the last flush, and nothing else. -/
theorem held_after {calls : List Call} {answers : List (List KeyEvent)}
    (quiet : performAll {} calls = answers.map .ok) :
    (after {} calls).held = (cutAll .nothing (Call.unsettled calls)).2 ∧
      (answers.drop (Call.settled calls).length).flatten =
        (cutAll .nothing (Call.unsettled calls)).1.filterMap Signal.event? := by
  induction calls using List.reverseRecOn generalizing answers with
  | nil =>
    obtain rfl := List.map_eq_nil_iff.1 quiet.symm
    exact ⟨rfl, rfl⟩
  | append_singleton calls call ih =>
    have even : calls.length + 1 = answers.length := by
      have lengths := congrArg List.length quiet
      rwa [length_performAll, List.length_append, List.length_map] at lengths
    rw [performAll_concat] at quiet
    obtain ⟨earlier, last, rfl, before, answer⟩ := List.map_eq_append_iff.1 quiet.symm
    obtain ⟨events, rfl, answered⟩ := List.map_eq_singleton_iff.1 answer
    obtain ⟨held, settled⟩ := ih before.symm
    obtain ⟨same, next⟩ := perform_of_ok answered.symm
    rw [after_concat, next]
    cases call with
    | flush =>
      rw [Call.unsettled_concat_flush, Call.settled_concat_flush, List.drop_of_length_le]
      · exact ⟨rfl, rfl⟩
      · rw [← even, List.length_append, List.length_singleton]
    | feed fed =>
      have prior : (Call.settled calls).length ≤ earlier.length := by
        have shorter := List.rdropWhile_prefix Call.isFeed calls |>.length_le
        rw [List.length_append, List.length_singleton] at even
        rw [Call.settled]
        omega
      rw [Call.unsettled_concat_feed, Call.settled_concat_feed,
        List.drop_append_of_le_length prior, List.flatten_append, settled, same,
        Held.cutAll_append, List.filterMap_append]
      simp only [cut, held, utf8_after, List.flatten_singleton, and_self]

theorem flush_eq (d : Decoder) :
    d.flush = (if d.held.text = [escapeChar] then [.key .escape false] else [],
      { d with held := .nothing }) := by
  have lone : d.held.text = [escapeChar] ↔ d.held = .escape := by
    cases d.held <;> simp [Held.text]
  simp only [flush, lone]

/-- After a flush the characters go on where the bytes before it have led. -/
theorem feed_flush_of_encode {calls : List Call} {more : List UInt8} {t : Text}
    (stream : Utf8.encode t = Call.bytes calls ++ more) :
    ((after {} calls).flush.2.feed more).1 =
      (Held.run .nothing (t.drop (Call.characters calls).length)).map Prod.fst := by
  have whole := Utf8.decodeReplacing_encode t
  rw [stream, Utf8.decodeReplacing_append] at whole
  have rest : (Utf8.decodeReplacing (after {} calls).utf8 more).1 =
      t.drop (Call.characters calls).length := by
    rw [← (Prod.mk.inj whole).1, utf8_after]
    exact List.drop_left.symm
  rw [flush_eq, feed]
  simp only [rest]
  cases Held.run .nothing (t.drop (Call.characters calls).length) <;> rfl

/-- After calls without an error the decoder holds nothing or an unfinished escape sequence.  The
characters since the last flush are cut in one way, and it is their end; all before it are signals,
whose events are the answers since the flush, and those without an event are complete sequences.  A
flush gives up on it, which is the escape key if it was the escape character alone, and leaves the
bytes of a character alone, so that the character is still read. -/
theorem performAll_holds {calls : List Call} {answers : List (List KeyEvent)}
    (quiet : performAll {} calls = answers.map .ok) :
    let d := after {} calls
    Unfinished d.held.text ∧
    (∃ signals,
      (∀ signals' rest, Cuts (Call.unsettled calls) signals' rest ↔
        signals' = signals ∧ rest = d.held.text) ∧
      Call.unsettled calls = signals.flatMap Signal.text ++ d.held.text ∧
      (answers.drop (Call.settled calls).length).flatten = signals.filterMap Signal.event? ∧
      ∀ signal ∈ signals, signal.event? = none → signal.IsSequence) ∧
    d.flush.1 = (if d.held.text = [escapeChar] then [.key .escape false] else []) ∧
    d.flush.2.held.text = [] ∧
    d.flush.2.utf8 = d.utf8 ∧
    ∀ more t, Utf8.encode t = Call.bytes calls ++ more →
      (d.flush.2.feed more).1 =
        (Held.run .nothing (t.drop (Call.characters calls).length)).map Prod.fst := by
  intro d
  obtain ⟨held, settled⟩ := held_after quiet
  refine ⟨?_, ⟨_, ?_, ?_, settled, fun signal _ => Signal.isSequence_of_event?⟩, ?_, ?_, ?_,
    fun more t => feed_flush_of_encode⟩
  · have proper : Held.nothing.Proper := trivial
    have left := (Held.proper_cutAll proper (Call.unsettled calls)).2
    rw [← held] at left
    exact Held.unfinished_text left
  · intro signals' rest
    rw [Held.cuts_iff, ← held]
  · have whole := Held.text_cutAll .nothing (Call.unsettled calls)
    rw [← held] at whole
    exact whole.symm
  · rw [flush_eq]
  · rw [flush_eq]
    rfl
  · rw [flush_eq]

/-- A sequence that is given up on, a character of two bytes with a flush between them, an escape
key, and another sequence that is not complete. -/
def splitCalls : List Call :=
  [.feed [0x1B, 0x5B, 0x31], .flush, .feed [0xC3], .flush, .feed [0xA9, 0x1B],
    .feed [0x1B, 0x5B, 0x33, 0x3B]]

def splitAnswers : List (List KeyEvent) :=
  [[], [], [], [], [⟨.char ['é'], false⟩], [.key .escape false]]

theorem performAll_holds_split :
    performAll {} splitCalls = splitAnswers.map .ok ∧
    (after {} splitCalls).held.text = [escapeChar, '[', '3', ';'] ∧
    Cuts (Call.unsettled splitCalls) [.plain 'é', .escape] [escapeChar, '[', '3', ';'] ∧
    (splitAnswers.drop 4).flatten = [Signal.plain 'é', Signal.escape].filterMap Signal.event? ∧
    (after {} splitCalls).flush.1 = [] := by
  have quiet : performAll {} splitCalls = splitAnswers.map .ok := by decide +kernel
  have held : (after {} splitCalls).held.text = [escapeChar, '[', '3', ';'] := by decide
  have recent : Call.unsettled splitCalls = ['é', escapeChar, escapeChar, '[', '3', ';'] := by
    decide
  obtain ⟨-, ⟨signals, cuts, -, settled, -⟩, given, -⟩ := performAll_holds quiet
  have read : Cuts (Call.unsettled splitCalls) [.plain 'é', .escape]
      [escapeChar, '[', '3', ';'] := by
    rw [recent]
    exact .plain (by decide) (.escape (by decide) (.held (.control (by simp [Completes]))))
  obtain ⟨rfl, -⟩ := (cuts _ _).1 read
  rw [held] at given
  exact ⟨quiet, held, read, settled, given⟩

end Decoder

end ChainShell
