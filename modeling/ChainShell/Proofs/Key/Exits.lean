/-
# ChainShell.Proofs.Key.Exits — which exit keys a decoder reads

Control C and control D leave the shell, so it matters which of their bytes become events.  A
byte below 0x80 shows its character wherever it stands, but inside an escape sequence the
character is no key of its own.  `outsideSequences` says of bytes, without decoding them, which
stand outside: the escape character and `O` take the next byte with them, the escape character
and `[` all up to the first byte that completes a control sequence.

The machine of the decoder agrees with it byte by byte (`Held.count_cut`).  Wide bytes are the
trouble, since several of them make one character, or one of them several, and in the end some
may have shown none; but for the sequences it only matters whether there are any
(`Held.countAfter_wide`).  So of each character below 0x80 as many stand outside sequences as of its
byte (`Held.count_cutAll`).

* `Decoder.count_letter`: of a letter with control there are as many events as its byte stands
  outside sequences.
* `Decoder.feedAll_exits`: the same for the two exit keys.
* `Decoder.feedAll_loses_exit`: an exit key inside a sequence is lost.
-/
import ChainShell.Proofs.Key.Holding
import ChainShell.Proofs.Key.Presses

set_option autoImplicit false

namespace ChainShell

/-! ## Bytes outside escape sequences -/

/-- A byte that completes a control sequence: one from `@` to `~`. -/
def isFinalByte (b : UInt8) : Bool := 0x40 ≤ b.toNat && b.toNat ≤ 0x7E

/-- The bytes that stand in no escape sequence.  The escape character and `O` take one byte with
them, the escape character and `[` all up to the first that completes a control sequence; each is a
sequence also if it is not complete. -/
def outsideSequences : List UInt8 → List UInt8
  | 0x1B :: 0x4F :: rest => outsideSequences (rest.drop 1)
  | 0x1B :: 0x5B :: rest => outsideSequences ((rest.dropWhile (!isFinalByte ·)).drop 1)
  | b :: rest => b :: outsideSequences rest
  | [] => []
termination_by bytes => bytes.length
decreasing_by
  · simp only [List.length_drop, List.length_cons]
    omega
  · have := (List.dropWhile_sublist (!isFinalByte ·) (l := rest)).length_le
    simp only [List.length_drop, List.length_cons]
    omega
  · simp

section

variable {b : UInt8} {rest : List UInt8}

theorem outsideSequences_plain (other : b ≠ 0x1B) :
    outsideSequences (b :: rest) = b :: outsideSequences rest := by
  rw [outsideSequences] <;> simp [other]

theorem outsideSequences_escape (alone : b ≠ 0x5B ∧ b ≠ 0x4F) :
    outsideSequences (0x1B :: b :: rest) = 0x1B :: outsideSequences (b :: rest) := by
  rw [outsideSequences] <;> simp [alone.1, alone.2]

theorem outsideSequences_single :
    outsideSequences (0x1B :: 0x4F :: b :: rest) = outsideSequences rest := by
  rw [outsideSequences, List.drop_one, List.tail_cons]

theorem outsideSequences_control :
    outsideSequences (0x1B :: 0x5B :: b :: rest) =
      if isFinalByte b then outsideSequences rest else outsideSequences (0x1B :: 0x5B :: rest) := by
  rw [outsideSequences]
  cases ends : isFinalByte b with
  | true => simp [ends]
  | false => simp [ends, outsideSequences]

end

/-! ## Byte by byte -/

/-- A byte and the character that stands for it: the same if they are narrow, and wide together. -/
def Stands (b : UInt8) (c : Char) : Prop :=
  b.toNat = c.toNat ∨ 0x80 ≤ b.toNat ∧ 0x80 ≤ c.toNat

theorem Stands.eq_iff {b b' : UInt8} {c c' : Char} (stands : Stands b c)
    (code : b'.toNat = c'.toNat) (small : c'.toNat < 0x80) : b = b' ↔ c = c' := by
  rw [← UInt8.toNat_inj, ← Char.toNat_inj]
  unfold Stands at stands
  omega

theorem Stands.isFinal_eq {b : UInt8} {c : Char} (stands : Stands b c) :
    isFinalByte b = Held.isFinal c := by
  unfold Stands at stands
  rw [isFinalByte, Held.isFinal, Bool.eq_iff_iff]
  simp only [Bool.and_eq_true, decide_eq_true_eq]
  omega

/-- A byte below 0x80 and its character, which is not the escape character. -/
structure Narrow (b : UInt8) (c : Char) : Prop where
  code : b.toNat = c.toNat
  small : c.toNat < 0x80
  other : c ≠ escapeChar

theorem Narrow.ne_escape {b : UInt8} {c : Char} (narrow : Narrow b c) : (0x1B : UInt8) ≠ b := by
  rintro rfl
  exact narrow.other (Char.toNat_inj.1 narrow.code.symm)

theorem Narrow.count_cons {b x : UInt8} {c d : Char} (narrow : Narrow b c) (stands : Stands x d)
    (rest : List UInt8) :
    (x :: rest).count b = [Signal.plain d].count (.plain c) + rest.count b := by
  have same := stands.eq_iff narrow.code narrow.small
  by_cases here : d = c
  · rw [same.2 here, here, List.count_cons_self, List.count_singleton_self, Nat.add_comm]
  · have apart : Signal.plain d ≠ .plain c := fun equal => here (Signal.plain.inj equal)
    rw [List.count_cons_of_ne (mt same.1 here), List.count_cons_of_ne apart, List.count_nil,
      Nat.zero_add]

/-- A byte for the characters that are still to come of the bytes that were read. -/
def Utf8.State.due : State → List UInt8
  | start => []
  | _ => [0x80]

theorem Utf8.due_of_ne {state : State} (inside : state ≠ .start) : state.due = [0x80] := by
  cases state with
  | start => contradiction
  | _ => rfl

namespace Held

/-- The bytes that open the sequence that is held. -/
def opened : Held → List UInt8
  | nothing => []
  | escape => [0x1B]
  | single => [0x1B, 0x4F]
  | control _ => [0x1B, 0x5B]

/-- What is left of the sequence that is held after a wide character. -/
def settled : Held → Held
  | control _ => control []
  | _ => nothing

/-- The number of bytes `b` outside sequences, after the bytes of what is held. -/
def countAfter (held : Held) (b : UInt8) (bytes : List UInt8) : Nat :=
  (outsideSequences (held.opened ++ bytes)).count b

theorem countAfter_congr {held other : Held} (same : held.opened = other.opened) (b : UInt8)
    (bytes : List UInt8) : held.countAfter b bytes = other.countAfter b bytes := by
  rw [countAfter, same, countAfter]

section

variable {b : UInt8} {c : Char} (narrow : Narrow b c)

include narrow

theorem countAfter_nil (held : Held) : held.countAfter b [] = 0 := by
  have notEscape := narrow.ne_escape
  cases held with
  | escape => simp [countAfter, opened, outsideSequences, notEscape]
  | _ => simp [countAfter, opened, outsideSequences]

/-- A byte and its character leave as many bytes `b` and characters `c` outside sequences. -/
theorem count_cut {x : UInt8} {d : Char} (stands : Stands x d) (held : Held) (rest : List UInt8) :
    held.countAfter b (x :: rest) =
      (cut held d).1.count (.plain c) + (cut held d).2.countAfter b rest := by
  have isEscape : x = 0x1B ↔ d = escapeChar := stands.eq_iff rfl (by decide)
  have isSingle : x = 0x4F ↔ d = 'O' := stands.eq_iff rfl (by decide)
  have isControl : x = 0x5B ↔ d = '[' := stands.eq_iff rfl (by decide)
  cases held with
  | nothing =>
    simp only [countAfter, opened, List.nil_append, cut]
    by_cases escapes : d = escapeChar
    · rw [isEscape.2 escapes, if_pos escapes, List.count_nil, Nat.zero_add]
      rfl
    · rw [if_neg escapes, outsideSequences_plain (mt isEscape.1 escapes), narrow.count_cons stands]
      rfl
  | escape =>
    simp only [countAfter, opened, List.cons_append, List.nil_append, cut]
    by_cases opensSingle : d = 'O'
    · rw [isSingle.2 opensSingle, if_pos opensSingle, List.count_nil, Nat.zero_add]
      rfl
    · by_cases opensControl : d = '['
      · rw [isControl.2 opensControl, if_neg opensSingle, if_pos opensControl, List.count_nil,
          Nat.zero_add]
        rfl
      · rw [if_neg opensSingle, if_neg opensControl,
          outsideSequences_escape ⟨mt isControl.1 opensControl, mt isSingle.1 opensSingle⟩,
          List.count_cons_of_ne narrow.ne_escape]
        by_cases escapes : d = escapeChar
        · rw [isEscape.2 escapes, if_pos escapes]
          simp
        · rw [if_neg escapes, outsideSequences_plain (mt isEscape.1 escapes),
            narrow.count_cons stands]
          simp
  | single =>
    simp only [countAfter, opened, List.cons_append, List.nil_append, outsideSequences_single, cut]
    simp
  | control reversed =>
    simp only [countAfter, opened, List.cons_append, List.nil_append, outsideSequences_control,
      stands.isFinal_eq, cut]
    by_cases ends : isFinal d = true
    · simp [ends]
    · simp [ends]

theorem cut_wide {d : Char} (wide : 0x80 ≤ d.toNat) (held : Held) :
    (cut held d).1.count (.plain c) = 0 ∧ (cut held d).2.opened = held.settled.opened ∧
      (cut held d).2.settled = held.settled := by
  have apart : ∀ {d' : Char}, d'.toNat < 0x80 → d ≠ d' := by
    rintro d' small rfl
    omega
  have notPlain : Signal.plain d ≠ .plain c :=
    fun equal => apart narrow.small (Signal.plain.inj equal)
  have notFinal : isFinal d = false := by
    rw [not_isFinal_iff, Completes]
    omega
  have notEscape : d ≠ escapeChar := apart (by decide)
  have notSingle : d ≠ 'O' := apart (by decide)
  have notControl : d ≠ '[' := apart (by decide)
  cases held with
  | nothing => simp [cut, notEscape, opened, settled, notPlain]
  | escape => simp [cut, notEscape, notSingle, notControl, opened, settled, notPlain]
  | single => simp [cut, opened, settled]
  | control reversed => simp [cut, notFinal, opened, settled]

/-- After wide characters the machine stands where it stands after one of them. -/
theorem cutAll_wide {t : Text} (wide : ∀ d ∈ t, 0x80 ≤ d.toNat) (held : Held) :
    (cutAll held t).1.count (.plain c) = 0 ∧
      (t ≠ [] → (cutAll held t).2.opened = held.settled.opened) ∧
      (cutAll held t).2.settled = held.settled := by
  induction t generalizing held with
  | nil => simp [cutAll]
  | cons d t ih =>
    obtain ⟨wideFirst, wide⟩ := List.forall_mem_cons.1 wide
    obtain ⟨none, opens, settles⟩ := cut_wide narrow wideFirst held
    obtain ⟨noneLater, opensLater, settlesLater⟩ := ih wide (cut held d).2
    refine ⟨by rw [cutAll, List.count_append, none, noneLater], fun _ => ?_,
      settlesLater.trans settles⟩
    cases t with
    | nil => exact opens
    | cons d' t => exact (opensLater (by simp)).trans (congrArg opened settles)

/-- A wide byte is not `b`, and all that it does is to settle what is held. -/
theorem countAfter_wide {x : UInt8} (wide : 0x80 ≤ x.toNat) (held : Held) (rest : List UInt8) :
    held.countAfter b (x :: rest) = held.settled.countAfter b rest := by
  have wideChar : 0x80 ≤ Utf8.replacement.toNat := by decide
  obtain ⟨none, opens, -⟩ := cut_wide narrow wideChar held
  rw [count_cut narrow (.inr ⟨wide, wideChar⟩) held rest, none, Nat.zero_add,
    countAfter_congr opens]

omit narrow in
theorem settled_settled (held : Held) : held.settled.settled = held.settled := by
  cases held <;> rfl

/-- What is due counts as the wide byte that it stands for. -/
theorem countAfter_due {state : Utf8.State} (inside : state ≠ .start) (held : Held)
    (rest : List UInt8) :
    held.countAfter b (state.due ++ rest) = held.settled.countAfter b rest := by
  rw [Utf8.due_of_ne inside]
  exact countAfter_wide narrow (by decide) held rest

section

variable {state : Utf8.State} {taken : List UInt8} (holds : Utf8.Holds state taken) {x : UInt8}

include holds

theorem count_narrow (small : x.toNat < 0x80) (held : Held) (rest : List UInt8) :
    held.countAfter b (state.due ++ x :: rest) =
      (cutAll held (Utf8.shown state x)).1.count (.plain c) +
        (cutAll held (Utf8.shown state x)).2.countAfter b
          ((Utf8.step state x.toNat).2.due ++ rest) := by
  obtain ⟨next, pieces, shown, empty⟩ := Utf8.shown_narrow holds small
  have illFormed : ∀ d ∈ List.replicate pieces Utf8.replacement, 0x80 ≤ d.toNat := by
    intro d member
    rw [List.eq_of_mem_replicate member]
    decide
  obtain ⟨none, opens, -⟩ := cutAll_wide narrow illFormed held
  have code : x.toNat = (Char.ofNat x.toNat).toNat :=
    (Utf8.toNat_ofNat (by omega) (by omega)).symm
  have last : ∀ held, cutAll held [Char.ofNat x.toNat] = cut held (Char.ofNat x.toNat) := by
    simp [cutAll]
  rw [shown, next, cutAll_append, List.count_append, none, Nat.zero_add, last]
  refine Eq.trans ?_ (count_cut narrow (.inl code) _ rest)
  by_cases start : state = .start
  · obtain rfl := empty.2 start
    subst start
    rfl
  · rw [countAfter_due narrow start, countAfter_congr (opens (by simpa using mt empty.1 start))]

theorem count_wide (wide : 0x80 ≤ x.toNat) (held : Held) (rest : List UInt8) :
    held.countAfter b (state.due ++ x :: rest) =
      (cutAll held (Utf8.shown state x)).1.count (.plain c) +
        (cutAll held (Utf8.shown state x)).2.countAfter b
          ((Utf8.step state x.toNat).2.due ++ rest) := by
  obtain ⟨wideShown, due⟩ := Utf8.shown_wide holds wide
  obtain ⟨none, opens, settles⟩ := cutAll_wide narrow wideShown held
  have before : held.countAfter b (state.due ++ x :: rest) = held.settled.countAfter b rest := by
    by_cases start : state = .start
    · subst start
      exact countAfter_wide narrow wide held rest
    · rw [countAfter_due narrow start, countAfter_wide narrow wide, settled_settled]
  rw [before, none, Nat.zero_add]
  by_cases start : (Utf8.step state x.toNat).2 = .start
  · have some : Utf8.shown state x ≠ [] := fun silent => due silent start
    rw [start, countAfter_congr (opens some)]
    rfl
  · rw [countAfter_due narrow start, settles]

/-- Of a character below 0x80 that stands outside sequences, there are as many as of its byte. -/
theorem count_cutAll (held : Held) (bytes : List UInt8) :
    (cutAll held (Utf8.decodeReplacing state bytes).1).1.count (.plain c) =
      held.countAfter b (state.due ++ bytes) := by
  -- By induction on the bytes: a byte takes both machines one step on.
  induction bytes generalizing state taken held with
  | nil =>
    have none : (cutAll held (Utf8.decodeReplacing state []).1).1.count (.plain c) = 0 := rfl
    rw [none]
    by_cases start : state = .start
    · subst start
      exact (countAfter_nil narrow held).symm
    · rw [countAfter_due narrow start, countAfter_nil narrow]
  | cons x bytes ih =>
    obtain ⟨taken', holds'⟩ := Utf8.exists_holds_step holds x
    have step := if small : x.toNat < 0x80 then count_narrow narrow holds small held bytes
      else count_wide narrow holds (Nat.le_of_not_lt small) held bytes
    have first : Utf8.decodeReplacing state [x] =
        (Utf8.shown state x, (Utf8.step state x.toNat).2) := by
      simp [Utf8.decodeReplacing, Utf8.run, Utf8.shown]
    rw [← List.singleton_append, Utf8.decodeReplacing_append, first, cutAll_append,
      List.count_append, List.singleton_append, step]
    exact congrArg _ (ih holds' _)

end

end

end Held

/-! ## Control keys -/

theorem KeyEvent.key_ne_char (key : Key) (control : Bool) (text : Text) :
    KeyEvent.key key control ≠ ⟨.char text, true⟩ := nofun

theorem Held.eq_sent_of_plainEvent {l : ControlLetter} {c : Char}
    (event : plainEvent c = ⟨.char [l.val], true⟩) : c = l.sent := by
  unfold plainEvent at event
  split_ifs at event with isEnter isTab isBackspace below
  · exact absurd event (KeyEvent.key_ne_char _ _ _)
  · exact absurd event (KeyEvent.key_ne_char _ _ _)
  · exact absurd event (KeyEvent.key_ne_char _ _ _)
  · have letter : Char.ofNat (c.toNat + 0x60) = l.val := by simpa using event
    have code : (Char.ofNat (c.toNat + 0x60)).toNat = c.toNat + 0x60 :=
      Utf8.toNat_ofNat (by omega) (by omega)
    have place := (toNat_sent l).1
    rw [← letter, code] at place
    exact (Char.toNat_inj.1 (Nat.add_right_cancel place)).symm
  · simp at event

/-- Only one character, outside sequences, is the event of a letter with control. -/
theorem Signal.event?_eq_letter_iff (l : ControlLetter) {signal : Signal} :
    signal.event? = some ⟨.char [l.val], true⟩ ↔ signal = .plain l.sent := by
  constructor
  · intro named
    cases signal with
    | plain c => rw [Held.eq_sent_of_plainEvent (Option.some.inj named)]
    | escape => exact absurd (Option.some.inj named) (KeyEvent.key_ne_char _ _ _)
    | single final =>
      obtain ⟨key, -, event⟩ := Option.map_eq_some_iff.1 named
      exact absurd event (KeyEvent.key_ne_char _ _ _)
    | control parameters final =>
      obtain ⟨key, -, event⟩ := Option.map_eq_some_iff.1 named
      exact absurd event (KeyEvent.key_ne_char _ _ _)
  · rintro rfl
    rw [event?, Held.plainEvent_letter]

namespace Decoder

/-- There are as many events of a letter with control as its byte stands outside sequences. -/
theorem count_letter (l : ControlLetter) {b : UInt8} (sent : b.toNat = l.sent.toNat)
    {chunks : List (List UInt8)} {events : List KeyEvent} {last : Decoder}
    (fed : feedAll {} chunks = (.ok events, last)) :
    (events ++ last.flush.1).count ⟨.char [l.val], true⟩ =
      (outsideSequences chunks.flatten).count b := by
  have high := (Held.toNat_sent l).2.2
  have narrow : Narrow b l.sent := ⟨sent, by omega, Held.sent_ne l (by decide)⟩
  have performed : (perform {} (.feed chunks.flatten)).1 = .ok events :=
    congrArg Prod.fst (feed_of_feedAll fed)
  have given : last.flush.1.count ⟨.char [l.val], true⟩ = 0 := by
    rw [flush_eq]
    split <;> rfl
  have named : ∀ signal : Signal, (signal.event? == some ⟨.char [l.val], true⟩) =
      (signal == .plain l.sent) := by
    intro signal
    rw [Bool.eq_iff_iff, beq_iff_eq, beq_iff_eq, Signal.event?_eq_letter_iff]
  have nothing : Utf8.Holds .start [] := rfl
  rw [List.count_append, given, Nat.add_zero, (perform_of_ok performed).1, List.count_filterMap]
  simp only [named]
  exact Held.count_cutAll narrow nothing .nothing chunks.flatten

/-- Of the exit keys, control C and control D, there are as many events as their bytes stand outside
escape sequences, also right after an escape character and inside ill-formed characters. -/
theorem feedAll_exits {chunks : List (List UInt8)} {events : List KeyEvent} {last : Decoder}
    (fed : feedAll {} chunks = (.ok events, last)) :
    (events ++ last.flush.1).count ⟨.char ['c'], true⟩ =
        (outsideSequences chunks.flatten).count 0x03 ∧
      (events ++ last.flush.1).count ⟨.char ['d'], true⟩ =
        (outsideSequences chunks.flatten).count 0x04 :=
  ⟨count_letter ⟨'c', by decide⟩ rfl fed, count_letter ⟨'d', by decide⟩ rfl fed⟩

/-- Control C and control D after an escape character, after the beginnings of characters that stay
incomplete, and inside sequences of both kinds: one unknown, one that names a key, and one that is
not complete. -/
def exitChunks : List (List UInt8) :=
  [[0x03, 0x1B], [0x03, 0xC3], [0x04, 0x1B, 0x4F, 0x03, 0xE2, 0x82],
    [0x03, 0x1B, 0x5B, 0x31, 0x04], [0x41, 0x1B, 0x5B, 0x03]]

def exitEvents : List KeyEvent :=
  [⟨.char ['c'], true⟩, .key .escape false, ⟨.char ['c'], true⟩, ⟨.char ['\ufffd'], false⟩,
    ⟨.char ['d'], true⟩, ⟨.char ['\ufffd'], false⟩, ⟨.char ['c'], true⟩, .key .up false]

theorem feedAll_exits_illFormed :
    let last : Decoder := { held := .control ['\x03'] }
    feedAll {} exitChunks = (.ok exitEvents, last) ∧
    outsideSequences exitChunks.flatten = [0x03, 0x1B, 0x03, 0xC3, 0x04, 0xE2, 0x82, 0x03] ∧
    (exitEvents ++ last.flush.1).count ⟨.char ['c'], true⟩ = 3 ∧
    (exitEvents ++ last.flush.1).count ⟨.char ['d'], true⟩ = 1 := by
  intro last
  have fed : feedAll {} exitChunks = (.ok exitEvents, last) := by decide +kernel
  have outside : outsideSequences exitChunks.flatten =
      [0x03, 0x1B, 0x03, 0xC3, 0x04, 0xE2, 0x82, 0x03] := by
    simp [exitChunks, outsideSequences, isFinalByte]
  obtain ⟨interrupts, ends⟩ := feedAll_exits fed
  rw [outside] at interrupts ends
  exact ⟨fed, outside, interrupts, ends⟩

/-- An exit key that comes as the last character of a sequence is lost. -/
theorem feedAll_loses_exit :
    ¬ ∀ chunks events last, feedAll {} chunks = (.ok events, last) →
      (events ++ last.flush.1).count ⟨.char ['c'], true⟩ = chunks.flatten.count 0x03 := by
  intro all
  have fed : feedAll {} [[0x1B, 0x4F, 0x03]] = (.ok [], {}) := by decide +kernel
  have kept := all [[0x1B, 0x4F, 0x03]] [] {} fed
  contradiction

end Decoder

end ChainShell
