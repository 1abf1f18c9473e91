/-
# ChainShell.Proofs.Key.Presses — what a terminal sends for a key is read as that key

A terminal sends bytes for each key that is pressed (`Press.bytes`), and for some keys it
may choose among several: a character is sent as itself, control and a letter as the
place of the letter in the alphabet, an arrow or the delete key as an escape sequence.
A sequence may carry a parameter for the modifier keys held with it, one more than the
set of them as a number, in which the bit of value 4 is control.

The escape character alone is the escape key.  It also begins every sequence, so the
escape key can be told from a sequence only by what comes after it, and `[` or `O`, typed
as themselves, would make it one.  `Placed` says that no escape key of a list of presses
is last or stands before one of these two characters; anything else may follow it, another
escape key or a sequence too.

* `run_sequence`: a control sequence with any parameters and a final character.
* `run_press`: the characters of a press, when nothing is held, are its event.
* `run_presses`: so are those of placed presses, one after the other; here the escape
  keys wait for the press after them.
* `feedAll_presses`: the bytes of placed presses, in whatever chunks they come.
-/
import ChainShell.Proofs.Key.Chunks
import ChainShell.Proofs.Text.Numeral
import ChainShell.Proofs.Text.Utf8

set_option autoImplicit false

namespace ChainShell

/-! ## Key presses -/

/-- A character that is sent as itself. -/
abbrev Typeable := { c : Char // 0x20 ≤ c.toNat ∧ c ≠ '\x7f' }

/-- A letter that has, with control, no key of its own. -/
abbrev ControlLetter := { c : Char // c.isLower = true ∧ c ∉ ['h', 'i', 'j', 'm'] }

/-- The character that is sent for a letter with control: its place in the alphabet. -/
def ControlLetter.sent (l : ControlLetter) : Char := Char.ofNat (l.val.toNat - 0x60)

/-- One of two characters. -/
abbrev Either (a b : Char) := { c : Char // c = a ∨ c = b }

/-- A set of modifier keys as a number, such that one more than it is a numeral short enough to be
read. -/
abbrev Modifiers := { m : Nat // (Text.ofNat (m + 1)).length ≤ Text.maxDigits }

namespace Modifiers

def parameter (m : Modifiers) : Text := Text.ofNat (m.val + 1)

/-- Whether control is one of the modifiers: the bit of value 4. -/
def control (m : Modifiers) : Bool := m.val.testBit 2

end Modifiers

inductive Arrow where
  | up
  | down
  | right
  | left
  deriving DecidableEq, Repr

namespace Arrow

def key : Arrow → Key
  | up => .up
  | down => .down
  | right => .right
  | left => .left

/-- The character that ends the sequence of an arrow. -/
def final : Arrow → Char
  | up => 'A'
  | down => 'B'
  | right => 'C'
  | left => 'D'

end Arrow

/-- A key press, with the choices that a terminal has in sending it. -/
inductive Press where
  | typed (c : Typeable)
  | letter (l : ControlLetter)
  | enter (sent : Either '\r' '\n')
  | tab
  | backspace (sent : Either '\x7f' '\x08')
  | arrow (a : Arrow) (intro : Either '[' 'O')
  | modifiedArrow (a : Arrow) (m : Modifiers)
  | delete
  | modifiedDelete (m : Modifiers)
  | escape

namespace Press

def event : Press → KeyEvent
  | typed c => ⟨.char [c.val], false⟩
  | letter l => ⟨.char [l.val], true⟩
  | enter _ => .key .enter false
  | tab => .key .tab false
  | backspace _ => .key .backspace false
  | arrow a _ => .key a.key false
  | modifiedArrow a m => .key a.key m.control
  | delete => .key .delete false
  | modifiedDelete m => .key .delete m.control
  | escape => .key .escape false

/-- The characters that are sent for a press. -/
def text : Press → Text
  | typed c => [c.val]
  | letter l => [l.sent]
  | enter sent | backspace sent => [sent.val]
  | tab => ['\t']
  | arrow a intro => [escapeChar, intro.val, a.final]
  | modifiedArrow a m => escapeChar :: '[' :: '1' :: ';' :: m.parameter ++ [a.final]
  | delete => [escapeChar, '[', '3', '~']
  | modifiedDelete m => escapeChar :: '[' :: '3' :: ';' :: m.parameter ++ ['~']
  | escape => [escapeChar]

def bytes (p : Press) : List UInt8 := Utf8.encode p.text

/-- Whether a press, sent after the escape character, leaves that the escape key. -/
def SparesEscape : Press → Prop
  | typed c => c.val ≠ '[' ∧ c.val ≠ 'O'
  | _ => True

/-- After every escape key comes a press that leaves it the escape key. -/
def Placed : List Press → Prop
  | [] => True
  | escape :: rest => (∃ next ∈ rest.head?, next.SparesEscape) ∧ Placed rest
  | _ :: rest => Placed rest

end Press

/-! ## Sequences -/

namespace Held

theorem arrow?_final (arrow : Arrow) : arrow? arrow.final = some arrow.key := by
  cases arrow <;> rfl

theorem isFinal_final (arrow : Arrow) : isFinal arrow.final = true := by
  cases arrow <;> rfl

/-- A control sequence: parameters without a final character, and a final character. -/
theorem run_sequence {reversed parameters : Text} {final : Char} {event : KeyEvent}
    (inside : ∀ c ∈ parameters, isFinal c = false) (ends : isFinal final = true)
    (names : sequenceEvent (reversed.reverse ++ parameters) final = .ok (some event)) :
    run (.control reversed) (parameters ++ [final]) = .ok ([event], .nothing) := by
  induction parameters generalizing reversed with
  | nil =>
    rw [List.append_nil] at names
    rw [List.nil_append, run, step, if_pos ends, names]
    rfl
  | cons c rest ih =>
    have notFinal := inside c List.mem_cons_self
    have later : run (.control (c :: reversed)) (rest ++ [final]) = .ok ([event], .nothing) :=
      ih (fun x member => inside x (List.mem_cons_of_mem c member))
        (by rwa [List.reverse_cons, List.append_assoc])
    rw [List.cons_append, run, step, if_neg (by simp [notFinal])]
    simp only [bind, Except.bind, later]
    rfl

theorem fields_of_notMem {t : Text} (single : ';' ∉ t) : fields t = [t] := by
  induction t with
  | nil => rfl
  | cons c rest ih =>
    rw [List.mem_cons, not_or] at single
    rw [fields, if_neg (Ne.symm single.1), ih single.2]
    rfl

/-- The parameters of a sequence with modifiers. -/
theorem fields_modified (number : Char) (other : number ≠ ';') (m : Modifiers) :
    fields (number :: ';' :: m.parameter) = [[number], m.parameter] := by
  have single : ';' ∉ m.parameter := by
    intro member
    have digit := Text.isDigit_of_mem_ofNat member
    contradiction
  rw [fields, if_neg other, fields, if_pos rfl, fields_of_notMem single]
  rfl

theorem modifier_parameter (number : Text) (m : Modifiers) :
    modifier [number, m.parameter] = .ok m.control := by
  have digits : m.parameter ≠ [] ∧ m.parameter.all Text.isDigit = true := by
    refine ⟨Nat.toDigits_ne_nil, ?_⟩
    rw [List.all_eq_true]
    intro c member
    rw [Text.isDigit, Text.isDecimal_of_isDigit (Text.isDigit_of_mem_ofNat member), Bool.true_or]
  rw [modifier, if_pos digits, Modifiers.parameter, Text.numeral_ofNat m.property]
  rfl

theorem not_isFinal_of_mem_parameter {m : Modifiers} {c : Char} (member : c ∈ m.parameter) :
    isFinal c = false := by
  have digit := Text.isDigit_of_mem_ofNat member
  have low : c.toNat ≤ 0x39 := by
    simp only [Char.isDigit, Bool.and_eq_true, decide_eq_true_eq, UInt32.le_iff_toNat_le] at digit
    exact digit.2
  rw [isFinal, Bool.and_eq_false_iff]
  left
  simp only [decide_eq_false_iff_not]
  omega

/-- A sequence with modifiers that names an event. -/
theorem run_modified {number final : Char} {event : KeyEvent} {m : Modifiers}
    (inside : isFinal number = false) (ends : isFinal final = true)
    (names : sequenceEvent (number :: ';' :: m.parameter) final = .ok (some event)) :
    run .nothing (escapeChar :: '[' :: number :: ';' :: m.parameter ++ [final]) =
      .ok ([event], .nothing) := by
  have within : ∀ c ∈ number :: ';' :: m.parameter, isFinal c = false := by
    intro c member
    rcases List.mem_cons.1 member with rfl | member
    · exact inside
    · rcases List.mem_cons.1 member with rfl | member
      · rfl
      · exact not_isFinal_of_mem_parameter member
  have opened : run .nothing [escapeChar, '['] = .ok ([], .control []) := rfl
  exact run_append_of_ok opened (run_sequence within ends names)

theorem sequenceEvent_arrow (arrow : Arrow) (m : Modifiers) :
    sequenceEvent ('1' :: ';' :: m.parameter) arrow.final =
      .ok (some (.key arrow.key m.control)) := by
  simp only [sequenceEvent, arrow?_final, fields_modified '1' (by decide) m, modifier_parameter]
  rfl

theorem sequenceEvent_delete (m : Modifiers) :
    sequenceEvent ('3' :: ';' :: m.parameter) '~' = .ok (some (.key .delete m.control)) := by
  have notArrow : arrow? '~' = none := rfl
  simp only [sequenceEvent, notArrow, fields_modified '3' (by decide) m, modifier_parameter,
    List.head?_cons, and_self, if_true]
  rfl

/-! ## One press -/

theorem plainEvent_typed (c : Typeable) : plainEvent c.val = ⟨.char [c.val], false⟩ := by
  obtain ⟨c, low, other⟩ := c
  have above : ∀ {x : Char}, x.toNat < 0x20 → c ≠ x := by
    rintro x below rfl
    omega
  simp only [plainEvent, above (show '\r'.toNat < 0x20 by decide),
    above (show '\n'.toNat < 0x20 by decide), above (show '\t'.toNat < 0x20 by decide),
    above (show '\x08'.toNat < 0x20 by decide), other, or_self, if_false]
  rw [if_neg (by omega)]

theorem toNat_sent (l : ControlLetter) :
    l.sent.toNat + 0x60 = l.val.toNat ∧ 0x01 ≤ l.sent.toNat ∧ l.sent.toNat ≤ 0x1A := by
  have bounds : 0x61 ≤ l.val.toNat ∧ l.val.toNat ≤ 0x7A := by
    obtain ⟨low, high⟩ := Bool.and_eq_true_iff.1 l.property.1
    exact ⟨UInt32.le_iff_toNat_le.1 (of_decide_eq_true low),
      UInt32.le_iff_toNat_le.1 (of_decide_eq_true high)⟩
  have code : l.sent.toNat = l.val.toNat - 0x60 := by
    rw [ControlLetter.sent, Char.ofNat, dif_pos (.inl (by omega))]
    rfl
  omega

theorem sent_ne (l : ControlLetter) {x : Char} (above : 0x1A < x.toNat) : l.sent ≠ x := by
  have bound := (toNat_sent l).2.2
  rintro rfl
  omega

theorem plainEvent_letter (l : ControlLetter) : plainEvent l.sent = ⟨.char [l.val], true⟩ := by
  obtain ⟨code, -, high⟩ := toNat_sent l
  -- A control byte that has a key of its own is the place of one of the four letters.
  have own : ∀ {x letter : Char}, letter.toNat = x.toNat + 0x60 → l.val ≠ letter → l.sent ≠ x := by
    rintro x letter place ne rfl
    apply ne
    rw [← Char.ofNat_toNat l.val, ← Char.ofNat_toNat letter, place, code]
  have other := l.property.2
  simp only [List.mem_cons, List.not_mem_nil, or_false, not_or] at other
  obtain ⟨notH, notI, notJ, notM⟩ := other
  simp only [plainEvent, own (x := '\r') rfl notM, own (x := '\n') rfl notJ,
    own (x := '\t') rfl notI, own (x := '\x08') rfl notH,
    sent_ne l (x := '\x7f') (by decide), or_self, if_false]
  rw [if_pos (by omega), code, Char.ofNat_toNat]

theorem run_plain {c : Char} {event : KeyEvent} (other : c ≠ escapeChar)
    (plain : plainEvent c = event) : run .nothing [c] = .ok ([event], .nothing) := by
  rw [run, step, ground, if_neg other, plain]
  rfl

/-- The characters of a press other than the escape key, when nothing is held, are its event. -/
theorem run_press {p : Press} (other : p ≠ .escape) :
    run .nothing p.text = .ok ([p.event], .nothing) := by
  cases p with
  | typed c =>
    refine run_plain ?_ (plainEvent_typed c)
    intro same
    have low := c.property.1
    rw [same] at low
    contradiction
  | letter l => exact run_plain (sent_ne l (by decide)) (plainEvent_letter l)
  | enter sent => obtain ⟨_, rfl | rfl⟩ := sent <;> rfl
  | tab => rfl
  | backspace sent => obtain ⟨_, rfl | rfl⟩ := sent <;> rfl
  | arrow a intro => obtain ⟨_, rfl | rfl⟩ := intro <;> cases a <;> rfl
  | modifiedArrow a m => exact run_modified rfl (isFinal_final a) (sequenceEvent_arrow a m)
  | delete => rfl
  | modifiedDelete m => exact run_modified rfl rfl (sequenceEvent_delete m)
  | escape => contradiction

/-! ## Presses one after the other -/

/-- The escape character before a character that begins no sequence is the escape key. -/
theorem run_escape {c : Char} (noSequence : c ≠ '[' ∧ c ≠ 'O') (rest : Text) :
    run .escape (c :: rest) =
      (run .nothing (c :: rest)).map fun read => (.key .escape false :: read.1, read.2) := by
  rw [run, run, step, step, if_neg noSequence.2, if_neg noSequence.1]
  simp only [bind, Except.bind]
  cases (ground c).2.run rest <;> rfl

theorem exists_text_of_sparesEscape {p : Press} (spares : p.SparesEscape) :
    ∃ c rest, p.text = c :: rest ∧ c ≠ '[' ∧ c ≠ 'O' := by
  cases p with
  | typed c => exact ⟨c.val, [], rfl, spares⟩
  | letter l => exact ⟨l.sent, [], rfl, sent_ne l (by decide), sent_ne l (by decide)⟩
  | enter sent => obtain ⟨_, rfl | rfl⟩ := sent <;> exact ⟨_, [], rfl, by decide⟩
  | tab => exact ⟨_, [], rfl, by decide⟩
  | backspace sent => obtain ⟨_, rfl | rfl⟩ := sent <;> exact ⟨_, [], rfl, by decide⟩
  | arrow | modifiedArrow | delete | modifiedDelete | escape => exact ⟨_, _, rfl, by decide⟩

/-- The characters of placed presses, when nothing is held, are their events. -/
theorem run_presses {presses : List Press} (placed : Press.Placed presses) :
    run .nothing (presses.flatMap Press.text) = .ok (presses.map Press.event, .nothing) := by
  induction presses with
  | nil => rfl
  | cons p presses ih =>
    rw [List.flatMap_cons, List.map_cons]
    by_cases isEscape : p = .escape
    · subst isEscape
      obtain ⟨⟨next, head, spares⟩, later⟩ := placed
      obtain ⟨presses', rfl⟩ := List.head?_eq_some_iff.1 head
      obtain ⟨c, rest, begins, noSequence⟩ := exists_text_of_sparesEscape spares
      have held : run .nothing (Press.text .escape) = .ok ([], .escape) := rfl
      have read := ih later
      rw [List.flatMap_cons, begins, List.cons_append] at read ⊢
      refine run_append_of_ok held ?_
      rw [run_escape noSequence, read]
      rfl
    · have later : Press.Placed presses := by cases p <;> first | exact placed | contradiction
      exact run_append_of_ok (run_press isEscape) (ih later)

end Held

namespace Decoder

theorem flatMap_bytes (presses : List Press) :
    presses.flatMap Press.bytes = Utf8.encode (presses.flatMap Press.text) := by
  rw [Utf8.encode, List.flatMap_assoc]
  rfl

/-- The bytes of placed presses, in whatever chunks they come, are the events of the presses, and
nothing is held after them. -/
theorem feedAll_presses {presses : List Press} (placed : Press.Placed presses)
    {chunks : List (List UInt8)} (sent : chunks.flatten = presses.flatMap Press.bytes) :
    feedAll {} chunks = (.ok (presses.map Press.event), {}) := by
  apply feedAll_eq_feed
  rw [sent, flatMap_bytes, feed, Utf8.decodeReplacing_encode, Held.run_presses placed]

/-- Escape keys before an escape key, before a sequence of either kind and before a character of
two bytes, and modifiers with control and without. -/
def mixedPresses : List Press :=
  [.escape, .escape, .modifiedArrow .left ⟨4, by decide⟩, .escape, .arrow .up ⟨'O', .inr rfl⟩,
    .escape, .typed ⟨'é', by decide⟩, .typed ⟨'[', by decide⟩, .letter ⟨'c', by decide⟩,
    .modifiedDelete ⟨9, by decide⟩, .enter ⟨'\n', .inr rfl⟩]

/-- The bytes of the presses, cut inside each sequence and inside the character of two bytes. -/
def mixedChunks : List (List UInt8) :=
  [[0x1B], [0x1B, 0x1B, 0x5B, 0x31, 0x3B], [0x35, 0x44, 0x1B, 0x1B], [], [0x4F],
    [0x41, 0x1B, 0xC3], [0xA9, 0x5B, 0x03, 0x1B, 0x5B, 0x33, 0x3B, 0x31], [0x30, 0x7E, 0x0A]]

theorem feedAll_presses_mixed :
    Press.Placed mixedPresses ∧ mixedChunks.flatten = mixedPresses.flatMap Press.bytes ∧
    feedAll {} mixedChunks =
      (.ok
        [.key .escape false, .key .escape false, .key .left true, .key .escape false,
          .key .up false, .key .escape false, ⟨.char ['é'], false⟩, ⟨.char ['['], false⟩,
          ⟨.char ['c'], true⟩, .key .delete false, .key .enter false],
        {}) := by
  have placed : Press.Placed mixedPresses := by
    simp [mixedPresses, Press.Placed, Press.SparesEscape]
  have sent : mixedChunks.flatten = mixedPresses.flatMap Press.bytes := by decide
  exact ⟨placed, sent, feedAll_presses placed sent⟩

end Decoder

end ChainShell
