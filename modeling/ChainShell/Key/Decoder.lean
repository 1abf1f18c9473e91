/-
# ChainShell.Key.Decoder — from bytes to key events

Bytes are decoded as UTF-8 with U+FFFD for ill-formed pieces, and the characters
drive a machine that knows which part of an escape sequence it is in (`Held`):

* the escape character alone, which may still be the escape key;
* escape and `O`, which one more character completes;
* escape and `[`, which the first character from `@` to `~` completes.

Escape before any other character is the escape key, and that character is then
read on its own.  A complete sequence that names no key is dropped.  `A` to `D`
name the arrows and parameter 3 with `~` the delete key; after `[` a second
parameter is one more than a set of modifiers, in which 4 stands for control.

Whatever is held waits for more bytes; `flush` gives up on it, which turns a lone
escape character into the escape key.
-/
import ChainShell.Key.Basic
import ChainShell.Text.Lines
import ChainShell.Text.Numeral
import ChainShell.Text.Utf8

set_option autoImplicit false

namespace ChainShell

def escapeChar : Char := '\x1b'

/-- The part of an escape sequence that has been read. -/
inductive Held where
  | nothing
  | escape
  /-- The escape character and `O`. -/
  | single
  /-- The escape character, `[`, and the characters after it, the last one first. -/
  | control (reversed : Text)
  deriving DecidableEq, Repr

namespace Held

def text : Held → Text
  | nothing => []
  | escape => [escapeChar]
  | single => [escapeChar, 'O']
  | control reversed => escapeChar :: '[' :: reversed.reverse

/-! ## Single characters -/

/-- The event of a character outside escape sequences. -/
def plainEvent (c : Char) : KeyEvent :=
  if c = '\r' ∨ c = '\n' then .key .enter false
  else if c = '\t' then .key .tab false
  else if c = '\x7f' ∨ c = '\x08' then .key .backspace false
  else if c.toNat < 0x20 then ⟨.char [Char.ofNat (c.toNat + 0x60)], true⟩
  else ⟨.char [c], false⟩

/-- Reads a character while nothing is held. -/
def ground (c : Char) : List KeyEvent × Held :=
  if c = escapeChar then ([], escape) else ([plainEvent c], nothing)

/-! ## Complete sequences -/

/-- The arrow that a final character names. -/
def arrow? : Char → Option Key
  | 'A' => some .up
  | 'B' => some .down
  | 'C' => some .right
  | 'D' => some .left
  | _ => none

/-- The parameters of a control sequence. -/
def fields : Text → List Text
  | [] => [[]]
  | c :: rest => if c = ';' then [] :: fields rest else Text.consFirst c (fields rest)

/-- The bit for the control key in a set of modifiers. -/
def controlBit : Nat := 2

/-- Whether a modifier parameter, one more than a set of modifiers, has control in it.
One less than zero has every bit. -/
def hasControl (parameter : Nat) : Bool := parameter == 0 || (parameter - 1).testBit controlBit

/-- Whether the second parameter, if it is there and made of digits, has control in it. -/
def modifier (parameters : List Text) : Except NumeralError Bool :=
  match parameters with
  | _ :: digit :: _ =>
    if digit ≠ [] ∧ digit.all Text.isDigit then (Text.numeral digit).map hasControl else .ok false
  | _ => .ok false

/-- The event of a complete control sequence, if it names a key. -/
def sequenceEvent (parameters : Text) (final : Char) : Except NumeralError (Option KeyEvent) :=
  let parameters := fields parameters
  let key :=
    match arrow? final with
    | some arrow => some arrow
    | none => if final = '~' ∧ parameters.head? = some ['3'] then some .delete else none
  match key with
  | some key => (modifier parameters).map fun control => some (.key key control)
  | none => .ok none

/-- A character that completes a control sequence. -/
def isFinal (c : Char) : Bool := 0x40 ≤ c.toNat && c.toNat ≤ 0x7E

/-! ## The machine -/

/-- Reads a character: the events it completes, and what is held after it. -/
def step : Held → Char → Except NumeralError (List KeyEvent × Held)
  | nothing, c => .ok (ground c)
  | escape, c =>
    if c = 'O' then .ok ([], single)
    else if c = '[' then .ok ([], control [])
    else .ok (.key .escape false :: (ground c).1, (ground c).2)
  | single, c => .ok (((arrow? c).map fun arrow => KeyEvent.key arrow false).toList, nothing)
  | control reversed, c =>
    if isFinal c then
      (sequenceEvent reversed.reverse c).map fun event => (event.toList, nothing)
    else .ok ([], control (c :: reversed))

def run : Held → Text → Except NumeralError (List KeyEvent × Held)
  | held, [] => .ok ([], held)
  | held, c :: rest => do
    let now ← step held c
    let later ← run now.2 rest
    return (now.1 ++ later.1, later.2)

end Held

/-- A decoder between two chunks of bytes. -/
structure Decoder where
  utf8 : Utf8.State := .start
  held : Held := .nothing
  deriving DecidableEq, Repr

namespace Decoder

def pending (d : Decoder) : Bool := d.held != .nothing

/-- Decodes a chunk of bytes.  After an error the rest of the chunk and what was held are gone,
bytes of an incomplete character excepted. -/
def feed (d : Decoder) (bytes : List UInt8) : Except NumeralError (List KeyEvent) × Decoder :=
  let decoded := Utf8.decodeReplacing d.utf8 bytes
  match d.held.run decoded.1 with
  | .error e => (.error e, { utf8 := decoded.2 })
  | .ok (events, held) => (.ok events, { utf8 := decoded.2, held })

/-- Gives up on a sequence that is not complete. -/
def flush (d : Decoder) : List KeyEvent × Decoder :=
  (if d.held = .escape then [.key .escape false] else [], { d with held := .nothing })

end Decoder

end ChainShell
