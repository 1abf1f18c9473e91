/-
# ChainShell.Text.Utf8 — UTF-8, one byte at a time

The decoder is a machine that takes one byte a step and never looks back, so how a
byte string is cut into chunks cannot matter (`run_append`).  A step puts out the
characters it completes; an ill-formed piece is put out as `none`, once for each
longest piece that could have started a character.  Bytes of a character that is
not complete yet are held in the state.  So are the first two bytes of an encoded
surrogate: they are two ill-formed pieces, put out when the byte after them comes.

`decodeReplacing` writes U+FFFD for each ill-formed piece, `decode?` refuses the
whole text instead, and `encode` writes text as bytes.
-/
import ChainShell.Text.Basic

set_option autoImplicit false

namespace ChainShell.Utf8

/-- Where the decoder stands between two bytes. -/
inductive State where
  | start
  /-- Inside a character of value `bits` so far: a byte from `low` to `high` comes next and
  `more` further continuation bytes follow it. -/
  | inside (low high more bits : Nat)
  /-- After the byte 0xED, whose next byte tells characters below the surrogates from them. -/
  | afterED
  /-- After the first two bytes of an encoded surrogate. -/
  | surrogate
  deriving DecidableEq, Repr

/-- What the first byte of a character puts out, and where it leads. -/
def lead (b : Nat) : List (Option Char) × State :=
  if b < 0x80 then ([some (Char.ofNat b)], .start)
  else if 0xC2 ≤ b ∧ b ≤ 0xDF then ([], .inside 0x80 0xBF 0 (b - 0xC0))
  else if b = 0xE0 then ([], .inside 0xA0 0xBF 1 0)
  else if b = 0xED then ([], .afterED)
  else if 0xE1 ≤ b ∧ b ≤ 0xEF then ([], .inside 0x80 0xBF 1 (b - 0xE0))
  else if b = 0xF0 then ([], .inside 0x90 0xBF 2 0)
  else if 0xF1 ≤ b ∧ b ≤ 0xF3 then ([], .inside 0x80 0xBF 2 (b - 0xF0))
  else if b = 0xF4 then ([], .inside 0x80 0x8F 2 4)
  else ([none], .start)

/-- What one byte puts out, and where it leads.  A byte that cannot continue the character at
hand ends it as ill-formed and is read again as a first byte. -/
def step : State → Nat → List (Option Char) × State
  | .start, b => lead b
  | .inside low high more bits, b =>
    if low ≤ b ∧ b ≤ high then
      let value := bits * 0x40 + (b - 0x80)
      match more with
      | 0 => ([some (Char.ofNat value)], .start)
      | more + 1 => ([], .inside 0x80 0xBF more value)
    else (none :: (lead b).1, (lead b).2)
  | .afterED, b =>
    if 0x80 ≤ b ∧ b ≤ 0x9F then ([], .inside 0x80 0xBF 0 (0xD * 0x40 + (b - 0x80)))
    else if 0xA0 ≤ b ∧ b ≤ 0xBF then ([], .surrogate)
    else (none :: (lead b).1, (lead b).2)
  | .surrogate, b => (none :: none :: (lead b).1, (lead b).2)

/-- What a string of bytes puts out, and where it leads. -/
def run : State → List UInt8 → List (Option Char) × State
  | state, [] => ([], state)
  | state, b :: rest =>
    let now := step state b.toNat
    let later := run now.2 rest
    (now.1 ++ later.1, later.2)

theorem run_append (state : State) (a b : List UInt8) :
    run state (a ++ b) =
      ((run state a).1 ++ (run (run state a).2 b).1, (run (run state a).2 b).2) := by
  induction a generalizing state with
  | nil => simp [run]
  | cons x rest ih => simp [run, ih]

/-- The character that stands for an ill-formed piece. -/
def replacement : Char := '\ufffd'

/-- The text of the bytes, with U+FFFD for each ill-formed piece, and where they lead. -/
def decodeReplacing (state : State) (bytes : List UInt8) : Text × State :=
  ((run state bytes).1.map (·.getD replacement), (run state bytes).2)

/-- The text of well-formed bytes that end between two characters. -/
def decode? (bytes : List UInt8) : Option Text :=
  if (run .start bytes).2 = .start then (run .start bytes).1.mapM id else none

def encodeChar (c : Char) : List UInt8 :=
  let n := c.toNat
  if n < 0x80 then [n.toUInt8]
  else if n < 0x800 then [(0xC0 + n / 0x40).toUInt8, (0x80 + n % 0x40).toUInt8]
  else if n < 0x10000 then
    [(0xE0 + n / 0x1000).toUInt8, (0x80 + n / 0x40 % 0x40).toUInt8, (0x80 + n % 0x40).toUInt8]
  else
    [(0xF0 + n / 0x40000).toUInt8, (0x80 + n / 0x1000 % 0x40).toUInt8,
      (0x80 + n / 0x40 % 0x40).toUInt8, (0x80 + n % 0x40).toUInt8]

def encode (t : Text) : List UInt8 := t.flatMap encodeChar

end ChainShell.Utf8
