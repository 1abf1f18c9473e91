/-
# ChainShell.Key.Stream — reading key events from the terminal

What the terminal delivers is a list of reads: a chunk of bytes, or a pause in which
nothing arrives.  A chunk without bytes, or the end of the list, is the end of input.
Only `readSize` bytes are taken at a time, so longer chunks arrive in portions.

While part of an escape sequence is held a pause makes the decoder give up on it; at
any other time a pause means nothing.
-/
import ChainShell.Key.Decoder

set_option autoImplicit false

namespace ChainShell

/-- The number of bytes taken from the terminal at a time. -/
def readSize : Nat := 1024

/-- One delivery of the terminal. -/
inductive Read where
  | pause
  | chunk (bytes : List UInt8)
  deriving DecidableEq, Repr

/-- The events that a terminal yields, and the error that ends them, if one does. -/
structure KeyStream where
  events : List KeyEvent
  fault : Option NumeralError := none
  deriving DecidableEq, Repr

namespace KeyStream

def prepend (events : List KeyEvent) (s : KeyStream) : KeyStream :=
  { s with events := events ++ s.events }

/-- The first `n` events alone, with the fault only if reading had to go that far. -/
def take (n : Nat) (s : KeyStream) : KeyStream :=
  if n ≤ s.events.length then ⟨s.events.take n, none⟩ else s

end KeyStream

/-- A chunk in portions of at most `readSize` bytes; an empty chunk stays one empty portion. -/
def portions (bytes : List UInt8) : List (List UInt8) :=
  if bytes.length ≤ readSize then [bytes]
  else bytes.take readSize :: portions (bytes.drop readSize)
termination_by bytes.length
decreasing_by simp only [List.length_drop, readSize] at *; omega

/-- The reads with every chunk cut into portions. -/
def Read.portioned (reads : List Read) : List Read :=
  reads.flatMap fun
    | .pause => [.pause]
    | .chunk bytes => (portions bytes).map .chunk

namespace Decoder

/-- The events of reads that fit into one portion each. -/
def readPortions (d : Decoder) : List Read → KeyStream
  | [] => ⟨d.flush.1, none⟩
  | .pause :: rest =>
    if d.pending then .prepend d.flush.1 (readPortions d.flush.2 rest) else readPortions d rest
  | .chunk [] :: _ => ⟨d.flush.1, none⟩
  | .chunk (b :: bytes) :: rest =>
    match d.feed (b :: bytes) with
    | (.error e, _) => ⟨[], some e⟩
    | (.ok events, next) => .prepend events (readPortions next rest)

end Decoder

/-- The events of what the terminal delivers. -/
def KeyStream.ofReads (reads : List Read) : KeyStream :=
  Decoder.readPortions {} (Read.portioned reads)

end ChainShell
