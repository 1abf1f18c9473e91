/-
# ChainShell.Proofs.Key.Chunks — where bytes are cut into chunks does not matter

A decoder holds two things between chunks, the bytes of a character that is not complete
and the characters of an escape sequence that is not complete, and nothing else of the
past.  Each of its two machines is a fold over what it is given, so reading a text in two
parts is reading it at once: for the bytes (`decodeReplacing_append`), for the characters
(`Held.run_append`), and so for the decoder (`feed_append`), wherever the cut falls.

An error ends the chunk in which it is met.  If the first part meets one, the whole does;
otherwise the second part decides, and the events of the two parts are those of the whole
(`feed_in_parts`).

`feedAll` feeds chunk after chunk; short of an error it is one feed of all the bytes
(`feedAll_eq_feed`), and the other way round (`feed_of_feedAll`).
-/
import ChainShell.Key.Decoder

set_option autoImplicit false

namespace ChainShell

theorem Utf8.decodeReplacing_append (state : State) (a b : List UInt8) :
    decodeReplacing state (a ++ b) =
      ((decodeReplacing state a).1 ++ (decodeReplacing (decodeReplacing state a).2 b).1,
        (decodeReplacing (decodeReplacing state a).2 b).2) := by
  simp only [decodeReplacing, run_append, List.map_append]

namespace Held

/-- Reading a text in two parts is reading it at once. -/
theorem run_append (held : Held) (a b : Text) :
    held.run (a ++ b) = do
      let now ← held.run a
      let later ← now.2.run b
      return (now.1 ++ later.1, later.2) := by
  induction a generalizing held with
  | nil => exact (bind_pure (held.run b)).symm
  | cons c a ih => simp only [List.cons_append, run, ih, bind_assoc, pure_bind, List.append_assoc]

theorem run_append_of_ok {held middle last : Held} {a b : Text} {first later : List KeyEvent}
    (here : held.run a = .ok (first, middle)) (there : middle.run b = .ok (later, last)) :
    held.run (a ++ b) = .ok (first ++ later, last) := by
  rw [run_append, here]
  simp only [bind, Except.bind, there]
  rfl

end Held

namespace Decoder

/-- Feeding a string of bytes in two parts.  After an error the machine of the bytes has read to
the end of its chunk and nothing else is held. -/
theorem feed_append (d : Decoder) (a b : List UInt8) :
    d.feed (a ++ b) =
      match d.feed a with
      | (.error e, next) => (.error e, { utf8 := (Utf8.decodeReplacing next.utf8 b).2 })
      | (.ok first, next) => ((next.feed b).1.map (first ++ ·), (next.feed b).2) := by
  simp only [feed, Utf8.decodeReplacing_append, Held.run_append]
  cases d.held.run (Utf8.decodeReplacing d.utf8 a).1 with
  | error e => rfl
  | ok now =>
    obtain ⟨first, held⟩ := now
    simp only [bind, Except.bind]
    cases held.run (Utf8.decodeReplacing (Utf8.decodeReplacing d.utf8 a).2 b).1 <;> rfl

theorem feed_append_of_error {d next : Decoder} {a : List UInt8} {e : NumeralError}
    (failed : d.feed a = (.error e, next)) (b : List UInt8) :
    (d.feed (a ++ b)).1 = .error e := by
  rw [feed_append, failed]

theorem feed_append_of_ok {d next : Decoder} {a : List UInt8} {first : List KeyEvent}
    (fed : d.feed a = (.ok first, next)) (b : List UInt8) :
    d.feed (a ++ b) = ((next.feed b).1.map (first ++ ·), (next.feed b).2) := by
  rw [feed_append, fed]

/-- From every state and for every cut: the whole fails with an error exactly when the first part
fails with it, or succeeds and the second part then fails with it; and the whole succeeds exactly
when both parts do, one after the other, with the events of both and the state of the second. -/
theorem feed_in_parts (d : Decoder) (a b : List UInt8) :
    (∀ e, (d.feed (a ++ b)).1 = .error e ↔
      (d.feed a).1 = .error e ∨
        ∃ first middle, d.feed a = (.ok first, middle) ∧ (middle.feed b).1 = .error e) ∧
    ∀ events last, d.feed (a ++ b) = (.ok events, last) ↔
      ∃ first middle later, d.feed a = (.ok first, middle) ∧
        middle.feed b = (.ok later, last) ∧ events = first ++ later := by
  rcases fed : d.feed a with ⟨e | first, middle⟩
  · have failed := feed_append_of_error fed b
    refine ⟨fun e' => by simp [failed], fun events last => ?_⟩
    have notOk : d.feed (a ++ b) ≠ (.ok events, last) := fun whole => by simp [whole] at failed
    simp [notOk]
  · rw [feed_append_of_ok fed]
    rcases there : middle.feed b with ⟨e | later, last⟩
    · simp [Except.map, and_assoc, there]
    · refine ⟨fun e' => by simp [Except.map, and_assoc, there], fun events last' => ?_⟩
      simp only [Except.map, Prod.mk.injEq, Except.ok.injEq]
      constructor
      · rintro ⟨rfl, rfl⟩
        exact ⟨first, middle, later, ⟨rfl, rfl⟩, there, rfl⟩
      · rintro ⟨_, _, later', ⟨rfl, rfl⟩, there', rfl⟩
        obtain ⟨rfl, rfl⟩ : later = later' ∧ last = last' := by simpa [there] using there'
        exact ⟨rfl, rfl⟩

/-! ## Chunk after chunk -/

/-- Feeds chunk after chunk, up to the first error. -/
def feedAll (d : Decoder) : List (List UInt8) → Except NumeralError (List KeyEvent) × Decoder
  | [] => (.ok [], d)
  | chunk :: rest =>
    match d.feed chunk with
    | (.error e, next) => (.error e, next)
    | (.ok first, next) => ((next.feedAll rest).1.map (first ++ ·), (next.feedAll rest).2)

/-- If all the bytes at once give events, so do the chunks, and they leave the same behind. -/
theorem feedAll_eq_feed {d last : Decoder} {chunks : List (List UInt8)} {events : List KeyEvent}
    (whole : d.feed chunks.flatten = (.ok events, last)) :
    d.feedAll chunks = (.ok events, last) := by
  induction chunks generalizing d events with
  | nil => exact whole
  | cons chunk rest ih =>
    rw [List.flatten_cons] at whole
    rcases fed : d.feed chunk with ⟨e | first, next⟩
    · have failed := feed_append_of_error fed rest.flatten
      rw [whole] at failed
      contradiction
    · rw [feed_append_of_ok fed] at whole
      rcases there : next.feed rest.flatten with ⟨e | later, last'⟩
      · simp [Except.map, there] at whole
      · simp only [there, Except.map, Prod.mk.injEq, Except.ok.injEq] at whole
        obtain ⟨rfl, rfl⟩ := whole
        simp only [feedAll, fed, ih there]
        rfl

/-- Fed in chunks without an error, the bytes give what they give at once. -/
theorem feed_of_feedAll {d last : Decoder} {chunks : List (List UInt8)} {events : List KeyEvent}
    (fed : d.feedAll chunks = (.ok events, last)) :
    d.feed chunks.flatten = (.ok events, last) := by
  induction chunks generalizing d events with
  | nil => exact fed
  | cons chunk rest ih =>
    rw [feedAll] at fed
    split at fed
    · simp at fed
    · rename_i first next here
      rcases later : next.feedAll rest with ⟨e | others, last'⟩
      · simp [later, Except.map] at fed
      · simp only [later, Except.map, Prod.mk.injEq, Except.ok.injEq] at fed
        obtain ⟨rfl, rfl⟩ := fed
        rw [List.flatten_cons, feed_append_of_ok here, ih later]
        rfl

end Decoder

end ChainShell
