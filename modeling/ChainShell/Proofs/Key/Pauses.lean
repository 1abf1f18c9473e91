/-
# ChainShell.Proofs.Key.Pauses — chunk boundaries and pauses in what the terminal delivers

Each turn of the loop that reads keys either waits or takes bytes (`Decoder.Yields`).  It
waits only while part of an escape sequence is held, and then a pause in front makes the
decoder give up on it.  Otherwise it passes over the pauses in front and takes a chunk, at
most `limit` bytes of it; what is more stays in front.  `KeyStream.ofReads` is this loop
with the limit `readSize`, and the loop ends on all reads (`yields_readSize_iff`).

The events depend on less than the reads.  `Decoder.listen` feeds a decoder the bytes one by
one and flushes it at each pause at which something is held, so it sees no chunks, only bytes
and pauses (`Read.arrivals`).  If no chunk is empty, the loop yields what the decoder hears,
whatever the limit is (`Yields.follows`).  So chunks may be cut and joined, a pause may be
repeated, and a pause at which nothing is held may come and go (`Redelivery`): the events
stay the same (`ofReads_of_decodes`).
-/
import ChainShell.Proofs.Key.Stream
import Mathlib.Logic.Relation

set_option autoImplicit false

namespace ChainShell

/-! ## One decoder, byte by byte -/

/-- What the terminal delivers, without the chunks. -/
inductive Arrival where
  | byte (b : UInt8)
  | pause
  deriving DecidableEq, Repr

namespace Read

/-- The bytes and pauses of the reads, in order. -/
def arrivals (reads : List Read) : List Arrival :=
  reads.flatMap fun
    | .pause => [.pause]
    | .chunk bytes => bytes.map .byte

theorem arrivals_append (a b : List Read) :
    arrivals (a ++ b) = arrivals a ++ arrivals b := List.flatMap_append

theorem arrivals_chunks (parts : List (List UInt8)) :
    arrivals (parts.map .chunk) = parts.flatten.map .byte := by
  rw [arrivals, List.flatMap_map, List.map_flatten, List.flatMap]

end Read

namespace Decoder

/-- The events of a chunk and the decoder after it, unless the chunk has an error. -/
def fed (d : Decoder) (bytes : List UInt8) : Except NumeralError (List KeyEvent × Decoder) :=
  (d.feed bytes).1.map fun events => (events, (d.feed bytes).2)

/-- A pause makes the decoder give up on what it holds, if it holds anything. -/
def hush (d : Decoder) : List KeyEvent × Decoder := if d.pending then d.flush else ([], d)

def hear (d : Decoder) : Arrival → Except NumeralError (List KeyEvent × Decoder)
  | .byte b => d.fed [b]
  | .pause => .ok d.hush

/-- Hears one arrival after the other, up to the first error. -/
def listen : Decoder → List Arrival → Except NumeralError (List KeyEvent × Decoder)
  | d, [] => .ok ([], d)
  | d, arrival :: rest => do
    let now ← d.hear arrival
    let later ← now.2.listen rest
    return (now.1 ++ later.1, later.2)

theorem listen_append (d : Decoder) (a b : List Arrival) :
    d.listen (a ++ b) = do
      let now ← d.listen a
      let later ← now.2.listen b
      return (now.1 ++ later.1, later.2) := by
  induction a generalizing d with
  | nil => exact (bind_pure (d.listen b)).symm
  | cons arrival a ih =>
    simp only [List.cons_append, listen, ih, bind_assoc, pure_bind, List.append_assoc]

theorem fed_append (d : Decoder) (a b : List UInt8) :
    d.fed (a ++ b) = do
      let now ← d.fed a
      let later ← now.2.fed b
      return (now.1 ++ later.1, later.2) := by
  rcases here : d.feed a with ⟨e | first, next⟩
  · have failed := feed_append_of_error here b
    simp only [fed, here, failed, Except.map, bind, Except.bind]
  · rw [fed, fed, feed_append_of_ok here, here]
    simp only [fed, Except.map, bind, Except.bind]
    cases (next.feed b).1 <;> rfl

/-- Byte by byte is all bytes at once. -/
theorem listen_bytes (d : Decoder) (bytes : List UInt8) :
    d.listen (bytes.map .byte) = d.fed bytes := by
  induction bytes generalizing d with
  | nil => rfl
  | cons b bytes ih =>
    rw [← List.singleton_append, fed_append]
    simp only [List.singleton_append, List.map_cons, listen, hear, ih]

theorem pending_hush (d : Decoder) : d.hush.2.pending = false := by
  rw [hush]
  split
  · rfl
  · rename_i idle
    exact Bool.not_eq_true _ ▸ idle

theorem listen_pause_of_idle {d : Decoder} (idle : d.pending = false) (rest : List Arrival) :
    d.listen (.pause :: rest) = d.listen rest := by
  have quiet : d.hush = ([], d) := by simp [hush, idle]
  simp only [listen, hear, quiet]
  exact bind_pure (d.listen rest)

/-- Nothing is left to give up on at a second pause. -/
theorem listen_pause_pause (d : Decoder) (rest : List Arrival) :
    d.listen (.pause :: .pause :: rest) = d.listen (.pause :: rest) := by
  rw [listen, listen]
  simp only [hear, bind, Except.bind, listen_pause_of_idle (pending_hush d)]

end Decoder

/-! ## The loop -/

namespace Read

/-- What one read takes, at most `limit` bytes, and what it leaves; it passes over pauses. -/
def next (limit : Nat) : List Read → List UInt8 × List Read
  | [] => ([], [])
  | .pause :: rest => next limit rest
  | .chunk bytes :: rest =>
    (bytes.take limit, if bytes.length ≤ limit then rest else .chunk (bytes.drop limit) :: rest)

variable {limit : Nat} {reads rest : List Read} {bytes : List UInt8}

theorem length_of_next (positive : 0 < limit) (taken : next limit reads = (bytes, rest))
    (present : bytes ≠ []) :
    rest.length + (Read.bytes rest).length < reads.length + (Read.bytes reads).length := by
  induction reads with
  | nil =>
    obtain ⟨rfl, rfl⟩ := Prod.mk.inj taken
    contradiction
  | cons read reads ih =>
    cases read with
    | pause =>
      have shorter := ih taken
      simp only [Read.bytes, List.flatMap_cons, List.length_cons, List.nil_append] at shorter ⊢
      omega
    | chunk chunk =>
      obtain ⟨rfl, rfl⟩ := Prod.mk.inj taken
      simp only [Read.bytes, List.flatMap_cons, List.length_cons, List.length_append]
      split
      · omega
      · simp only [List.flatMap_cons, List.length_cons, List.length_append, List.length_drop]
        omega

theorem present_of_next (positive : 0 < limit) (present : .chunk [] ∉ reads)
    (taken : next limit reads = (bytes, rest)) :
    .chunk [] ∉ rest ∧ (bytes = [] → rest = []) := by
  induction reads with
  | nil =>
    obtain ⟨rfl, rfl⟩ := Prod.mk.inj taken
    exact ⟨present, fun _ => rfl⟩
  | cons read reads ih =>
    rw [List.mem_cons, not_or] at present
    cases read with
    | pause => exact ih present.2 taken
    | chunk chunk =>
      obtain ⟨rfl, rfl⟩ := Prod.mk.inj taken
      have some : chunk ≠ [] := fun none => present.1 (none ▸ rfl)
      have limited : limit ≠ 0 := Nat.ne_of_gt positive
      refine ⟨?_, by simp [some, limited]⟩
      split
      · exact present.2
      · rename_i long
        simp [present.2, Nat.lt_of_not_le long]

end Read

namespace Decoder

/-- The loop need not wait any longer: nothing is held, or there is no pause in front. -/
def Ready (d : Decoder) (reads : List Read) : Prop := d.pending = true → reads.head? ≠ some .pause

/-- The turns of the loop that reads keys, at most `limit` bytes at a time, and what it yields in
all. -/
inductive Yields (limit : Nat) : Decoder → List Read → KeyStream → Prop where
  | timeout {d : Decoder} {rest : List Read} {later : KeyStream} (held : d.pending = true)
      (goesOn : Yields limit d.flush.2 rest later) :
    Yields limit d (.pause :: rest) (.prepend d.flush.1 later)
  | ended {d : Decoder} {reads rest : List Read} (ready : d.Ready reads)
      (taken : Read.next limit reads = ([], rest)) :
    Yields limit d reads ⟨d.flush.1, none⟩
  | failed {d next : Decoder} {reads rest : List Read} {bytes : List UInt8} {e : NumeralError}
      (ready : d.Ready reads) (taken : Read.next limit reads = (bytes, rest)) (present : bytes ≠ [])
      (failed : d.feed bytes = (.error e, next)) :
    Yields limit d reads ⟨[], some e⟩
  | fed {d next : Decoder} {reads rest : List Read} {bytes : List UInt8} {events : List KeyEvent}
      {later : KeyStream} (ready : d.Ready reads) (taken : Read.next limit reads = (bytes, rest))
      (present : bytes ≠ []) (fed : d.feed bytes = (.ok events, next))
      (goesOn : Yields limit next rest later) :
    Yields limit d reads (.prepend events later)

variable {limit : Nat} {d : Decoder} {reads rest : List Read} {bytes : List UInt8}
  {stream : KeyStream}

theorem Ready.of_idle (idle : d.pending = false) : d.Ready reads := by simp [Ready, idle]

theorem Ready.idle (ready : d.Ready (.pause :: rest)) : d.pending = false := by
  simpa [Ready] using ready

/-! ### What a read takes -/

/-- A decoder that is ready hears the bytes of the next read and then the rest. -/
theorem listen_of_next (ready : d.Ready reads) (taken : Read.next limit reads = (bytes, rest)) :
    d.listen (Read.arrivals reads) = d.listen (bytes.map .byte ++ Read.arrivals rest) := by
  induction reads with
  | nil =>
    obtain ⟨rfl, rfl⟩ := Prod.mk.inj taken
    rfl
  | cons read reads ih =>
    cases read with
    | pause =>
      -- The read passes over the pause, and the decoder holds nothing when it hears it.
      have passed : d.listen (Read.arrivals (.pause :: reads)) = d.listen (Read.arrivals reads) :=
        listen_pause_of_idle ready.idle _
      rw [passed]
      exact ih (.of_idle ready.idle) taken
    | chunk chunk =>
      obtain ⟨rfl, rfl⟩ := Prod.mk.inj taken
      congr 1
      split
      · rename_i short
        rw [List.take_of_length_le short]
        rfl
      · simp only [Read.arrivals, List.flatMap_cons]
        rw [← List.append_assoc, ← List.map_append, List.take_append_drop]

theorem readPortions_of_next (ready : d.Ready reads)
    (taken : Read.next readSize reads = (bytes, rest)) :
    d.readPortions (Read.portioned reads) =
      d.readPortions (.chunk bytes :: Read.portioned rest) := by
  induction reads with
  | nil =>
    obtain ⟨rfl, rfl⟩ := Prod.mk.inj taken
    rfl
  | cons read reads ih =>
    cases read with
    | pause =>
      have passed : d.readPortions (Read.portioned (.pause :: reads)) =
          d.readPortions (Read.portioned reads) := if_neg (by simp [ready.idle])
      rw [passed]
      exact ih (.of_idle ready.idle) taken
    | chunk chunk =>
      obtain ⟨rfl, rfl⟩ := Prod.mk.inj taken
      congr 1
      simp only [Read.portioned, List.flatMap_cons]
      split
      · rename_i short
        rw [portions_of_short short, List.take_of_length_le short]
        rfl
      · rename_i long
        rw [portions_of_long long]
        rfl

/-! ### The loop ends -/

theorem exists_yields (positive : 0 < limit) (d : Decoder) (reads : List Read) :
    ∃ stream, Yields limit d reads stream := by
  -- A timeout takes a pause away, and a read takes bytes away.
  induction size : reads.length + (Read.bytes reads).length using Nat.strongRecOn
    generalizing d reads with
  | ind size ih =>
    subst size
    by_cases ready : d.Ready reads
    · rcases taken : Read.next limit reads with ⟨bytes, rest⟩
      by_cases present : bytes = []
      · subst present
        exact ⟨_, .ended ready taken⟩
      · rcases fed : d.feed bytes with ⟨e | events, next⟩
        · exact ⟨_, .failed ready taken present fed⟩
        · obtain ⟨later, goesOn⟩ := ih _ (Read.length_of_next positive taken present) next rest rfl
          exact ⟨_, .fed ready taken present fed goesOn⟩
    · obtain ⟨held, front⟩ := Classical.not_imp.1 ready
      obtain ⟨rest, rfl⟩ := List.head?_eq_some_iff.1 (not_not.1 front)
      have shorter : rest.length + (Read.bytes rest).length <
          (Read.pause :: rest).length + (Read.bytes (.pause :: rest)).length := by
        simp [Read.bytes]
      obtain ⟨later, goesOn⟩ := ih _ shorter d.flush.2 rest rfl
      exact ⟨_, .timeout held goesOn⟩

theorem Yields.eq_readPortions (yields : Yields readSize d reads stream) :
    stream = d.readPortions (Read.portioned reads) := by
  induction yields with
  | timeout held goesOn ih =>
    rw [ih]
    exact (if_pos held).symm
  | ended ready taken =>
    rw [readPortions_of_next ready taken]
    rfl
  | @failed d next reads rest bytes e ready taken present failed =>
    obtain ⟨b, bytes, rfl⟩ := List.exists_cons_of_ne_nil present
    rw [readPortions_of_next ready taken, readPortions, failed]
  | @fed d next reads rest bytes events later ready taken present fed goesOn ih =>
    obtain ⟨b, bytes, rfl⟩ := List.exists_cons_of_ne_nil present
    rw [readPortions_of_next ready taken, readPortions, fed, ih]

/-- The loop ends, and yields the stream of the reads. -/
theorem yields_readSize_iff :
    Yields readSize {} reads stream ↔ stream = KeyStream.ofReads reads := by
  constructor
  · exact Yields.eq_readPortions
  · rintro rfl
    have positive : 0 < readSize := by decide
    obtain ⟨stream, yields⟩ := exists_yields positive {} reads
    rwa [yields.eq_readPortions] at yields

end Decoder

/-! ## The loop yields what one decoder hears -/

/-- The stream has the events that a decoder hears and those of its flush at the end, or, if the
decoder meets an error, ends with the error. -/
def KeyStream.Follows (stream : KeyStream) : Except NumeralError (List KeyEvent × Decoder) → Prop
  | .ok (events, last) => stream = ⟨events ++ last.flush.1, none⟩
  | .error e => stream.fault = some e

namespace Decoder

variable {limit : Nat} {d : Decoder} {reads : List Read} {stream : KeyStream}

theorem follows_prepend {heard : Except NumeralError (List KeyEvent × Decoder)}
    (follows : stream.Follows heard) (events : List KeyEvent) :
    (stream.prepend events).Follows do
      let later ← heard
      return (events ++ later.1, later.2) := by
  cases heard with
  | error e => exact follows
  | ok heard =>
    obtain rfl : stream = _ := follows
    simp [KeyStream.Follows, KeyStream.prepend, bind, Except.bind, pure, Except.pure]

theorem Yields.follows (positive : 0 < limit) (present : .chunk [] ∉ reads)
    (yields : Yields limit d reads stream) :
    stream.Follows (d.listen (Read.arrivals reads)) := by
  -- By the turns of the loop: what a turn yields is heard before what the later ones yield.
  induction yields with
  | @timeout d rest later held goesOn ih =>
    have hushed : d.hush = d.flush := if_pos held
    have later := ih fun member => present (List.mem_cons_of_mem _ member)
    rw [← hushed] at later ⊢
    exact follows_prepend later d.hush.1
  | @ended d reads rest ready taken =>
    obtain rfl := (Read.present_of_next positive present taken).2 rfl
    rw [listen_of_next ready taken]
    rfl
  | @failed d next reads rest bytes e ready taken some failed =>
    rw [listen_of_next ready taken, listen_append, listen_bytes, Decoder.fed, failed]
    rfl
  | @fed d next reads rest bytes events later ready taken some fed goesOn ih =>
    have later := ih (Read.present_of_next positive present taken).1
    rw [listen_of_next ready taken, listen_append, listen_bytes, Decoder.fed, fed]
    exact follows_prepend later events

theorem follows_ofReads (present : .chunk [] ∉ reads) :
    (KeyStream.ofReads reads).Follows (listen {} (Read.arrivals reads)) :=
  (yields_readSize_iff.2 rfl).follows (by decide) present

end Decoder

/-! ## Deliveries that differ in chunks and pauses -/

/-- The second delivery cuts a chunk of the first into chunks with bytes, repeats one of its pauses,
or has one pause more, at a point at which nothing is held. -/
inductive Redelivery : List Read → List Read → Prop where
  | cut {before after : List Read} {parts : List (List UInt8)} (some : parts ≠ [])
      (present : [] ∉ parts) :
    Redelivery (before ++ .chunk parts.flatten :: after) (before ++ (parts.map .chunk ++ after))
  | repeated {before after : List Read} :
    Redelivery (before ++ .pause :: after) (before ++ .pause :: .pause :: after)
  | idle {before after : List Read} {events : List KeyEvent} {d : Decoder}
      (heard : Decoder.listen {} (Read.arrivals before) = .ok (events, d))
      (idle : d.pending = false) :
    Redelivery (before ++ after) (before ++ .pause :: after)

namespace Redelivery

variable {reads other : List Read}

theorem listen_eq (redelivery : Redelivery reads other) :
    Decoder.listen {} (Read.arrivals other) = Decoder.listen {} (Read.arrivals reads) := by
  cases redelivery with
  | cut some present =>
    rw [Read.arrivals_append, Read.arrivals_append, Read.arrivals_append, Read.arrivals_chunks]
    rfl
  | repeated =>
    rw [Read.arrivals_append, Read.arrivals_append, Decoder.listen_append, Decoder.listen_append]
    congr 1
    funext now
    congr 1
    exact Decoder.listen_pause_pause _ _
  | idle heard idle =>
    rw [Read.arrivals_append, Read.arrivals_append, Decoder.listen_append, Decoder.listen_append,
      heard]
    simp only [bind, Except.bind]
    congr 1
    exact Decoder.listen_pause_of_idle idle _

theorem empty_mem_iff (redelivery : Redelivery reads other) :
    .chunk [] ∈ other ↔ .chunk [] ∈ reads := by
  cases redelivery with
  | @cut before after parts some present =>
    have whole : parts.flatten ≠ [] := by
      obtain ⟨part, inside⟩ := List.exists_mem_of_ne_nil parts some
      intro empty
      exact present (List.flatten_eq_nil_iff.1 empty part inside ▸ inside)
    simp [whole, present]
  | repeated => simp
  | idle heard idle => simp

/-- The same goes for any number of such changes, made or taken back. -/
theorem listen_eq_of_eqvGen (deliveries : Relation.EqvGen Redelivery reads other) :
    Decoder.listen {} (Read.arrivals other) = Decoder.listen {} (Read.arrivals reads) ∧
      (.chunk [] ∈ other ↔ .chunk [] ∈ reads) := by
  induction deliveries with
  | rel a b redelivery => exact ⟨redelivery.listen_eq, redelivery.empty_mem_iff⟩
  | refl a => exact ⟨rfl, Iff.rfl⟩
  | symm a b deliveries ih => exact ⟨ih.1.symm, ih.2.symm⟩
  | trans a b c first later ih ih' => exact ⟨ih'.1.trans ih.1, ih'.2.trans ih.2⟩

end Redelivery

namespace KeyStream

variable {reads other : List Read}

/-- Without empty chunks and without an error, the loop ends, however many bytes it takes at a
time, and yields the events of one decoder that hears the bytes one by one, gives up on what it
holds at each pause, and is flushed at the end.  So the same goes for what is delivered in other
chunks and with other pauses. -/
theorem ofReads_of_decodes (present : .chunk [] ∉ reads) (decodes : (ofReads reads).fault = none) :
    (∃ events last, Decoder.listen {} (Read.arrivals reads) = .ok (events, last) ∧
      ofReads reads = ⟨events ++ last.flush.1, none⟩) ∧
    (∀ limit, 0 < limit → ∀ stream,
      Decoder.Yields limit {} reads stream ↔ stream = ofReads reads) ∧
    ∀ other, Relation.EqvGen Redelivery reads other → ofReads other = ofReads reads := by
  have follows := Decoder.follows_ofReads present
  cases heard : Decoder.listen {} (Read.arrivals reads) with
  | error e =>
    rw [heard] at follows
    have failed : (ofReads reads).fault = some e := follows
    rw [decodes] at failed
    contradiction
  | ok heardEvents =>
    obtain ⟨events, last⟩ := heardEvents
    have determined : ∀ stream : KeyStream,
        stream.Follows (Decoder.listen {} (Read.arrivals reads)) → stream = ofReads reads := by
      intro stream follows'
      rw [heard] at follows follows'
      exact Eq.trans follows' follows.symm
    refine ⟨⟨events, last, rfl, by rwa [heard] at follows⟩, ?_, ?_⟩
    · intro limit positive stream
      constructor
      · exact fun yields => determined stream (yields.follows positive present)
      · rintro rfl
        obtain ⟨stream, yields⟩ := Decoder.exists_yields positive {} reads
        rwa [determined stream (yields.follows positive present)] at yields
    · intro other deliveries
      obtain ⟨same, empty⟩ := Redelivery.listen_eq_of_eqvGen deliveries
      have follows' := Decoder.follows_ofReads (mt empty.1 present)
      rw [same] at follows'
      exact determined _ follows'

/-- An `a` and an escape character, a pause, and what would have made an arrow of the escape
character without the pause. -/
def lateArrow : List Read := [.chunk [0x61, 0x1B], .pause, .chunk [0x5B, 0x41]]

theorem ofReads_lateArrow :
    .chunk [] ∉ lateArrow ∧
    ofReads lateArrow = ⟨[⟨.char ['a'], false⟩, ⟨.key .escape, false⟩, ⟨.char ['['], false⟩,
      ⟨.char ['A'], false⟩], none⟩ ∧
    ofReads [.chunk [0x61], .pause, .chunk [0x1B], .pause, .pause, .chunk [0x5B, 0x41]] =
      ofReads lateArrow := by
  have present : .chunk [] ∉ lateArrow := by decide
  have portioned : Read.portioned lateArrow = lateArrow := by
    simp (disch := decide) [Read.portioned, lateArrow, portions_of_short]
  have events : ofReads lateArrow = ⟨[⟨.char ['a'], false⟩, ⟨.key .escape, false⟩,
      ⟨.char ['['], false⟩, ⟨.char ['A'], false⟩], none⟩ := by
    rw [ofReads, portioned]
    decide +kernel
  have decodes : (ofReads lateArrow).fault = none := by rw [events]
  have cut : Redelivery lateArrow
      [.chunk [0x61], .chunk [0x1B], .pause, .chunk [0x5B, 0x41]] :=
    @Redelivery.cut [] [.pause, .chunk [0x5B, 0x41]] [[0x61], [0x1B]] (by decide) (by decide)
  have idle : Redelivery [.chunk [0x61], .chunk [0x1B], .pause, .chunk [0x5B, 0x41]]
      [.chunk [0x61], .pause, .chunk [0x1B], .pause, .chunk [0x5B, 0x41]] :=
    @Redelivery.idle [.chunk [0x61]] [.chunk [0x1B], .pause, .chunk [0x5B, 0x41]]
      [⟨.char ['a'], false⟩] {} rfl rfl
  have repeated : Redelivery [.chunk [0x61], .pause, .chunk [0x1B], .pause, .chunk [0x5B, 0x41]]
      [.chunk [0x61], .pause, .chunk [0x1B], .pause, .pause, .chunk [0x5B, 0x41]] :=
    @Redelivery.repeated [.chunk [0x61], .pause, .chunk [0x1B]] [.chunk [0x5B, 0x41]]
  refine ⟨present, events, (ofReads_of_decodes present decodes).2.2 _ ?_⟩
  exact .trans _ _ _ (.rel _ _ cut) (.trans _ _ _ (.rel _ _ idle) (.rel _ _ repeated))

end KeyStream

end ChainShell
