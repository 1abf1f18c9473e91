/-
# ChainShell.Proofs.Key.Stream — what the terminal delivers when nothing is escaped

A chunk that is longer than one read comes in portions, and the portions are the chunk
(`flatten_portions`); a chunk with bytes has no portion without (`ne_nil_of_mem_portions`),
so none is taken for the end of input.

If no escape character is sent, nothing is ever held, so a pause means nothing, and each
character is an event of its own, wherever the bytes are cut
(`readPortions_of_unescaped`).  So the stream of a text without escape characters is that of
its characters (`ofReads_of_unescaped`).

Whatever is sent, an event that is not that of a key is one of a single character
(`single_of_ofReads`).
-/
import ChainShell.Key.Stream
import ChainShell.Proofs.Key.Chunks
import ChainShell.Proofs.Text.Utf8

set_option autoImplicit false

namespace ChainShell

/-! ## Portions -/

theorem portions_of_short {bytes : List UInt8} (short : bytes.length ≤ readSize) :
    portions bytes = [bytes] := by
  rw [portions, if_pos short]

theorem portions_of_long {bytes : List UInt8} (long : ¬ bytes.length ≤ readSize) :
    portions bytes = bytes.take readSize :: portions (bytes.drop readSize) := by
  rw [portions, if_neg long]

theorem flatten_portions (bytes : List UInt8) : (portions bytes).flatten = bytes := by
  induction bytes using portions.induct with
  | case1 bytes short => rw [portions_of_short short, List.flatten_singleton]
  | case2 bytes long ih =>
    rw [portions_of_long long, List.flatten_cons, ih, List.take_append_drop]

theorem ne_nil_of_mem_portions {bytes portion : List UInt8} (present : bytes ≠ [])
    (member : portion ∈ portions bytes) : portion ≠ [] := by
  induction bytes using portions.induct with
  | case1 bytes short =>
    rw [portions_of_short short, List.mem_singleton] at member
    exact member ▸ present
  | case2 bytes long ih =>
    rw [portions_of_long long] at member
    rcases List.mem_cons.1 member with rfl | member
    · simp [present, readSize]
    · refine ih ?_ member
      simpa using long

namespace Read

/-- The bytes of all chunks. -/
def bytes (reads : List Read) : List UInt8 :=
  reads.flatMap fun
    | .pause => []
    | .chunk bytes => bytes

theorem bytes_portioned (reads : List Read) : bytes (portioned reads) = bytes reads := by
  rw [bytes, bytes, portioned, List.flatMap_assoc]
  congr 1
  funext read
  cases read with
  | pause => rfl
  | chunk bytes => rw [List.flatMap_map, List.flatMap_id', flatten_portions]

theorem nil_not_mem_portioned {reads : List Read} (present : .chunk [] ∉ reads) :
    .chunk [] ∉ portioned reads := by
  rintro member
  obtain ⟨read, found, inside⟩ := List.mem_flatMap.1 member
  cases read with
  | pause => simp at inside
  | chunk bytes =>
    obtain ⟨portion, inPortions, same⟩ := List.mem_map.1 inside
    have notEmpty : bytes ≠ [] := fun empty => present (empty ▸ found)
    exact ne_nil_of_mem_portions notEmpty inPortions (Read.chunk.inj same)

end Read

/-! ## Text without escape characters -/

theorem Held.run_of_unescaped {t : Text} (unescaped : escapeChar ∉ t) :
    run .nothing t = .ok (t.map plainEvent, .nothing) := by
  induction t with
  | nil => rfl
  | cons c rest ih =>
    rw [List.mem_cons, not_or] at unescaped
    rw [run, step, ground, if_neg (Ne.symm unescaped.1)]
    simp only [bind, Except.bind, ih unescaped.2]
    rfl

namespace Decoder

theorem readPortions_of_unescaped {d : Decoder} {reads : List Read} (idle : d.held = .nothing)
    (present : .chunk [] ∉ reads)
    (unescaped : escapeChar ∉ (Utf8.decodeReplacing d.utf8 (Read.bytes reads)).1) :
    d.readPortions reads =
      ⟨(Utf8.decodeReplacing d.utf8 (Read.bytes reads)).1.map Held.plainEvent, none⟩ := by
  induction reads generalizing d with
  | nil =>
    rw [readPortions, flush, idle]
    rfl
  | cons read rest ih =>
    have later : .chunk [] ∉ rest := fun member => present (List.mem_cons_of_mem _ member)
    cases read with
    | pause =>
      have notPending : ¬ d.pending = true := by simp [pending, idle]
      rw [readPortions, if_neg notPending]
      exact ih idle later unescaped
    | chunk bytes =>
      cases bytes with
      | nil => exact absurd List.mem_cons_self present
      | cons b bytes =>
        have whole : Read.bytes (.chunk (b :: bytes) :: rest) = (b :: bytes) ++ Read.bytes rest :=
          rfl
        rw [whole, Utf8.decodeReplacing_append] at unescaped ⊢
        rw [List.mem_append, not_or] at unescaped
        let next : Decoder := { utf8 := (Utf8.decodeReplacing d.utf8 (b :: bytes)).2 }
        have fed : d.feed (b :: bytes) =
            (.ok ((Utf8.decodeReplacing d.utf8 (b :: bytes)).1.map Held.plainEvent), next) := by
          simp only [feed, idle, Held.run_of_unescaped unescaped.1, next]
        have after : next.readPortions rest = _ := ih rfl later unescaped.2
        rw [readPortions, fed]
        simp only [after, KeyStream.prepend, List.map_append, next]

end Decoder

/-- Sent without escape characters, a text is its characters, however it is delivered. -/
theorem KeyStream.ofReads_of_unescaped {reads : List Read} {t : Text}
    (present : .chunk [] ∉ reads) (sent : Read.bytes reads = Utf8.encode t)
    (unescaped : escapeChar ∉ t) : ofReads reads = ⟨t.map Held.plainEvent, none⟩ := by
  have decoded : (Utf8.decodeReplacing .start (Read.bytes (Read.portioned reads))).1 = t := by
    rw [Read.bytes_portioned, sent, Utf8.decodeReplacing_encode]
  have events := Decoder.readPortions_of_unescaped (d := {}) rfl
    (Read.nil_not_mem_portioned present) (by rwa [decoded])
  rwa [decoded] at events

/-! ## Single characters -/

/-- What the event types, if it types anything, is a single character. -/
def KeyEvent.Single (e : KeyEvent) : Prop := ∀ text, e.stroke = .char text → text.length = 1

namespace Held

theorem single_key (key : Key) (control : Bool) : (KeyEvent.key key control).Single := nofun

theorem single_plainEvent (c : Char) : (plainEvent c).Single := by
  have typed : ∀ (c : Char) (control : Bool), KeyEvent.Single ⟨.char [c], control⟩ := by
    intro c control text same
    rw [← Stroke.char.inj same]
    rfl
  unfold plainEvent
  split
  · exact single_key _ _
  · split
    · exact single_key _ _
    · split
      · exact single_key _ _
      · split <;> exact typed _ _

theorem single_of_ground {c : Char} : ∀ event ∈ (ground c).1, event.Single := by
  rw [ground]
  split
  · simp
  · simpa using single_plainEvent c

theorem single_of_sequenceEvent {parameters : Text} {final : Char} {event : KeyEvent}
    (named : sequenceEvent parameters final = .ok (some event)) : event.Single := by
  rw [sequenceEvent] at named
  split at named
  · cases read : modifier (fields parameters) with
    | error e => simp [read, Except.map] at named
    | ok control =>
      simp only [read, Except.map, Except.ok.injEq, Option.some.injEq] at named
      exact named ▸ single_key _ control
  · simp at named

theorem single_of_step {held after : Held} {c : Char} {events : List KeyEvent}
    (read : step held c = .ok (events, after)) : ∀ event ∈ events, event.Single := by
  cases held with
  | nothing =>
    obtain ⟨rfl, -⟩ := Prod.mk.inj (Except.ok.inj read)
    exact single_of_ground
  | escape =>
    rw [step] at read
    split at read
    · obtain ⟨rfl, -⟩ := Prod.mk.inj (Except.ok.inj read)
      simp
    · split at read
      · obtain ⟨rfl, -⟩ := Prod.mk.inj (Except.ok.inj read)
        simp
      · obtain ⟨rfl, -⟩ := Prod.mk.inj (Except.ok.inj read)
        exact List.forall_mem_cons.2 ⟨single_key _ _, single_of_ground⟩
  | single =>
    obtain ⟨rfl, -⟩ := Prod.mk.inj (Except.ok.inj read)
    cases arrow? c with
    | none => simp
    | some arrow => simpa using single_key arrow false
  | control reversed =>
    rw [step] at read
    split at read
    · cases named : sequenceEvent reversed.reverse c with
      | error e => simp [named, Except.map] at read
      | ok event =>
        simp only [named, Except.map, Except.ok.injEq, Prod.mk.injEq] at read
        obtain ⟨rfl, -⟩ := read
        cases event with
        | none => simp
        | some event => simpa using single_of_sequenceEvent named
    · obtain ⟨rfl, -⟩ := Prod.mk.inj (Except.ok.inj read)
      simp

theorem single_of_run {held last : Held} {t : Text} {events : List KeyEvent}
    (read : run held t = .ok (events, last)) : ∀ event ∈ events, event.Single := by
  induction t generalizing held events with
  | nil =>
    obtain ⟨rfl, -⟩ := Prod.mk.inj (Except.ok.inj read)
    simp
  | cons c rest ih =>
    rw [run] at read
    rcases now : step held c with e | ⟨first, middle⟩
    · simp [now, bind, Except.bind] at read
    · rcases later : run middle rest with e | ⟨others, last'⟩
      · simp [now, later, bind, Except.bind] at read
      · simp only [now, later, bind, Except.bind, pure, Except.pure, Except.ok.injEq,
          Prod.mk.injEq] at read
        obtain ⟨rfl, rfl⟩ := read
        exact List.forall_mem_append.2 ⟨single_of_step now, ih later⟩

end Held

namespace Decoder

theorem single_of_flush (d : Decoder) : ∀ event ∈ d.flush.1, event.Single := by
  rw [flush]
  split
  · simpa using Held.single_key .escape false
  · simp

theorem single_of_feed {d next : Decoder} {bytes : List UInt8} {events : List KeyEvent}
    (fed : d.feed bytes = (.ok events, next)) : ∀ event ∈ events, event.Single := by
  rw [feed] at fed
  rcases read : d.held.run (Utf8.decodeReplacing d.utf8 bytes).1 with e | ⟨events', last⟩
  · simp [read] at fed
  · simp only [read, Prod.mk.injEq, Except.ok.injEq] at fed
    obtain ⟨rfl, -⟩ := fed
    exact Held.single_of_run read

theorem single_of_readPortions (d : Decoder) (reads : List Read) :
    ∀ event ∈ (d.readPortions reads).events, event.Single := by
  induction reads generalizing d with
  | nil => exact d.single_of_flush
  | cons read rest ih =>
    cases read with
    | pause =>
      rw [readPortions]
      split
      · exact List.forall_mem_append.2 ⟨d.single_of_flush, ih _⟩
      · exact ih d
    | chunk bytes =>
      cases bytes with
      | nil => exact d.single_of_flush
      | cons b bytes =>
        rw [readPortions]
        rcases fed : d.feed (b :: bytes) with ⟨e | events, next⟩
        · simp
        · exact List.forall_mem_append.2 ⟨single_of_feed fed, ih next⟩

end Decoder

/-- Whatever the terminal delivers, characters are typed one by one. -/
theorem KeyStream.single_of_ofReads (reads : List Read) :
    ∀ event ∈ (ofReads reads).events, event.Single :=
  Decoder.single_of_readPortions _ _

end ChainShell
