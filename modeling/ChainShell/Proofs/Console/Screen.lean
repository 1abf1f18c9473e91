/-
# ChainShell.Proofs.Console.Screen — what the screen shows while the console waits

The console puts the cursor into a column that it counts in elements of the line, and the screen
counts characters.  The two counts agree as long as every element is a single character
(`Buffer.Single`), which the terminal, the history and the edits see to: what is typed comes
character by character (`KeyStream.single_of_ofReads`), a line of the history is taken character by
character, and no edit makes an element.

An event either leaves the line and the output alone, or is followed by drawing the line.  So from
the first drawing on the last text written is always that of the line there is (`shows_attend`).

The console waits for an event after taking those before it.  `waiting` is the session up to there
and `goOn` the session from there; the two after each other are the session
(`runEvents_eq_waiting`).
-/
import ChainShell.Proofs.Console.Events
import ChainShell.Proofs.Key.Stream

set_option autoImplicit false

namespace ChainShell

open ChainShell.Activity ChainShell.Terminal

/-! ## Lines of single characters -/

namespace Buffer

/-- Every element of the line is a single character. -/
def Single (b : Buffer) : Prop := ∀ element ∈ b.toList, element.length = 1

/-- The part of the contents that stands before the cursor. -/
def leading (b : Buffer) : Text := (b.toList.take b.cursor).flatten

theorem length_leading_le (b : Buffer) : b.leading.length ≤ b.contents.length := by
  have contents : b.contents = b.leading ++ (b.toList.drop b.cursor).flatten := by
    rw [leading, ← List.flatten_append, List.take_append_drop]
    rfl
  rw [contents, List.length_append]
  exact Nat.le_add_right _ _

theorem single_empty : empty.Single := by simp [Single, empty, toList]

theorem single_ofText (t : Text) : (ofText t).Single := by simp [Single]

theorem Single.of_subset {b b' : Buffer} (single : b.Single) (inside : b'.toList ⊆ b.toList) :
    b'.Single :=
  fun element member => single element (inside member)

section

variable {b : Buffer} (single : b.Single)
include single

theorem Single.insert {element : Text} (one : element.length = 1) : (b.insert element).Single := by
  intro other member
  rw [toList_insert, List.mem_append, List.mem_cons] at member
  rcases member with before | rfl | after
  · exact single other (List.mem_of_mem_take before)
  · exact one
  · exact single other (List.mem_of_mem_drop after)

theorem Single.moveLeft : b.moveLeft.Single := single.of_subset (by simp)

theorem Single.moveRight : b.moveRight.Single := single.of_subset (by simp)

theorem Single.backspace : b.backspace.Single :=
  single.of_subset (by simp [List.take_subset, List.drop_subset])

theorem Single.delete : b.delete.Single :=
  single.of_subset (by simp [List.take_subset, List.drop_subset])

theorem Single.length_leading : b.leading.length = b.cursor := by
  have ones : ∀ element ∈ b.toList.take b.cursor, element.length = 1 :=
    fun element member => single element (List.mem_of_mem_take member)
  rw [leading, List.length_flatten, List.map_congr_left ones, List.map_const',
    List.sum_replicate_nat, List.length_take, length_toList]
  omega

end

end Buffer

namespace Console

/-! ## One stroke -/

/-- However a line that was committed ends, the next one is empty. -/
theorem buffer_of_commit {c next : Console} {s : Session}
    (committed : (c.commit s).result = .ok next) : next.buffer = .empty := by
  obtain ⟨status, -, after⟩ := result_bind_eq_ok.1 committed
  cases status with
  | none => exact (Except.ok.inj after) ▸ rfl
  | some status => exact (Except.ok.inj after) ▸ rfl

theorem single_of_browse {c next : Console} {move : History → History} {s : Session}
    (single : c.buffer.Single) (browsed : (c.browse move s).result = .ok next) :
    next.buffer.Single := by
  rw [browse, get_bind_apply] at browsed
  split at browsed
  · exact (Except.ok.inj browsed) ▸ single
  · exact (Except.ok.inj browsed) ▸ Buffer.single_ofText _

theorem single_of_strike {c next : Console} {event : KeyEvent} {s : Session}
    (single : c.buffer.Single) (one : event.Single)
    (struck : (c.strike event.stroke s).result = .ok next) : next.buffer.Single := by
  have edited : ∀ {change : Buffer → Buffer}, (change c.buffer).Single →
      ((pure (c.edit change) : Activity Console) s).result = .ok next → next.buffer.Single :=
    fun changed ended => (Except.ok.inj ended) ▸ changed
  rcases stroke : event.stroke with key | text
  · rw [stroke] at struck
    cases key with
    | enter => exact buffer_of_commit struck ▸ Buffer.single_empty
    | left => exact edited single.moveLeft struck
    | right => exact edited single.moveRight struck
    | backspace => exact edited single.backspace struck
    | delete => exact edited single.delete struck
    | up | down => exact single_of_browse single struck
    | tab | escape => exact (Except.ok.inj struck) ▸ single
  · rw [stroke] at struck
    exact edited (single.insert (one text stroke)) struck

/-! ## What is shown -/

/-- The last text that was written to the standard output. -/
def lastOutput? (actions : List Action) : Option Text :=
  (actions.filterMap fun
    | .wrote .out text => some text
    | _ => none).getLast?

theorem lastOutput?_concat (actions : List Action) (text : Text) :
    lastOutput? (actions ++ [.wrote .out text]) = some text := by
  simp [lastOutput?]

/-- The line is one of single characters, and the last thing that was done to the standard output
is drawing it. -/
structure Shows (marker : Marker) (c : Console) (actions : List Action) : Prop where
  single : c.buffer.Single
  drawn : lastOutput? actions = some (c.buffer.render marker)

variable {marker : Marker} {fault : Option Fault}

theorem shows_redraw {c : Console} (single : c.buffer.Single) (before : List Action)
    (s : Session) : Shows marker c (before ++ (redraw marker c s).actions) :=
  ⟨single, lastOutput?_concat before _⟩

/-- Taking events leaves the line shown, from every state in which it is. -/
theorem shows_attend {c c' : Console} {before : List Action} {events : List KeyEvent} {s : Session}
    (shown : Shows marker c before) (typed : ∀ event ∈ events, event.Single)
    (attended : (attend marker fault c events s).result = .ok c') :
    Shows marker c' (before ++ (attend marker fault c events s).actions) := by
  induction events generalizing c before s with
  | nil =>
    cases fault with
    | none =>
      obtain rfl : c = c' := Except.ok.inj attended
      exact (List.append_nil before).symm ▸ shown
    | some fault => simp [attend, fail] at attended
  | cons event rest ih =>
    obtain ⟨one, others⟩ := List.forall_mem_cons.1 typed
    rcases event_cases event with exit | ⟨-, inert⟩ | ⟨-, plain, -⟩
    · rw [attend_of_isExit exit] at attended ⊢
      obtain rfl : c = c' := Except.ok.inj attended
      exact (List.append_nil before).symm ▸ shown
    · rw [attend_of_isInert inert] at attended ⊢
      exact ih shown others attended
    · rw [attend_of_plain plain] at attended ⊢
      obtain ⟨next, struck, later⟩ := result_bind_eq_ok.1 attended
      obtain ⟨_, redrawn, later⟩ := result_bind_eq_ok.1 later
      rw [bind_apply_of_ok struck, bind_apply_of_ok redrawn, ← List.append_assoc,
        ← List.append_assoc]
      exact ih (shows_redraw (single_of_strike shown.single one struck) _ _) others later

/-! ## Waiting for an event -/

/-- The session up to where it has taken some events and waits for the next one. -/
def waiting (marker : Marker) (events : List KeyEvent) : Activity Console := do
  enterRaw
  redraw marker {}
  attend marker none {} events

/-- The session from where it waits for an event. -/
def goOn (marker : Marker) (fault : Option Fault) (events : List KeyEvent) (c : Console) :
    Activity Int := do
  let c ← ensuring (attend marker fault c events) leaveRaw
  write .out ['\r', '\n']
  reap
  return c.last.toInt

theorem shows_waiting {c : Console} {events : List KeyEvent} {s : Session}
    (typed : ∀ event ∈ events, event.Single) (waits : (waiting marker events s).result = .ok c) :
    Shows marker c (waiting marker events s).actions := by
  obtain ⟨_, entered, later⟩ := result_bind_eq_ok.1 waits
  obtain ⟨_, redrawn, later⟩ := result_bind_eq_ok.1 later
  rw [waiting, bind_apply_of_ok entered, bind_apply_of_ok redrawn, ← List.append_assoc]
  exact shows_attend (shows_redraw Buffer.single_empty _ _) typed later

/-- A session that comes to wait for an event is that up to there and that from there. -/
theorem runEvents_eq_waiting {first rest : List KeyEvent} {c : Console} {s : Session}
    (stays : ∀ event ∈ first, event.isExit = false)
    (waits : (waiting marker first s).result = .ok c) :
    runEvents marker (first ++ rest) fault s =
      (waiting marker first >>= goOn marker fault rest) s := by
  obtain ⟨_, entered, opened⟩ := result_bind_eq_ok.1 waits
  have cut := ensuring_bind_of_ok opened (fun c => attend marker fault c rest) leaveRaw
  simp only [bind_assoc, ← attend_append stays] at cut
  rw [runEvents, raw, waiting, bind_assoc, bind_assoc, bind_apply_of_ok entered,
    bind_apply_of_ok entered, bind_apply_congr cut]
  simp only [bind_assoc]
  rfl

/-- Whatever the terminal delivers, whenever the console waits for the next event, every element of
the line is a single character, and the last text written to the standard output draws the line: it
goes back to the first column, clears the line, writes the marker and the contents, and puts the
cursor behind the columns of the marker and one for each character that stands before it. -/
theorem waiting_shows (marker : Marker) {reads : List Read} {first rest : List KeyEvent}
    (delivered : (KeyStream.ofReads reads).events = first ++ rest)
    (stays : ∀ event ∈ first, event.isExit = false) {s : Session} {c : Console}
    (waits : (waiting marker first s).result = .ok c) :
    run marker (.ofReads reads) s =
        (waiting marker first >>= goOn marker ((KeyStream.ofReads reads).fault.map .key) rest) s ∧
      (∀ element ∈ c.buffer.toList, element.length = 1) ∧
      c.buffer.leading.length ≤ c.buffer.contents.length ∧
      lastOutput? (waiting marker first s).actions =
        some ('\r' :: '\x1b' :: '[' :: 'K' :: marker.text ++ c.buffer.contents ++ '\x1b' :: '[' ::
          Text.ofNat (marker.columns + c.buffer.leading.length + 1) ++ ['G']) := by
  have typed : ∀ event ∈ first, event.Single := fun event member =>
    KeyStream.single_of_ofReads reads event (delivered ▸ List.mem_append_left rest member)
  have shown := shows_waiting typed waits
  refine ⟨?_, shown.single, c.buffer.length_leading_le, ?_⟩
  · rw [run, delivered]
    exact runEvents_eq_waiting stays waits
  · rw [shown.drawn, shown.single.length_leading]
    rfl

/-- A line of the history is shown, a character of two bytes in two chunks is typed, and the cursor
goes back before it: it stands behind the marker and one character. -/
theorem waiting_shows_recalled :
    let reads : List Read :=
      [.chunk [0x1B, 0x5B, 0x41, 0xC3], .chunk [0xA9, 0x1B, 0x5B, 0x44], .chunk [0x0D]]
    let first : List KeyEvent := [.key .up false, ⟨.char ['é'], false⟩, .key .left false]
    let waited := waiting { text := ['$'] } first { history := .ofList [['w']] }
    (KeyStream.ofReads reads).events = first ++ [.key .enter false] ∧
      waited.result = .ok { buffer := ⟨[['w']], [['é']]⟩ } ∧
      lastOutput? waited.actions = some "\r\x1b[K$wé\x1b[3G".toList := by
  intro reads first waited
  have portioned : Read.portioned reads = reads := by
    simp (disch := decide) [Read.portioned, reads, portions_of_short]
  have delivered : (KeyStream.ofReads reads).events = first ++ [.key .enter false] := by
    rw [KeyStream.ofReads, portioned]
    decide +kernel
  have waits : waited.result = .ok { buffer := ⟨[['w']], [['é']]⟩ } := by decide +kernel
  obtain ⟨-, -, -, drawn⟩ := waiting_shows { text := ['$'] } delivered (by decide) waits
  exact ⟨delivered, waits, drawn.trans (by decide +kernel)⟩

end Console

end ChainShell
