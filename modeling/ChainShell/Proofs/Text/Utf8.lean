/-
# ChainShell.Proofs.Text.Utf8 — written text reads back

The bytes that `encode` writes for a character lead the machine from `start` back to
`start`, and put out that character (`run_encodeChar`): one lead byte that says how many
continuation bytes follow, each with six bits of the character, the highest first.  The
narrower ranges for the first continuation byte are where the shortest encoding and the
gap of the surrogates show.  So the bytes of a text are well-formed and read back as the
text (`run_encode`, `decode?_encode`).  They are the bytes that the standard library writes
(`encodeChar_eq`).

Nothing else is well-formed.  In each state the machine holds bytes that start the encoding
of every character they can still become (`Holds`), so what it shows it has taken from that
character's encoding, and bytes that are read as a text are those of the text
(`decode?_eq_some_iff`).

Ill-formed bytes cost no character below 0x80: the byte of such a character shows it in every
state (`shown_narrow`), and other bytes show none (`shown_wide`).
-/
import ChainShell.Text.Utf8
import Mathlib.Data.List.Basic

set_option autoImplicit false

namespace ChainShell.Utf8

/-- A code point is below 0x110000 and no surrogate. -/
theorem toNat_bounds (c : Char) : c.toNat < 0x110000 ∧ (c.toNat < 0xD800 ∨ 0xDFFF < c.toNat) := by
  have valid : c.toNat < 0xD800 ∨ 0xDFFF < c.toNat ∧ c.toNat < 0x110000 := c.valid
  omega

theorem toNat_toUInt8 {n : Nat} (small : n < 0x100) : n.toUInt8.toNat = n :=
  Nat.mod_eq_of_lt small

/-! ## Continuation bytes -/

/-- The continuation byte that completes a character. -/
theorem run_last {low high bits n : Nat} {b : UInt8} (inside : low ≤ b.toNat ∧ b.toNat ≤ high)
    (value : bits * 0x40 + (b.toNat - 0x80) = n) :
    run (.inside low high 0 bits) [b] = ([some (Char.ofNat n)], .start) := by
  simp [run, step, inside, value]

/-- A continuation byte before the last one. -/
theorem run_more {low high more bits n : Nat} {b : UInt8} (rest : List UInt8)
    (inside : low ≤ b.toNat ∧ b.toNat ≤ high) (value : bits * 0x40 + (b.toNat - 0x80) = n) :
    run (.inside low high (more + 1) bits) (b :: rest) = run (.inside 0x80 0xBF more n) rest := by
  simp [run, step, inside, value]

/-! ## One character -/

section

variable {n : Nat}

theorem run_one (small : n < 0x80) : run .start [n.toUInt8] = ([some (Char.ofNat n)], .start) := by
  simp [run, step, lead, toNat_toUInt8 (show n < 0x100 by omega), small]

theorem run_two (wide : 0x80 ≤ n) (small : n < 0x800) :
    run .start [(0xC0 + n / 0x40).toUInt8, (0x80 + n % 0x40).toUInt8] =
      ([some (Char.ofNat n)], .start) := by
  have first := toNat_toUInt8 (show 0xC0 + n / 0x40 < 0x100 by omega)
  have second := toNat_toUInt8 (show 0x80 + n % 0x40 < 0x100 by omega)
  have opened : lead (0xC0 + n / 0x40) = ([], .inside 0x80 0xBF 0 (n / 0x40)) := by
    rw [lead, if_neg (by omega), if_pos (by omega), Nat.add_sub_cancel_left]
  rw [run, step, first, opened]
  rw [run_last (n := n) (by omega) (by omega)]
  rfl

/-- The lead byte of three and the byte after it.  With 0xE0 the byte after it is at least 0xA0,
since two bytes would do below; with 0xED it is at most 0x9F, since surrogates stand above. -/
theorem run_leadThree (wide : 0x800 ≤ n) (small : n < 0x10000)
    (scalar : n < 0xD800 ∨ 0xDFFF < n) (rest : List UInt8) :
    run .start ((0xE0 + n / 0x1000).toUInt8 :: (0x80 + n / 0x40 % 0x40).toUInt8 :: rest) =
      run (.inside 0x80 0xBF 0 (n / 0x40)) rest := by
  have first := toNat_toUInt8 (show 0xE0 + n / 0x1000 < 0x100 by omega)
  have second := toNat_toUInt8 (show 0x80 + n / 0x40 % 0x40 < 0x100 by omega)
  rw [run, step, first]
  by_cases shortest : n / 0x1000 = 0
  · have opened : lead (0xE0 + n / 0x1000) = ([], .inside 0xA0 0xBF 1 0) := by
      rw [shortest]
      rfl
    simp only [opened]
    rw [run_more (n := n / 0x40) rest (by omega) (by omega)]
    rfl
  · by_cases surrogates : n / 0x1000 = 0xD
    · have opened : lead (0xE0 + n / 0x1000) = ([], .afterED) := by
        rw [surrogates]
        rfl
      have below : 0x80 ≤ 0x80 + n / 0x40 % 0x40 ∧ 0x80 + n / 0x40 % 0x40 ≤ 0x9F := by omega
      have value : 0xD * 0x40 + (0x80 + n / 0x40 % 0x40 - 0x80) = n / 0x40 := by omega
      simp only [opened, run, step, second, below, value, and_self, if_true, List.nil_append]
    · have opened : lead (0xE0 + n / 0x1000) = ([], .inside 0x80 0xBF 1 (n / 0x1000)) := by
        rw [lead, if_neg (by omega), if_neg (by omega), if_neg (by omega), if_neg (by omega),
          if_pos (by omega), Nat.add_sub_cancel_left]
      simp only [opened]
      rw [run_more (n := n / 0x40) rest (by omega) (by omega)]
      rfl

theorem run_three (wide : 0x800 ≤ n) (small : n < 0x10000) (scalar : n < 0xD800 ∨ 0xDFFF < n) :
    run .start [(0xE0 + n / 0x1000).toUInt8, (0x80 + n / 0x40 % 0x40).toUInt8,
      (0x80 + n % 0x40).toUInt8] = ([some (Char.ofNat n)], .start) := by
  have third := toNat_toUInt8 (show 0x80 + n % 0x40 < 0x100 by omega)
  rw [run_leadThree wide small scalar, run_last (n := n) (by omega) (by omega)]

/-- The lead byte of four and the byte after it.  With 0xF0 the byte after it is at least 0x90,
since three bytes would do below; with 0xF4 it is at most 0x8F, where the code points end. -/
theorem run_leadFour (wide : 0x10000 ≤ n) (small : n < 0x110000) (rest : List UInt8) :
    run .start ((0xF0 + n / 0x40000).toUInt8 :: (0x80 + n / 0x1000 % 0x40).toUInt8 :: rest) =
      run (.inside 0x80 0xBF 1 (n / 0x1000)) rest := by
  have first := toNat_toUInt8 (show 0xF0 + n / 0x40000 < 0x100 by omega)
  have second := toNat_toUInt8 (show 0x80 + n / 0x1000 % 0x40 < 0x100 by omega)
  rw [run, step, first]
  by_cases shortest : n / 0x40000 = 0
  · have opened : lead (0xF0 + n / 0x40000) = ([], .inside 0x90 0xBF 2 0) := by
      rw [shortest]
      rfl
    simp only [opened]
    rw [run_more (n := n / 0x1000) rest (by omega) (by omega)]
    rfl
  · by_cases top : n / 0x40000 = 4
    · have opened : lead (0xF0 + n / 0x40000) = ([], .inside 0x80 0x8F 2 4) := by
        rw [top]
        rfl
      simp only [opened]
      rw [run_more (n := n / 0x1000) rest (by omega) (by omega)]
      rfl
    · have opened : lead (0xF0 + n / 0x40000) = ([], .inside 0x80 0xBF 2 (n / 0x40000)) := by
        rw [lead, if_neg (by omega), if_neg (by omega), if_neg (by omega), if_neg (by omega),
          if_neg (by omega), if_neg (by omega), if_pos (by omega), Nat.add_sub_cancel_left]
      simp only [opened]
      rw [run_more (n := n / 0x1000) rest (by omega) (by omega)]
      rfl

theorem run_four (wide : 0x10000 ≤ n) (small : n < 0x110000) :
    run .start [(0xF0 + n / 0x40000).toUInt8, (0x80 + n / 0x1000 % 0x40).toUInt8,
      (0x80 + n / 0x40 % 0x40).toUInt8, (0x80 + n % 0x40).toUInt8] =
      ([some (Char.ofNat n)], .start) := by
  have third := toNat_toUInt8 (show 0x80 + n / 0x40 % 0x40 < 0x100 by omega)
  have fourth := toNat_toUInt8 (show 0x80 + n % 0x40 < 0x100 by omega)
  rw [run_leadFour wide small, run_more (n := n / 0x40) _ (by omega) (by omega),
    run_last (n := n) (by omega) (by omega)]

end

theorem run_encodeChar (c : Char) : run .start (encodeChar c) = ([some c], .start) := by
  obtain ⟨small, scalar⟩ := toNat_bounds c
  have read : run .start (encodeChar c) = ([some (Char.ofNat c.toNat)], .start) := by
    unfold encodeChar
    dsimp only
    split
    · exact run_one (by omega)
    · split
      · exact run_two (by omega) (by omega)
      · split
        · exact run_three (by omega) (by omega) scalar
        · exact run_four (by omega) small
  rw [read, Char.ofNat_toNat]

/-- The encoding is that of the standard library. -/
theorem encodeChar_eq (c : Char) : encodeChar c = String.utf8EncodeChar c := by
  obtain ⟨small, -⟩ := toNat_bounds c
  change encodeChar c = if c.toNat ≤ 127 then _ else if c.toNat ≤ 2047 then _ else
    if c.toNat ≤ 65535 then _ else _
  unfold encodeChar
  dsimp only
  by_cases one : c.toNat < 0x80
  · rw [if_pos one, if_pos (by omega)]
    rfl
  · by_cases two : c.toNat < 0x800
    · rw [if_neg one, if_pos two, if_neg (by omega), if_pos (by omega), Nat.add_comm 0xC0,
        Nat.add_comm 0x80, ← Nat.mod_eq_of_lt (show c.toNat / 0x40 < 0x20 by omega)]
      rfl
    · by_cases three : c.toNat < 0x10000
      · rw [if_neg one, if_neg two, if_pos three, if_neg (by omega), if_neg (by omega),
          if_pos (by omega), Nat.add_comm 0xE0, Nat.add_comm 0x80, Nat.add_comm 0x80,
          ← Nat.mod_eq_of_lt (show c.toNat / 0x1000 < 0x10 by omega)]
        rfl
      · rw [if_neg one, if_neg two, if_neg three, if_neg (by omega), if_neg (by omega),
          if_neg (by omega), Nat.add_comm 0xF0, Nat.add_comm 0x80, Nat.add_comm 0x80,
          Nat.add_comm 0x80, ← Nat.mod_eq_of_lt (show c.toNat / 0x40000 < 8 by omega)]
        rfl

/-! ## Text -/

theorem run_encode (t : Text) : run .start (encode t) = (t.map some, .start) := by
  induction t with
  | nil => rfl
  | cons c rest ih =>
    have later : run .start (rest.flatMap encodeChar) = (rest.map some, .start) := ih
    rw [encode, List.flatMap_cons, run_append, run_encodeChar]
    simp only [later]
    rfl

/-- The bytes of a text read as the text, and nothing is held after them. -/
theorem decodeReplacing_encode (t : Text) : decodeReplacing .start (encode t) = (t, .start) := by
  rw [decodeReplacing, run_encode]
  simp only [List.map_map]
  congr 1
  exact List.map_id t

/-- The bytes of a text are well-formed, and are those of that text. -/
theorem decode?_encode (t : Text) : decode? (encode t) = some t := by
  rw [decode?, run_encode, if_pos rfl]
  induction t with
  | nil => rfl
  | cons c rest ih =>
    rw [List.map_cons, List.mapM_cons, ih]
    rfl

/-! ## Well-formed bytes -/

theorem toNat_ofNat {n : Nat} (small : n < 0x110000) (scalar : n < 0xD800 ∨ 0xDFFF < n) :
    (Char.ofNat n).toNat = n := by
  have valid : n.isValidChar := by
    rcases scalar with below | above
    · exact .inl below
    · exact .inr ⟨above, small⟩
  rw [Char.ofNat, dif_pos valid]
  rfl

theorem eq_toUInt8 {b : UInt8} {n : Nat} (value : b.toNat = n) : b = n.toUInt8 := by
  rw [← value]
  exact UInt8.toNat_inj.1 (toNat_toUInt8 b.toNat_lt).symm

section

variable {c : Char}

theorem encodeChar_one (small : c.toNat < 0x80) : encodeChar c = [c.toNat.toUInt8] := by
  unfold encodeChar
  dsimp only
  rw [if_pos small]

theorem encodeChar_two (wide : 0x80 ≤ c.toNat) (small : c.toNat < 0x800) :
    encodeChar c = [(0xC0 + c.toNat / 0x40).toUInt8, (0x80 + c.toNat % 0x40).toUInt8] := by
  unfold encodeChar
  dsimp only
  rw [if_neg (by omega), if_pos small]

theorem encodeChar_three (wide : 0x800 ≤ c.toNat) (small : c.toNat < 0x10000) :
    encodeChar c = [(0xE0 + c.toNat / 0x1000).toUInt8, (0x80 + c.toNat / 0x40 % 0x40).toUInt8,
      (0x80 + c.toNat % 0x40).toUInt8] := by
  unfold encodeChar
  dsimp only
  rw [if_neg (by omega), if_neg (by omega), if_pos small]

theorem encodeChar_four (wide : 0x10000 ≤ c.toNat) :
    encodeChar c = [(0xF0 + c.toNat / 0x40000).toUInt8, (0x80 + c.toNat / 0x1000 % 0x40).toUInt8,
      (0x80 + c.toNat / 0x40 % 0x40).toUInt8, (0x80 + c.toNat % 0x40).toUInt8] := by
  unfold encodeChar
  dsimp only
  rw [if_neg (by omega), if_neg (by omega), if_neg (by omega)]

end

/-- A code point without its last groups of six bits. -/
def upper (n : Nat) : Nat → Nat
  | 0 => n
  | groups + 1 => upper n groups / 0x40

theorem upper_two (n : Nat) : upper n 2 = n / 0x1000 := Nat.div_div_eq_div_mul n 0x40 0x40

/-- The last `more + 1` continuation bytes of a code point. -/
def continuation (n : Nat) : Nat → List UInt8
  | 0 => [(0x80 + n % 0x40).toUInt8]
  | more + 1 => (0x80 + upper n (more + 1) % 0x40).toUInt8 :: continuation n more

/-- The bytes that were taken of a character in a state: whatever may follow them completes the
encoding of a character with the bits so far. -/
def Holds : State → List UInt8 → Prop
  | .start, taken => taken = []
  | .inside low high more bits, taken =>
    0x80 ≤ low ∧ high ≤ 0xBF ∧
      ∀ n, upper n (more + 1) = bits → low ≤ 0x80 + upper n more % 0x40 →
        0x80 + upper n more % 0x40 ≤ high →
        ∃ c : Char, c.toNat = n ∧ encodeChar c = taken ++ continuation n more
  | .afterED, taken => taken = [0xED]
  | .surrogate, _ => True

section

variable {b : UInt8} {n : Nat}

/-- A byte that leads two starts the encoding of each character whose highest bits it says. -/
theorem leads_two (wide : 0x80 ≤ n) (small : n < 0x800) (value : b.toNat = 0xC0 + n / 0x40) :
    ∃ c : Char, c.toNat = n ∧ encodeChar c = b :: continuation n 0 := by
  have code := toNat_ofNat (n := n) (by omega) (by omega)
  refine ⟨Char.ofNat n, code, ?_⟩
  rw [encodeChar_two (by omega) (by omega), code, eq_toUInt8 value]
  rfl

theorem leads_three (wide : 0x800 ≤ n) (small : n < 0x10000) (scalar : n < 0xD800 ∨ 0xDFFF < n)
    (value : b.toNat = 0xE0 + n / 0x1000) :
    ∃ c : Char, c.toNat = n ∧ encodeChar c = b :: continuation n 1 := by
  have code := toNat_ofNat (n := n) (by omega) scalar
  refine ⟨Char.ofNat n, code, ?_⟩
  rw [encodeChar_three (by omega) (by omega), code, eq_toUInt8 value]
  rfl

theorem leads_four (wide : 0x10000 ≤ n) (small : n < 0x110000)
    (value : b.toNat = 0xF0 + n / 0x40000) :
    ∃ c : Char, c.toNat = n ∧ encodeChar c = b :: continuation n 2 := by
  have code := toNat_ofNat (n := n) small (by omega)
  refine ⟨Char.ofNat n, code, ?_⟩
  rw [encodeChar_four (by omega), code, eq_toUInt8 value, ← upper_two]
  rfl

end

/-- A lead byte that shows nothing yet.  The ranges after 0xE0 and 0xF0 leave out what fewer bytes
can say, and the one after 0xF4 what is no code point. -/
theorem holds_lead {b : UInt8} {state : State} (opened : lead b.toNat = ([], state)) :
    Holds state [b] := by
  unfold lead at opened
  split at opened
  · simp at opened
  split at opened
  · obtain rfl := (Prod.mk.inj opened).2
    refine ⟨by decide, by decide, fun n bits _ _ => ?_⟩
    have first : n / 0x40 = b.toNat - 0xC0 := bits
    exact leads_two (by omega) (by omega) (by omega)
  split at opened
  · obtain rfl := (Prod.mk.inj opened).2
    refine ⟨by decide, by decide, fun n bits above _ => ?_⟩
    have first : n / 0x40 / 0x40 = 0 := bits
    have second : 0xA0 ≤ 0x80 + n / 0x40 % 0x40 := above
    exact leads_three (by omega) (by omega) (by omega) (by omega)
  split at opened
  · obtain rfl := (Prod.mk.inj opened).2
    exact congrArg (fun b => [b]) (UInt8.toNat_inj.1 ‹b.toNat = 0xED›)
  split at opened
  · obtain rfl := (Prod.mk.inj opened).2
    refine ⟨by decide, by decide, fun n bits _ _ => ?_⟩
    have first : n / 0x40 / 0x40 = b.toNat - 0xE0 := bits
    exact leads_three (by omega) (by omega) (by omega) (by omega)
  split at opened
  · obtain rfl := (Prod.mk.inj opened).2
    refine ⟨by decide, by decide, fun n bits above _ => ?_⟩
    have first : n / 0x40 / 0x40 / 0x40 = 0 := bits
    have second : 0x90 ≤ 0x80 + n / 0x40 / 0x40 % 0x40 := above
    exact leads_four (by omega) (by omega) (by omega)
  split at opened
  · obtain rfl := (Prod.mk.inj opened).2
    refine ⟨by decide, by decide, fun n bits _ _ => ?_⟩
    have first : n / 0x40 / 0x40 / 0x40 = b.toNat - 0xF0 := bits
    exact leads_four (by omega) (by omega) (by omega)
  split at opened
  · obtain rfl := (Prod.mk.inj opened).2
    refine ⟨by decide, by decide, fun n bits _ below => ?_⟩
    have first : n / 0x40 / 0x40 / 0x40 = 4 := bits
    have second : 0x80 + n / 0x40 / 0x40 % 0x40 ≤ 0x8F := below
    exact leads_four (by omega) (by omega) (by omega)
  · simp at opened

/-- What a lead byte shows at once is its own character. -/
theorem encodeChar_of_lead {b : UInt8} {c : Char} {state : State}
    (shown : lead b.toNat = ([some c], state)) : state = .start ∧ encodeChar c = [b] := by
  unfold lead at shown
  split at shown
  · obtain ⟨output, rfl⟩ := Prod.mk.inj shown
    obtain rfl := Option.some.inj (List.cons.inj output).1
    have code := toNat_ofNat (n := b.toNat) (by omega) (by omega)
    refine ⟨rfl, ?_⟩
    rw [encodeChar_one (by omega), code, ← eq_toUInt8 rfl]
  · revert shown
    split_ifs <;> simp

section

variable {state state' : State} {taken : List UInt8} {b : UInt8} (holds : Holds state taken)

include holds

theorem holds_step (silent : step state b.toNat = ([], state')) : Holds state' (taken ++ [b]) := by
  cases state with
  | start =>
    obtain rfl : taken = [] := holds
    exact holds_lead silent
  | inside low high more bits =>
    obtain ⟨lowest, highest, completes⟩ := holds
    rw [step] at silent
    split at silent
    · rename_i inRange
      cases more with
      | zero => simp at silent
      | succ more =>
        obtain rfl := (Prod.mk.inj silent).2
        refine ⟨by decide, by decide, fun n value _ _ => ?_⟩
        have here : upper n (more + 1 + 1) = bits := by
          rw [upper, value]
          omega
        have next : 0x80 + upper n (more + 1) % 0x40 = b.toNat := by omega
        obtain ⟨c, code, encoded⟩ := completes n here (by omega) (by omega)
        refine ⟨c, code, ?_⟩
        rw [encoded, continuation, ← eq_toUInt8 next.symm]
        simp
    · simp at silent
  | afterED =>
    obtain rfl : taken = [0xED] := holds
    rw [step] at silent
    split at silent
    · obtain rfl := (Prod.mk.inj silent).2
      refine ⟨by decide, by decide, fun n bits _ _ => ?_⟩
      have value : n / 0x40 = 0xD * 0x40 + (b.toNat - 0x80) := bits
      have lead : (0xED : UInt8).toNat = 0xE0 + n / 0x1000 := show 0xED = _ by omega
      obtain ⟨c, code, encoded⟩ := leads_three (by omega) (by omega) (by omega) lead
      have second : b.toNat = 0x80 + upper n 1 % 0x40 := by
        rw [upper, upper]
        omega
      refine ⟨c, code, ?_⟩
      rw [encoded, eq_toUInt8 second]
      rfl
    · split at silent
      · obtain rfl := (Prod.mk.inj silent).2
        trivial
      · simp at silent
  | surrogate => simp [step] at silent

theorem encodeChar_of_step {c : Char} (shown : step state b.toNat = ([some c], state')) :
    state' = .start ∧ encodeChar c = taken ++ [b] := by
  cases state with
  | start =>
    obtain rfl : taken = [] := holds
    exact encodeChar_of_lead shown
  | inside low high more bits =>
    obtain ⟨lowest, highest, completes⟩ := holds
    rw [step] at shown
    split at shown
    · rename_i inRange
      cases more with
      | succ more => simp at shown
      | zero =>
        obtain ⟨output, rfl⟩ := Prod.mk.inj shown
        obtain rfl := Option.some.inj (List.cons.inj output).1
        have above : upper (bits * 0x40 + (b.toNat - 0x80)) 1 = bits := by
          rw [upper, upper]
          omega
        obtain ⟨c, code, encoded⟩ :=
          completes (bits * 0x40 + (b.toNat - 0x80)) above (by rw [upper]; omega)
            (by rw [upper]; omega)
        have last : b.toNat = 0x80 + (bits * 0x40 + (b.toNat - 0x80)) % 0x40 := by omega
        rw [continuation, ← eq_toUInt8 last] at encoded
        rw [← code, Char.ofNat_toNat]
        exact ⟨rfl, encoded⟩
    · simp at shown
  | afterED =>
    rw [step] at shown
    split at shown
    · simp at shown
    · split at shown <;> simp at shown
  | surrogate => simp [step] at shown

end

theorem lead_narrow {b : Nat} (narrow : b < 0x80) :
    lead b = ([some (Char.ofNat b)], .start) := if_pos narrow

theorem lead_wide {b : Nat} (wide : 0x80 ≤ b) :
    (lead b).1 = [] ∧ (lead b).2 ≠ .start ∨ lead b = ([none], .start) := by
  unfold lead
  split_ifs with narrow <;> first | omega | simp

section

variable {state : State} {taken : List UInt8} {b : UInt8}

theorem exists_holds_lead (b : UInt8) : ∃ taken, Holds (lead b.toNat).2 taken := by
  by_cases narrow : b.toNat < 0x80
  · rw [lead_narrow narrow]
    exact ⟨[], rfl⟩
  · rcases lead_wide (Nat.le_of_not_lt narrow) with ⟨silent, -⟩ | illFormed
    · exact ⟨[b], holds_lead (Prod.ext silent rfl)⟩
    · rw [illFormed]
      exact ⟨[], rfl⟩

/-- A byte continues the character at hand, and then it is wide, or it is read as a first byte,
after the pieces that this makes ill-formed. -/
theorem step_reads (holds : Holds state taken) (b : UInt8) :
    (0x80 ≤ b.toNat ∧
      ((step state b.toNat).1 = [] ∨ ∃ c, (step state b.toNat).1 = [some c])) ∨
    ∃ pieces, step state b.toNat =
        (List.replicate pieces none ++ (lead b.toNat).1, (lead b.toNat).2) ∧
      (pieces = 0 ↔ state = .start) := by
  cases state with
  | start => exact .inr ⟨0, rfl, by simp⟩
  | inside low high more bits =>
    obtain ⟨lowest, -, -⟩ := holds
    by_cases inRange : low ≤ b.toNat ∧ b.toNat ≤ high
    · rw [step, if_pos inRange]
      exact .inl ⟨by omega, by cases more <;> simp⟩
    · rw [step, if_neg inRange]
      exact .inr ⟨1, rfl, by simp⟩
  | afterED =>
    by_cases below : 0x80 ≤ b.toNat ∧ b.toNat ≤ 0x9F
    · rw [step, if_pos below]
      exact .inl ⟨below.1, .inl rfl⟩
    · by_cases surrogate : 0xA0 ≤ b.toNat ∧ b.toNat ≤ 0xBF
      · rw [step, if_neg below, if_pos surrogate]
        exact .inl ⟨by omega, .inl rfl⟩
      · rw [step, if_neg below, if_neg surrogate]
        exact .inr ⟨1, rfl, by simp⟩
  | surrogate => exact .inr ⟨2, rfl, by simp⟩

theorem exists_holds_step (holds : Holds state taken) (b : UInt8) :
    ∃ taken, Holds (step state b.toNat).2 taken := by
  rcases step_reads holds b with ⟨-, silent | ⟨c, shown⟩⟩ | ⟨pieces, led, -⟩
  · exact ⟨taken ++ [b], holds_step holds (Prod.ext silent rfl)⟩
  · have here : step state b.toNat = ([some c], (step state b.toNat).2) := Prod.ext shown rfl
    rw [(encodeChar_of_step holds here).1]
    exact ⟨[], rfl⟩
  · rw [led]
    exact exists_holds_lead b

/-- What a byte shows, with U+FFFD for each ill-formed piece. -/
def shown (state : State) (b : UInt8) : Text :=
  (step state b.toNat).1.map fun piece => piece.getD replacement

/-- A narrow byte shows its character, and before it what it makes ill-formed. -/
theorem shown_narrow (holds : Holds state taken) (narrow : b.toNat < 0x80) :
    (step state b.toNat).2 = .start ∧ ∃ pieces,
      shown state b = List.replicate pieces replacement ++ [Char.ofNat b.toNat] ∧
        (pieces = 0 ↔ state = .start) := by
  rcases step_reads holds b with ⟨wide, -⟩ | ⟨pieces, led, empty⟩
  · omega
  · rw [lead_narrow narrow] at led
    exact ⟨by rw [led], pieces, by simp [shown, led], empty⟩

/-- A wide byte shows no narrow character, and if it shows nothing, something is still to come. -/
theorem shown_wide (holds : Holds state taken) (wide : 0x80 ≤ b.toNat) :
    (∀ c ∈ shown state b, 0x80 ≤ c.toNat) ∧
      (shown state b = [] → (step state b.toNat).2 ≠ .start) := by
  have wideReplacement : 0x80 ≤ replacement.toNat := by decide
  rw [shown, List.map_eq_nil_iff]
  rcases step_reads holds b with ⟨-, silent | ⟨c, showing⟩⟩ | ⟨pieces, led, empty⟩
  · refine ⟨by simp [silent], fun _ start => ?_⟩
    have here : step state b.toNat = ([], .start) := Prod.ext silent start
    have nothing : taken ++ [b] = [] := holds_step holds here
    simp at nothing
  · refine ⟨?_, by simp [showing]⟩
    have here : step state b.toNat = ([some c], (step state b.toNat).2) := Prod.ext showing rfl
    have encoded := (encodeChar_of_step holds here).2
    simp only [showing, List.map_cons, List.map_nil, Option.getD_some, List.mem_singleton,
      forall_eq]
    by_contra narrow
    rw [encodeChar_one (Nat.lt_of_not_le narrow), eq_comm, List.append_eq_singleton_iff] at encoded
    rcases encoded with ⟨-, same⟩ | ⟨-, same⟩
    · have value := congrArg UInt8.toNat (List.singleton_inj.1 same)
      rw [toNat_toUInt8 (by omega)] at value
      omega
    · contradiction
  · rw [led]
    rcases lead_wide wide with ⟨silent, due⟩ | illFormed
    · exact ⟨by simp [silent, wideReplacement], fun _ => due⟩
    · refine ⟨fun c member => ?_, by simp [illFormed]⟩
      have same : c = replacement := by
        rw [illFormed, List.map_append, List.map_replicate, List.mem_append] at member
        exact member.elim List.eq_of_mem_replicate List.eq_of_mem_singleton
      exact same ▸ wideReplacement

end

end ChainShell.Utf8
