/-
# ChainShell.Proofs.Terminal.Nesting — blocks inside blocks

The blocks of a program share one saved mode.  So a block does not put back the mode that it
found: a raw block always leaves the terminal cooked behind it, and a cooked block leaves it
raw (`isRaw_after_block`), with a value or with a fault, whatever stands inside.

A run of a program comes to places, in its blocks and between them (`Reaches`).  The program
is `Balanced` if at every place the session counts as what the innermost block around it
holds, and after every block as what it counted as before.  That is the case exactly if the
blocks that the run comes to alternate: each of them holds the other mode than the block
around it, or than the one at the start (`balanced_iff_alternating`).  A block directly in
one of its own kind spoils the rest of that one (`not_balanced_of_raw_in_raw`).
-/
import ChainShell.Proofs.Faults
import ChainShell.Terminal.Program

set_option autoImplicit false

namespace ChainShell

open ChainShell.Activity

namespace Terminal

/-! ## Programs of blocks -/

/-- Whether the mode that a block holds is raw mode, if the step is a block that holds one. -/
def Step.holds? : Step → Option Bool
  | .raw _ => some true
  | .cooked _ => some false
  | _ => none

mutual

/-- Whether only blocks switch the mode in a step. -/
def Step.blocksOnly : Step → Bool
  | .enterRaw | .leaveRaw => false
  | .raw body | .cooked body | .guarded body => Step.allBlocksOnly body
  | .raise _ => true

def Step.allBlocksOnly : List Step → Bool
  | [] => true
  | step :: rest => step.blocksOnly && Step.allBlocksOnly rest

end

/-! ## Places in a run -/

/-- The run of `steps` from `w` comes to a place before the steps `rest` at the watch `w'`.  The
innermost block around the start holds `mode`, and that around the place `mode'`. -/
inductive Reaches : Bool → List Step → Watch → Bool → List Step → Watch → Prop where
  | here (mode : Bool) (steps : List Step) (w : Watch) : Reaches mode steps w mode steps w
  | later {mode mode' : Bool} {step : Step} {steps rest : List Step} {w next w' : Watch}
      (ran : step.run w = (.ok (), next)) (there : Reaches mode steps next mode' rest w') :
      Reaches mode (step :: steps) w mode' rest w'
  | inRaw {mode mode' : Bool} {body steps rest : List Step} {w next w' : Watch}
      (opened : w.performNoted enterRaw .rawOpened = (.ok (), next))
      (there : Reaches true body next mode' rest w') :
      Reaches mode (.raw body :: steps) w mode' rest w'
  | inCooked {mode mode' : Bool} {body steps rest : List Step} {w next w' : Watch}
      (opened : w.performNoted leaveRaw .cookedOpened = (.ok (), next))
      (there : Reaches false body next mode' rest w') :
      Reaches mode (.cooked body :: steps) w mode' rest w'
  | inGuarded {mode mode' : Bool} {body steps rest : List Step} {w w' : Watch}
      (there : Reaches mode body w mode' rest w') :
      Reaches mode (.guarded body :: steps) w mode' rest w'

/-- At every place the session counts as what the block around it holds, and every block is left in
the mode in which it was found. -/
structure Balanced (mode : Bool) (steps : List Step) (w : Watch) : Prop where
  inside : ∀ mode' rest w', Reaches mode steps w mode' rest w' → w'.session.isRaw = mode'
  restored : ∀ mode' block rest w', Reaches mode steps w mode' (block :: rest) w' →
    block.holds?.isSome → (block.run w').2.session.isRaw = w'.session.isRaw

/-- Every block that the run comes to holds the other mode than the block around it. -/
def Alternating (mode : Bool) (steps : List Step) (w : Watch) : Prop :=
  ∀ mode' block rest w', Reaches mode steps w mode' (block :: rest) w' → block.holds? ≠ some mode'

/-! ## Switches that are obeyed -/

/-- No mode call fails on the machine. -/
abbrev Watch.Obeyed (w : Watch) : Prop := w.session.host.Keeps { obedient := true }

/-- Where no mode call fails, the switch goes through, and the session counts as raw or not, as it
is asked to. -/
structure Obeys (switch : Activity Unit) (raw : Bool) (s : Session) : Prop where
  result : (switch s).result = .ok ()
  isRaw : (switch s).session.isRaw = raw
  keeps : (switch s).session.host.Keeps { obedient := true }

/-- A mode call that fails breaks the promise. -/
theorem not_modeFailed {switch : Activity Unit} {s : Session}
    (confined : Confined { obedient := true } (Promise.LeavesOpen { obedient := true }) switch)
    (keeps : s.host.Keeps { obedient := true }) : ¬ (switch s).ModeFailed := by
  rintro ⟨-, failed⟩
  have broken : true = false := confined.faults s .terminal keeps failed
  contradiction

theorem obeys_enterRaw {s : Session} (keeps : s.host.Keeps { obedient := true }) :
    Obeys enterRaw true s := by
  have after := confined_enterRaw.keeps s keeps
  cases mode : s.savedMode with
  | some number =>
    have switched := enterRaw_of_raw mode
    exact ⟨switched.result, by rw [Session.isRaw, switched.mode]; rfl, after⟩
  | none =>
    rcases enterRaw_of_cooked mode with ⟨number, switched⟩ | failed
    · exact ⟨switched.result, by rw [Session.isRaw, switched.mode]; rfl, after⟩
    · exact absurd failed (not_modeFailed confined_enterRaw keeps)

theorem obeys_leaveRaw {s : Session} (keeps : s.host.Keeps { obedient := true }) :
    Obeys leaveRaw false s := by
  have after := confined_leaveRaw.keeps s keeps
  cases mode : s.savedMode with
  | none =>
    have switched := leaveRaw_of_cooked mode
    exact ⟨switched.result, by rw [Session.isRaw, switched.mode]; rfl, after⟩
  | some number =>
    rcases leaveRaw_of_raw mode with switched | failed
    · exact ⟨switched.result, by rw [Session.isRaw, switched.mode]; rfl, after⟩
    · exact absurd failed (not_modeFailed confined_leaveRaw keeps)

namespace Obeys

variable {switch : Activity Unit} {raw : Bool} {w : Watch}

theorem performNoted (obeys : Obeys switch raw w.session) (mark : Mark) :
    ∃ next, w.performNoted switch mark = (.ok (), next) ∧ next.session.isRaw = raw ∧
      next.Obeyed := by
  refine ⟨(w.perform switch).2.note mark, ?_, obeys.isRaw, obeys.keeps⟩
  rw [Watch.performNoted, Watch.perform, obeys.result]

theorem of_noted {next : Watch} {mark : Mark} (obeys : Obeys switch raw w.session)
    (noted : w.performNoted switch mark = (.ok (), next)) :
    next.session.isRaw = raw ∧ next.Obeyed := by
  obtain ⟨next', noted', isRaw, after⟩ := obeys.performNoted mark
  obtain rfl : next' = next := (Prod.mk.inj (noted'.symm.trans noted)).2
  exact ⟨isRaw, after⟩

theorem endBlock (obeys : Obeys switch raw w.session) (result : Except Fault Unit) (mark : Mark) :
    (w.endBlock result switch mark).2.session.isRaw = raw ∧
      (w.endBlock result switch mark).2.Obeyed := by
  have performed : w.perform switch = (.ok (), (w.perform switch).2) := Prod.ext obeys.result rfl
  unfold Watch.endBlock
  rw [performed]
  cases result with
  | ok _ => exact ⟨obeys.isRaw, obeys.keeps⟩
  | error fault => exact ⟨obeys.isRaw, obeys.keeps⟩

end Obeys

/-! ## Running blocks -/

theorem run_rawBlock {body : List Step} {w next : Watch}
    (opened : w.performNoted enterRaw .rawOpened = (.ok (), next)) :
    Step.run (.raw body) w =
      (Step.runAll body next).2.endBlock (Step.runAll body next).1 leaveRaw .rawClosed := by
  rw [Step.run, opened]

theorem run_cookedBlock {body : List Step} {w next : Watch}
    (opened : w.performNoted leaveRaw .cookedOpened = (.ok (), next)) :
    Step.run (.cooked body) w =
      (Step.runAll body next).2.endBlock (Step.runAll body next).1 enterRaw .cookedClosed := by
  rw [Step.run, opened]

mutual

theorem Step.run_obeyed : ∀ (step : Step) {w : Watch}, w.Obeyed → (step.run w).2.Obeyed
  | .enterRaw, w, obeyed => by
    obtain ⟨next, noted, -, after⟩ := (obeys_enterRaw obeyed).performNoted .enteredRaw
    rw [Step.run, noted]
    exact after
  | .leaveRaw, w, obeyed => by
    obtain ⟨next, noted, -, after⟩ := (obeys_leaveRaw obeyed).performNoted .leftRaw
    rw [Step.run, noted]
    exact after
  | .raw body, w, obeyed => by
    obtain ⟨next, opened, -, after⟩ := (obeys_enterRaw obeyed).performNoted .rawOpened
    rw [run_rawBlock opened]
    exact ((obeys_leaveRaw (Step.runAll_obeyed body after)).endBlock _ _).2
  | .cooked body, w, obeyed => by
    obtain ⟨next, opened, -, after⟩ := (obeys_leaveRaw obeyed).performNoted .cookedOpened
    rw [run_cookedBlock opened]
    exact ((obeys_enterRaw (Step.runAll_obeyed body after)).endBlock _ _).2
  | .guarded body, w, obeyed => by
    rw [Step.run]
    exact Step.runAll_obeyed body obeyed
  | .raise message, w, obeyed => by
    rw [Step.run]
    exact obeyed

theorem Step.runAll_obeyed : ∀ (steps : List Step) {w : Watch}, w.Obeyed →
    (Step.runAll steps w).2.Obeyed
  | [], w, obeyed => by
    rw [Step.runAll]
    exact obeyed
  | step :: rest, w, obeyed => by
    have here := Step.run_obeyed step obeyed
    rw [Step.runAll]
    split
    · rename_i ran
      rw [ran] at here
      exact Step.runAll_obeyed rest here
    · exact here

end

/-- A block leaves the other mode behind it than the one that it holds, however it ends. -/
theorem isRaw_after_block {block : Step} {held : Bool} (holds : block.holds? = some held)
    {w : Watch} (obeyed : w.Obeyed) : (block.run w).2.session.isRaw = !held := by
  cases block with
  | raw body =>
    obtain rfl : true = held := Option.some.inj holds
    obtain ⟨next, opened, -, after⟩ := (obeys_enterRaw obeyed).performNoted .rawOpened
    rw [run_rawBlock opened]
    exact ((obeys_leaveRaw (Step.runAll_obeyed body after)).endBlock _ _).1
  | cooked body =>
    obtain rfl : false = held := Option.some.inj holds
    obtain ⟨next, opened, -, after⟩ := (obeys_leaveRaw obeyed).performNoted .cookedOpened
    rw [run_cookedBlock opened]
    exact ((obeys_enterRaw (Step.runAll_obeyed body after)).endBlock _ _).1
  | _ => contradiction

/-! ## Blocks that alternate -/

variable {mode mode' : Bool} {steps rest : List Step} {w w' : Watch}

theorem Reaches.obeyed (reaches : Reaches mode steps w mode' rest w') (obeyed : w.Obeyed) :
    w'.Obeyed := by
  induction reaches with
  | here => exact obeyed
  | @later _ _ step _ _ _ _ _ ran _ ih =>
    have after := step.run_obeyed obeyed
    rw [ran] at after
    exact ih after
  | inRaw opened _ ih => exact ih ((obeys_enterRaw obeyed).of_noted opened).2
  | inCooked opened _ ih => exact ih ((obeys_leaveRaw obeyed).of_noted opened).2
  | inGuarded _ ih => exact ih obeyed

mutual

/-- Where blocks alternate, a step leaves the session counting as what it counted as before. -/
theorem Step.isRaw_run : ∀ (step : Step) (rest : List Step) {mode : Bool} {w : Watch},
    step.blocksOnly = true → w.Obeyed → w.session.isRaw = mode →
      Alternating mode (step :: rest) w → (step.run w).2.session.isRaw = mode
  | .enterRaw, _, _, _, only, _, _, _ | .leaveRaw, _, _, _, only, _, _, _ => by
    simp [Step.blocksOnly] at only
  | .raw body, rest, mode, w, _, obeyed, _, alternating => by
    have other := alternating mode _ rest w (.here _ _ _)
    rw [isRaw_after_block rfl obeyed]
    cases mode with
    | true => exact absurd rfl other
    | false => rfl
  | .cooked body, rest, mode, w, _, obeyed, _, alternating => by
    have other := alternating mode _ rest w (.here _ _ _)
    rw [isRaw_after_block rfl obeyed]
    cases mode with
    | true => rfl
    | false => exact absurd rfl other
  | .guarded body, rest, mode, w, only, obeyed, counts, alternating => by
    rw [Step.blocksOnly] at only
    rw [Step.run]
    exact Step.isRaw_runAll body only obeyed counts fun mode' block rest' w' reaches =>
      alternating mode' block rest' w' (.inGuarded reaches)
  | .raise message, _, _, w, _, _, counts, _ => by
    rw [Step.run]
    exact counts

theorem Step.isRaw_runAll : ∀ (steps : List Step) {mode : Bool} {w : Watch},
    Step.allBlocksOnly steps = true → w.Obeyed → w.session.isRaw = mode →
      Alternating mode steps w → (Step.runAll steps w).2.session.isRaw = mode
  | [], _, w, _, _, counts, _ => by
    rw [Step.runAll]
    exact counts
  | step :: rest, mode, w, only, obeyed, counts, alternating => by
    rw [Step.allBlocksOnly, Bool.and_eq_true] at only
    have after := step.run_obeyed obeyed
    have here := Step.isRaw_run step rest only.1 obeyed counts alternating
    rw [Step.runAll]
    split
    · rename_i next ran
      rw [ran] at after here
      exact Step.isRaw_runAll rest only.2 after here fun mode' block rest' w' reaches =>
        alternating mode' block rest' w' (.later ran reaches)
    · exact here

end

/-- Where blocks alternate, the session counts at every place as what the block around it holds. -/
theorem Reaches.isRaw_eq (reaches : Reaches mode steps w mode' rest w')
    (only : Step.allBlocksOnly steps = true) (obeyed : w.Obeyed) (counts : w.session.isRaw = mode)
    (alternating : Alternating mode steps w) : w'.session.isRaw = mode' := by
  induction reaches with
  | here => exact counts
  | @later _ _ step steps _ _ _ _ ran _ ih =>
    rw [Step.allBlocksOnly, Bool.and_eq_true] at only
    have after := step.run_obeyed obeyed
    have here := step.isRaw_run steps only.1 obeyed counts alternating
    rw [ran] at after here
    exact ih only.2 after here fun mode' block rest' w' there =>
      alternating mode' block rest' w' (.later ran there)
  | inRaw opened _ ih =>
    rw [Step.allBlocksOnly, Step.blocksOnly, Bool.and_eq_true] at only
    obtain ⟨isRaw, after⟩ := (obeys_enterRaw obeyed).of_noted opened
    exact ih only.1 after isRaw fun mode' block rest' w' there =>
      alternating mode' block rest' w' (.inRaw opened there)
  | inCooked opened _ ih =>
    rw [Step.allBlocksOnly, Step.blocksOnly, Bool.and_eq_true] at only
    obtain ⟨isRaw, after⟩ := (obeys_leaveRaw obeyed).of_noted opened
    exact ih only.1 after isRaw fun mode' block rest' w' there =>
      alternating mode' block rest' w' (.inCooked opened there)
  | inGuarded _ ih =>
    rw [Step.allBlocksOnly, Step.blocksOnly, Bool.and_eq_true] at only
    exact ih only.1 obeyed counts fun mode' block rest' w' there =>
      alternating mode' block rest' w' (.inGuarded there)

mutual

/-- Whether the blocks of a step, in the text of the program, hold the other mode than the block
around them. -/
def Step.alternates : Bool → Step → Bool
  | mode, .raw body => !mode && Step.allAlternate true body
  | mode, .cooked body => mode && Step.allAlternate false body
  | mode, .guarded body => Step.allAlternate mode body
  | _, .enterRaw | _, .leaveRaw | _, .raise _ => true

def Step.allAlternate : Bool → List Step → Bool
  | _, [] => true
  | mode, step :: rest => step.alternates mode && Step.allAlternate mode rest

end

theorem Step.holds?_ne {block : Step} (alternates : block.alternates mode = true) :
    block.holds? ≠ some mode := by
  cases block with
  | raw body =>
    rw [Step.alternates, Bool.and_eq_true, Bool.not_eq_true'] at alternates
    simp [Step.holds?, alternates.1]
  | cooked body =>
    rw [Step.alternates, Bool.and_eq_true] at alternates
    simp [Step.holds?, alternates.1]
  | _ => simp [Step.holds?]

/-- What alternates in the text alternates in every run. -/
theorem alternating_of_allAlternate (alternate : Step.allAlternate mode steps = true) (w : Watch) :
    Alternating mode steps w := by
  intro mode' block rest w' reaches
  have remains : Step.allAlternate mode' (block :: rest) = true := by
    generalize left : block :: rest = places at reaches ⊢
    clear left
    induction reaches with
    | here => exact alternate
    | later _ _ ih => exact ih (Bool.and_eq_true_iff.1 alternate).2
    | inRaw _ _ ih =>
      rw [Step.allAlternate, Step.alternates, Bool.and_eq_true, Bool.and_eq_true] at alternate
      exact ih alternate.1.2
    | inCooked _ _ ih =>
      rw [Step.allAlternate, Step.alternates, Bool.and_eq_true, Bool.and_eq_true] at alternate
      exact ih alternate.1.2
    | inGuarded _ ih =>
      rw [Step.allAlternate, Step.alternates, Bool.and_eq_true] at alternate
      exact ih alternate.1
  rw [Step.allAlternate, Bool.and_eq_true] at remains
  exact Step.holds?_ne remains.1

/-- Where no mode call fails, a program of blocks is balanced exactly if the blocks that its run
comes to alternate, since a block always leaves the other mode behind it than the one that it
holds, with a value or with a fault. -/
theorem balanced_iff_alternating (only : Step.allBlocksOnly steps = true) (obeyed : w.Obeyed) :
    (Balanced w.session.isRaw steps w ↔ Alternating w.session.isRaw steps w) ∧
      ∀ mode block rest w' held, Reaches w.session.isRaw steps w mode (block :: rest) w' →
        block.holds? = some held → (block.run w').2.session.isRaw = !held := by
  have leaves : ∀ mode block rest w' held,
      Reaches w.session.isRaw steps w mode (block :: rest) w' → block.holds? = some held →
        (block.run w').2.session.isRaw = !held :=
    fun _ _ _ _ _ reaches holds => isRaw_after_block holds (reaches.obeyed obeyed)
  refine ⟨⟨?_, ?_⟩, leaves⟩
  · intro balanced mode block rest w' reaches same
    have found := balanced.inside _ _ _ reaches
    have left := balanced.restored _ _ _ _ reaches (by rw [same]; rfl)
    rw [leaves _ _ _ _ _ reaches same, found] at left
    cases mode <;> contradiction
  · intro alternating
    have inside : ∀ mode rest w', Reaches w.session.isRaw steps w mode rest w' →
        w'.session.isRaw = mode :=
      fun _ _ _ reaches => reaches.isRaw_eq only obeyed rfl alternating
    refine ⟨inside, ?_⟩
    intro mode block rest w' reaches isBlock
    obtain ⟨held, holds⟩ := Option.isSome_iff_exists.1 isBlock
    have other : held ≠ mode := by
      rintro rfl
      exact alternating _ _ _ _ reaches holds
    rw [leaves _ _ _ _ _ reaches holds, inside _ _ _ reaches]
    cases held <;> cases mode <;> first | rfl | contradiction

/-- From raw mode, a cooked block with a raw block inside that ends with a fault. -/
theorem balanced_iff_alternating_faulted :
    let steps : List Step := [.guarded [.cooked [.raw [.cooked [], .raise ['x']]]], .cooked []]
    let w : Watch := { session := { savedMode := some 7 } }
    (Step.allBlocksOnly steps = true ∧ w.Obeyed) ∧ Balanced true steps w ∧
      (Step.runAll steps w).2.session.isRaw = true := by
  intro steps w
  have only : Step.allBlocksOnly steps = true := by decide
  have obeyed : w.Obeyed := Host.keeps_obedient fun call => by cases call <;> rfl
  have alternating : Alternating true steps w := alternating_of_allAlternate (by decide) w
  exact ⟨⟨only, obeyed⟩, (balanced_iff_alternating only obeyed).1.2 alternating, by decide⟩

/-- Behind a raw block the terminal is cooked, also inside another raw block. -/
theorem not_balanced_of_raw_in_raw :
    let steps : List Step := [.raw [.raw []]]
    let w : Watch := { session := {} }
    Step.allBlocksOnly steps = true ∧ w.Obeyed ∧ w.session.isRaw = false ∧
      (∃ w', Reaches false steps w true [] w' ∧ w'.session.isRaw = false) ∧
      ¬ Balanced false steps w := by
  intro steps w
  have behind : ∃ w', Reaches false steps w true [] w' ∧ w'.session.isRaw = false :=
    ⟨_, .inRaw rfl (.later rfl (.here _ _ _)), rfl⟩
  have obeyed : w.Obeyed := Host.keeps_obedient fun call => by cases call <;> rfl
  refine ⟨by decide, obeyed, rfl, behind, ?_⟩
  intro balanced
  obtain ⟨w', reaches, cooked⟩ := behind
  rw [balanced.inside _ _ _ reaches] at cooked
  contradiction

end Terminal

end ChainShell
