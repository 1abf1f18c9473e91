/-
# ChainShell.Store.Basic — the variables of a session

A store gives names their values.  Entries keep the order in which the names were
first set; setting a name again changes its value in place, and no name occurs
twice in a store built by `set` and `unset`.  Everything a store says is said by
`get?` (`get?_set`, `get?_unset`).
-/
import ChainShell.Text.Basic

set_option autoImplicit false

namespace ChainShell

/-- Variables and their values, in the order of their first setting. -/
structure Store where
  entries : List (Text × Text) := []
  deriving DecidableEq, Repr

namespace Store

def empty : Store := {}

def get? (s : Store) (name : Text) : Option Text := s.entries.lookup name

/-- The value of a variable, or no text if it is unset. -/
def getD (s : Store) (name : Text) : Text := (s.get? name).getD []

/-- Gives the first entry of a name its new value, or adds an entry at the end. -/
def setEntry (name value : Text) : List (Text × Text) → List (Text × Text)
  | [] => [(name, value)]
  | entry :: rest =>
    if entry.1 = name then (name, value) :: rest else entry :: setEntry name value rest

def set (s : Store) (name value : Text) : Store := ⟨setEntry name value s.entries⟩

def unset (s : Store) (name : Text) : Store := ⟨s.entries.filter fun entry => entry.1 != name⟩

/-- The store that results from setting each entry in turn. -/
def ofList (entries : List (Text × Text)) : Store :=
  entries.foldl (fun s entry => s.set entry.1 entry.2) empty

/-! ## Reading back -/

theorem lookup_setEntry (name value other : Text) (entries : List (Text × Text)) :
    (setEntry name value entries).lookup other =
      if other = name then some value else entries.lookup other := by
  induction entries with
  | nil =>
    by_cases h : other = name
    · simp [setEntry, h]
    · simp [setEntry, List.lookup_cons, h, beq_false_of_ne]
  | cons entry rest ih =>
    obtain ⟨key, old⟩ := entry
    by_cases here : key = name
    · by_cases h : other = name
      · simp [setEntry, here, h]
      · simp [setEntry, here, List.lookup_cons, h, beq_false_of_ne]
    · by_cases h : other = key
      · subst h
        simp [setEntry, here]
      · simp [setEntry, here, List.lookup_cons, beq_false_of_ne h, ih]

@[simp] theorem get?_set (s : Store) (name value other : Text) :
    (s.set name value).get? other = if other = name then some value else s.get? other :=
  lookup_setEntry name value other s.entries

/-- Without the entries of a name every other name keeps its first entry. -/
theorem lookup_filter_bne {β : Type} (name other : Text) (entries : List (Text × β)) :
    (entries.filter fun entry => entry.1 != name).lookup other =
      if other = name then none else entries.lookup other := by
  induction entries with
  | nil => simp
  | cons entry rest ih =>
    obtain ⟨key, old⟩ := entry
    by_cases gone : key = name
    · by_cases h : other = name
      · simpa [gone, h] using ih
      · simpa [gone, h, List.lookup_cons, beq_false_of_ne] using ih
    · by_cases h : other = key
      · subst h
        simp [gone]
      · simpa [gone, List.lookup_cons, beq_false_of_ne h] using ih

@[simp] theorem get?_unset (s : Store) (name other : Text) :
    (s.unset name).get? other = if other = name then none else s.get? other :=
  lookup_filter_bne name other s.entries

end Store

end ChainShell
