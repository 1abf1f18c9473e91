/-
# ChainShell.Options.Parser — reading the arguments

Reading goes in two passes.  The first looks at each argument alone (`Argument.read`):

* the first `--` separates; every argument after it is a value;
* an argument without a leading hyphen, or a lone hyphen, is a value;
* an argument spelt as an option, up to an equals sign if there is one, is that option;
* an argument with two hyphens may abbreviate an option, if it fits only one;
* a hyphen, the letter of an option and more is that option with the rest attached;
* what looks like a negative number, or holds a space, is a value;
* anything else is an option that does not exist.

The second pass goes through the arguments in order.  What is attached to an option is its
value; to a letter that takes none, it is a row of further letters, each of them an option.
The first value that no option takes is the script, together with a separator on either
side of it; later ones, and options that do not exist, are refused at the end, after any
other error.
-/
import ChainShell.Options.Basic
import ChainShell.Text.Digit

set_option autoImplicit false

namespace ChainShell

/-- An argument by its looks. -/
inductive Argument where
  | value (text : Text)
  | separator
  /-- An option, whether it is spelt with two hyphens, and what is attached to it. -/
  | option (switch : Switch) (long : Bool) (attached : Option Text)
  | unknown (text : Text)
  deriving DecidableEq, Repr

/-- A request that the arguments make. -/
inductive Request where
  | help
  | run (options : Options)
  deriving DecidableEq, Repr

def separatorText : Text := ['-', '-']

namespace Argument

/-! ## One argument -/

/-- The texts before and after the first equals sign. -/
def splitEquals? (argument : Text) : Option (Text × Text) :=
  match argument.dropWhile (· != '=') with
  | '=' :: text => some (argument.takeWhile (· != '='), text)
  | _ => none

/-- Whether a spelling has two hyphens. -/
def isLong (spelling : Text) : Bool := separatorText.isPrefixOf spelling

/-- The option whose spelling is the argument, or the argument up to an equals sign. -/
def asSpelt? (argument : Text) : Option Argument :=
  match Switch.ofSpelling? argument with
  | some switch => some (option switch (isLong argument) none)
  | none =>
    match splitEquals? argument with
    | some (spelling, text) =>
      (Switch.ofSpelling? spelling).map fun switch => option switch (isLong spelling) (some text)
    | none => none

/-- The spellings that an argument may stand for, with the options they name. -/
def candidates (argument : Text) : List (Text × Argument) :=
  match argument with
  | '-' :: '-' :: _ =>
    let stem := (splitEquals? argument).elim argument (·.1)
    let attached := (splitEquals? argument).map (·.2)
    (Switch.spellings.filter fun spelling => stem.isPrefixOf spelling.1).map fun spelling =>
      (spelling.1, option spelling.2 true attached)
  | '-' :: letter :: rest =>
    (Switch.spellings.filter fun spelling => spelling.1 = ['-', letter]).map fun spelling =>
      (spelling.1, option spelling.2 false (some rest))
  | _ => []

/-- Whether an argument is a hyphen and a decimal numeral, with or without a point in it.
A line feed may follow. -/
def isNegativeNumber : Text → Bool
  | '-' :: rest =>
    let numeral := if rest.getLast? = some '\n' then rest.dropLast else rest
    match numeral.dropWhile Text.isDecimal with
    | [] => !numeral.isEmpty
    | '.' :: fraction => !fraction.isEmpty && fraction.all Text.isDecimal
    | _ => false
  | _ => false

/-- An argument before the separator. -/
def read (argument : Text) : Except UsageError Argument :=
  match argument with
  | '-' :: _ :: _ =>
    match asSpelt? argument with
    | some found => .ok found
    | none =>
      match candidates argument with
      | [(_, found)] => .ok found
      | first :: second :: more =>
        .error (.ambiguous argument ((first :: second :: more).map (·.1)))
      | [] =>
        if isNegativeNumber argument || argument.contains ' ' then .ok (value argument)
        else .ok (unknown argument)
  | _ => .ok (value argument)

/-- The arguments by their looks. -/
def readAll : List Text → Except UsageError (List Argument)
  | [] => .ok []
  | argument :: rest =>
    if argument = separatorText then .ok (separator :: rest.map value)
    else do
      let first ← read argument
      let later ← readAll rest
      return first :: later

end Argument

/-! ## The list of arguments -/

structure Reading where
  options : Options := {}
  /-- Whether the place of the script is taken. -/
  scriptRead : Bool := false
  /-- The arguments that found no place. -/
  extras : List Text := []

namespace Reading

def setScript (r : Reading) (script : Option Text) : Reading :=
  { r with options := { r.options with script }, scriptRead := true }

def setValue (r : Reading) (switch : Switch) (value : OptionValue) : Reading :=
  { r with options := r.options.setValue switch value }

def setExplain (r : Reading) : Reading := { r with options := { r.options with explain := true } }

def addExtra (r : Reading) (argument : Text) : Reading :=
  { r with extras := r.extras ++ [argument] }

/-- The value that a text attached to an option gives it. -/
def attachedValue (attached : Text) : OptionValue :=
  if attached = separatorText then .nothing else .text attached

/-- Checks the row of letters attached to one that takes no value.  The first letter that takes
a value has the rest of the row for it or, at the end of the row, the next argument. -/
def checkLetters (rest : List Argument) (switch : Switch) : Text → Except UsageError Unit
  | [] => .error (.ignoredValue switch [])
  | letter :: tail =>
    match Switch.ofSpelling? ['-', letter] with
    | none => .error (.ignoredValue switch (letter :: tail))
    | some next =>
      match next.takesValue, tail, rest with
      | true, [], .value _ :: _ => .ok ()
      | true, [], _ => .error (.missingValue next)
      | true, _ :: _, _ => .ok ()
      | false, [], _ => .ok ()
      | false, tail, _ => checkLetters rest next tail

def finish (r : Reading) : List Argument → Except UsageError Request
  | [] => if r.extras.isEmpty then .ok (.run r.options) else .error (.unrecognized r.extras)
  | .unknown text :: rest => finish (r.addExtra text) rest
  | .option .help _ none :: _ => .ok .help
  | .option .help true (some attached) :: _ => .error (.ignoredValue .help attached)
  | .option .help false (some attached) :: rest =>
    (checkLetters rest .help attached).map fun _ => .help
  | .option .explain _ none :: rest => finish r.setExplain rest
  | .option .explain _ (some attached) :: _ => .error (.ignoredValue .explain attached)
  | .option switch _ (some attached) :: rest =>
    finish (r.setValue switch (attachedValue attached)) rest
  | .option switch _ none :: .value text :: rest => finish (r.setValue switch (.text text)) rest
  | .option switch _ none :: _ => .error (.missingValue switch)
  | .separator :: .value text :: rest =>
    if r.scriptRead then finish (r.addExtra separatorText) (.value text :: rest)
    else finish (r.setScript (some text)) rest
  | .separator :: rest =>
    if r.scriptRead then finish (r.addExtra separatorText) rest
    else finish (r.setScript none) rest
  | .value text :: .separator :: rest =>
    if r.scriptRead then finish (r.addExtra text) (.separator :: rest)
    else finish (r.setScript (some text)) rest
  | .value text :: rest =>
    if r.scriptRead then finish (r.addExtra text) rest
    else finish (r.setScript (some text)) rest

end Reading

/-- The request that the arguments make. -/
def Request.ofArguments (arguments : List Text) : Except UsageError Request := do
  Reading.finish {} (← Argument.readAll arguments)

end ChainShell
