/-
# ChainShell.Options.Basic — the command line of the shell itself

The shell takes at most one script and four options: help, a command to run, whether
to explain that command instead, and the marker of the interactive line.  Options with
a value take the argument after them or a value attached to them.  A lone `--` is never
a value: attached to an option, it leaves the option with nothing.
-/
import ChainShell.Error

set_option autoImplicit false

namespace ChainShell

inductive Switch where
  | help
  | command
  | explain
  | prompt
  deriving DecidableEq, Repr

namespace Switch

/-- Whether an option takes a value. -/
def takesValue : Switch → Bool
  | command | prompt => true
  | help | explain => false

def name : Switch → Text
  | help => "-h/--help".toList
  | command => "-c".toList
  | explain => "--explain".toList
  | prompt => "--prompt".toList

/-- The spellings of the options, in the order in which messages list them. -/
def spellings : List (Text × Switch) :=
  [("-h".toList, help), ("--help".toList, help), ("-c".toList, command),
    ("--explain".toList, explain), ("--prompt".toList, prompt)]

/-- The option with exactly this spelling. -/
def ofSpelling? (spelling : Text) : Option Switch := spellings.lookup spelling

end Switch

/-- What an option with a value was given. -/
inductive OptionValue where
  /-- The option was given, and nothing with it. -/
  | nothing
  | text (text : Text)
  deriving DecidableEq, Repr

/-- What the arguments ask for. -/
structure Options where
  script : Option Text := none
  command : Option OptionValue := none
  explain : Bool := false
  prompt : Option OptionValue := none
  deriving DecidableEq, Repr

namespace Options

/-- Gives an option its value; a later value replaces an earlier one. -/
def setValue (o : Options) (switch : Switch) (value : OptionValue) : Options :=
  match switch with
  | .command => { o with command := some value }
  | .prompt => { o with prompt := some value }
  | .help | .explain => o

end Options

/-- What is wrong with the arguments. -/
inductive UsageError where
  /-- An argument abbreviates more than one option. -/
  | ambiguous (argument : Text) (spellings : List Text)
  | missingValue (switch : Switch)
  /-- A value is attached to an option that takes none. -/
  | ignoredValue (switch : Switch) (value : Text)
  | unrecognized (arguments : List Text)
  deriving DecidableEq, Repr

namespace UsageError

def message : UsageError → Text
  | ambiguous argument spellings =>
    "ambiguous option: ".toList ++ argument ++ " could match ".toList ++
      ", ".toList.intercalate spellings
  | missingValue switch =>
    "argument ".toList ++ switch.name ++ ": expected one argument".toList
  | ignoredValue switch value =>
    "argument ".toList ++ switch.name ++ ": ignored explicit argument ".toList ++ Text.quote value
  | unrecognized arguments => "unrecognized arguments: ".toList ++ [' '].intercalate arguments

def report (e : UsageError) : Text := diagnostic ("error: ".toList ++ e.message)

end UsageError

end ChainShell
