import ShiftReduce.Dialect
import ShiftReduce.Error
import ShiftReduce.Text.Controls

/-!
# Options of the command line

The options that take a value, how their values are read, and what has been set
so far.  Every option may be given once, apart from `--substitute`, which may be
repeated.
-/

namespace ShiftReduce.CommandLine

/-- The options that take a value. -/
inductive ValueOption where
  | numberClass
  | augmentedStart
  | numberTerminal
  | substitute
  | grammar
  deriving DecidableEq, Repr

namespace ValueOption

/-- The name of the option behind its two hyphens. -/
def name : ValueOption → String
  | .numberClass => "number-class"
  | .augmentedStart => "augmented-start"
  | .numberTerminal => "number-terminal"
  | .substitute => "substitute"
  | .grammar => "grammar"

/-- What messages call the value of the option. -/
def valueName : ValueOption → String
  | .numberClass => "NUMBER_CLASS"
  | .augmentedStart => "AUGMENTED_START"
  | .numberTerminal => "NUMBER_TERMINAL"
  | .substitute => "SUBSTITUTIONS"
  | .grammar => "GRAMMAR"

end ValueOption

/-- Why arguments are refused. -/
inductive UsageFault where
  /-- The value of an option cannot be read; the reason may be left unsaid. -/
  | invalidValue (option : ValueOption) (value : String) (reason : Option String)
  /-- The arguments do not have the form of a command. -/
  | malformed
  deriving DecidableEq, Repr

/-- The message about an invalid value, which shows the value as plain text. -/
def UsageFault.message? : UsageFault → Option String
  | .invalidValue option value reason =>
      let shown := Text.withoutControls value
      some <|
        s!"error: invalid value '{shown}' for '--{option.name} <{option.valueName}>'" ++
          match reason with
          | some reason => ": " ++ reason
          | none => ""
  | .malformed => none

/-- What the options of one command have set. -/
structure Settings where
  numberClass : Option NumberClass
  augmentedStart : Option Symbol
  numberTerminal : Option Symbol
  substitutions : List (String × Symbol)
  grammar : Option String
  trace : Bool
  texts : List String
  deriving DecidableEq, Repr

/-- Read a value that is one printable character. -/
def readSymbol (value : String) : Except String Symbol :=
  match value.toList with
  | [character] =>
    match Symbol.ofPrintable? character with
    | some symbol => .ok symbol
    | none => .error s!"{Text.quoteChar character} is not a printable ASCII symbol"
  | _ => .error s!"expected a single character, got {Text.quote value}"

/-- Read a value that is a label and its symbol, with an equals sign between. The
first equals sign ends the label. -/
def readSubstitution (value : String) : Except String (String × Symbol) :=
  let label := value.toList.takeWhile (· ≠ '=')
  match value.toList.dropWhile (· ≠ '=') with
  | [] => .error s!"expected LABEL=C, got {Text.quote value}"
  | _ :: symbol =>
    if label.isEmpty then .error s!"empty label in {Text.quote value}"
    else
      match readSymbol (String.ofList symbol) with
      | .ok symbol => .ok (String.ofList label, symbol)
      | .error reason => .error reason

/-- Read the name of a number class. An empty name counts as a missing value. -/
def readNumberClass (value : String) : Except UsageFault NumberClass :=
  if value = "digits" then .ok .digits
  else if value = "alphanumeric" then .ok .alphanumeric
  else if value = "" then .error .malformed
  else .error (.invalidValue .numberClass value none)

namespace Settings

def none : Settings where
  numberClass := .none
  augmentedStart := .none
  numberTerminal := .none
  substitutions := []
  grammar := .none
  trace := false
  texts := []

/-- Whether an option can no longer be given. -/
def isSpent (settings : Settings) : ValueOption → Bool
  | .numberClass => settings.numberClass.isSome
  | .augmentedStart => settings.augmentedStart.isSome
  | .numberTerminal => settings.numberTerminal.isSome
  | .substitute => false
  | .grammar => settings.grammar.isSome

/-- Report why a value cannot be read. -/
def explain {α : Type} (option : ValueOption) (value : String) :
    Except String α → Except UsageFault α
  | .ok read => .ok read
  | .error reason => .error (.invalidValue option value (some reason))

/-- Give an option its value. -/
def set (settings : Settings) (option : ValueOption) (value : String) :
    Except UsageFault Settings :=
  if settings.isSpent option then .error .malformed
  else
    match option with
    | .numberClass => do
        return { settings with numberClass := some (← readNumberClass value) }
    | .augmentedStart => do
        return { settings with augmentedStart := some (← explain option value (readSymbol value)) }
    | .numberTerminal => do
        return { settings with numberTerminal := some (← explain option value (readSymbol value)) }
    | .substitute => do
        let substitution ← explain option value (readSubstitution value)
        return { settings with substitutions := settings.substitutions ++ [substitution] }
    | .grammar =>
        if value = "" then .error .malformed else .ok { settings with grammar := some value }

/-- Set the flag that asks for traces, which may be given once. -/
def setTrace (settings : Settings) : Except UsageFault Settings :=
  if settings.trace then .error .malformed else .ok { settings with trace := true }

/-- The settings of a command together with those given before the command, which
count only where the command itself sets nothing. -/
def orElse (settings outer : Settings) : Settings :=
  { settings with
    numberClass := settings.numberClass <|> outer.numberClass
    augmentedStart := settings.augmentedStart <|> outer.augmentedStart
    numberTerminal := settings.numberTerminal <|> outer.numberTerminal
    substitutions :=
      if settings.substitutions.isEmpty then outer.substitutions else settings.substitutions }

/-- The standard dialect with what the options change in it. -/
def dialect (settings : Settings) : Dialect :=
  let standard := Dialect.standard
  settings.substitutions.foldl (fun dialect (label, symbol) => dialect.withLabel label symbol)
    { standard with
      numberClass := settings.numberClass.getD standard.numberClass
      augmentedStart := settings.augmentedStart.getD standard.augmentedStart
      numberTerminal := settings.numberTerminal.getD standard.numberTerminal }

end Settings

end ShiftReduce.CommandLine
