import ShiftReduce.CommandLine.Options

/-!
# Reading arguments

Arguments are read from left to right.  An argument that begins with two hyphens
is an option by its name, one that begins with a single hyphen is a cluster of
one-letter options, and two hyphens alone end the options.  The value of an
option is the rest of its argument or, if there is none, the next argument that
is no option.  A value that stands by itself is checked only when something else
follows it, or at the end.
-/

namespace ShiftReduce.CommandLine

/-- What the program can be asked to do. -/
inductive CommandName where
  | table
  | states
  | sets
  | parse
  deriving DecidableEq, Repr

def CommandName.all : List CommandName := [.table, .states, .sets, .parse]

def CommandName.name : CommandName → String
  | .table => "table"
  | .states => "states"
  | .sets => "sets"
  | .parse => "parse"

def CommandName.ofName? (name : String) : Option CommandName :=
  CommandName.all.find? (·.name == name)

/-- Where an option stands: before the command, or behind its name. -/
inductive Scope where
  | program
  | command (name : CommandName)
  deriving DecidableEq, Repr

/-- What an option means where it stands. -/
inductive Switch where
  | value (option : ValueOption)
  | trace
  | help
  | version
  deriving DecidableEq, Repr

namespace Scope

/-- The options that take a value and are known in a scope. -/
def valueOptions : Scope → List ValueOption
  | .program => [.numberClass, .augmentedStart, .numberTerminal, .substitute]
  | .command _ => [.numberClass, .augmentedStart, .numberTerminal, .substitute, .grammar]

/-- The option with a long name. -/
def long? (scope : Scope) (name : String) : Option Switch :=
  if name = "help" then some .help
  else if name = "version" ∧ scope = .program then some .version
  else if name = "trace" ∧ scope = .command .parse then some .trace
  else (scope.valueOptions.find? (·.name == name)).map .value

/-- The option with a one-letter name. -/
def short? (scope : Scope) (letter : Char) : Option Switch :=
  if letter = 'h' then some .help
  else if letter = 'V' ∧ scope = .program then some .version
  else if letter = 't' ∧ scope = .command .parse then some .trace
  else if letter = 'g' ∧ scope ≠ .program then some (.value .grammar)
  else none

end Scope

/-- Why reading ends early: a text is asked for instead of a command, or the
arguments are refused. -/
inductive Interruption where
  | help
  | version
  | refused (fault : UsageFault)
  deriving DecidableEq, Repr

/-- Settings read so far, and the option whose value is not yet settled, with that
value if it has been seen. -/
structure Reading where
  settings : Settings
  pending : Option (ValueOption × Option String)
  deriving DecidableEq, Repr

namespace Reading

def start : Reading := ⟨.none, none⟩

def isAwaitingValue (reading : Reading) : Bool :=
  match reading.pending with
  | some (_, none) => true
  | _ => false

def malformed {α : Type} : Except Interruption α := .error (.refused .malformed)

def interrupt {α : Type} : Except UsageFault α → Except Interruption α
  | .ok value => .ok value
  | .error fault => .error (.refused fault)

/-- The settings once the pending option has been given its value, if it has one. -/
def settle (reading : Reading) : Except Interruption Settings :=
  match reading.pending with
  | none => .ok reading.settings
  | some (_, none) => malformed
  | some (option, some value) => interrupt (reading.settings.set option value)

/-- Read an option, whose value may be attached to it. -/
def readSwitch (reading : Reading) (switch : Switch) (attached : Option String) :
    Except Interruption Reading := do
  match switch, attached with
  | .value option, some value =>
      let settings ← reading.settle
      return ⟨← interrupt (settings.set option value), none⟩
  | .value option, none => return ⟨← reading.settle, some (option, none)⟩
  | .trace, none =>
      let settings ← reading.settle
      return ⟨← interrupt settings.setTrace, none⟩
  | .help, none => let _ ← reading.settle; throw .help
  | .version, none => let _ ← reading.settle; throw .version
  | _, some _ => malformed

/-- Read an argument that begins with two hyphens, without these. -/
def readLong (scope : Scope) (reading : Reading) (argument : List Char) :
    Except Interruption Reading :=
  match scope.long? (String.ofList (argument.takeWhile (· ≠ '='))) with
  | none => malformed
  | some switch =>
      reading.readSwitch switch <|
        match argument.dropWhile (· ≠ '=') with
        | [] => none
        | _ :: value => some (String.ofList value)

/-- Read a cluster of one-letter options. What follows an option that takes a
value is that value, apart from an equals sign in front of it. -/
def readCluster (scope : Scope) (reading : Reading) : List Char → Except Interruption Reading
  | [] => .ok reading
  | letter :: rest =>
    match scope.short? letter with
    | none => malformed
    | some (.value option) =>
        reading.readSwitch (.value option) <|
          match rest with
          | [] => none
          | '=' :: value => some (String.ofList value)
          | value => some (String.ofList value)
    | some switch =>
      match reading.readSwitch switch none with
      | .error interruption => .error interruption
      | .ok read => read.readCluster scope rest

/-- Read an argument that is neither an option nor the value of one. Only the
command that parses takes such arguments. -/
def readText (scope : Scope) (reading : Reading) (argument : String) :
    Except Interruption Reading :=
  if scope = .command .parse then do
    let settings ← reading.settle
    return ⟨{ settings with texts := settings.texts ++ [argument] }, none⟩
  else malformed

/-- Read an argument before the options have ended. -/
def readArgument (scope : Scope) (reading : Reading) (argument : String) :
    Except Interruption Reading :=
  match argument.toList with
  | '-' :: '-' :: option => reading.readLong scope option
  | '-' :: letter :: letters => reading.readCluster scope (letter :: letters)
  | _ =>
    match reading.pending with
    | some (option, none) => .ok { reading with pending := some (option, some argument) }
    | _ => reading.readText scope argument

end Reading

/-- Read the arguments of a command. -/
def readCommand (name : CommandName) (trailing : Bool) (reading : Reading) :
    List String → Except Interruption Settings
  | [] => reading.settle
  | argument :: arguments =>
    if trailing then do
      readCommand name true (← reading.readText (.command name) argument) arguments
    else if argument = "--" then readCommand name true reading arguments
    else do
      readCommand name false (← reading.readArgument (.command name) argument) arguments

/-- A request for help may name one command, or help itself. -/
def readHelp : List String → Interruption
  | [] => .help
  | [name] =>
      if name = "help" ∨ (CommandName.ofName? name).isSome then .help else .refused .malformed
  | _ => .refused .malformed

/-- What the program is asked to do with which settings. -/
structure Request where
  command : CommandName
  settings : Settings
  deriving DecidableEq, Repr

/-- Read all arguments. What stands before the command is checked last. -/
def readProgram (reading : Reading) : List String → Except Interruption Request
  | [] => do
      let _ ← reading.settle
      Reading.malformed
  | argument :: arguments =>
    match if reading.isAwaitingValue then none else CommandName.ofName? argument with
    | some command => do
        let settings ← readCommand command false .start arguments
        if settings.grammar.isNone then Reading.malformed
        else return ⟨command, settings.orElse (← reading.settle)⟩
    | none =>
      if argument = "help" ∧ !reading.isAwaitingValue then .error (readHelp arguments)
      else if argument = "--" then
        match arguments with
        | [] => do
            let _ ← reading.settle
            Reading.malformed
        | _ :: _ => Reading.malformed
      else do
        readProgram (← reading.readArgument .program argument) arguments

/-- The request that arguments make. -/
def Request.ofArguments (arguments : List String) : Except Interruption Request :=
  readProgram .start arguments

end ShiftReduce.CommandLine
