import ShiftReduce.Parser.Progress
import ShiftReduce.Text.Blank

/-!
# Running a parse

A parse checks that its input consists of symbols that may stand in an input, and
then steps until the input is accepted or a step is refused.
-/

namespace ShiftReduce

namespace Configuration

/-- Step until the input is accepted or a step is refused. The result is the last
configuration, with the refusal if there was one. -/
def run (automaton : Automaton) (configuration : Configuration)
    (within : configuration.machine.Within automaton) : Configuration × Option Refusal :=
  match stepped : configuration.step automaton with
  | (next, .error refusal) => (next, some refusal)
  | (next, .ok step) =>
      if last : step = .accept then (next, none)
      else
        have progress := step_progress within stepped last
        run automaton next progress.1
termination_by (configuration.machine.remaining.length, configuration.unseen automaton)
decreasing_by exact progress.2

end Configuration

/-- The steps of an accepted parse, and how many there were. -/
structure Trace where
  steps : List Step
  statistics : Statistics
  deriving DecidableEq, Repr

namespace Trace

/-- The line that describes a step. -/
def stepText (grammar : Grammar) : Step → String
  | .shift symbol state => s!"shift {grammar.label symbol} -> {state}"
  | .reduce production state => s!"reduce {grammar.productionText production}, goto {state}"
  | .accept => "accept"

/-- A trace with one line for each step. -/
def text (grammar : Grammar) (trace : Trace) : String :=
  Text.unlines (trace.steps.map (stepText grammar))

end Trace

/-- What has been recorded up to a configuration. -/
def Configuration.trace (configuration : Configuration) : Trace :=
  ⟨configuration.steps, configuration.statistics⟩

/-- The error that reports a refusal. -/
def Refusal.error (refusal : Refusal) : Error := .rejected refusal.symbol refusal.state

/-- Whether a symbol may stand in an input: it is a terminal other than the end
marker, or a printable character of the number class. -/
def Dialect.admits (dialect : Dialect) (symbol : Symbol) : Bool :=
  symbol.isInput || (symbol.isPrintable && dialect.isNumber symbol.toChar)

namespace Automaton

/-- The first symbol of an input that may not stand in it, as an error. -/
def inputFault? (automaton : Automaton) (input : List Symbol) : Option Error :=
  (input.find? (!automaton.grammar.dialect.admits ·)).map Error.unknown

/-- Step through an unchecked input to the end. -/
def runInput (automaton : Automaton) (input : List Symbol) : Configuration × Option Refusal :=
  (Configuration.start input).run automaton (Machine.start_within automaton input)

/-- Parse a sequence of symbols. -/
def parse (automaton : Automaton) (input : List Symbol) : Except Error Trace :=
  match automaton.inputFault? input with
  | some error => .error error
  | none =>
    match automaton.runInput input with
    | (_, some refusal) => .error refusal.error
    | (final, none) => .ok final.trace

/-- Parse a text, one symbol for each character that is not blank. -/
def parseText (automaton : Automaton) (text : List Char) : Except Error Trace :=
  match Symbol.readAll (Text.withoutBlanks text) with
  | .error error => .error error
  | .ok input => automaton.parse input

/-- Whether the parse of a text succeeds. -/
def accepts (automaton : Automaton) (text : List Char) : Bool :=
  (automaton.parseText text).toBool

end Automaton

end ShiftReduce
