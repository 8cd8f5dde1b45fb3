import ShiftReduce.Symbol
import ShiftReduce.Text.Quoted

/-!
# Errors

Everything that can be refused, as causes.  Loading a grammar fails with a
format fault or an unknown symbol; a parse fails because the automaton is not
built, because of an unknown symbol, or because the input is not accepted.
-/

namespace ShiftReduce

/-- What is wrong with a rule, with the grammar as a whole, or with its dialect. -/
inductive FormatFault where
  /-- The dialect's augmented start is not a nonterminal. -/
  | augmentedStart (symbol : Symbol)
  /-- The dialect's number terminal is not a terminal. -/
  | numberTerminal (symbol : Symbol)
  /-- A line has no arrow, or more than one. -/
  | arrowCount
  /-- The text before the arrow is not one symbol. -/
  | leftLength
  | leftNotNonterminal (symbol : Symbol)
  | leftReserved (symbol : Symbol)
  | alternativeEmpty
  /-- The empty symbol occurs beside other symbols. -/
  | emptySymbolNotAlone
  | rightReserved (symbol : Symbol)
  | noProductions
  /-- A fault in the words of a caller. -/
  | described (text : String)
  deriving DecidableEq, Repr

def FormatFault.message : FormatFault → String
  | .augmentedStart symbol =>
      s!"augmented start {Text.quoteChar symbol.toChar} is not a nonterminal"
  | .numberTerminal symbol =>
      s!"number terminal {Text.quoteChar symbol.toChar} is not a terminal"
  | .arrowCount => "expected exactly one `->`"
  | .leftLength => "left-hand side must be a single symbol"
  | .leftNotNonterminal symbol => s!"left-hand side {symbol.text} is not a nonterminal"
  | .leftReserved symbol => s!"left-hand side {symbol.text} is reserved"
  | .alternativeEmpty => "empty alternative"
  | .emptySymbolNotAlone => "empty symbol must stand alone in an alternative"
  | .rightReserved symbol => s!"reserved symbol {symbol.text} on right-hand side"
  | .noProductions => "grammar has no productions"
  | .described text => text

/-- Why a request was refused. -/
inductive Error where
  /-- A rule is malformed. Lines count from one; line zero stands for what has
  no line, such as the dialect or the grammar as a whole. -/
  | format (line : Nat) (fault : FormatFault)
  /-- A character is no symbol, or a symbol has no place in the grammar. -/
  | unknownSymbol (character : Char)
  | notBuilt
  /-- The input cannot be continued with this symbol in this state. -/
  | rejected (symbol : Symbol) (state : Nat)
  deriving DecidableEq, Repr

namespace Error

def message : Error → String
  | .format line fault => s!"grammar format error at line {line}: {fault.message}"
  | .unknownSymbol character => s!"unknown symbol {Text.quoteChar character}"
  | .notBuilt => "automaton is not built"
  | .rejected symbol state => s!"cannot accept {symbol.text} at state {state}"

/-- The error written as a record of its fields. -/
def record : Error → String
  | .format line fault =>
      s!"GrammarFormat \x7b line: {line}, message: {Text.quote fault.message} \x7d"
  | .unknownSymbol character => s!"UnknownSymbol \x7b symbol: {Text.quoteChar character} \x7d"
  | .notBuilt => "AutomatonNotReady"
  | .rejected symbol state =>
      s!"ParseRejected \x7b symbol: {Text.quoteChar symbol.toChar}, state: {state} \x7d"

/-- Whether the grammar and its automaton remain usable after the error. -/
def isRecoverable : Error → Bool
  | .notBuilt | .rejected .. => true
  | .format .. | .unknownSymbol _ => false

/-- An unknown symbol, reported by its character. -/
def unknown (symbol : Symbol) : Error := .unknownSymbol symbol.toChar

end Error

/-- The symbols of a text, or the first character that is none. -/
def Symbol.readAll (text : List Char) : Except Error (List Symbol) :=
  text.mapM fun character =>
    match Symbol.ofPrintable? character with
    | some symbol => .ok symbol
    | none => .error (.unknownSymbol character)

end ShiftReduce
