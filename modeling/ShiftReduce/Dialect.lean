import ShiftReduce.Symbol
import ShiftReduce.Text.Pieces

/-!
# Dialects

A dialect fixes how grammars and inputs are spelled: which labels of several
characters stand for which symbol, which nonterminal is reserved for the
augmented start, and which characters of an input may stand for the number
terminal.
-/

namespace ShiftReduce

/-- The classes of characters that can stand for the number terminal. -/
inductive NumberClass where
  /-- The decimal digits of ASCII. -/
  | digits
  /-- The letters and decimal digits of ASCII. -/
  | alphanumeric
  deriving DecidableEq, Repr

def NumberClass.contains : NumberClass → Char → Bool
  | .digits, character => character.isDigit
  | .alphanumeric, character => character.isAlphanum

/-- The spelling rules that a grammar is read and shown with. Labels are distinct
and kept in the order in which they were introduced. -/
structure Dialect where
  labels : List (String × Symbol)
  augmentedStart : Symbol
  numberTerminal : Symbol
  numberClass : NumberClass
  deriving DecidableEq, Repr

namespace Dialect

/-- Two primed labels, `Y` as the augmented start, and digits for `n`. -/
def standard : Dialect where
  labels := [("E\x27", .ofChar 'R'), ("T\x27", .ofChar 'U')]
  augmentedStart := .ofChar 'Y'
  numberTerminal := .ofChar 'n'
  numberClass := .digits

/-- Let a label stand for a symbol. A label that is already known keeps its
place and only changes its symbol. -/
def withLabel (dialect : Dialect) (label : String) (symbol : Symbol) : Dialect :=
  { dialect with
    labels :=
      if dialect.labels.any (·.1 == label) then
        dialect.labels.map fun entry => if entry.1 = label then (label, symbol) else entry
      else dialect.labels ++ [(label, symbol)] }

def withoutLabels (dialect : Dialect) : Dialect := { dialect with labels := [] }

/-- Write every label as its symbol, one label after the other, so that a later
label also applies to the symbols written for an earlier one. -/
def substitute (dialect : Dialect) (text : List Char) : List Char :=
  dialect.labels.foldl
    (fun written (label, symbol) => Text.replaceAll label.toList [symbol.toChar] written) text

/-- The first label that stands for a symbol. -/
def label? (dialect : Dialect) (symbol : Symbol) : Option String :=
  (dialect.labels.find? (·.2 == symbol)).map (·.1)

/-- How a symbol is shown: by its first label if it has one, else by its character. -/
def label (dialect : Dialect) (symbol : Symbol) : String :=
  (dialect.label? symbol).getD symbol.text

/-- Whether a character can stand for the number terminal. -/
def isNumber (dialect : Dialect) (character : Char) : Bool :=
  dialect.numberClass.contains character

/-- The symbols that no rule may define or mention: the end marker and the
augmented start. -/
def isReserved (dialect : Dialect) (symbol : Symbol) : Bool :=
  symbol.isEndMarker || symbol == dialect.augmentedStart

end Dialect

end ShiftReduce
