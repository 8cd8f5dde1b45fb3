import ShiftReduce.Automaton.Build
import ShiftReduce.Parser.Run

/-!
# Recognizers

A recognizer is a grammar that gets its automaton on demand.  Until then every
parse is refused.
-/

namespace ShiftReduce

/-- A grammar, and its automaton once that has been built. -/
structure Recognizer where
  grammar : Grammar
  built? : Option Automaton
  deriving DecidableEq, Repr

namespace Recognizer

def ofGrammar (grammar : Grammar) : Recognizer := ⟨grammar, none⟩

/-- Build the automaton, unless there is one already. -/
def build (recognizer : Recognizer) : Recognizer :=
  match recognizer.built? with
  | some _ => recognizer
  | none => { recognizer with built? := some (.build recognizer.grammar) }

def isReady (recognizer : Recognizer) : Bool := recognizer.built?.isSome

def automaton (recognizer : Recognizer) : Except Error Automaton :=
  match recognizer.built? with
  | some automaton => .ok automaton
  | none => .error .notBuilt

def parseText (recognizer : Recognizer) (text : List Char) : Except Error Trace := do
  (← recognizer.automaton).parseText text

end Recognizer

end ShiftReduce
