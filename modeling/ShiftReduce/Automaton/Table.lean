import ShiftReduce.Automaton.Basic
import ShiftReduce.Text.Pieces

/-!
# Printing an automaton

The transition table has one row for each state: its number, whether it can
reduce, and where it goes on each symbol.  The listing of states shows the items
of each.
-/

namespace ShiftReduce

namespace Automaton

/-- The symbols with a column in the table: the terminals, then the nonterminals
other than the augmented start, on which nothing moves. -/
def columns (automaton : Automaton) : List Symbol :=
  automaton.grammar.terminals ++
    automaton.grammar.nonterminals.filter (· != automaton.grammar.augmentedStart)

/-- A row of the table: the state and the reduce flag in six places each, with a
space between, then five places for each column. -/
def tableRow (state reduce : String) (cells : List String) : String :=
  Text.padLeft 6 state ++ " " ++ Text.padLeft 6 reduce ++
    String.join (cells.map (Text.padLeft 5))

/-- The row of one state; a cell without a transition is blank. -/
def stateRow (automaton : Automaton) (state : State) : String :=
  tableRow (toString state.id) (if state.canReduce automaton.grammar then "yes" else "no")
    (automaton.columns.map fun symbol => ((state.transition symbol).map toString).getD "")

/-- The transition table. -/
def table (automaton : Automaton) : String :=
  Text.unlines <|
    tableRow "state" "reduce" (automaton.columns.map automaton.grammar.label) ::
      automaton.states.map automaton.stateRow

/-- The items of all states, with a blank line after each state. -/
def listing (automaton : Automaton) : String :=
  Text.unlines <|
    s!"CS,{automaton.states.length}" :: "" ::
      automaton.states.flatMap fun state =>
        state.items.toList.map (fun item => s!"C,{state.id},{item.text automaton.grammar}") ++ [""]

end Automaton

end ShiftReduce
