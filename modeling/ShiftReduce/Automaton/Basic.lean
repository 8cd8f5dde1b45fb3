import ShiftReduce.Item

/-!
# Automata

An automaton is a grammar with states numbered from zero.  A state holds the
items that are possible at one point of a parse and the transitions that lead on
from it.
-/

namespace ShiftReduce

/-- A set of items and where each symbol behind a dot leads. Transitions are in
order of the symbols' first occurrence in the items. -/
structure State where
  id : Nat
  items : ItemSet
  transitions : List (Symbol × Nat)
  deriving DecidableEq, Repr

namespace State

/-- The state reached over a symbol. -/
def transition (state : State) (symbol : Symbol) : Option Nat :=
  (state.transitions.find? (·.1 == symbol)).map (·.2)

/-- Whether some item of the state is complete. -/
def canReduce (grammar : Grammar) (state : State) : Bool :=
  state.items.toList.any (·.isComplete grammar)

theorem canReduce_iff {grammar : Grammar} {state : State} :
    state.canReduce grammar = true ↔ ∃ item ∈ state.items, item.isComplete grammar = true := by
  simp only [canReduce, List.any_eq_true, OrderedSet.mem_toList]

end State

/-- A grammar and the states of its parser. State zero is the initial one. -/
structure Automaton where
  grammar : Grammar
  states : List State
  deriving DecidableEq, Repr

namespace Automaton

def size (automaton : Automaton) : Nat := automaton.states.length

def state? (automaton : Automaton) (id : Nat) : Option State := automaton.states[id]?

/-- The state reached from a state over a symbol. -/
def goto (automaton : Automaton) (state : Nat) (symbol : Symbol) : Option Nat :=
  (automaton.state? state).bind (·.transition symbol)

end Automaton

end ShiftReduce
