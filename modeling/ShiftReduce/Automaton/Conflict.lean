import ShiftReduce.Automaton.Basic

/-!
# Conflicts

A state whose items leave open what to do next has a conflict.  Conflicts are
reported and not resolved: the parser prefers a shift to a reduction and an
earlier completed item to a later one.
-/

namespace ShiftReduce

/-- A choice that a state leaves open. -/
inductive Conflict where
  /-- One production can be reduced, and terminals can be shifted. -/
  | shiftReduce (reduce : Nat) (shifts : List Symbol)
  /-- Several productions can be reduced. -/
  | reduceReduce (reduces : List Nat)
  deriving DecidableEq, Repr

def Conflict.text (grammar : Grammar) : Conflict → String
  | .shiftReduce reduce shifts =>
      s!"shift/reduce conflict: reduce {grammar.productionText reduce} or shift " ++
        " ".intercalate (shifts.map Symbol.text)
  | .reduceReduce reduces =>
      "reduce/reduce conflict: " ++ ", ".intercalate (reduces.map grammar.productionText)

/-- The conflict of a state. The augmented production takes no part in any, since
completing it accepts. -/
def State.conflict? (grammar : Grammar) (state : State) : Option Conflict :=
  let reduces := ((state.items.completed grammar).map (·.production)).filter
    (· != Grammar.augmentedProduction)
  match reduces with
  | [] => none
  | [reduce] =>
      let shifts := (state.items.outgoing grammar).filter (·.isTerminal)
      if shifts.isEmpty then none else some (.shiftReduce reduce shifts)
  | _ => some (.reduceReduce reduces)

/-- The states with a conflict, in order. -/
def Automaton.conflicts (automaton : Automaton) : List (Nat × Conflict) :=
  automaton.states.filterMap fun state =>
    (state.conflict? automaton.grammar).map (state.id, ·)

end ShiftReduce
