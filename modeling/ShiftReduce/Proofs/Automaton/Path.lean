import ShiftReduce.Proofs.Automaton.Collection
import ShiftReduce.Proofs.Grammar.ValidItem

/-!
# Paths through an automaton

A path follows transitions from the initial state over a stack of symbols and keeps the
states it passes, the last one first.  Main statements: the last state of a path holds
exactly the items that are valid for its symbols (`Automaton.Path.holds_iff`), and there
is a path over every stack that has a valid item (`Automaton.exists_path_iff`).
-/

namespace ShiftReduce

variable {grammar : Grammar}

namespace Grammar

/-- What is valid for the empty stack is predicted by the start item. -/
theorem validItem_nil_iff {item : Item} :
    grammar.ValidItem [] item ↔ grammar.Predicted (· = .start grammar) item := by
  constructor
  · intro valid
    generalize empty : ([] : List Symbol) = stack at valid
    induction valid with
    | start => exact .kernel rfl
    | advance _ _ _ => cases empty
    | expand _ behindDot found ih => exact .expand (ih empty) behindDot found
  · intro predicted
    induction predicted with
    | kernel equal => exact equal ▸ .start
    | expand _ behindDot found ih => exact .expand ih behindDot found

/-- What is valid for a longer stack is predicted by the items that move over its
topmost symbol. -/
theorem validItem_cons_iff {symbol : Symbol} {stack : List Symbol} {item : Item} :
    grammar.ValidItem (symbol :: stack) item ↔ grammar.Predicted (fun moved => ∃ previous,
      grammar.ValidItem stack previous ∧ previous.symbolAtDot grammar = some symbol ∧
        moved = previous.advance) item := by
  constructor
  · intro valid
    generalize whole : symbol :: stack = form at valid
    induction valid with
    | start => cases whole
    | advance valid behindDot _ =>
        cases whole
        exact .kernel ⟨_, valid, behindDot, rfl⟩
    | expand _ behindDot found ih => exact .expand (ih whole) behindDot found
  · intro predicted
    induction predicted with
    | kernel moved =>
        obtain ⟨previous, valid, behindDot, rfl⟩ := moved
        exact .advance valid behindDot
    | expand _ behindDot found ih => exact .expand ih behindDot found

end Grammar

namespace Automaton

/-- The states met when the symbols of a stack are followed, from the bottom, from the
initial state. Both stacks have their top first. -/
inductive Path (automaton : Automaton) : List Symbol → List Nat → Prop where
  | initial : Path automaton [] [0]
  | follow {symbols : List Symbol} {states : List Nat} {source target : Nat} {symbol : Symbol} :
      Path automaton symbols (source :: states) →
      automaton.goto source symbol = some target →
      Path automaton (symbol :: symbols) (target :: source :: states)

namespace Path

variable {automaton : Automaton} {symbols : List Symbol} {states : List Nat}

theorem exists_top (path : automaton.Path symbols states) :
    ∃ top below, states = top :: below := by
  cases path with
  | initial => exact ⟨0, [], rfl⟩
  | follow _ _ => exact ⟨_, _, rfl⟩

theorem length_eq (path : automaton.Path symbols states) :
    states.length = symbols.length + 1 := by
  induction path with
  | initial => rfl
  | follow _ _ ih => rw [List.length_cons, ih, List.length_cons]

/-- The initial state is at the bottom. -/
theorem getLast?_eq (path : automaton.Path symbols states) : states.getLast? = some 0 := by
  induction path with
  | initial => rfl
  | follow _ _ ih => rw [List.getLast?_cons_cons, ih]

/-- Taking entries off both stacks leaves a path. -/
theorem drop (front : List Symbol) (path : automaton.Path (front ++ symbols) states) :
    automaton.Path symbols (states.drop front.length) := by
  induction front generalizing states with
  | nil => exact path
  | cons symbol front ih =>
      cases path with
      | follow below _ => exact ih below

/-- Each state of a path but the initial one is reached from the state below it over the
symbol at its own place. -/
theorem goto_getElem? (path : automaton.Path symbols states) {index source target : Nat}
    {symbol : Symbol} (upper : states[index]? = some target)
    (between : symbols[index]? = some symbol) (lower : states[index + 1]? = some source) :
    automaton.goto source symbol = some target := by
  induction path generalizing index with
  | initial => cases between
  | follow path moves ih =>
      cases index with
      | zero =>
          cases upper
          cases between
          cases lower
          exact moves
      | succ index => exact ih upper between lower

/-- The same with the places counted from the bottom. -/
theorem goto_getElem?_reverse (path : automaton.Path symbols states)
    {depth source target : Nat} {symbol : Symbol}
    (lower : states.reverse[depth]? = some source)
    (between : symbols.reverse[depth]? = some symbol)
    (upper : states.reverse[depth + 1]? = some target) :
    automaton.goto source symbol = some target := by
  obtain ⟨bound, _⟩ := List.getElem?_eq_some_iff.mp between
  rw [List.length_reverse] at bound
  have heights := path.length_eq
  rw [List.getElem?_reverse bound] at between
  rw [List.getElem?_reverse (by omega)] at lower upper
  apply path.goto_getElem? _ between
  · rw [← lower]
    congr 1
    omega
  · rw [← upper]
    congr 1
    omega

/-- The last state of a path holds exactly the items that are valid for its symbols. -/
theorem holds_iff (wellFormed : grammar.WellFormed) {top : Nat}
    (path : (build grammar).Path symbols (top :: states)) (item : Item) :
    (build grammar).Holds top item ↔ grammar.ValidItem symbols item := by
  generalize whole : top :: states = stack at path
  induction path generalizing top states item with
  | initial =>
      cases whole
      rw [holds_zero_iff wellFormed, Grammar.validItem_nil_iff]
  | follow _ moves ih =>
      cases whole
      rw [holds_target_iff wellFormed moves, Grammar.validItem_cons_iff]
      simp only [ih _ rfl]

theorem lt_size (path : (build grammar).Path symbols states) :
    ∀ state ∈ states, state < (build grammar).size := by
  induction path with
  | initial =>
      intro state member
      obtain ⟨_, found, _⟩ := state?_zero grammar
      rw [List.mem_singleton.mp member]
      exact (List.getElem?_eq_some_iff.mp found).1
  | follow _ moves ih =>
      intro state member
      rcases List.mem_cons.mp member with rfl | member
      · exact goto_lt_size moves
      · exact ih state member

/-- There is a transition from the end of a path on every symbol that a valid item
expects. -/
theorem exists_goto (wellFormed : grammar.WellFormed) {top : Nat} {item : Item}
    {symbol : Symbol} (path : (build grammar).Path symbols (top :: states))
    (valid : grammar.ValidItem symbols item)
    (behindDot : item.symbolAtDot grammar = some symbol) :
    ∃ target, (build grammar).goto top symbol = some target :=
  exists_goto_iff.mpr ⟨item, (path.holds_iff wellFormed item).mpr valid, behindDot⟩

end Path

/-- The paths run over exactly the stacks that have a valid item. -/
theorem exists_path_iff (wellFormed : grammar.WellFormed) {symbols : List Symbol} :
    (∃ states, (build grammar).Path symbols states) ↔
      ∃ item, grammar.ValidItem symbols item := by
  constructor
  · intro given
    rcases given with ⟨states, path⟩
    cases path with
    | initial => exact ⟨_, .start⟩
    | follow below moves =>
        obtain ⟨item, holds, behindDot⟩ := exists_goto_iff.mp ⟨_, moves⟩
        exact ⟨_, .advance ((below.holds_iff wellFormed item).mp holds) behindDot⟩
  · intro given
    rcases given with ⟨item, valid⟩
    induction valid with
    | start => exact ⟨_, .initial⟩
    | advance valid behindDot ih =>
        obtain ⟨states, path⟩ := ih
        obtain ⟨top, below, rfl⟩ := path.exists_top
        obtain ⟨target, moves⟩ := path.exists_goto wellFormed valid behindDot
        exact ⟨_, path.follow moves⟩
    | expand _ _ _ ih => exact ih

end Automaton

end ShiftReduce
