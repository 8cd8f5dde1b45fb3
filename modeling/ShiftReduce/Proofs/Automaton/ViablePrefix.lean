import Mathlib.Tactic
import ShiftReduce.Proofs.Automaton.Path

/-!
# Viable prefixes

Following symbols in their order from the initial state leads somewhere as long as some
item is valid for what was read, and the state it leads to holds the valid items.  States
that were met with the same items on the way are one state, so this says that no merging
of states is ever felt, however long the sequence is.  Main statement:
`Automaton.follow_recognizes`.  `Mathlib.Tactic` is there for the example: to evaluate an
automaton unfolds basic functions by equations that Lean would otherwise add in this module.
-/

namespace ShiftReduce

namespace Automaton

variable {automaton : Automaton} {symbols : List Symbol}

/-- The state reached when symbols are followed in order from the initial state. -/
def follow (automaton : Automaton) (symbols : List Symbol) : Option Nat :=
  symbols.foldlM automaton.goto 0

@[simp] theorem follow_nil : automaton.follow [] = some 0 := rfl

@[simp] theorem follow_concat (symbol : Symbol) :
    automaton.follow (symbols ++ [symbol]) =
      (automaton.follow symbols).bind (automaton.goto · symbol) := by
  simp [follow, List.foldlM_append]

/-- Following symbols is walking a path over the stack that they build up. -/
theorem follow_eq_some_iff {top : Nat} :
    automaton.follow symbols = some top ↔ ∃ below, automaton.Path symbols.reverse (top :: below) := by
  induction symbols using List.reverseRecOn generalizing top with
  | nil =>
      constructor
      · intro reached
        cases reached
        exact ⟨[], .initial⟩
      · rintro ⟨below, path⟩
        cases path
        rfl
  | append_singleton symbols symbol ih =>
      rw [follow_concat, List.reverse_append, Option.bind_eq_some_iff]
      constructor
      · rintro ⟨source, reached, moves⟩
        obtain ⟨below, path⟩ := ih.mp reached
        exact ⟨_, path.follow moves⟩
      · rintro ⟨below, path⟩
        cases path with
        | follow path moves => exact ⟨_, ih.mpr ⟨_, path⟩, moves⟩

/-- Symbols can be followed exactly as far as some item is valid for them, and the state
that they lead to holds exactly the items that are valid for them. The stack of symbols
that is read has its last symbol on top. -/
theorem follow_recognizes {grammar : Grammar} (loaded : grammar.Loaded) (symbols : List Symbol) :
    ((∃ id, (build grammar).follow symbols = some id) ↔
        ∃ item, grammar.ValidItem symbols.reverse item) ∧
      ∀ id, (build grammar).follow symbols = some id →
        ∃ state, (build grammar).state? id = some state ∧
          ∀ item, item ∈ state.items ↔ grammar.ValidItem symbols.reverse item := by
  have wellFormed := loaded.wellFormed
  constructor
  · rw [← exists_path_iff wellFormed]
    constructor
    · rintro ⟨id, reached⟩
      obtain ⟨below, path⟩ := follow_eq_some_iff.mp reached
      exact ⟨_, path⟩
    · rintro ⟨states, path⟩
      obtain ⟨top, below, rfl⟩ := path.exists_top
      exact ⟨top, follow_eq_some_iff.mpr ⟨below, path⟩⟩
  · intro id reached
    obtain ⟨below, path⟩ := follow_eq_some_iff.mp reached
    obtain ⟨item, valid⟩ := (exists_path_iff wellFormed).mp ⟨_, path⟩
    obtain ⟨state, found, _⟩ := (path.holds_iff wellFormed item).mpr valid
    refine ⟨state, found, ?_⟩
    intro other
    rw [← holds_iff_of_state? found]
    exact path.holds_iff wellFormed other

end Automaton

/-- Nested pairs of brackets, `S -> (S)` or nothing. -/
def Grammar.nested : Grammar where
  dialect := .standard
  start := .ofChar 'S'
  productions := #[⟨.ofChar 'Y', [.ofChar 'S']⟩,
    ⟨.ofChar 'S', [.ofChar '(', .ofChar 'S', .ofChar ')']⟩, ⟨.ofChar 'S', []⟩]
  alternatives := [(.ofChar 'Y', [0]), (.ofChar 'S', [1, 2])]
  terminals := [.ofChar '(', .ofChar ')', .endMarker]

theorem Grammar.nested_loaded : Loaded nested := by
  have loads : ofRules .standard
      [(.ofChar 'S', [[.ofChar '(', .ofChar 'S', .ofChar ')'], [.empty]])] = .ok nested := rfl
  exact .rules loads

/-- Any number of opening brackets leads to the same state; here are three. -/
theorem Automaton.follow_recognizes_nested :
    (build .nested).follow (List.replicate 3 (.ofChar '(')) = some 2 ∧
      ∃ state, (build .nested).state? 2 = some state ∧ ∀ item, item ∈ state.items ↔
        Grammar.nested.ValidItem (List.replicate 3 (.ofChar '(')).reverse item := by
  have reached : (build .nested).follow (List.replicate 3 (.ofChar '(')) = some 2 := by
    cbv
  exact ⟨reached, (follow_recognizes Grammar.nested_loaded _).2 2 reached⟩

end ShiftReduce
