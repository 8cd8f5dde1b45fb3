import Mathlib.Algebra.Group.Nat.Defs
import Mathlib.Data.List.Perm.Subperm
import ShiftReduce.Proofs.Automaton.Numbering
import ShiftReduce.Proofs.Automaton.ViablePrefix

/-!
# The canonical collection

Building an automaton ends, since the states are distinct sets of finitely many items,
and what it yields is the canonical collection: the closure of the start item and all
that is reached from it over symbols, each set of items once and in the order in which
the sets are found.  Main statement: `Automaton.build_canonical`.
-/

namespace ShiftReduce

variable {grammar : Grammar}

/-! ## Finitely many states -/

theorem length_selections {α : Type} (elements : List α) :
    (selections elements).length = 2 ^ elements.length := by
  induction elements with
  | nil => rfl
  | cons element elements ih =>
      rw [selections, List.length_append, List.length_map, ih, List.length_cons, Nat.pow_succ]
      omega

/-- An item of a grammar is of a production of its origin and has its dot inside. -/
theorem Grammar.WellFormed.exists_production_of_mem (wellFormed : grammar.WellFormed)
    {item : Item} (member : item ∈ grammar.allItems) :
    ∃ right, grammar.production? item.production = some ⟨item.origin, right⟩ ∧
      item.dot ≤ right.length := by
  obtain ⟨bound, ⟨augmented, origin⟩ | ⟨ids, entry, listed⟩⟩ := mem_allItems.mp member
  · refine ⟨[grammar.start], ?_, ?_⟩
    · rw [augmented, origin]
      exact wellFormed.augmented
    · rw [augmented, wellFormed.right_augmented] at bound
      exact bound
  · obtain ⟨right, found⟩ := (wellFormed.mem_ids entry _).mp listed
    rw [right_eq_of_production? found] at bound
    exact ⟨right, found, bound⟩

namespace Automaton

/-- No two states have the same key. -/
theorem keys_nodup (grammar : Grammar) :
    ((build grammar).states.map (·.items.key)).Nodup :=
  (build_explored grammar).nodup

/-- There are no more states than sets of the grammar's items. -/
theorem size_le (grammar : Grammar) : (build grammar).size ≤ 2 ^ grammar.allItems.size := by
  have possible : (build grammar).states.map (·.items.key) ⊆ grammar.possibleKeys := by
    intro key member
    obtain ⟨state, stateMember, rfl⟩ := List.mem_map.mp member
    exact ItemSet.key_mem_possibleKeys (build_within state stateMember)
  have few := ((keys_nodup grammar).subperm possible).length_le
  rw [Grammar.possibleKeys, List.length_map, List.length_map, length_selections] at few
  exact few

/-! ## States and transitions -/

theorem id_eq_of_state? {id : Nat} {state : State} (found : (build grammar).state? id = some state) :
    state.id = id := by
  have numbered := (build_explored grammar).id_eq id state found
  rw [List.length_nil, Nat.zero_add] at numbered
  exact numbered

/-- A state is found under its number. -/
theorem state?_of_mem {state : State} (member : state ∈ (build grammar).states) :
    (build grammar).state? state.id = some state := by
  obtain ⟨position, found⟩ := List.getElem?_of_mem member
  rw [id_eq_of_state? found]
  exact found

/-- States with the same items are one. -/
theorem eq_of_sameElements {first second : Nat} {firstState secondState : State}
    (firstFound : (build grammar).state? first = some firstState)
    (secondFound : (build grammar).state? second = some secondState)
    (same : firstState.items.sameElements secondState.items = true) : first = second := by
  have keys := ItemSet.key_eq_key_iff.mpr (OrderedSet.sameElements_iff.mp same)
  obtain ⟨bound, _⟩ := List.getElem?_eq_some_iff.mp firstFound
  have mapped : ∀ {id state}, (build grammar).state? id = some state →
      ((build grammar).states.map (·.items.key))[id]? = some state.items.key := by
    intro id state found
    rw [List.getElem?_map]
    exact congrArg (Option.map (·.items.key)) found
  rw [← List.length_map (·.items.key)] at bound
  apply (List.getElem?_inj bound (keys_nodup grammar)).mp
  rw [mapped firstFound, mapped secondFound, keys]

/-- A transition leads to a state with the items that are reached over its symbol. -/
theorem exists_leads {state : State} (member : state ∈ (build grammar).states) {symbol : Symbol}
    {target : Nat} (moves : (symbol, target) ∈ state.transitions) :
    ∃ targetState, (build grammar).state? target = some targetState ∧
      targetState.items.sameElements (state.items.goto grammar symbol) = true := by
  have leads := (build_explored grammar).leads state member symbol target moves
  rw [List.nil_append, List.getElem?_map, Option.map_eq_some_iff] at leads
  obtain ⟨targetState, found, keys⟩ := leads
  exact ⟨targetState, found, OrderedSet.sameElements_iff.mpr (ItemSet.key_eq_key_iff.mp keys)⟩

/-- An item of a state expects the symbol of a transition. -/
theorem exists_expects {state : State} (member : state ∈ (build grammar).states) {symbol : Symbol}
    {target : Nat} (moves : (symbol, target) ∈ state.transitions) :
    ∃ item ∈ state.items, item.symbolAtDot grammar = some symbol := by
  have listed : symbol ∈ state.transitions.map (·.1) := List.mem_map_of_mem moves
  rw [(build_explored grammar).symbols_eq state member, ItemSet.outgoing,
    OrderedSet.mem_toList, OrderedSet.mem_ofList, List.mem_filterMap] at listed
  exact listed

/-- The items of state zero have their dots in front. -/
theorem dot_eq_zero (wellFormed : grammar.WellFormed) {item : Item}
    (holds : (build grammar).Holds 0 item) : item.dot = 0 := by
  rw [holds_zero_iff wellFormed] at holds
  cases holds with
  | kernel start => exact congrArg Item.dot start
  | expand _ _ _ => rfl

/-- No transition leads back to state zero, since what moved over a symbol has its dot
behind it. -/
theorem target_ne_zero (wellFormed : grammar.WellFormed) {state : State}
    (member : state ∈ (build grammar).states) {symbol : Symbol} {target : Nat}
    (moves : (symbol, target) ∈ state.transitions) : target ≠ 0 := by
  rintro rfl
  obtain ⟨targetState, found, same⟩ := exists_leads member moves
  obtain ⟨item, itemMember, behindDot⟩ := exists_expects member moves
  have moved : item.advance ∈ state.items.goto grammar symbol :=
    (ItemSet.mem_goto_iff wellFormed).mpr (.kernel ⟨item, itemMember, behindDot, rfl⟩)
  have holds : (build grammar).Holds 0 item.advance :=
    ⟨targetState, found, (OrderedSet.sameElements_iff.mp same _).mpr moved⟩
  exact Nat.succ_ne_zero _ (dot_eq_zero wellFormed holds)

/-- A recorded transition is the one that is found. -/
theorem transition_of_mem {state : State} (member : state ∈ (build grammar).states)
    {symbol : Symbol} {target : Nat} (moves : (symbol, target) ∈ state.transitions) :
    state.transition symbol = some target := by
  have nodup : (state.transitions.map (·.1)).Nodup := by
    rw [(build_explored grammar).symbols_eq state member]
    exact OrderedSet.nodup _
  cases first : state.transitions.find? (·.1 == symbol) with
  | none =>
      have different := List.find?_eq_none.mp first _ moves
      simp at different
  | some entry =>
      have named : entry.1 = symbol := by simpa using List.find?_some first
      have same := List.inj_on_of_nodup_map nodup (List.mem_of_find?_eq_some first) moves named
      rw [State.transition, first, same, Option.map_some]

/-- Every state is reached by following symbols from the first one. The induction is on
the number, since a state was found from one with a smaller number. -/
theorem exists_follow {id : Nat} (bound : id < (build grammar).size) :
    ∃ symbols, (build grammar).follow symbols = some id := by
  induction id using Nat.strongRecOn with
  | ind id ih =>
      rcases Nat.eq_zero_or_pos id with rfl | positive
      · exact ⟨[], rfl⟩
      · obtain ⟨source, member, lower, names⟩ := exists_source positive bound
        obtain ⟨⟨symbol, target⟩, moves, rfl⟩ := List.mem_map.mp names
        obtain ⟨symbols, reached⟩ := ih source.id lower (Nat.lt_trans lower bound)
        refine ⟨symbols ++ [symbol], ?_⟩
        rw [follow_concat, reached, Option.bind_some, goto_of_state? (state?_of_mem member)]
        exact transition_of_mem member moves

/-! ## The collection as a whole -/

/-- The canonical collection of a grammar's item sets, as the states of an automaton. -/
structure Canonical (grammar : Grammar) (automaton : Automaton) : Prop where
  /-- There are no more states than sets of the grammar's items. -/
  size_le : automaton.size ≤ 2 ^ grammar.allItems.size
  id_eq : ∀ position state, automaton.state? position = some state → state.id = position
  initial : ∃ state, automaton.state? 0 = some state ∧
    state.items = ItemSet.closure grammar (OrderedSet.ofList [Item.start grammar])
  distinct : ∀ first second firstState secondState,
    automaton.state? first = some firstState → automaton.state? second = some secondState →
      firstState.items.sameElements secondState.items = true → first = second
  reachable : ∀ id < automaton.size, ∃ symbols, automaton.follow symbols = some id
  no_return : ∀ state ∈ automaton.states, ∀ symbol target,
    (symbol, target) ∈ state.transitions → target ≠ 0
  /-- A state has one transition on each symbol behind a dot, in order of first occurrence. -/
  expected : ∀ state ∈ automaton.states, state.transitions.map (·.1) =
    (state.items.toList.filterMap (·.symbolAtDot grammar)).eraseDups
  leads : ∀ state ∈ automaton.states, ∀ symbol target, (symbol, target) ∈ state.transitions →
    ∃ targetState, automaton.state? target = some targetState ∧
      targetState.items.sameElements (state.items.goto grammar symbol) = true
  /-- The targets of all transitions name the states in order, beginning after zero. -/
  discovered : automaton.targets.eraseDups = List.range automaton.size
  canReduce_iff : ∀ state ∈ automaton.states, state.canReduce grammar = true ↔
    ∃ item ∈ state.items, ∃ production,
      grammar.production? item.production = some production ∧
        item.dot = production.right.length
  items : ∀ state ∈ automaton.states, ∀ item ∈ state.items,
    ∃ known : item.production < grammar.productions.size,
      item.dot ≤ grammar.productions[item.production].right.length ∧
        item.origin = grammar.productions[item.production].left

/-- Building the automaton of a loaded grammar yields the canonical collection. -/
theorem build_canonical (loaded : grammar.Loaded) : (build grammar).Canonical grammar where
  size_le := Automaton.size_le grammar
  id_eq _ _ found := id_eq_of_state? found
  initial := state?_zero grammar
  distinct _ _ _ _ firstFound secondFound same := eq_of_sameElements firstFound secondFound same
  reachable _ bound := exists_follow bound
  no_return _ member _ _ moves := target_ne_zero loaded.wellFormed member moves
  expected state member := by
    rw [(build_explored grammar).symbols_eq state member, ItemSet.outgoing,
      OrderedSet.toList_ofList]
  leads _ member _ _ moves := exists_leads member moves
  discovered := build_numbers grammar
  canReduce_iff state _ := by
    simp only [State.canReduce_iff, Grammar.isComplete_iff]
  items state member item itemMember := by
    obtain ⟨right, found, bound⟩ :=
      loaded.wellFormed.exists_production_of_mem (build_within state member item itemMember)
    obtain ⟨known, entry⟩ := Array.getElem?_eq_some_iff.mp found
    refine ⟨known, ?_, ?_⟩
    · rw [entry]
      exact bound
    · rw [entry]

/-- Nested brackets have five states. -/
theorem build_canonical_nested :
    (build .nested).size = 5 ∧ (build .nested).Canonical .nested := by
  have size : (build .nested).size = 5 := by
    cbv
  exact ⟨size, build_canonical Grammar.nested_loaded⟩

end Automaton

end ShiftReduce
