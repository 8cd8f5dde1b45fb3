import ShiftReduce.Proofs.Automaton.Collection

/-!
# Building by comparison

The automaton can also be built without keys: each item set that is reached is compared
with those of all states there are, one state after the other.  This builder keeps the
list of all states and visits them by their places in it while the list grows.  A lookup
by key finds what the comparison finds, because keys are equal just if the items are the
same.  So both builders do the same at every symbol, and the states that one has finished
and found are those that the other has finished and has waiting.
Main statements: `Automaton.idxOf?_key`, `Automaton.Mirrors.record` and
`Automaton.build_eq_buildByScan`.
-/

namespace ShiftReduce

variable {grammar : Grammar}

/-- A state that was found and has not been visited. -/
def State.found (id : Nat) (items : ItemSet) : State := ⟨id, items, []⟩

/-- The state with one more transition. -/
def State.withTransition (state : State) (symbol : Symbol) (target : Nat) : State :=
  { state with transitions := state.transitions ++ [(symbol, target)] }

namespace Automaton

/-! ## The builder -/

/-- Record at the state with the given place that a symbol leads to an item set. If no
state has the same items, the set becomes the last state. -/
def recordByScan (source : Nat) (states : List State) (symbol : Symbol) (target : ItemSet) :
    List State :=
  match states.findIdx? (·.items.sameElements target) with
  | some id => states.modify source (·.withTransition symbol id)
  | none =>
      (states ++ [State.found states.length target]).modify source
        (·.withTransition symbol states.length)

/-- Follow all symbols behind a dot from the state with the given place and items. -/
def visitByScan (grammar : Grammar) (source : Nat) (items : ItemSet) (states : List State) :
    List State :=
  (items.outgoing grammar).foldl
    (fun states symbol => recordByScan source states symbol (items.goto grammar symbol)) states

/-- All items of the states are among the grammar's. -/
def StatesWithin (grammar : Grammar) (states : List State) : Prop :=
  ∀ state ∈ states, state.items.Within grammar

/-- How many states there are and how many more there can be at most. -/
def potential (grammar : Grammar) (states : List State) : Nat :=
  grammar.unvisited (states.map (·.items.key)) + states.length

/-- Recording a transition changes no items. -/
theorem map_items_modify (source : Nat) (states : List State) (symbol : Symbol) (target : Nat) :
    (states.modify source (·.withTransition symbol target)).map (·.items) =
      states.map (·.items) := by
  apply List.ext_getElem?
  intro position
  simp only [List.getElem?_map, List.getElem?_modify]
  cases states[position]? with
  | none => rfl
  | some state =>
      simp only [Option.map_eq_map, Option.map_some]
      split <;> rfl

/-- Whether the states are within the grammar's items and how many there can be depends
on their items only. -/
theorem bounded_of_map_items (grammar : Grammar) {states others : List State}
    (same : others.map (·.items) = states.map (·.items)) :
    (StatesWithin grammar others ↔ StatesWithin grammar states) ∧
      potential grammar others = potential grammar states := by
  have within : ∀ listing : List State, StatesWithin grammar listing ↔
      ∀ items ∈ listing.map (·.items), items.Within grammar := by
    simp [StatesWithin]
  have keys : ∀ listing : List State,
      listing.map (·.items.key) = (listing.map (·.items)).map (·.key) := by
    simp
  have lengths : others.length = states.length := by
    simpa using congrArg List.length same
  rw [within, within, potential, potential, keys, keys, same, lengths]
  exact ⟨Iff.rfl, rfl⟩

theorem recordByScan_bounded {states : List State} {target : ItemSet} (source : Nat)
    (symbol : Symbol) (targetWithin : target.Within grammar)
    (within : StatesWithin grammar states) :
    StatesWithin grammar (recordByScan source states symbol target) ∧
      potential grammar (recordByScan source states symbol target) ≤
        potential grammar states := by
  rw [recordByScan]
  split
  next id known =>
    have same := bounded_of_map_items grammar (map_items_modify source states symbol id)
    exact ⟨same.1.mpr within, Nat.le_of_eq same.2⟩
  next unknown =>
    have same := bounded_of_map_items grammar (map_items_modify source
      (states ++ [State.found states.length target]) symbol states.length)
    have new : target.key ∉ states.map (·.items.key) := by
      intro member
      obtain ⟨state, stateMember, equal⟩ := List.mem_map.mp member
      have different := List.findIdx?_eq_none_iff.mp unknown state stateMember
      rw [OrderedSet.sameElements_iff.mpr (ItemSet.key_eq_key_iff.mp equal)] at different
      cases different
    rw [same.1, same.2]
    constructor
    · intro state member
      cases List.mem_append.mp member with
      | inl earlier => exact within state earlier
      | inr last => exact List.mem_singleton.mp last ▸ targetWithin
    · have fewer := ItemSet.unvisited_append_lt targetWithin new
      simp only [potential, State.found, List.map_append, List.map_cons, List.map_nil,
        List.length_append, List.length_singleton]
      omega

theorem visitByScan_bounded {states : List State} {items : ItemSet} (source : Nat)
    (itemsWithin : items.Within grammar) (within : StatesWithin grammar states) :
    StatesWithin grammar (visitByScan grammar source items states) ∧
      potential grammar (visitByScan grammar source items states) ≤
        potential grammar states := by
  rw [visitByScan]
  generalize items.outgoing grammar = symbols
  induction symbols generalizing states with
  | nil => exact ⟨within, Nat.le_refl _⟩
  | cons symbol symbols ih =>
      have first := recordByScan_bounded source symbol
        (ItemSet.goto_within symbol itemsWithin) within
      have rest := ih first.1
      exact ⟨rest.1, Nat.le_trans rest.2 first.2⟩

/-- Visit the states from the given place on, those that are found on the way included. -/
def exploreByScan (grammar : Grammar) (id : Nat) (states : List State)
    (within : StatesWithin grammar states) : List State :=
  match present : states[id]? with
  | none => states
  | some state =>
      have bounded := visitByScan_bounded id (within state (List.mem_of_getElem? present)) within
      exploreByScan grammar (id + 1) (visitByScan grammar id state.items states) bounded.1
termination_by potential grammar states - id
decreasing_by
  have inside : id < states.length := (List.getElem?_eq_some_iff.mp present).1
  have enough : states.length ≤ potential grammar states := Nat.le_add_left _ _
  omega

/-- The automaton of a grammar, built without keys. -/
def buildByScan (grammar : Grammar) : Automaton where
  grammar
  states :=
    exploreByScan grammar 0 [.found 0 (initialItems grammar)] fun _ member =>
      List.mem_singleton.mp member ▸ initialItems_within grammar

/-! ## Both builders in step -/

/-- The key of an item set is found where a state has the same items. -/
theorem idxOf?_key (states : List State) (target : ItemSet) :
    (states.map (·.items.key)).idxOf? target.key =
      states.findIdx? (·.items.sameElements target) := by
  rw [List.idxOf?, List.findIdx?_map]
  congr 1
  funext state
  rw [Function.comp_apply, Bool.eq_iff_iff, beq_iff_eq, ItemSet.key_eq_key_iff,
    OrderedSet.sameElements_iff]

/-- Item sets as states with consecutive numbers that have not been visited. -/
def foundStates (next : Nat) (waiting : List ItemSet) : List State :=
  waiting.mapIdx fun position items => .found (next + position) items

theorem foundStates_concat (next : Nat) (waiting : List ItemSet) (target : ItemSet) :
    foundStates next (waiting ++ [target]) =
      foundStates next waiting ++ [.found (next + waiting.length) target] := by
  simp [foundStates]

theorem map_key_modify (source : Nat) (states : List State) (symbol : Symbol) (target : Nat) :
    (states.modify source (·.withTransition symbol target)).map (·.items.key) =
      states.map (·.items.key) := by
  have mapped := congrArg (List.map ItemSet.key) (map_items_modify source states symbol target)
  rw [List.map_map, List.map_map] at mapped
  exact mapped

theorem modify_length {α : Type} (front : List α) (element : α) (back : List α) (change : α → α) :
    (front ++ element :: back).modify front.length change = front ++ change element :: back := by
  rw [List.modify_eq_take_cons_drop (by simp)]
  simp

/-- The states that one builder has while it visits a state, and what the other one has
discovered so far from the items of that state. -/
structure Mirrors (done : List State) (items : ItemSet) (rest : List ItemSet)
    (discovery : Discovery) (states : List State) : Prop where
  states_eq : states = done ++ ⟨done.length, items, discovery.transitions⟩ ::
    foundStates (done.length + 1) (rest ++ discovery.fresh)
  keys_eq : discovery.keys = states.map (·.items.key)

variable {done states : List State} {items : ItemSet} {rest : List ItemSet}
  {discovery : Discovery}

theorem Mirrors.record (mirrors : Mirrors done items rest discovery states) (symbol : Symbol)
    (target : ItemSet) :
    Mirrors done items rest (discovery.record symbol target)
      (recordByScan done.length states symbol target) := by
  have count : done.length + 1 + (rest ++ discovery.fresh).length = states.length := by
    rw [mirrors.states_eq]
    simp [foundStates]
    omega
  cases lookup : states.findIdx? (·.items.sameElements target) with
  | some id =>
      simp only [Discovery.record, recordByScan, mirrors.keys_eq, idxOf?_key, lookup]
      constructor
      · rw [mirrors.states_eq, modify_length]
        rfl
      · rw [map_key_modify]
  | none =>
      simp only [Discovery.record, recordByScan, mirrors.keys_eq, idxOf?_key, lookup]
      constructor
      · rw [← List.append_assoc rest, foundStates_concat, count, List.length_map]
        nth_rewrite 1 [mirrors.states_eq]
        rw [List.append_assoc, List.cons_append, modify_length]
        rfl
      · rw [map_key_modify, List.map_append]
        rfl

/-- What is found from a state is found in the same order and under the same numbers. -/
theorem Mirrors.visit (grammar : Grammar) (mirrors : Mirrors done items rest discovery states)
    (symbols : List Symbol) :
    Mirrors done items rest (symbols.foldl (Discovery.follow grammar items) discovery)
      (symbols.foldl (fun states symbol =>
        recordByScan done.length states symbol (items.goto grammar symbol)) states) := by
  induction symbols generalizing discovery states with
  | nil => exact mirrors
  | cons symbol symbols ih => exact ih (mirrors.record symbol (items.goto grammar symbol))

/-- If the finished states are followed by the waiting item sets, exploring the latter
finishes them after the former. -/
theorem exploreByScan_eq {keys : List (List Item)} {id : Nat} {waiting : List ItemSet}
    (within : ∀ items ∈ waiting, items.Within grammar)
    (statesWithin : StatesWithin grammar states) (count : id = done.length)
    (states_eq : states = done ++ foundStates done.length waiting)
    (keys_eq : keys = states.map (·.items.key)) :
    exploreByScan grammar id states statesWithin =
      done ++ explore grammar keys id waiting within := by
  fun_induction explore grammar keys id waiting within generalizing done states
  case case1 keys id within =>
      have ended : states = done := by
        rw [states_eq]
        exact List.append_nil done
      rw [exploreByScan]
      split
      next => rw [ended, List.append_nil]
      next state present => simp [ended, count] at present
  case case2 keys id items rest within found bounded _ ih =>
      have split_eq : states = done ++ .found done.length items ::
          foundStates (done.length + 1) rest := by
        rw [states_eq]
        simp [foundStates, List.mapIdx_cons, Nat.add_comm 1, Nat.add_assoc]
      have next : states[id]? = some (.found done.length items) := by
        rw [split_eq, count]
        simp
      have start : Mirrors done items rest ⟨keys, [], []⟩ states := by
        refine ⟨?_, keys_eq⟩
        rw [List.append_nil]
        exact split_eq
      have visited := start.visit grammar (items.outgoing grammar)
      rw [exploreByScan]
      split
      next absent =>
        rw [next] at absent
        cases absent
      next state present =>
        rw [next] at present
        cases present
        subst count
        have finished : done.length + 1 =
            (done ++ [(⟨done.length, items, found.transitions⟩ : State)]).length := by
          simp
        have visitedStates : visitByScan grammar done.length items states =
            done ++ [⟨done.length, items, found.transitions⟩] ++
              foundStates (done.length + 1) (rest ++ found.fresh) := by
          rw [List.append_assoc]
          exact visited.states_eq
        rw [finished] at visitedStates
        have bounded := visitByScan_bounded done.length
          (statesWithin _ (List.mem_of_getElem? next)) statesWithin
        have explored := ih bounded.1 finished visitedStates visited.keys_eq
        rw [List.append_assoc] at explored
        exact explored

/-- Item sets have the same key just if they have the same items, and building by keys yields
the automaton that building by comparison with all states yields: the same states with the
same numbers, their items and transitions in the same order. -/
theorem build_eq_buildByScan :
    (∀ left right : ItemSet, left.key = right.key ↔ left.sameElements right = true) ∧
      ∀ grammar, build grammar = buildByScan grammar := by
  constructor
  · intro left right
    rw [ItemSet.key_eq_key_iff, OrderedSet.sameElements_iff]
  · intro grammar
    have within : ∀ items ∈ [initialItems grammar], items.Within grammar :=
      fun _ member => List.mem_singleton.mp member ▸ initialItems_within grammar
    have statesWithin : StatesWithin grammar [.found 0 (initialItems grammar)] :=
      fun _ member => List.mem_singleton.mp member ▸ initialItems_within grammar
    have explored : exploreByScan grammar 0 [.found 0 (initialItems grammar)] statesWithin =
        [] ++ explore grammar [(initialItems grammar).key] 0 [initialItems grammar] within :=
      exploreByScan_eq within statesWithin rfl rfl rfl
    exact congrArg (Automaton.mk grammar) explored.symm

end Automaton

end ShiftReduce
