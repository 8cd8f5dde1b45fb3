import ShiftReduce.Automaton.Build
import ShiftReduce.Proofs.Automaton.Closure

/-!
# The collection of states

What building an automaton yields: the states are numbered in order, no two of them
have the same key, and every transition leads to the state whose items are those
reached over its symbol.  The search keeps its keys in step with its item sets; each
state's transitions are settled when the state is taken from the waiting ones, because
keys are only ever added behind the known ones.  Main statements:
`Automaton.holds_zero_iff`, `Automaton.holds_target_iff` and
`Automaton.exists_goto_iff`.
-/

namespace ShiftReduce

variable {grammar : Grammar}

namespace ItemSet

/-- Keys tell item sets apart exactly as far as their items do. -/
theorem key_eq_key_iff {left right : ItemSet} :
    left.key = right.key ↔ ∀ item, item ∈ left ↔ item ∈ right := by
  constructor
  · intro equal item
    have leftPerm : left.key.Perm left.toList := List.mergeSort_perm _ _
    have rightPerm : right.key.Perm right.toList := List.mergeSort_perm _ _
    rw [equal] at leftPerm
    exact (leftPerm.symm.trans rightPerm).mem_iff
  · intro same
    exact key_eq_of_perm (OrderedSet.perm_of_mem_iff same)

end ItemSet

/-! ## Following symbols from one state -/

namespace Discovery

/-- What a discovery holds after symbols were followed from a set of items: the new item
sets are those that symbols lead to, the keys grow by theirs and stay distinct, and
every transition leads to the key of what its symbol leads to. -/
structure Follows (grammar : Grammar) (keys : List (List Item)) (items : ItemSet)
    (symbols : List Symbol) (discovery : Discovery) : Prop where
  fresh_eq : ∀ fresh ∈ discovery.fresh, ∃ symbol, fresh = items.goto grammar symbol
  keys_eq : discovery.keys = keys ++ discovery.fresh.map (·.key)
  nodup : discovery.keys.Nodup
  symbols_eq : discovery.transitions.map (·.1) = symbols
  leads : ∀ symbol target, (symbol, target) ∈ discovery.transitions →
    discovery.keys[target]? = some (items.goto grammar symbol).key

variable {keys : List (List Item)} {items : ItemSet} {symbols : List Symbol}
  {discovery : Discovery}

theorem Follows.follow (follows : Follows grammar keys items symbols discovery)
    (symbol : Symbol) :
    Follows grammar keys items (symbols ++ [symbol])
      (discovery.follow grammar items symbol) := by
  simp only [Discovery.follow, Discovery.record]
  split
  next id known =>
    obtain ⟨bound, equal, _⟩ := List.idxOf?_eq_some_iff.mp known
    refine ⟨follows.fresh_eq, follows.keys_eq, follows.nodup, ?_, ?_⟩
    · rw [List.map_append, follows.symbols_eq]
      rfl
    · intro other target member
      rcases List.mem_append.mp member with member | member
      · exact follows.leads other target member
      · obtain ⟨rfl, rfl⟩ := Prod.mk.inj (List.mem_singleton.mp member)
        rw [List.getElem?_eq_getElem bound, equal]
  next unknown =>
    have fresh := List.idxOf?_eq_none_iff.mp unknown
    constructor
    · intro other member
      rcases List.mem_append.mp member with member | member
      · exact follows.fresh_eq other member
      · exact ⟨symbol, List.mem_singleton.mp member⟩
    · dsimp only
      rw [follows.keys_eq, List.map_append, List.append_assoc]
      rfl
    · refine List.nodup_append.mpr ⟨follows.nodup, by simp, ?_⟩
      intro key member added addedMember equal
      rw [List.mem_singleton.mp addedMember] at equal
      exact fresh (equal ▸ member)
    · dsimp only
      rw [List.map_append, follows.symbols_eq]
      rfl
    · intro other target member
      rcases List.mem_append.mp member with member | member
      · have leads := follows.leads other target member
        obtain ⟨bound, _⟩ := List.getElem?_eq_some_iff.mp leads
        rw [List.getElem?_append_left bound]
        exact leads
      · obtain ⟨rfl, rfl⟩ := Prod.mk.inj (List.mem_singleton.mp member)
        simp

private theorem Follows.foldl (rest : List Symbol)
    (follows : Follows grammar keys items symbols discovery) :
    Follows grammar keys items (symbols ++ rest)
      (rest.foldl (Discovery.follow grammar items) discovery) := by
  induction rest generalizing symbols discovery with
  | nil =>
      rw [List.append_nil]
      exact follows
  | cons symbol rest ih =>
      have next := ih (follows.follow symbol)
      rw [List.append_assoc] at next
      exact next

theorem ofItems_follows (nodup : keys.Nodup) :
    Follows grammar keys items (items.outgoing grammar) (ofItems grammar keys items) := by
  have none : Follows grammar keys items [] ⟨keys, [], []⟩ := by
    refine ⟨?_, (List.append_nil _).symm, nodup, rfl, ?_⟩
    · intro fresh member
      cases member
    · intro symbol target member
      cases member
  exact none.foldl (items.outgoing grammar)

end Discovery

namespace Automaton

/-! ## Exploring -/

/-- What exploring from waiting item sets yields, if states with the keys `done` come
before: the waiting sets come first, all others are reached from a state over a symbol,
states are numbered on, keys are distinct, and transitions lead to the keys of what their
symbols lead to. -/
structure Explored (grammar : Grammar) (done : List (List Item)) (waiting : List ItemSet)
    (states : List State) : Prop where
  first : waiting <+: states.map (·.items)
  origin : ∀ state ∈ states, state.items ∈ waiting ∨
    ∃ source ∈ states, ∃ symbol, state.items = source.items.goto grammar symbol
  id_eq : ∀ position state, states[position]? = some state →
    state.id = done.length + position
  nodup : (done ++ states.map (·.items.key)).Nodup
  symbols_eq : ∀ state ∈ states, state.transitions.map (·.1) = state.items.outgoing grammar
  leads : ∀ state ∈ states, ∀ symbol target, (symbol, target) ∈ state.transitions →
    (done ++ states.map (·.items.key))[target]? = some (state.items.goto grammar symbol).key

/-- The state of the first waiting set can be put before those found afterwards. -/
theorem Explored.cons {done : List (List Item)} {items : ItemSet} {rest : List ItemSet}
    {found : Discovery} {states : List State}
    (follows : Discovery.Follows grammar (done ++ (items :: rest).map (·.key)) items
      (items.outgoing grammar) found)
    (explored : Explored grammar (done ++ [items.key]) (rest ++ found.fresh) states) :
    Explored grammar done (items :: rest)
      (⟨done.length, items, found.transitions⟩ :: states) := by
  have keysEqual : done ++ [items.key] ++ states.map (·.items.key) =
      done ++ items.key :: states.map (·.items.key) := by
    rw [List.append_assoc, List.singleton_append]
  have keysPrefix : found.keys <+: done ++ items.key :: states.map (·.items.key) := by
    have mapped := explored.first.map (·.key)
    rw [List.map_map] at mapped
    rw [follows.keys_eq, List.append_assoc, List.prefix_append_right_inj, List.map_cons,
      List.cons_append, List.cons_prefix_cons, ← List.map_append]
    exact ⟨rfl, mapped⟩
  constructor
  · rw [List.map_cons, List.cons_prefix_cons]
    exact ⟨rfl, (List.prefix_append rest found.fresh).trans explored.first⟩
  · intro state member
    rcases List.mem_cons.mp member with rfl | member
    · exact .inl List.mem_cons_self
    · rcases explored.origin state member with waits | ⟨source, sourceMember, reached⟩
      · rcases List.mem_append.mp waits with waits | fresh
        · exact .inl (List.mem_cons_of_mem _ waits)
        · exact .inr ⟨_, List.mem_cons_self, follows.fresh_eq _ fresh⟩
      · exact .inr ⟨source, List.mem_cons_of_mem _ sourceMember, reached⟩
  · intro position state found
    cases position with
    | zero =>
        cases found
        rfl
    | succ position =>
        rw [explored.id_eq position state found, List.length_append, List.length_singleton]
        omega
  · rw [List.map_cons, ← keysEqual]
    exact explored.nodup
  · intro state member
    rcases List.mem_cons.mp member with rfl | member
    · exact follows.symbols_eq
    · exact explored.symbols_eq state member
  · intro state member symbol target moves
    rw [List.map_cons]
    rcases List.mem_cons.mp member with rfl | member
    · have leads := follows.leads symbol target moves
      obtain ⟨bound, _⟩ := List.getElem?_eq_some_iff.mp leads
      obtain ⟨others, whole⟩ := keysPrefix
      rw [← whole, List.getElem?_append_left bound]
      exact leads
    · rw [← keysEqual]
      exact explored.leads state member symbol target moves

theorem explore_explored {keys : List (List Item)} {id : Nat} {waiting : List ItemSet}
    (within : ∀ items ∈ waiting, items.Within grammar) {done : List (List Item)}
    (known : keys = done ++ waiting.map (·.key)) (nodup : keys.Nodup) (count : id = done.length) :
    Explored grammar done waiting (explore grammar keys id waiting within) := by
  fun_induction explore grammar keys id waiting within generalizing done
  case case1 keys id within =>
      subst known
      refine ⟨List.nil_prefix, ?_, ?_, nodup, ?_, ?_⟩
      · intro state member
        cases member
      · intro position state found
        simp at found
      · intro state member
        cases member
      · intro state member
        cases member
  case case2 keys id items rest within found bounded _ ih =>
      have follows : Discovery.Follows grammar keys items (items.outgoing grammar) found :=
        Discovery.ofItems_follows nodup
      subst known count
      apply Explored.cons follows
      apply ih _ follows.nodup (by simp)
      rw [follows.keys_eq]
      simp

/-! ## The automaton of a grammar -/

theorem build_explored (grammar : Grammar) :
    Explored grammar [] [initialItems grammar] (build grammar).states :=
  explore_explored _ rfl (List.nodup_singleton _) rfl

/-- A state of an automaton holds an item. -/
def Holds (automaton : Automaton) (id : Nat) (item : Item) : Prop :=
  ∃ state, automaton.state? id = some state ∧ item ∈ state.items

/-- The transitions of a state are those of the automaton from its number. -/
theorem goto_of_state? {automaton : Automaton} {id : Nat} {state : State}
    (found : automaton.state? id = some state) (symbol : Symbol) :
    automaton.goto id symbol = state.transition symbol := by
  rw [goto, found, Option.bind_some]

theorem holds_iff_of_state? {automaton : Automaton} {id : Nat} {state : State}
    (found : automaton.state? id = some state) (item : Item) :
    automaton.Holds id item ↔ item ∈ state.items := by
  constructor
  · intro given
    rcases given with ⟨other, otherFound, member⟩
    rw [found] at otherFound
    cases otherFound
    exact member
  · intro member
    exact ⟨state, found, member⟩

/-- The items of a state are the initial ones or those reached from another state. -/
theorem items_cases {state : State} (member : state ∈ (build grammar).states) :
    state.items = initialItems grammar ∨
      ∃ source ∈ (build grammar).states, ∃ symbol,
        state.items = source.items.goto grammar symbol := by
  rcases (build_explored grammar).origin state member with waits | reached
  · exact .inl (List.mem_singleton.mp waits)
  · exact .inr reached

theorem state?_zero (grammar : Grammar) :
    ∃ state, (build grammar).state? 0 = some state ∧ state.items = initialItems grammar := by
  obtain ⟨others, equal⟩ := (build_explored grammar).first
  cases states : (build grammar).states with
  | nil => simp [states] at equal
  | cons state rest =>
      refine ⟨state, by simp [state?, states], ?_⟩
      simp only [states, List.map_cons, List.cons_append, List.cons.injEq] at equal
      exact equal.1.symm

/-- State zero holds what the start item predicts. -/
theorem holds_zero_iff (wellFormed : grammar.WellFormed) (item : Item) :
    (build grammar).Holds 0 item ↔ grammar.Predicted (· = .start grammar) item := by
  obtain ⟨state, found, items⟩ := state?_zero grammar
  rw [holds_iff_of_state? found, items, initialItems, ItemSet.mem_closure_iff wellFormed]
  simp only [OrderedSet.mem_ofList, List.mem_singleton]

theorem transition_eq_some {state : State} {symbol : Symbol} {target : Nat}
    (moves : state.transition symbol = some target) :
    (symbol, target) ∈ state.transitions := by
  obtain ⟨entry, found, rfl⟩ := Option.map_eq_some_iff.mp moves
  have named : entry.1 = symbol := by simpa using List.find?_some found
  subst named
  exact List.mem_of_find?_eq_some found

theorem goto_eq_some {automaton : Automaton} {source : Nat} {symbol : Symbol} {target : Nat}
    (moves : automaton.goto source symbol = some target) :
    ∃ state, automaton.state? source = some state ∧ (symbol, target) ∈ state.transitions := by
  obtain ⟨state, found, moves⟩ := Option.bind_eq_some_iff.mp moves
  exact ⟨state, found, transition_eq_some moves⟩

/-- A transition leads to a state with the key of the item set reached over its symbol. -/
theorem exists_target {source : Nat} {symbol : Symbol} {target : Nat}
    (moves : (build grammar).goto source symbol = some target) :
    ∃ state targetState, (build grammar).state? source = some state ∧
      (build grammar).state? target = some targetState ∧
      targetState.items.key = (state.items.goto grammar symbol).key := by
  obtain ⟨state, found, member⟩ := goto_eq_some moves
  have leads := (build_explored grammar).leads state (List.mem_of_getElem? found) _ _ member
  rw [List.nil_append, List.getElem?_map, Option.map_eq_some_iff] at leads
  obtain ⟨targetState, targetFound, key⟩ := leads
  exact ⟨state, targetState, found, targetFound, key⟩

theorem goto_lt_size {source : Nat} {symbol : Symbol} {target : Nat}
    (moves : (build grammar).goto source symbol = some target) :
    target < (build grammar).size := by
  obtain ⟨_, _, _, targetFound, _⟩ := exists_target moves
  exact (List.getElem?_eq_some_iff.mp targetFound).1

/-- The target of a transition holds what the items that move over its symbol predict. -/
theorem holds_target_iff (wellFormed : grammar.WellFormed) {source : Nat} {symbol : Symbol}
    {target : Nat} (moves : (build grammar).goto source symbol = some target) (item : Item) :
    (build grammar).Holds target item ↔ grammar.Predicted (fun moved => ∃ previous,
      (build grammar).Holds source previous ∧ previous.symbolAtDot grammar = some symbol ∧
        moved = previous.advance) item := by
  obtain ⟨state, targetState, found, targetFound, key⟩ := exists_target moves
  rw [holds_iff_of_state? targetFound, ItemSet.key_eq_key_iff.mp key item,
    ItemSet.mem_goto_iff wellFormed]
  simp only [holds_iff_of_state? found]

/-- A state has a transition on exactly the symbols behind the dots of its items. -/
theorem exists_goto_iff {source : Nat} {symbol : Symbol} :
    (∃ target, (build grammar).goto source symbol = some target) ↔
      ∃ item, (build grammar).Holds source item ∧ item.symbolAtDot grammar = some symbol := by
  have mem_symbols : ∀ state ∈ (build grammar).states,
      symbol ∈ state.transitions.map (·.1) ↔
        ∃ item ∈ state.items, item.symbolAtDot grammar = some symbol := by
    intro state member
    rw [(build_explored grammar).symbols_eq state member, ItemSet.outgoing,
      OrderedSet.mem_toList, OrderedSet.mem_ofList, List.mem_filterMap]
    rfl
  constructor
  · intro given
    rcases given with ⟨target, moves⟩
    obtain ⟨state, found, member⟩ := goto_eq_some moves
    obtain ⟨item, itemMember, behindDot⟩ := (mem_symbols state (List.mem_of_getElem? found)).mp
      (List.mem_map_of_mem member)
    exact ⟨item, ⟨state, found, itemMember⟩, behindDot⟩
  · intro given
    rcases given with ⟨item, ⟨state, found, itemMember⟩, behindDot⟩
    obtain ⟨entry, entryMember, named⟩ := List.mem_map.mp
      ((mem_symbols state (List.mem_of_getElem? found)).mpr ⟨item, itemMember, behindDot⟩)
    cases first : state.transitions.find? (·.1 == symbol) with
    | none =>
        have different := List.find?_eq_none.mp first entry entryMember
        simp [named] at different
    | some entry =>
        refine ⟨entry.2, ?_⟩
        rw [goto_of_state? found, State.transition, first, Option.map_some]

end Automaton

end ShiftReduce
