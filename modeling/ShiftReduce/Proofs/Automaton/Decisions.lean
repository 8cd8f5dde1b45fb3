import ShiftReduce.Automaton.Conflict
import ShiftReduce.Proofs.Automaton.Path
import ShiftReduce.Proofs.OrderedSet

/-!
# What states decide

Which states leave no choice.  A state is settled by a completed item if nothing else
can be done in it, and without conflicts every completed item of a proper production
settles its state, except that the completed augmented item may stand beside it.  Where
that item is held it is the first one of its state, so there it decides.
Main statements: `Automaton.head?_of_accept_mem`, `Automaton.decided_of_conflicts` and
`Automaton.Adequate.decided`.
-/

namespace ShiftReduce

variable {grammar : Grammar}

/-! ## The first item of a state -/

namespace ItemSet

/-- A closure begins with its kernel. -/
theorem head?_closure {kernel : ItemSet} {item : Item}
    (first : kernel.toList.head? = some item) :
    (closure grammar kernel).toList.head? = some item := by
  obtain ⟨others, equal⟩ := prefix_closure grammar kernel
  rw [← equal, List.head?_append, first]
  rfl

/-- If the first item moves over a symbol, it is the first one that is reached. -/
theorem head?_goto {items : ItemSet} {item : Item} {symbol : Symbol}
    (first : items.toList.head? = some item)
    (behindDot : item.symbolAtDot grammar = some symbol) :
    (goto grammar items symbol).toList.head? = some item.advance := by
  apply head?_closure
  obtain ⟨others, equal⟩ := List.head?_eq_some_iff.mp first
  rw [advanceOver, equal, List.filter_cons_of_pos (by simp [behindDot])]
  exact OrderedSet.head?_ofList _ _

end ItemSet

namespace Automaton

/-- The start item is held by the initial items only, as their first one. -/
theorem head?_of_start_mem (wellFormed : grammar.WellFormed) {state : State}
    (member : state ∈ (build grammar).states) (start : Item.start grammar ∈ state.items) :
    state.items.toList.head? = some (.start grammar) := by
  rcases items_cases member with initial | ⟨source, _, symbol, reached⟩
  · rw [initial]
    exact ItemSet.head?_closure (OrderedSet.head?_ofList _ _)
  · rw [reached, ItemSet.mem_goto_iff wellFormed] at start
    generalize equal : Item.start grammar = item at start
    cases start with
    | kernel moved =>
        obtain ⟨previous, _, _, rfl⟩ := moved
        cases congrArg Item.dot equal
    | expand _ behindDot _ =>
        have left := congrArg Item.origin equal
        exact absurd left.symm (wellFormed.symbolAtDot_ne_augmentedStart behindDot)

/-- The completed augmented item is the first one of every state that holds it. -/
theorem head?_of_accept_mem (wellFormed : grammar.WellFormed) {state : State}
    (member : state ∈ (build grammar).states)
    (accept : (Item.start grammar).advance ∈ state.items) :
    state.items.toList.head? = some (Item.start grammar).advance := by
  rcases items_cases member with initial | ⟨source, sourceMember, symbol, reached⟩
  · rw [initial, initialItems, ItemSet.mem_closure_iff wellFormed] at accept
    generalize equal : (Item.start grammar).advance = item at accept
    cases accept with
    | kernel start =>
        rw [OrderedSet.mem_ofList, List.mem_singleton] at start
        cases congrArg Item.dot (equal.trans start)
    | expand _ _ _ => cases congrArg Item.dot equal
  · rw [reached] at accept ⊢
    rw [ItemSet.mem_goto_iff wellFormed] at accept
    generalize equal : (Item.start grammar).advance = item at accept
    cases accept with
    | kernel moved =>
        obtain ⟨previous, previousMember, behindDot, rfl⟩ := moved
        obtain rfl : Item.start grammar = previous := by
          cases previous
          cases equal
          rfl
        exact ItemSet.head?_goto (head?_of_start_mem wellFormed sourceMember previousMember)
          behindDot
    | expand _ _ _ => cases congrArg Item.dot equal

/-! ## States that leave no choice -/

variable {automaton : Automaton}

/-- A completed item is the only one of a proper production in a state, and no item of
the state expects a terminal. -/
structure Settles (automaton : Automaton) (id : Nat) (item : Item) : Prop where
  unique : ∀ other, automaton.Holds id other →
    other.isComplete automaton.grammar = true →
      other.production ≠ Grammar.augmentedProduction → other = item
  no_terminal : ∀ other symbol, automaton.Holds id other →
    other.symbolAtDot automaton.grammar = some symbol → symbol.isTerminal = false

/-- Every completed item of a proper production settles its state. -/
def Decided (automaton : Automaton) : Prop :=
  ∀ id item, automaton.Holds id item → item.isComplete automaton.grammar = true →
    item.production ≠ Grammar.augmentedProduction → automaton.Settles id item

/-- A state in which a completed item of a proper production stands beside the completed
augmented one. -/
def Mixed (automaton : Automaton) (id : Nat) : Prop :=
  automaton.Holds id (Item.start automaton.grammar).advance ∧
    ∃ item, automaton.Holds id item ∧ item.isComplete automaton.grammar = true ∧
      item.production ≠ Grammar.augmentedProduction

/-- An adequate automaton has at most one completed item in each state, and no terminal
is expected beside one of a proper production. -/
structure Adequate (automaton : Automaton) : Prop where
  unique : ∀ state ∈ automaton.states,
    ∀ item ∈ state.items.toList, item.isComplete automaton.grammar = true →
      ∀ other ∈ state.items.toList, other.isComplete automaton.grammar = true → item = other
  no_terminal : ∀ state ∈ automaton.states,
    ∀ item ∈ state.items.toList, item.isComplete automaton.grammar = true →
      item.production ≠ Grammar.augmentedProduction →
        ∀ other ∈ state.items.toList, ∀ symbol ∈ other.symbolAtDot automaton.grammar,
          symbol.isTerminal = false

instance (automaton : Automaton) : Decidable automaton.Adequate :=
  decidable_of_iff (_ ∧ _) ⟨fun both => ⟨both.1, both.2⟩,
    fun adequate => ⟨adequate.unique, adequate.no_terminal⟩⟩

/-- The completed items of a state whose production is not the augmented one. -/
def properCompleted (grammar : Grammar) (items : ItemSet) : List Item :=
  (items.completed grammar).filter (·.production != Grammar.augmentedProduction)

theorem mem_properCompleted {items : ItemSet} {item : Item} :
    item ∈ properCompleted grammar items ↔ item ∈ items ∧ item.isComplete grammar = true ∧
      item.production ≠ Grammar.augmentedProduction := by
  simp only [properCompleted, ItemSet.completed, List.mem_filter, OrderedSet.mem_toList,
    bne_iff_ne, and_assoc]

/-- A state without a conflict has at most one completed item of a proper production,
and none if one of its items expects a terminal. -/
theorem conflict?_eq_none {state : State} (quiet : state.conflict? grammar = none) {item : Item}
    (member : item ∈ properCompleted grammar state.items) :
    properCompleted grammar state.items = [item] ∧
      ∀ symbol ∈ state.items.outgoing grammar, symbol.isTerminal = false := by
  have mapped : ((state.items.completed grammar).map (·.production)).filter
      (· != Grammar.augmentedProduction) =
        (properCompleted grammar state.items).map (·.production) :=
    List.filter_map
  simp only [State.conflict?, mapped] at quiet
  -- one reduction is reported together with the terminals, several are always reported
  cases reduces : properCompleted grammar state.items with
  | nil =>
      rw [reduces] at member
      cases member
  | cons single others =>
      rw [reduces] at member quiet
      cases others with
      | cons _ _ => cases quiet
      | nil =>
          rw [List.mem_singleton.mp member]
          refine ⟨rfl, ?_⟩
          intro symbol expected
          by_contra terminal
          rw [Bool.not_eq_false] at terminal
          have shifts := List.ne_nil_of_mem (List.mem_filter.mpr ⟨expected, terminal⟩)
          simp [shifts] at quiet

/-- Without conflicts all states are decided. The report leaves the augmented production
out, so a state may be mixed nevertheless. -/
theorem decided_of_conflicts (none : automaton.conflicts = []) : automaton.Decided := by
  intro id item holds complete proper
  obtain ⟨state, found, member⟩ := holds
  have quiet : state.conflict? automaton.grammar = Option.none := by
    have reported := List.filterMap_eq_nil_iff.mp none state (List.mem_of_getElem? found)
    simpa using reported
  obtain ⟨only, noTerminal⟩ :=
    conflict?_eq_none quiet (mem_properCompleted.mpr ⟨member, complete, proper⟩)
  constructor
  · intro other holds otherComplete otherProper
    rw [holds_iff_of_state? found] at holds
    have listed := mem_properCompleted.mpr ⟨holds, otherComplete, otherProper⟩
    rw [only] at listed
    exact List.mem_singleton.mp listed
  · intro other symbol holds behindDot
    rw [holds_iff_of_state? found] at holds
    apply noTerminal
    rw [ItemSet.outgoing, OrderedSet.mem_toList, OrderedSet.mem_ofList, List.mem_filterMap]
    exact ⟨other, holds, behindDot⟩

namespace Adequate

theorem decided (adequate : automaton.Adequate) : automaton.Decided := by
  intro id item holds complete proper
  obtain ⟨state, found, member⟩ := holds
  have stateMember := List.mem_of_getElem? found
  constructor
  · intro other holds otherComplete _
    rw [holds_iff_of_state? found] at holds
    exact adequate.unique state stateMember other holds otherComplete item member complete
  · intro other symbol holds behindDot
    rw [holds_iff_of_state? found] at holds
    exact adequate.no_terminal state stateMember item member complete proper other holds symbol
      behindDot

theorem not_mixed (wellFormed : grammar.WellFormed) (adequate : (build grammar).Adequate)
    {id : Nat} : ¬(build grammar).Mixed id := by
  intro given
  rcases given with ⟨⟨state, found, accept⟩, item, holds, complete, proper⟩
  rw [holds_iff_of_state? found] at holds
  have equal := adequate.unique state (List.mem_of_getElem? found) _ accept
    (wellFormed.isComplete_accept) item holds complete
  exact proper (congrArg Item.production equal).symm

end Adequate

end Automaton

end ShiftReduce
