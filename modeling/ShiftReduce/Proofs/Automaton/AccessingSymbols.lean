import ShiftReduce.Proofs.Automaton.Canonical
import ShiftReduce.Proofs.Automaton.Decisions

/-!
# Accessing symbols

All transitions into a state are on one symbol, which stands before the dot of every item
that moved into the state.  These items come first in the state: a closure adds to its
kernel only items with their dots in front, and it adds them behind.  That the sets found
from different states are merged changes none of this, since merged sets have the same
items, and the stored order is that of one of them.
Main statements: `Automaton.symbolBeforeDot_of_holds`, `Automaton.exists_kernel` and
`Automaton.Path.symbols_unique`.
-/

namespace ShiftReduce

variable {grammar : Grammar}

namespace Item

/-- The symbol before the dot, if the dot is not in front. -/
def symbolBeforeDot (grammar : Grammar) (item : Item) : Option Symbol :=
  match item.dot with
  | 0 => none
  | dot + 1 => (grammar.right item.production)[dot]?

@[simp] theorem symbolBeforeDot_advance (item : Item) :
    item.advance.symbolBeforeDot grammar = item.symbolAtDot grammar := rfl

end Item

/-- The items from which the closure of a state was taken: those that moved over a symbol,
and in state zero the start item. -/
def State.Kernel (grammar : Grammar) (state : State) (item : Item) : Prop :=
  0 < item.dot ∨ state.id = 0 ∧ item = .start grammar

namespace ItemSet

/-- What a closure adds comes behind its kernel and has the dot in front, and the augmented
start is not its origin. -/
theorem exists_expansion (wellFormed : grammar.WellFormed) (kernel : ItemSet) :
    ∃ added, (closure grammar kernel).toList = kernel.toList ++ added ∧
      ∀ item ∈ added, item.dot = 0 ∧ item.origin ≠ grammar.augmentedStart := by
  obtain ⟨added, whole⟩ := prefix_closure grammar kernel
  refine ⟨added, whole.symm, ?_⟩
  intro item member
  have nodup := (closure grammar kernel).nodup
  rw [← whole, List.nodup_append] at nodup
  have listed : item ∈ closure grammar kernel := by
    rw [← OrderedSet.mem_toList, ← whole]
    exact List.mem_append_right _ member
  cases (mem_closure_iff wellFormed).mp listed with
  | kernel inKernel => exact absurd rfl (nodup.2.2 item inKernel item member)
  | expand _ behindDot _ => exact ⟨rfl, wellFormed.symbolAtDot_ne_augmentedStart behindDot⟩

end ItemSet

namespace Automaton

/-! ## Symbols before dots -/

section Transitions

variable {source target : Nat} {symbol : Symbol}

/-- An item that is not in front of its production has moved over the symbol of every
transition into its state. -/
theorem symbolBeforeDot_of_holds (wellFormed : grammar.WellFormed)
    (moves : (build grammar).goto source symbol = some target) {item : Item}
    (holds : (build grammar).Holds target item) (moved : 0 < item.dot) :
    item.symbolBeforeDot grammar = some symbol := by
  cases (holds_target_iff wellFormed moves item).mp holds with
  | kernel previous =>
      obtain ⟨previous, _, behindDot, rfl⟩ := previous
      rw [Item.symbolBeforeDot_advance, behindDot]
  | expand _ _ _ => exact absurd moved (Nat.lt_irrefl 0)

/-- Some item has moved into the target of a transition. -/
theorem exists_moved (wellFormed : grammar.WellFormed)
    (moves : (build grammar).goto source symbol = some target) :
    ∃ item, (build grammar).Holds target item ∧ 0 < item.dot := by
  obtain ⟨previous, holds, behindDot⟩ := exists_goto_iff.mp ⟨target, moves⟩
  refine ⟨previous.advance, ?_, Nat.succ_pos _⟩
  exact (holds_target_iff wellFormed moves _).mpr (.kernel ⟨previous, holds, behindDot, rfl⟩)

/-- All transitions into a state are on one symbol. -/
theorem goto_symbol_unique (wellFormed : grammar.WellFormed) {other : Nat} {another : Symbol}
    (moves : (build grammar).goto source symbol = some target)
    (otherMoves : (build grammar).goto other another = some target) : symbol = another := by
  obtain ⟨item, holds, moved⟩ := exists_moved wellFormed moves
  have before := symbolBeforeDot_of_holds wellFormed moves holds moved
  rw [symbolBeforeDot_of_holds wellFormed otherMoves holds moved] at before
  exact (Option.some.inj before).symm

end Transitions

/-- The states of a path determine the symbols between them. -/
theorem Path.symbols_unique (wellFormed : grammar.WellFormed) {symbols others : List Symbol}
    {states : List Nat} (path : (build grammar).Path symbols states)
    (other : (build grammar).Path others states) : symbols = others := by
  induction path generalizing others with
  | initial =>
      cases other with
      | initial => rfl
  | follow _ moves ih =>
      cases other with
      | follow otherPath otherMoves =>
          rw [goto_symbol_unique wellFormed moves otherMoves, ih otherPath]

/-! ## Kernels -/

/-- Only the first state has the initial items. -/
theorem items_eq_initialItems_iff {state : State} (member : state ∈ (build grammar).states) :
    state.items = initialItems grammar ↔ state.id = 0 := by
  obtain ⟨first, found, items⟩ := state?_zero grammar
  have present := state?_of_mem member
  constructor
  · intro initial
    apply eq_of_sameElements present found
    rw [initial, items, OrderedSet.sameElements_iff]
    exact fun _ => Iff.rfl
  · intro zero
    rw [zero, found] at present
    rw [← Option.some.inj present, items]

/-- A state lists the items of its kernel before all others. -/
theorem exists_kernel (wellFormed : grammar.WellFormed) {state : State}
    (member : state ∈ (build grammar).states) :
    ∃ kernel added, state.items.toList = kernel ++ added ∧
      (∀ item ∈ kernel, state.Kernel grammar item) ∧
        ∀ item ∈ added, ¬state.Kernel grammar item := by
  have outside : ∀ item : Item, item.dot = 0 → item.origin ≠ grammar.augmentedStart →
      ¬state.Kernel grammar item := by
    intro item front origin kernel
    cases kernel with
    | inl moved => exact Nat.ne_of_gt moved front
    | inr start => exact origin (congrArg Item.origin start.2)
  cases items_cases member with
  | inl initial =>
      have zero := (items_eq_initialItems_iff member).mp initial
      obtain ⟨added, whole, fresh⟩ :=
        ItemSet.exists_expansion wellFormed (OrderedSet.ofList [Item.start grammar])
      refine ⟨_, added, (congrArg OrderedSet.toList initial).trans whole, ?_,
        fun item listed => outside item (fresh item listed).1 (fresh item listed).2⟩
      intro item listed
      rw [OrderedSet.mem_toList, OrderedSet.mem_ofList, List.mem_singleton] at listed
      exact .inr ⟨zero, listed⟩
  | inr reached =>
      obtain ⟨source, _, symbol, items⟩ := reached
      obtain ⟨added, whole, fresh⟩ :=
        ItemSet.exists_expansion wellFormed (source.items.advanceOver grammar symbol)
      refine ⟨_, added, (congrArg OrderedSet.toList items).trans whole, ?_,
        fun item listed => outside item (fresh item listed).1 (fresh item listed).2⟩
      intro item listed
      rw [OrderedSet.mem_toList, ItemSet.advanceOver, OrderedSet.mem_ofList] at listed
      obtain ⟨previous, _, rfl⟩ := List.mem_map.mp listed
      exact .inl (Nat.succ_pos _)

/-- If an item that moved into a state is complete, the state reduces by such an item. -/
theorem reduceItem?_of_moved (wellFormed : grammar.WellFormed) {state : State}
    (member : state ∈ (build grammar).states) {item : Item} (listed : item ∈ state.items)
    (moved : 0 < item.dot) (complete : item.isComplete grammar = true) :
    ∃ first, state.items.reduceItem? grammar = some first ∧ 0 < first.dot := by
  obtain ⟨kernel, added, whole, inKernel, outside⟩ := exists_kernel wellFormed member
  have kernelMember : item ∈ kernel := by
    rw [← OrderedSet.mem_toList, whole, List.mem_append] at listed
    exact listed.resolve_right fun other => outside item other (.inl moved)
  cases found : kernel.find? (·.isComplete grammar) with
  | none => exact absurd complete (List.find?_eq_none.mp found item kernelMember)
  | some first =>
      refine ⟨first, ?_, ?_⟩
      · rw [ItemSet.reduceItem?, whole, List.find?_append, found, Option.some_or]
      · cases inKernel first (List.mem_of_find?_eq_some found) with
        | inl firstMoved => exact firstMoved
        | inr start =>
            -- the start item expects the start symbol and is not complete
            have atEnd := List.find?_some found
            rw [start.2, Grammar.isComplete_eq_of_production? wellFormed.augmented] at atEnd
            cases atEnd

end Automaton

end ShiftReduce
