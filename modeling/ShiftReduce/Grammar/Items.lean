import ShiftReduce.Closure

/-!
# The items of a grammar

All items that an automaton of a grammar can contain are among finitely many.
Main statements: the start item is one of them, and closures and transitions lead
from sets of such items to sets of such items.  This is what bounds the
construction of the automaton.
-/

namespace ShiftReduce

namespace Grammar

/-- All dotted positions in the production of a given number and origin. -/
def dottedItems (grammar : Grammar) (origin : Symbol) (production : Nat) : List Item :=
  (List.range ((grammar.right production).length + 1)).map (⟨production, ·, origin⟩)

/-- All dotted positions in the productions of all nonterminals, and in the
augmented production. -/
def allItems (grammar : Grammar) : ItemSet :=
  OrderedSet.ofList <|
    grammar.dottedItems grammar.augmentedStart augmentedProduction ++
      grammar.alternatives.flatMap fun (origin, productions) =>
        productions.flatMap (grammar.dottedItems origin)

theorem mem_dottedItems {grammar : Grammar} {origin : Symbol} {production : Nat} {item : Item} :
    item ∈ grammar.dottedItems origin production ↔
      item.production = production ∧ item.origin = origin ∧
        item.dot ≤ (grammar.right production).length := by
  simp only [dottedItems, List.mem_map, List.mem_range]
  constructor
  · rintro ⟨dot, bound, rfl⟩
    exact ⟨rfl, rfl, Nat.le_of_lt_succ bound⟩
  · rintro ⟨rfl, rfl, bound⟩
    exact ⟨item.dot, Nat.lt_succ_of_le bound, rfl⟩

/-- An item is one of the grammar's if its dot is within its production, which is
the augmented one or one of those listed for its origin. -/
theorem mem_allItems {grammar : Grammar} {item : Item} :
    item ∈ grammar.allItems ↔
      item.dot ≤ (grammar.right item.production).length ∧
        ((item.production = augmentedProduction ∧ item.origin = grammar.augmentedStart) ∨
          ∃ productions, (item.origin, productions) ∈ grammar.alternatives ∧
            item.production ∈ productions) := by
  simp only [allItems, OrderedSet.mem_ofList, List.mem_append, mem_dottedItems,
    List.mem_flatMap]
  constructor
  · rintro (⟨production, origin, bound⟩ |
      ⟨⟨origin, productions⟩, entry, production, listed, rfl, rfl, bound⟩)
    · exact ⟨production ▸ bound, .inl ⟨production, origin⟩⟩
    · exact ⟨bound, .inr ⟨productions, entry, listed⟩⟩
  · rintro ⟨bound, ⟨production, origin⟩ | ⟨productions, entry, listed⟩⟩
    · exact .inl ⟨production, origin, production ▸ bound⟩
    · exact .inr ⟨_, entry, _, listed, rfl, rfl, bound⟩

end Grammar

namespace Item

theorem start_mem_allItems (grammar : Grammar) : start grammar ∈ grammar.allItems :=
  Grammar.mem_allItems.mpr ⟨Nat.zero_le _, .inl ⟨rfl, rfl⟩⟩

/-- An item with a symbol behind its dot stays one of the grammar's when it advances. -/
theorem advance_mem_allItems {grammar : Grammar} {item : Item} {symbol : Symbol}
    (member : item ∈ grammar.allItems) (behindDot : item.symbolAtDot grammar = some symbol) :
    item.advance ∈ grammar.allItems := by
  rw [Grammar.mem_allItems] at member ⊢
  obtain ⟨bound, _⟩ := List.getElem?_eq_some_iff.mp behindDot
  exact ⟨bound, member.2⟩

end Item

namespace ItemSet

/-- All items of the set are among the grammar's. -/
def Within (grammar : Grammar) (items : ItemSet) : Prop :=
  ∀ item ∈ items, item ∈ grammar.allItems

theorem mem_initialItems {origin : Symbol} {productions : List Nat} {item : Item} :
    item ∈ initialItems origin productions ↔
      item.production ∈ productions ∧ item.dot = 0 ∧ item.origin = origin := by
  simp only [initialItems, List.mem_map]
  constructor
  · rintro ⟨production, listed, rfl⟩
    exact ⟨listed, rfl, rfl⟩
  · rintro ⟨listed, dot, origin⟩
    refine ⟨item.production, listed, ?_⟩
    cases item
    cases dot
    cases origin
    rfl

private theorem expand_within {grammar : Grammar} {unexpanded : List (Symbol × List Nat)}
    {found : ItemSet} {pending : List Item}
    (listed : ∀ entry ∈ unexpanded, entry ∈ grammar.alternatives)
    (within : found.Within grammar) :
    (expand grammar unexpanded found pending).Within grammar := by
  fun_induction expand grammar unexpanded found pending with
  | case1 => exact within
  | case2 unexpanded found item pending expanded ih => exact ih listed within
  | case3 unexpanded found item pending entry expanded initial shorter ih =>
      apply ih
      · exact fun entry member => listed entry (List.mem_of_mem_erase member)
      · intro item member
        rcases OrderedSet.mem_insertAll.mp member with member | member
        · exact within item member
        · obtain ⟨production, dot, origin⟩ := mem_initialItems.mp member
          refine Grammar.mem_allItems.mpr ⟨dot ▸ Nat.zero_le _, .inr ⟨entry.2, ?_, production⟩⟩
          exact origin ▸ listed _ (expansion?_mem expanded)

theorem closure_within {grammar : Grammar} {kernel : ItemSet} (within : kernel.Within grammar) :
    (closure grammar kernel).Within grammar :=
  expand_within (fun _ member => member) within

theorem goto_within {grammar : Grammar} {items : ItemSet} (symbol : Symbol)
    (within : items.Within grammar) : (goto grammar items symbol).Within grammar := by
  apply closure_within
  intro item member
  obtain ⟨moved, movedMember, rfl⟩ := List.mem_map.mp (OrderedSet.mem_ofList.mp member)
  obtain ⟨movedMember, behindDot⟩ := List.mem_filter.mp movedMember
  exact Item.advance_mem_allItems (within moved movedMember) (eq_of_beq behindDot)

end ItemSet

end ShiftReduce
