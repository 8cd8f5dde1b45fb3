import Mathlib.Data.List.Induction
import ShiftReduce.Item
import ShiftReduce.Proofs.Grammar.WellFormed

/-!
# Valid items

An item is valid for a stack of symbols if a parse may be in the middle of it there:
the symbols before its dot are the topmost ones, and what lies below them calls for
its nonterminal.  Stacks have their top first.  Validity speaks of the grammar only;
that the states of an automaton hold exactly the valid items is proved elsewhere.
-/

namespace ShiftReduce

namespace Grammar

variable {grammar : Grammar}

/-- The items that are valid for a stack of symbols. -/
inductive ValidItem (grammar : Grammar) : List Symbol → Item → Prop where
  | start : ValidItem grammar [] (.start grammar)
  | advance {stack : List Symbol} {item : Item} {symbol : Symbol} :
      ValidItem grammar stack item → item.symbolAtDot grammar = some symbol →
      ValidItem grammar (symbol :: stack) item.advance
  | expand {stack : List Symbol} {item : Item} {left : Symbol} {id : Nat}
      {right : List Symbol} :
      ValidItem grammar stack item → item.symbolAtDot grammar = some left →
      grammar.production? id = some ⟨left, right⟩ →
      ValidItem grammar stack ⟨id, 0, left⟩

theorem right_eq_of_production? {id : Nat} {production : Production}
    (found : grammar.production? id = some production) :
    grammar.right id = production.right := by
  rw [right, found]
  rfl

/-- A symbol behind a dot is a symbol of the item's production. -/
theorem exists_production_of_symbolAtDot {item : Item} {symbol : Symbol}
    (behindDot : item.symbolAtDot grammar = some symbol) :
    ∃ production, grammar.production? item.production = some production ∧
      symbol ∈ production.right := by
  simp only [Item.symbolAtDot] at behindDot
  have member := List.mem_of_getElem? behindDot
  simp only [right] at member
  cases found : grammar.production? item.production with
  | none => simp [found] at member
  | some production => exact ⟨production, rfl, by simpa [found] using member⟩

/-- A symbol behind a dot may be mentioned by productions. -/
theorem WellFormed.mentions_symbolAtDot (wellFormed : grammar.WellFormed) {item : Item}
    {symbol : Symbol} (behindDot : item.symbolAtDot grammar = some symbol) :
    grammar.Mentions symbol := by
  obtain ⟨production, found, member⟩ := exists_production_of_symbolAtDot behindDot
  exact wellFormed.mentions found symbol member

theorem WellFormed.right_augmented (wellFormed : grammar.WellFormed) :
    grammar.right augmentedProduction = [grammar.start] :=
  right_eq_of_production? wellFormed.augmented

theorem WellFormed.symbolAtDot_start (wellFormed : grammar.WellFormed) :
    (Item.start grammar).symbolAtDot grammar = some grammar.start := by
  change (grammar.right augmentedProduction)[0]? = some grammar.start
  rw [wellFormed.right_augmented]
  rfl

/-- An item of a production is complete with its dot behind all symbols. -/
theorem isComplete_eq_of_production? {item : Item} {production : Production}
    (found : grammar.production? item.production = some production) :
    item.isComplete grammar = (item.dot == production.right.length) := by
  obtain ⟨bound, _⟩ := Array.getElem?_eq_some_iff.mp found
  simp [Item.isComplete, Item.isKnown, bound, right_eq_of_production? found]

theorem isComplete_of_production? {id : Nat} {left : Symbol} {right : List Symbol}
    (found : grammar.production? id = some ⟨left, right⟩) (origin : Symbol) :
    (⟨id, right.length, origin⟩ : Item).isComplete grammar = true := by
  have known : grammar.production? (⟨id, right.length, origin⟩ : Item).production =
      some ⟨left, right⟩ := found
  rw [isComplete_eq_of_production? known]
  exact beq_self_eq_true _

theorem isComplete_iff {item : Item} :
    item.isComplete grammar = true ↔ ∃ production,
      grammar.production? item.production = some production ∧
        item.dot = production.right.length := by
  constructor
  · intro complete
    have known := (Bool.and_eq_true_iff.mp complete).1
    have found : grammar.production? item.production = some _ :=
      Array.getElem?_eq_getElem (of_decide_eq_true known)
    rw [isComplete_eq_of_production? found] at complete
    exact ⟨_, found, eq_of_beq complete⟩
  · rintro ⟨production, found, atEnd⟩
    rw [isComplete_eq_of_production? found, atEnd]
    exact beq_self_eq_true _

theorem WellFormed.isComplete_accept (wellFormed : grammar.WellFormed) :
    (Item.start grammar).advance.isComplete grammar = true :=
  isComplete_of_production? wellFormed.augmented grammar.augmentedStart

/-- The augmented start is behind no dot. -/
theorem WellFormed.symbolAtDot_ne_augmentedStart (wellFormed : grammar.WellFormed) {item : Item}
    {symbol : Symbol} (behindDot : item.symbolAtDot grammar = some symbol) :
    symbol ≠ grammar.augmentedStart := by
  intro equal
  subst equal
  cases wellFormed.mentions_symbolAtDot behindDot with
  | terminal input =>
      have terminal := Symbol.not_isNonterminal_of_isTerminal (Symbol.isTerminal_of_isInput input)
      rw [wellFormed.augmentedStart_nonterminal] at terminal
      cases terminal
  | nonterminal _ different _ => exact different rfl

namespace ValidItem

/-- A valid item is of a production of its origin. -/
theorem exists_production (wellFormed : grammar.WellFormed) {stack : List Symbol} {item : Item}
    (valid : grammar.ValidItem stack item) :
    ∃ right, grammar.production? item.production = some ⟨item.origin, right⟩ := by
  induction valid with
  | start => exact ⟨_, wellFormed.augmented⟩
  | advance _ _ ih => exact ih
  | expand _ _ found _ => exact ⟨_, found⟩

/-- The symbols before the dot are on top, and the item is valid with its dot in front
for what lies below them. -/
theorem exists_below {stack : List Symbol} {item : Item}
    (valid : grammar.ValidItem stack item) :
    ∃ below, stack = ((grammar.right item.production).take item.dot).reverse ++ below ∧
      grammar.ValidItem below { item with dot := 0 } := by
  induction valid with
  | start => exact ⟨[], rfl, .start⟩
  | @advance stack item symbol _ behindDot ih =>
      obtain ⟨below, equal, valid⟩ := ih
      refine ⟨below, ?_, valid⟩
      change symbol :: stack =
        ((grammar.right item.production).take (item.dot + 1)).reverse ++ below
      have behindDot : (grammar.right item.production)[item.dot]? = some symbol := behindDot
      rw [List.take_add_one, behindDot, equal]
      simp
  | @expand stack item left id right valid behindDot found _ =>
      exact ⟨stack, rfl, .expand valid behindDot found⟩

/-- Some item below is about to move over the topmost symbol. -/
theorem exists_previous {stack : List Symbol} {symbol : Symbol} {item : Item}
    (valid : grammar.ValidItem (symbol :: stack) item) :
    ∃ previous, grammar.ValidItem stack previous ∧
      previous.symbolAtDot grammar = some symbol := by
  generalize whole : symbol :: stack = form at valid
  induction valid with
  | start => cases whole
  | advance valid behindDot _ =>
      cases whole
      exact ⟨_, valid, behindDot⟩
  | expand _ _ _ ih => exact ih whole

/-- An item with its dot in front is the start item, or its origin is behind the dot of
another valid item. -/
theorem start_or_parent {stack : List Symbol} {id : Nat} {left : Symbol}
    (valid : grammar.ValidItem stack ⟨id, 0, left⟩) :
    stack = [] ∧ (⟨id, 0, left⟩ : Item) = .start grammar ∨
      ∃ parent, grammar.ValidItem stack parent ∧ parent.symbolAtDot grammar = some left := by
  generalize equal : (⟨id, 0, left⟩ : Item) = item at valid
  cases valid with
  | start => exact .inl ⟨rfl, rfl⟩
  | advance _ _ => cases equal
  | expand parentValid behindDot _ =>
      cases equal
      exact .inr ⟨_, parentValid, behindDot⟩

/-- An item of the augmented production is valid only for what is before its dot. -/
theorem stack_eq_of_augmented (wellFormed : grammar.WellFormed) {stack : List Symbol}
    {item : Item} (valid : grammar.ValidItem stack item)
    (augmented : item.production = augmentedProduction) :
    stack = ((grammar.right item.production).take item.dot).reverse := by
  obtain ⟨below, equal, belowValid⟩ := valid.exists_below
  rcases belowValid.start_or_parent with ⟨rfl, _⟩ | ⟨parent, _, behindDot⟩
  · rw [equal, List.append_nil]
  · obtain ⟨right, found⟩ := valid.exists_production wellFormed
    rw [augmented, wellFormed.augmented, Option.some.injEq, Production.mk.injEq] at found
    exact absurd found.1.symm (wellFormed.symbolAtDot_ne_augmentedStart behindDot)

/-- The dot of a valid item moves over any symbols that are behind it. -/
theorem advance_over {stack : List Symbol} {id : Nat} {left : Symbol} (front : List Symbol)
    {back : List Symbol} (found : grammar.production? id = some ⟨left, front ++ back⟩)
    (valid : grammar.ValidItem stack ⟨id, 0, left⟩) :
    grammar.ValidItem (front.reverse ++ stack) ⟨id, front.length, left⟩ := by
  induction front using List.reverseRecOn generalizing back with
  | nil => exact valid
  | append_singleton front symbol ih =>
      rw [List.append_assoc] at found
      have before := ih found
      have behindDot : (⟨id, front.length, left⟩ : Item).symbolAtDot grammar = some symbol := by
        simp only [Item.symbolAtDot]
        rw [right_eq_of_production? found]
        simp
      have after := before.advance behindDot
      rw [List.reverse_append, List.length_append]
      exact after

/-- Where a nonterminal may be moved over, a production of it may be completed. -/
theorem complete {stack : List Symbol} {left : Symbol} {id : Nat} {right : List Symbol}
    {item : Item} (valid : grammar.ValidItem (left :: stack) item)
    (found : grammar.production? id = some ⟨left, right⟩) :
    grammar.ValidItem (right.reverse ++ stack) ⟨id, right.length, left⟩ := by
  obtain ⟨previous, previousValid, behindDot⟩ := valid.exists_previous
  have whole : grammar.production? id = some ⟨left, right ++ []⟩ := by
    rw [List.append_nil]
    exact found
  exact advance_over right whole (.expand previousValid behindDot found)

/-- A completed item that is valid for a stack is the augmented one, and the stack is
the start symbol alone, or its right-hand side is on top and its origin is behind the
dot of an item that is valid for what lies below. -/
theorem complete_cases (wellFormed : grammar.WellFormed) {stack : List Symbol} {item : Item}
    (valid : grammar.ValidItem stack item) (complete : item.isComplete grammar = true) :
    item = (Item.start grammar).advance ∧ stack = [grammar.start] ∨
      item.production ≠ augmentedProduction ∧ ∃ right below parent,
        grammar.production? item.production = some ⟨item.origin, right⟩ ∧
          stack = right.reverse ++ below ∧ grammar.ValidItem below parent ∧
            parent.symbolAtDot grammar = some item.origin := by
  obtain ⟨right, found⟩ := valid.exists_production wellFormed
  have rightEqual : grammar.right item.production = right := right_eq_of_production? found
  simp only [Item.isComplete, Bool.and_eq_true, beq_iff_eq, rightEqual] at complete
  by_cases augmented : item.production = augmentedProduction
  · left
    have whole := valid.stack_eq_of_augmented wellFormed augmented
    rw [augmented, wellFormed.augmented, Option.some.injEq, Production.mk.injEq] at found
    obtain ⟨origin, rfl⟩ := found
    rw [rightEqual, complete.2, List.take_length] at whole
    refine ⟨?_, whole⟩
    cases item
    cases origin
    cases augmented
    cases complete.2
    rfl
  · right
    obtain ⟨below, whole, belowValid⟩ := valid.exists_below
    rw [rightEqual, complete.2, List.take_length] at whole
    rcases belowValid.start_or_parent with ⟨_, equal⟩ | ⟨parent, parentValid, behindDot⟩
    · exact absurd (congrArg Item.production equal) augmented
    · exact ⟨augmented, right, below, parent, found, whole, parentValid, behindDot⟩

end ValidItem

end Grammar

end ShiftReduce
