import ShiftReduce.Grammar.Basic
import ShiftReduce.OrderedSet

/-!
# Items

An item is a production with a dot that marks how much of its right-hand side has
been matched, together with the nonterminal for whose sake it was introduced.
Items are plain values: two that were found along different ways are one.
-/

namespace ShiftReduce

/-- A dotted production and the nonterminal that it was expanded from. -/
structure Item where
  production : Nat
  dot : Nat
  origin : Symbol
  deriving DecidableEq, Repr

namespace Item

/-- The item from which every automaton begins. -/
def start (grammar : Grammar) : Item := ⟨Grammar.augmentedProduction, 0, grammar.augmentedStart⟩

/-- The item with its dot moved over one symbol. -/
def advance (item : Item) : Item := { item with dot := item.dot + 1 }

/-- Whether the item's production belongs to the grammar. -/
def isKnown (grammar : Grammar) (item : Item) : Bool :=
  item.production < grammar.productions.size

/-- The symbol behind the dot, if there is one. -/
def symbolAtDot (grammar : Grammar) (item : Item) : Option Symbol :=
  (grammar.right item.production)[item.dot]?

/-- Whether the dot is at the end. A dot beyond the end completes nothing. -/
def isComplete (grammar : Grammar) (item : Item) : Bool :=
  item.isKnown grammar && item.dot == (grammar.right item.production).length

/-- The item with its origin in front and its symbols as labels. A dot beyond the
end is not shown. -/
def text (grammar : Grammar) (item : Item) : String :=
  let labels := (grammar.right item.production).map grammar.label
  let matched := String.join (labels.take item.dot)
  let rest := String.join (labels.drop item.dot)
  let dot := if item.dot ≤ labels.length then "." else ""
  grammar.label item.origin ++ " -> " ++ matched ++ dot ++ rest

/-- The order of items: by production, then by dot, then by origin. -/
def precedes (left right : Item) : Bool :=
  left.production < right.production ||
    (left.production == right.production &&
      (left.dot < right.dot ||
        (left.dot == right.dot && left.origin.byte ≤ right.origin.byte)))

theorem precedes_trans (first second third : Item)
    (lower : first.precedes second = true) (upper : second.precedes third = true) :
    first.precedes third = true := by
  simp only [precedes, Bool.or_eq_true, Bool.and_eq_true, decide_eq_true_eq, beq_iff_eq,
    UInt8.le_iff_toNat_le] at *
  omega

theorem precedes_total (left right : Item) :
    (left.precedes right || right.precedes left) = true := by
  simp only [precedes, Bool.or_eq_true, Bool.and_eq_true, decide_eq_true_eq, beq_iff_eq,
    UInt8.le_iff_toNat_le]
  omega

theorem eq_of_precedes {left right : Item}
    (lower : left.precedes right = true) (upper : right.precedes left = true) :
    left = right := by
  obtain ⟨leftProduction, leftDot, ⟨leftByte⟩⟩ := left
  obtain ⟨rightProduction, rightDot, ⟨rightByte⟩⟩ := right
  simp only [precedes, Bool.or_eq_true, Bool.and_eq_true, decide_eq_true_eq, beq_iff_eq,
    UInt8.le_iff_toNat_le] at lower upper
  have production : leftProduction = rightProduction := by omega
  have dot : leftDot = rightDot := by omega
  have byte : leftByte = rightByte := UInt8.toNat_inj.mp (by omega)
  rw [production, dot, byte]

end Item

/-- Items in the order in which they were discovered. -/
abbrev ItemSet := OrderedSet Item

namespace ItemSet

/-- The items of a set in sorted order, which depends on the set alone and not on
the order of discovery. -/
def key (items : ItemSet) : List Item := items.toList.mergeSort Item.precedes

theorem key_eq_of_perm {items : ItemSet} {listing : List Item}
    (permutation : items.toList.Perm listing) :
    items.key = listing.mergeSort Item.precedes :=
  List.Perm.eq_of_pairwise (fun _ _ _ _ => Item.eq_of_precedes)
    (List.pairwise_mergeSort Item.precedes_trans Item.precedes_total _)
    (List.pairwise_mergeSort Item.precedes_trans Item.precedes_total _)
    (((List.mergeSort_perm _ _).trans permutation).trans (List.mergeSort_perm _ _).symm)

/-- The first completed item, by which a state reduces. -/
def reduceItem? (grammar : Grammar) (items : ItemSet) : Option Item :=
  items.toList.find? (·.isComplete grammar)

/-- The items whose dot is at the end, in their order. -/
def completed (grammar : Grammar) (items : ItemSet) : List Item :=
  items.toList.filter (·.isComplete grammar)

/-- The symbols behind a dot, in order of first occurrence. -/
def outgoing (grammar : Grammar) (items : ItemSet) : List Symbol :=
  (OrderedSet.ofList (items.toList.filterMap (·.symbolAtDot grammar))).toList

end ItemSet

end ShiftReduce
