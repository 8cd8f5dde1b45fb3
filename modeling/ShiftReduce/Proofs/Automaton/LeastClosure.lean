import Mathlib.Order.Bounds.Defs
import ShiftReduce.Proofs.Automaton.Closure
import ShiftReduce.Proofs.Automaton.ViablePrefix
import ShiftReduce.Proofs.OrderedSet

/-!
# Least closures

The closure of an item set is the least set with its kernel that holds the initial items of
every nonterminal behind a dot.  The dots and origins of the kernel may be anything, the kernel
may hold initial items already, and nonterminals may be defined in terms of each other.  Each
item is predicted by a single one, so the closure of a union is the union of the closures; and
an expansion only ever appends, so a closure is its own closure in the same order.
Main statement: `ItemSet.closure_least`.
-/

namespace ShiftReduce

variable {grammar : Grammar}

namespace Grammar

/-- Every nonterminal behind the dot of an item can be looked up, and the items that start its
productions are among the items. -/
def Expanded (grammar : Grammar) (items : Set Item) : Prop :=
  ∀ item ∈ items, ∀ left, item.symbolAtDot grammar = some left → left.isNonterminal = true →
    ∃ ids, grammar.productionsOf left = .ok ids ∧ ∀ id ∈ ids, ⟨id, 0, left⟩ ∈ items

namespace Predicted

variable {kernel other : Item → Prop} {item : Item}

/-- What more items predict is more. -/
theorem mono (included : ∀ item, kernel item → other item)
    (predicted : grammar.Predicted kernel item) : grammar.Predicted other item := by
  induction predicted with
  | kernel member => exact .kernel (included _ member)
  | expand _ behindDot found ih => exact .expand ih behindDot found

/-- Each predicted item goes back to one item of the kernel, in one of its parts. -/
theorem of_or (predicted : grammar.Predicted (fun item => kernel item ∨ other item) item) :
    grammar.Predicted kernel item ∨ grammar.Predicted other item := by
  induction predicted with
  | kernel member => exact member.imp .kernel .kernel
  | expand _ behindDot found ih =>
      exact ih.imp (.expand · behindDot found) (.expand · behindDot found)

theorem isKnown (known : ∀ item, kernel item → item.isKnown grammar = true)
    (predicted : grammar.Predicted kernel item) : item.isKnown grammar = true := by
  cases predicted with
  | kernel member => exact known item member
  | expand _ _ found => exact decide_eq_true (Array.getElem?_eq_some_iff.mp found).1

/-- Predicted items are in every expanded set that holds the kernel. -/
theorem mem_of_expanded (wellFormed : grammar.WellFormed) {items : Set Item}
    (included : ∀ item, kernel item → item ∈ items) (expanded : grammar.Expanded items)
    (predicted : grammar.Predicted kernel item) : item ∈ items := by
  induction predicted with
  | kernel member => exact included _ member
  | @expand item left id right _ behindDot found ih =>
      obtain ⟨ids, listed, initial⟩ :=
        expanded item ih left behindDot (wellFormed.left_nonterminal found)
      exact initial id ((wellFormed.mem_productionsOf listed id).mpr ⟨right, found⟩)

end Predicted

end Grammar

namespace ItemSet

variable {kernel other : ItemSet}

theorem closure_expanded (wellFormed : grammar.WellFormed) (kernel : ItemSet) :
    grammar.Expanded {item | item ∈ closure grammar kernel} := by
  intro item member left behindDot nonterminal
  obtain ⟨production, found, mentioned⟩ := Grammar.exists_production_of_symbolAtDot behindDot
  obtain ⟨ids, listed, _⟩ := Grammar.exists_productionsOf
    (wellFormed.nonterminal_mem found mentioned nonterminal)
  refine ⟨ids, listed, ?_⟩
  intro id idMember
  obtain ⟨right, idFound⟩ := (wellFormed.mem_productionsOf listed id).mp idMember
  exact (mem_closure_iff wellFormed).mpr
    (.expand ((mem_closure_iff wellFormed).mp member) behindDot idFound)

/-- Where all that can be added is found already, an expansion adds nothing. The scan goes on
over items that are pending a second time, so the induction needs them to be found. -/
theorem expand_eq_self {unexpanded : List (Symbol × List Nat)} {found : ItemSet}
    {pending : List Item} (closed : Closed grammar found)
    (listed : ∀ entry ∈ unexpanded, entry ∈ grammar.alternatives)
    (waiting : ∀ item ∈ pending, item ∈ found) :
    expand grammar unexpanded found pending = found := by
  fun_induction expand grammar unexpanded found pending with
  | case1 => rfl
  | case2 unexpanded found item pending none ih =>
      exact ih closed listed fun other member => waiting other (List.mem_cons_of_mem _ member)
  | case3 unexpanded found item pending entry expansion initial shorter ih =>
      obtain ⟨behindDot, entryMember⟩ := expansion?_eq_some expansion
      have present : ∀ first ∈ initial, first ∈ found :=
        closed item (waiting item List.mem_cons_self) entry.1 behindDot entry.2
          (listed entry entryMember)
      have unchanged : found.insertAll initial = found := OrderedSet.insertAll_eq_self present
      rw [unchanged] at ih ⊢
      apply ih closed
      · exact fun other member => listed other (List.mem_of_mem_erase member)
      · intro other member
        rcases List.mem_append.mp member with member | member
        · exact waiting other (List.mem_cons_of_mem _ member)
        · exact present other member

theorem closure_closure (wellFormed : grammar.WellFormed) (kernel : ItemSet) :
    closure grammar (closure grammar kernel) = closure grammar kernel :=
  expand_eq_self (closure_closed wellFormed kernel) (fun _ member => member)
    (fun _ member => member)

theorem closure_mono (wellFormed : grammar.WellFormed)
    (included : ∀ item ∈ kernel, item ∈ other) :
    ∀ item ∈ closure grammar kernel, item ∈ closure grammar other := by
  intro item member
  rw [mem_closure_iff wellFormed] at member ⊢
  exact member.mono included

theorem mem_closure_of_union (wellFormed : grammar.WellFormed) {union : ItemSet}
    (split : ∀ item, item ∈ union ↔ item ∈ kernel ∨ item ∈ other) (item : Item) :
    item ∈ closure grammar union ↔
      item ∈ closure grammar kernel ∨ item ∈ closure grammar other := by
  constructor
  · intro member
    rw [mem_closure_iff wellFormed, funext fun item => propext (split item)] at member
    rw [mem_closure_iff wellFormed, mem_closure_iff wellFormed]
    exact member.of_or
  · rintro (member | member)
    · exact closure_mono wellFormed (fun item held => (split item).mpr (.inl held)) item member
    · exact closure_mono wellFormed (fun item held => (split item).mpr (.inr held)) item member

/-- The closure of a kernel begins with the kernel, in its order, and lists no item twice. Its
items are the least expanded set that holds the kernel, and their productions can all be looked
up if those of the kernel can. So a closure is its own closure, and it is listed in the same
order; larger kernels have larger closures, kernels with the same items have closures with the
same items, and the closure of a union is the union of the closures. -/
theorem closure_least (loaded : grammar.Loaded) (kernel : ItemSet) :
    (kernel.toList <+: (closure grammar kernel).toList ∧
      (closure grammar kernel).toList.Nodup) ∧
    IsLeast {items : Set Item | (∀ item ∈ kernel, item ∈ items) ∧ grammar.Expanded items}
      {item | item ∈ closure grammar kernel} ∧
    ((∀ item ∈ kernel, item.isKnown grammar = true) →
      ∀ item ∈ closure grammar kernel, item.isKnown grammar = true) ∧
    closure grammar (closure grammar kernel) = closure grammar kernel ∧
    (∀ other : ItemSet, (∀ item ∈ kernel, item ∈ other) →
      ∀ item ∈ closure grammar kernel, item ∈ closure grammar other) ∧
    (∀ other : ItemSet, (∀ item, item ∈ kernel ↔ item ∈ other) →
      ∀ item, item ∈ closure grammar kernel ↔ item ∈ closure grammar other) ∧
    ∀ other union : ItemSet, (∀ item, item ∈ union ↔ item ∈ kernel ∨ item ∈ other) →
      ∀ item, item ∈ closure grammar union ↔
        item ∈ closure grammar kernel ∨ item ∈ closure grammar other := by
  have wellFormed := loaded.wellFormed
  have kernelFirst := prefix_closure grammar kernel
  refine ⟨⟨kernelFirst, OrderedSet.nodup _⟩, ⟨⟨fun _ member => kernelFirst.subset member,
    closure_expanded wellFormed kernel⟩, ?_⟩, ?_, closure_closure wellFormed kernel,
    fun _ => closure_mono wellFormed, ?_, fun _ _ => mem_closure_of_union wellFormed⟩
  · rintro items ⟨included, expanded⟩ item member
    exact ((mem_closure_iff wellFormed).mp member).mem_of_expanded wellFormed included expanded
  · intro known item member
    exact ((mem_closure_iff wellFormed).mp member).isKnown known
  · intro other same item
    exact ⟨closure_mono wellFormed (fun item => (same item).mp) item,
      closure_mono wellFormed (fun item => (same item).mpr) item⟩

/-- Items of the nested brackets: one with a strange origin and its dot past the end, and one
that an expansion could have added. -/
def nestedFront : ItemSet := .ofList [⟨1, 7, .ofChar 'Q'⟩, ⟨2, 0, .ofChar 'S'⟩]

/-- The closure of both front items and of one whose dot is before a nonterminal has one item
more; the closure of that item alone, which has two more, is a part of it. -/
theorem closure_least_nested :
    (closure .nested (nestedFront.insertAll [⟨1, 1, .ofChar 'A'⟩])).toList =
        [⟨1, 7, .ofChar 'Q'⟩, ⟨2, 0, .ofChar 'S'⟩, ⟨1, 1, .ofChar 'A'⟩, ⟨1, 0, .ofChar 'S'⟩] ∧
      IsLeast {items : Set Item |
          (∀ item ∈ nestedFront, item ∈ items) ∧ Grammar.nested.Expanded items}
        {item | item ∈ closure .nested nestedFront} ∧
      (∀ item ∈ closure .nested nestedFront, item.isKnown .nested = true) ∧
      (∀ item ∈ closure .nested nestedFront,
        item ∈ closure .nested (nestedFront.insertAll [⟨1, 1, .ofChar 'A'⟩])) ∧
      ∀ item, item ∈ closure .nested (nestedFront.insertAll [⟨1, 1, .ofChar 'A'⟩]) ↔
        item ∈ closure .nested nestedFront ∨
          item ∈ closure .nested (.ofList [⟨1, 1, .ofChar 'A'⟩]) := by
  have listing : (closure .nested (nestedFront.insertAll [⟨1, 1, .ofChar 'A'⟩])).toList =
      [⟨1, 7, .ofChar 'Q'⟩, ⟨2, 0, .ofChar 'S'⟩, ⟨1, 1, .ofChar 'A'⟩, ⟨1, 0, .ofChar 'S'⟩] := by
    cbv
  have known : ∀ item ∈ nestedFront, item.isKnown .nested = true := by decide
  obtain ⟨_, least, allKnown, _, monotone, _, unions⟩ :=
    closure_least Grammar.nested_loaded nestedFront
  refine ⟨listing, least, allKnown known, monotone _ ?_, unions _ _ ?_⟩
  · exact fun item member => OrderedSet.mem_insertAll.mpr (.inl member)
  · intro item
    rw [OrderedSet.mem_insertAll, OrderedSet.mem_ofList]

end ItemSet

end ShiftReduce
