import ShiftReduce.Automaton.Basic
import ShiftReduce.Automaton.Keys

/-!
# Building the automaton

The states of an automaton are found one from another, beginning with the closure
of the start item.  States wait in the order in which they were found; the next
one follows each symbol behind a dot and either meets an item set that is already
known by its key or finds a new one.  Every new set has a new key, and keys are
finitely many, so the search ends.
-/

namespace ShiftReduce

/-- What following symbols from one state has found: the keys of all known item
sets in the order of their numbers, the item sets that are new, and the
transitions. -/
structure Discovery where
  keys : List (List Item)
  fresh : List ItemSet
  transitions : List (Symbol × Nat)

namespace Discovery

/-- Record a transition to an item set. The set is new if its key is, and then it
gets the next number. -/
def record (discovery : Discovery) (symbol : Symbol) (target : ItemSet) : Discovery :=
  match discovery.keys.idxOf? target.key with
  | some id => { discovery with transitions := discovery.transitions ++ [(symbol, id)] }
  | none =>
      { keys := discovery.keys ++ [target.key]
        fresh := discovery.fresh ++ [target]
        transitions := discovery.transitions ++ [(symbol, discovery.keys.length)] }

/-- Follow one symbol from a set of items. -/
def follow (grammar : Grammar) (items : ItemSet) (discovery : Discovery) (symbol : Symbol) :
    Discovery :=
  discovery.record symbol (items.goto grammar symbol)

/-- Follow all symbols behind a dot, in order of their first occurrence. -/
def ofItems (grammar : Grammar) (keys : List (List Item)) (items : ItemSet) : Discovery :=
  (items.outgoing grammar).foldl (follow grammar items) ⟨keys, [], []⟩

/-- An upper bound on the states that the discovery still leaves to be found and
to be followed, each found state counted once more than a followed one. -/
def potential (grammar : Grammar) (discovery : Discovery) : Nat :=
  2 * grammar.unvisited discovery.keys + discovery.fresh.length

def Within (grammar : Grammar) (discovery : Discovery) : Prop :=
  ∀ items ∈ discovery.fresh, items.Within grammar

private theorem record_bounded {grammar : Grammar} {discovery : Discovery} {target : ItemSet}
    (symbol : Symbol) (targetWithin : target.Within grammar)
    (within : discovery.Within grammar) :
    (discovery.record symbol target).Within grammar ∧
      (discovery.record symbol target).potential grammar ≤ discovery.potential grammar := by
  unfold record
  split
  · exact ⟨within, Nat.le_refl _⟩
  · next absent =>
      have fewer := ItemSet.unvisited_append_lt targetWithin (List.idxOf?_eq_none_iff.mp absent)
      constructor
      · intro found member
        rcases List.mem_append.mp member with member | member
        · exact within found member
        · exact List.mem_singleton.mp member ▸ targetWithin
      · simp only [potential, List.length_append, List.length_singleton]
        omega

private theorem foldl_follow_bounded {grammar : Grammar} {items : ItemSet} (symbols : List Symbol)
    {discovery : Discovery} (itemsWithin : items.Within grammar)
    (within : discovery.Within grammar) :
    (symbols.foldl (follow grammar items) discovery).Within grammar ∧
      (symbols.foldl (follow grammar items) discovery).potential grammar ≤
        discovery.potential grammar := by
  induction symbols generalizing discovery with
  | nil => exact ⟨within, Nat.le_refl _⟩
  | cons symbol symbols ih =>
      have first := record_bounded symbol (ItemSet.goto_within symbol itemsWithin) within
      have rest := ih first.1
      exact ⟨rest.1, Nat.le_trans rest.2 first.2⟩

/-- What one state finds is within the grammar's items, and all but half of it is
paid for by keys that are no longer unvisited. -/
theorem ofItems_bounded {grammar : Grammar} {keys : List (List Item)} {items : ItemSet}
    (within : items.Within grammar) :
    (ofItems grammar keys items).Within grammar ∧
      2 * grammar.unvisited (ofItems grammar keys items).keys +
        (ofItems grammar keys items).fresh.length ≤ 2 * grammar.unvisited keys :=
  foldl_follow_bounded _ within (fun _ member => absurd member List.not_mem_nil)

end Discovery

namespace Automaton

/-- The states of the waiting item sets and of all that they lead to. The first
waiting set has the given number, and `keys` are those of all sets known so far. -/
def explore (grammar : Grammar) (keys : List (List Item)) (id : Nat) (waiting : List ItemSet)
    (within : ∀ items ∈ waiting, items.Within grammar) : List State :=
  match waiting with
  | [] => []
  | items :: rest =>
      let found := Discovery.ofItems grammar keys items
      have bounded := Discovery.ofItems_bounded (within items List.mem_cons_self)
      ⟨id, items, found.transitions⟩ ::
        explore grammar found.keys (id + 1) (rest ++ found.fresh) (by
          intro next member
          rcases List.mem_append.mp member with member | member
          · exact within next (List.mem_cons_of_mem _ member)
          · exact bounded.1 next member)
termination_by 2 * grammar.unvisited keys + waiting.length
decreasing_by
  simp only [List.length_append, List.length_cons]
  have := bounded.2
  omega

/-- The items of state zero. -/
def initialItems (grammar : Grammar) : ItemSet :=
  ItemSet.closure grammar (OrderedSet.ofList [Item.start grammar])

theorem initialItems_within (grammar : Grammar) : (initialItems grammar).Within grammar := by
  apply ItemSet.closure_within
  intro item member
  rw [OrderedSet.mem_ofList, List.mem_singleton] at member
  exact member ▸ Item.start_mem_allItems grammar

/-- The automaton of a grammar. -/
def build (grammar : Grammar) : Automaton where
  grammar
  states :=
    explore grammar [(initialItems grammar).key] 0 [initialItems grammar] fun _ member =>
      List.mem_singleton.mp member ▸ initialItems_within grammar

end Automaton

end ShiftReduce
