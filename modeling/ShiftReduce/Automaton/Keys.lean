import ShiftReduce.Enumeration
import ShiftReduce.Grammar.Items

/-!
# Keys of item sets

Sets of a grammar's items have finitely many keys.  Main statement: a key that is
new to a list of keys leaves fewer keys unvisited, so only finitely many states
can be found.
-/

namespace ShiftReduce

namespace Grammar

/-- The keys of all sets of the grammar's items. -/
def possibleKeys (grammar : Grammar) : List (List Item) :=
  (selections grammar.allItems.toList).map (·.mergeSort Item.precedes)

/-- How many possible keys a list of keys does not contain. -/
def unvisited (grammar : Grammar) (keys : List (List Item)) : Nat :=
  countUnvisited grammar.possibleKeys keys

end Grammar

namespace ItemSet

theorem key_mem_possibleKeys {grammar : Grammar} {items : ItemSet}
    (within : items.Within grammar) : items.key ∈ grammar.possibleKeys := by
  have permutation : items.toList.Perm (grammar.allItems.filter (· ∈ items)).toList := by
    apply OrderedSet.perm_of_mem_iff
    intro item
    rw [OrderedSet.mem_filter]
    exact ⟨fun member => ⟨within item member, decide_eq_true member⟩,
      fun member => of_decide_eq_true member.2⟩
  exact List.mem_map.mpr
    ⟨_, filter_mem_selections (· ∈ items) _, (key_eq_of_perm permutation).symm⟩

theorem unvisited_append_lt {grammar : Grammar} {keys : List (List Item)} {items : ItemSet}
    (within : items.Within grammar) (new : items.key ∉ keys) :
    grammar.unvisited (keys ++ [items.key]) < grammar.unvisited keys :=
  countUnvisited_lt (key_mem_possibleKeys within) new (List.subset_append_left _ _)
    (List.mem_append_right _ (List.mem_singleton.mpr rfl))

end ItemSet

end ShiftReduce
