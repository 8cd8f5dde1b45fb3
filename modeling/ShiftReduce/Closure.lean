import ShiftReduce.Item

/-!
# Closure and transitions of item sets

The closure of an item set adds, for every nonterminal behind a dot, the items
that start its productions.  Every nonterminal needs to be expanded only once,
so the expansion ends when the grammar's table of alternatives is used up.  A
transition moves the dot over one symbol and closes the items that it moved.
-/

namespace ShiftReduce

namespace ItemSet

/-- The items that start the given productions of a nonterminal. -/
def initialItems (origin : Symbol) (productions : List Nat) : List Item :=
  productions.map fun production => ⟨production, 0, origin⟩

/-- The entry of a table of alternatives for the symbol behind an item's dot. -/
def expansion? (grammar : Grammar) (unexpanded : List (Symbol × List Nat)) (item : Item) :
    Option (Symbol × List Nat) :=
  match item.symbolAtDot grammar with
  | some symbol => unexpanded.find? (·.1 == symbol)
  | none => none

theorem expansion?_mem {grammar : Grammar} {unexpanded : List (Symbol × List Nat)}
    {item : Item} {entry : Symbol × List Nat}
    (found : expansion? grammar unexpanded item = some entry) : entry ∈ unexpanded := by
  unfold expansion? at found
  split at found
  · exact List.mem_of_find?_eq_some found
  · cases found

private theorem length_erase_lt {unexpanded : List (Symbol × List Nat)}
    {entry : Symbol × List Nat} (member : entry ∈ unexpanded) :
    (unexpanded.erase entry).length < unexpanded.length := by
  rw [List.length_erase_of_mem member]
  exact Nat.sub_lt (List.length_pos_of_mem member) Nat.one_pos

/-- Scan pending items in order. The first item with a nonterminal that is not
yet expanded behind its dot adds that nonterminal's initial items to the set and to
the pending items. -/
def expand (grammar : Grammar) (unexpanded : List (Symbol × List Nat)) (found : ItemSet) :
    List Item → ItemSet
  | [] => found
  | item :: pending =>
    match expanded : expansion? grammar unexpanded item with
    | none => expand grammar unexpanded found pending
    | some entry =>
        let initial := initialItems entry.1 entry.2
        have := length_erase_lt (expansion?_mem expanded)
        expand grammar (unexpanded.erase entry) (found.insertAll initial)
          (pending ++ initial)
termination_by pending => (unexpanded.length, pending.length)

/-- The kernel's items, followed by the initial items that they lead to. -/
def closure (grammar : Grammar) (kernel : ItemSet) : ItemSet :=
  expand grammar grammar.alternatives kernel kernel.toList

/-- The items with the given symbol behind their dot, advanced over it. -/
def advanceOver (grammar : Grammar) (items : ItemSet) (symbol : Symbol) : ItemSet :=
  OrderedSet.ofList
    ((items.toList.filter (·.symbolAtDot grammar == some symbol)).map Item.advance)

/-- The items reached over a symbol. There are none exactly if no item has the
symbol behind its dot. -/
def goto (grammar : Grammar) (items : ItemSet) (symbol : Symbol) : ItemSet :=
  closure grammar (advanceOver grammar items symbol)

end ItemSet

end ShiftReduce
