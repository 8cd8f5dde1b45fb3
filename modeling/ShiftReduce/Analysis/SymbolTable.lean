import ShiftReduce.Analysis.SymbolSet

/-!
# Tables of symbol sets

A table gives each of its keys a set of symbols.  The keys stay as they are while
the sets grow, so the room in a table is finite and shrinks whenever the table
changes: main statement `SymbolTable.shrinks_extend`.
-/

namespace ShiftReduce

/-- Sets of symbols by their keys, which are distinct and in order. -/
abbrev SymbolTable := List (Symbol × SymbolSet)

namespace SymbolTable

/-- The table that gives every key the empty set. -/
def ofKeys (keys : List Symbol) : SymbolTable := keys.map (·, SymbolSet.empty)

/-- The set of a key; what is no key has the empty set. -/
def get (table : SymbolTable) (key : Symbol) : SymbolSet :=
  ((table.find? (·.1 == key)).map (·.2)).getD SymbolSet.empty

/-- Add symbols to the set of a key. What is no key is passed over. -/
def extend (table : SymbolTable) (key : Symbol) (symbols : SymbolSet) : SymbolTable :=
  table.map fun (other, set) => (other, if other = key then set.union symbols else set)

/-- How many symbols are missing from all sets together. -/
def room (table : SymbolTable) : Nat :=
  table.foldr (fun entry missing => entry.2.room + missing) 0

theorem shrinks_extend (table : SymbolTable) (key : Symbol) (symbols : SymbolSet) :
    Shrinks room table (table.extend key symbols) := by
  induction table with
  | nil => exact .refl _
  | cons entry rest ih =>
      have first : Shrinks SymbolSet.room entry.2
          (if entry.1 = key then entry.2.union symbols else entry.2) := by
        split
        · exact entry.2.shrinks_union symbols
        · exact .refl _
      simp only [Shrinks, extend, room, List.map_cons, List.foldr_cons] at first ih ⊢
      rcases first with sameFirst | lessFirst <;> rcases ih with sameRest | lessRest
      · exact .inl (by rw [sameFirst, sameRest])
      · exact .inr (by rw [sameFirst]; omega)
      · exact .inr (by rw [sameRest]; omega)
      · exact .inr (by omega)

theorem map_fst_extend (table : SymbolTable) (key : Symbol) (symbols : SymbolSet) :
    (table.extend key symbols).map (·.1) = table.map (·.1) := by
  simp [extend]

end SymbolTable

end ShiftReduce
