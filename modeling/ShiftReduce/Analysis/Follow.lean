import ShiftReduce.Analysis.First

/-!
# FOLLOW sets

The FOLLOW set of a nonterminal holds the terminals that can stand directly
behind it, with the end marker for the end of the input.  What follows a
nonterminal in a right-hand side is what the rest of that side can begin with,
and, if the rest is nullable, also what follows the left-hand side.
-/

namespace ShiftReduce

namespace FollowSets

/-- Add what the rest of a right-hand side says about the nonterminals in it. -/
def absorbRight (first : FirstSets) (left : Symbol) (table : SymbolTable) :
    List Symbol → SymbolTable
  | [] => table
  | symbol :: rest =>
    if symbol.isNonterminal then
      let (symbols, nullable) := first.ofSequence rest
      let following := if nullable then symbols.union (table.get left) else symbols
      absorbRight first left (table.extend symbol following) rest
    else absorbRight first left table rest

/-- Add what a production says about the nonterminals on its right-hand side. -/
def absorb (first : FirstSets) (table : SymbolTable) (production : Production) : SymbolTable :=
  absorbRight first production.left table production.right

theorem shrinks_absorbRight (first : FirstSets) (left : Symbol) (table : SymbolTable)
    (symbols : List Symbol) :
    Shrinks SymbolTable.room table (absorbRight first left table symbols) := by
  induction symbols generalizing table with
  | nil => exact .refl _
  | cons symbol rest ih =>
      unfold absorbRight
      split
      · exact (table.shrinks_extend _ _).trans (ih _)
      · exact ih table

theorem shrinks_absorb (first : FirstSets) (table : SymbolTable) (production : Production) :
    Shrinks SymbolTable.room table (absorb first table production) :=
  shrinks_absorbRight first production.left table production.right

/-- Absorb all productions of a grammar, one after the other. -/
def pass (grammar : Grammar) (first : FirstSets) : Pass SymbolTable where
  run table := grammar.productions.toList.foldl (absorb first) table
  room := SymbolTable.room
  shrinks := Shrinks.foldl (shrinks_absorb first) grammar.productions.toList

end FollowSets

namespace Grammar

/-- The FOLLOW sets of all nonterminals, with respect to given FIRST sets. The end
marker follows the start symbol and the augmented start. -/
def followSets (grammar : Grammar) (first : FirstSets) : SymbolTable :=
  (FollowSets.pass grammar first).saturate <|
    ((SymbolTable.ofKeys grammar.nonterminals).extend grammar.augmentedStart
      (.singleton Symbol.endMarker)).extend grammar.start (.singleton Symbol.endMarker)

/-- The labels of a set's symbols, with spaces between. -/
def labels (grammar : Grammar) (symbols : SymbolSet) : String :=
  " ".intercalate (symbols.toList.map grammar.label)

/-- The listing of all FIRST sets and, after a blank line, all FOLLOW sets. A
nullable nonterminal has the empty symbol behind its FIRST set. -/
def setsListing (grammar : Grammar) : String :=
  let first := grammar.firstSets
  Text.unlines <|
    (first.first.map fun (nonterminal, symbols) =>
      s!"FIRST,{grammar.label nonterminal},{grammar.labels symbols}" ++
        if first.isNullable nonterminal then "," ++ Symbol.empty.text else "") ++ [""] ++
    (grammar.followSets first).map fun (nonterminal, symbols) =>
      s!"FOLLOW,{grammar.label nonterminal},{grammar.labels symbols}"

end Grammar

end ShiftReduce
