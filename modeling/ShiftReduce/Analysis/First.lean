import ShiftReduce.Analysis.Fixpoint
import ShiftReduce.Analysis.SymbolTable
import ShiftReduce.Grammar.Basic

/-!
# FIRST sets

The FIRST set of a nonterminal holds the terminals that something derived from it
can begin with, and a nonterminal is nullable if the empty sequence can be
derived from it.  Both grow together, production by production, until no
production adds anything.
-/

namespace ShiftReduce

/-- The FIRST sets of nonterminals and the nonterminals that are nullable. -/
structure FirstSets where
  first : SymbolTable
  nullable : SymbolSet
  deriving DecidableEq, Repr

namespace FirstSets

/-- No nonterminal, and none of them nullable. -/
def empty : FirstSets := ⟨[], SymbolSet.empty⟩

/-- What a symbol can begin with. A terminal begins with itself. -/
def ofSymbol (sets : FirstSets) (symbol : Symbol) : SymbolSet :=
  if symbol.isNonterminal then sets.first.get symbol
  else if symbol.isEmpty then SymbolSet.empty
  else SymbolSet.singleton symbol

def isNullable (sets : FirstSets) (symbol : Symbol) : Bool :=
  symbol.isEmpty || symbol ∈ sets.nullable

/-- What a sequence can begin with, and whether all of it is nullable. -/
def ofSequence (sets : FirstSets) : List Symbol → SymbolSet × Bool
  | [] => (SymbolSet.empty, true)
  | symbol :: rest =>
    if sets.isNullable symbol then
      let (symbols, nullable) := sets.ofSequence rest
      ((sets.ofSymbol symbol).union symbols, nullable)
    else (sets.ofSymbol symbol, false)

/-- How much is missing from the sets. -/
def room (sets : FirstSets) : Nat := sets.first.room + sets.nullable.room

/-- Add to what a nonterminal can begin with. -/
def addFirst (sets : FirstSets) (nonterminal : Symbol) (symbols : SymbolSet) : FirstSets :=
  { sets with first := sets.first.extend nonterminal symbols }

/-- Note that a nonterminal is nullable. -/
def addNullable (sets : FirstSets) (nonterminal : Symbol) : FirstSets :=
  { sets with nullable := sets.nullable.insert nonterminal }

/-- Add what a production says about its left-hand side. -/
def absorb (sets : FirstSets) (production : Production) : FirstSets :=
  let (symbols, nullable) := sets.ofSequence production.right
  let extended := sets.addFirst production.left symbols
  if nullable then extended.addNullable production.left else extended

theorem shrinks_addFirst (sets : FirstSets) (nonterminal : Symbol) (symbols : SymbolSet) :
    Shrinks room sets (sets.addFirst nonterminal symbols) :=
  (sets.first.shrinks_extend nonterminal symbols).imp
    (fun same => by rw [addFirst, same]) (fun less => Nat.add_lt_add_right less _)

theorem shrinks_addNullable (sets : FirstSets) (nonterminal : Symbol) :
    Shrinks room sets (sets.addNullable nonterminal) :=
  (sets.nullable.shrinks_insert nonterminal).imp
    (fun same => by rw [addNullable, same]) (fun less => Nat.add_lt_add_left less _)

theorem shrinks_absorb (sets : FirstSets) (production : Production) :
    Shrinks room sets (sets.absorb production) := by
  unfold absorb
  dsimp only
  split
  · exact (shrinks_addFirst _ _ _).trans (shrinks_addNullable _ _)
  · exact shrinks_addFirst _ _ _

/-- Absorb all productions of a grammar, one after the other. -/
def pass (grammar : Grammar) : Pass FirstSets where
  run sets := grammar.productions.toList.foldl absorb sets
  room := room
  shrinks sets := Shrinks.foldl shrinks_absorb grammar.productions.toList sets

end FirstSets

namespace Grammar

/-- The FIRST sets of all nonterminals. -/
def firstSets (grammar : Grammar) : FirstSets :=
  (FirstSets.pass grammar).saturate ⟨.ofKeys grammar.nonterminals, .empty⟩

end Grammar

end ShiftReduce
