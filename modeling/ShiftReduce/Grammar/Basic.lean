import ShiftReduce.Dialect
import ShiftReduce.Error

/-!
# Grammars

A grammar consists of productions over single-byte symbols together with the
tables that the rest of the library reads: which productions each nonterminal
has, and which terminals occur.  Production zero is the augmented one, from the
reserved augmented start to the start symbol; it is used only to accept.
-/

namespace ShiftReduce

/-- A nonterminal and one sequence of symbols that it may be replaced by. -/
structure Production where
  left : Symbol
  right : List Symbol
  deriving DecidableEq, Repr

namespace Production

/-- The symbols of a right-hand side, or the empty symbol if there are none. -/
def shownRight (production : Production) : List Symbol :=
  if production.right.isEmpty then [Symbol.empty] else production.right

/-- A production with its symbols as characters. -/
def text (production : Production) : String :=
  production.left.text ++ " -> " ++ Symbol.textOf production.shownRight

end Production

/-- A loaded grammar. The entries of `alternatives` are in order of first
definition, the augmented start first. -/
structure Grammar where
  dialect : Dialect
  start : Symbol
  productions : Array Production
  alternatives : List (Symbol × List Nat)
  terminals : List Symbol
  deriving DecidableEq, Repr

namespace Grammar

/-- The production from the augmented start to the start symbol. -/
def augmentedProduction : Nat := 0

def augmentedStart (grammar : Grammar) : Symbol := grammar.dialect.augmentedStart

/-- The nonterminals that have productions, in order of first definition. -/
def nonterminals (grammar : Grammar) : List Symbol := grammar.alternatives.map (·.1)

def production? (grammar : Grammar) (id : Nat) : Option Production :=
  grammar.productions[id]?

/-- The right-hand side of a production; a number without a production has none. -/
def right (grammar : Grammar) (id : Nat) : List Symbol :=
  ((grammar.production? id).map (·.right)).getD []

/-- The text of a production; a number without a production has none. -/
def productionText (grammar : Grammar) (id : Nat) : String :=
  ((grammar.production? id).map (·.text)).getD ""

/-- The productions of a nonterminal, in order of definition. -/
def productionsOf (grammar : Grammar) (symbol : Symbol) : Except Error (List Nat) :=
  match grammar.alternatives.find? (·.1 == symbol) with
  | some (_, ids) => .ok ids
  | none => .error (.unknown symbol)

/-- How the grammar shows a symbol. -/
def label (grammar : Grammar) (symbol : Symbol) : String := grammar.dialect.label symbol

/-- A production with its symbols as labels, which are set apart by spaces. -/
def labelledProduction (grammar : Grammar) (production : Production) : String :=
  grammar.label production.left ++ " ->" ++
    if production.right.isEmpty then " " ++ Symbol.empty.text
    else String.join (production.right.map fun symbol => " " ++ grammar.label symbol)

/-- The listing of all productions: their number, a blank line, and one numbered
line for each. -/
def listing (grammar : Grammar) : String :=
  Text.unlines <|
    s!"PS,{grammar.productions.size}" :: "" ::
      grammar.productions.toList.mapIdx fun id production =>
        s!"P,{id},{grammar.labelledProduction production}"

end Grammar

end ShiftReduce
