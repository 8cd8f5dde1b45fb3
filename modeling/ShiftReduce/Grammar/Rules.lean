import ShiftReduce.Grammar.Basic
import ShiftReduce.OrderedSet

/-!
# Collecting rules

A grammar is collected rule by rule.  Every rule is checked as it arrives; rules
for one nonterminal are joined, and an alternative that it already has is dropped
and noted.  When the rules are complete, the nonterminals that they mention must
all be defined, and the productions are numbered.
-/

namespace ShiftReduce

/-- A nonterminal with alternatives for it, still unchecked. An alternative that
spells the empty sequence is the empty symbol alone. -/
structure Rule where
  line : Nat
  left : Symbol
  alternatives : List (List Symbol)
  deriving DecidableEq, Repr

/-- The rules collected so far: the distinct alternatives of each nonterminal, in
order of definition, and the alternatives that were dropped as duplicates. -/
structure RuleTable where
  dialect : Dialect
  entries : List (Symbol × List (List Symbol))
  duplicates : List (Nat × Symbol)
  deriving DecidableEq, Repr

/-- The empty table of a dialect whose augmented start is a nonterminal and whose
number terminal can stand in an input. -/
def RuleTable.ofDialect (dialect : Dialect) : Except Error RuleTable :=
  if !(dialect.augmentedStart.isPrintable && dialect.augmentedStart.isNonterminal) then
    .error (.format 0 (.augmentedStart dialect.augmentedStart))
  else if !dialect.numberTerminal.isInput then
    .error (.format 0 (.numberTerminal dialect.numberTerminal))
  else
    .ok { dialect, entries := [], duplicates := [] }

namespace Dialect

/-- What is wrong with a symbol of an alternative, if anything. -/
def symbolFault? (dialect : Dialect) (line : Nat) (symbol : Symbol) : Option Error :=
  if !symbol.isPrintable then some (.unknown symbol)
  else if dialect.isReserved symbol then some (.format line (.rightReserved symbol))
  else none

/-- The sequence of symbols that an alternative spells. -/
def readAlternative (dialect : Dialect) (line : Nat) (alternative : List Symbol) :
    Except Error (List Symbol) :=
  if alternative.isEmpty then
    .error (.format line .alternativeEmpty)
  else if alternative.contains Symbol.empty then
    if alternative.length = 1 then .ok [] else .error (.format line .emptySymbolNotAlone)
  else
    match alternative.findSome? (dialect.symbolFault? line) with
    | some error => .error error
    | none => .ok alternative

/-- What is wrong with the left-hand side of a rule, if anything. -/
def leftFault? (dialect : Dialect) (line : Nat) (left : Symbol) : Option Error :=
  if !left.isPrintable then some (.unknown left)
  else if !left.isNonterminal then some (.format line (.leftNotNonterminal left))
  else if dialect.isReserved left then some (.format line (.leftReserved left))
  else none

/-- The sequences that a rule's alternatives spell, if the rule is well formed. -/
def readRule (dialect : Dialect) (rule : Rule) : Except Error (List (List Symbol)) :=
  match dialect.leftFault? rule.line rule.left with
  | some error => .error error
  | none => rule.alternatives.mapM (dialect.readAlternative rule.line)

end Dialect

namespace RuleTable

/-- The alternatives collected for a nonterminal. -/
def alternativesOf (table : RuleTable) (left : Symbol) : List (List Symbol) :=
  ((table.entries.find? (·.1 == left)).map (·.2)).getD []

/-- Give a nonterminal its alternatives; a new nonterminal comes last. -/
def setAlternatives (table : RuleTable) (left : Symbol) (alternatives : List (List Symbol)) :
    RuleTable :=
  { table with
    entries :=
      if table.entries.any (·.1 == left) then
        table.entries.map fun entry => if entry.1 = left then (left, alternatives) else entry
      else table.entries ++ [(left, alternatives)] }

/-- Add one alternative, or note that the nonterminal already has it. -/
def addAlternative (line : Nat) (left : Symbol) (table : RuleTable)
    (alternative : List Symbol) : RuleTable :=
  let present := table.alternativesOf left
  if present.contains alternative then
    { table with duplicates := table.duplicates ++ [(line, left)] }
  else
    table.setAlternatives left (present ++ [alternative])

/-- Add a rule. A rule without alternatives still defines its nonterminal. -/
def add (table : RuleTable) (rule : Rule) : Except Error RuleTable :=
  match table.dialect.readRule rule with
  | .error error => .error error
  | .ok alternatives =>
      .ok (alternatives.foldl (addAlternative rule.line rule.left)
        (table.setAlternatives rule.left (table.alternativesOf rule.left)))

/-- Add rules until one is refused. The table keeps the rules before that one. -/
def addAll (table : RuleTable) : List (Except Error Rule) → RuleTable × Option Error
  | [] => (table, none)
  | .error error :: _ => (table, some error)
  | .ok rule :: rules =>
      match table.add rule with
      | .error error => (table, some error)
      | .ok added => added.addAll rules

def isDefined (table : RuleTable) (symbol : Symbol) : Bool :=
  table.entries.any (·.1 == symbol)

/-- The symbols of all alternatives, in order of definition. -/
def rightSymbols (table : RuleTable) : List Symbol :=
  (table.entries.flatMap (·.2)).flatten

/-- The productions of the entries, in order. -/
def productions (table : RuleTable) : List Production :=
  table.entries.flatMap fun (left, alternatives) => alternatives.map (Production.mk left)

/-- Number the alternatives of the entries consecutively. -/
def number (next : Nat) :
    List (Symbol × List (List Symbol)) → List (Symbol × List Nat)
  | [] => []
  | (left, alternatives) :: entries =>
      (left, List.range' next alternatives.length) :: number (next + alternatives.length) entries

/-- The grammar of a complete table. The left-hand side of the first rule is the
start symbol. -/
def toGrammar (table : RuleTable) : Except Error Grammar :=
  match table.entries with
  | [] => .error (.format 0 .noProductions)
  | (start, _) :: _ =>
    match table.rightSymbols.find? fun symbol =>
        symbol.isNonterminal && !table.isDefined symbol with
    | some symbol => .error (.unknown symbol)
    | none =>
        let augmented := table.dialect.augmentedStart
        .ok {
          dialect := table.dialect
          start
          productions := (⟨augmented, [start]⟩ :: table.productions).toArray
          alternatives := (augmented, [Grammar.augmentedProduction]) :: number 1 table.entries
          terminals :=
            ((OrderedSet.ofList (table.rightSymbols.filter (·.isTerminal))).insert
              Symbol.endMarker).toList }

end RuleTable

/-- What came of loading a grammar: the grammar or why there is none, and the
alternatives that were dropped as duplicates before that was known. -/
structure Loading where
  result : Except Error Grammar
  duplicates : List (Nat × Symbol)

namespace Grammar

/-- Collect rules, of which some may have failed to be read, in their order. -/
def collect (dialect : Dialect) (rules : List (Except Error Rule)) : Loading :=
  match RuleTable.ofDialect dialect with
  | .error error => ⟨.error error, []⟩
  | .ok empty =>
      match empty.addAll rules with
      | (table, some error) => ⟨.error error, table.duplicates⟩
      | (table, none) => ⟨table.toGrammar, table.duplicates⟩

/-- Load a grammar from rules that are given as data. Such rules have no line, and
an alternative without symbols spells the empty sequence. -/
def loadRules (dialect : Dialect) (rules : List (Symbol × List (List Symbol))) : Loading :=
  collect dialect <| rules.map fun (left, alternatives) =>
    .ok {
      line := 0
      left
      alternatives := alternatives.map fun alternative =>
        if alternative.isEmpty then [Symbol.empty] else alternative }

/-- The grammar of rules that are given as data. -/
def ofRules (dialect : Dialect) (rules : List (Symbol × List (List Symbol))) :
    Except Error Grammar :=
  (loadRules dialect rules).result

end Grammar

end ShiftReduce
