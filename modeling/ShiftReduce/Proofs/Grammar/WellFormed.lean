import ShiftReduce.Proofs.Grammar.Tables

/-!
# Well-formed grammars

What loading guarantees about a grammar, whether it was read from a source or
collected from rules: the augmented production comes first and nothing else mentions
the augmented start, the table of alternatives lists the productions of every
nonterminal, and right-hand sides hold terminals of inputs and defined nonterminals
only.  Main statement: `Grammar.Loaded.wellFormed`.
-/

namespace ShiftReduce

namespace Grammar

/-- A grammar that loading has produced, from a source or from rules. -/
inductive Loaded (grammar : Grammar) : Prop where
  | source {dialect : Dialect} {source : List Char} :
      Grammar.parse dialect source = .ok grammar → Loaded grammar
  | rules {dialect : Dialect} {rules : List (Symbol × List (List Symbol))} :
      Grammar.ofRules dialect rules = .ok grammar → Loaded grammar

/-- A symbol that a right-hand side may hold: a terminal of inputs, or a defined
nonterminal other than the augmented start. -/
inductive Mentions (grammar : Grammar) (symbol : Symbol) : Prop where
  | terminal : symbol.isInput = true → Mentions grammar symbol
  | nonterminal : symbol.isNonterminal = true → symbol ≠ grammar.augmentedStart →
      symbol ∈ grammar.nonterminals → Mentions grammar symbol

/-- The agreement of a grammar's tables on which the automaton and the parser rely. -/
structure WellFormed (grammar : Grammar) : Prop where
  augmentedStart_nonterminal : grammar.augmentedStart.isNonterminal = true
  numberTerminal_input : grammar.dialect.numberTerminal.isInput = true
  augmented : grammar.production? augmentedProduction =
    some ⟨grammar.augmentedStart, [grammar.start]⟩
  start_mem : grammar.start ∈ grammar.nonterminals
  start_ne : grammar.start ≠ grammar.augmentedStart
  left_ne : ∀ {id production}, grammar.production? id = some production →
    id ≠ augmentedProduction → production.left ≠ grammar.augmentedStart
  mentions : ∀ {id production}, grammar.production? id = some production →
    ∀ symbol ∈ production.right, grammar.Mentions symbol
  nodup : grammar.nonterminals.Nodup
  nonterminal : ∀ left ∈ grammar.nonterminals, left.isNonterminal = true
  left_mem : ∀ {id production}, grammar.production? id = some production →
    production.left ∈ grammar.nonterminals
  mem_ids : ∀ {left ids}, (left, ids) ∈ grammar.alternatives → ∀ id,
    id ∈ ids ↔ ∃ right, grammar.production? id = some ⟨left, right⟩
  mem_terminals : ∀ symbol, symbol ∈ grammar.terminals ↔ symbol = Symbol.endMarker ∨
    symbol.isTerminal = true ∧ ∃ id production, grammar.production? id = some production ∧
      symbol ∈ production.right

namespace WellFormed

variable {grammar : Grammar}

theorem start_nonterminal (wellFormed : grammar.WellFormed) :
    grammar.start.isNonterminal = true :=
  wellFormed.nonterminal _ wellFormed.start_mem

theorem left_nonterminal (wellFormed : grammar.WellFormed) {id : Nat} {production : Production}
    (found : grammar.production? id = some production) :
    production.left.isNonterminal = true :=
  wellFormed.nonterminal _ (wellFormed.left_mem found)

/-- Every nonterminal on a right-hand side is defined. -/
theorem nonterminal_mem (wellFormed : grammar.WellFormed) {id : Nat} {production : Production}
    (found : grammar.production? id = some production) {symbol : Symbol}
    (member : symbol ∈ production.right) (nonterminal : symbol.isNonterminal = true) :
    symbol ∈ grammar.nonterminals := by
  cases wellFormed.mentions found symbol member with
  | terminal input =>
      have terminal := Symbol.isTerminal_of_isInput input
      rw [Symbol.not_isNonterminal_of_isTerminal terminal] at nonterminal
      cases nonterminal
  | nonterminal _ _ defined => exact defined

/-- No symbol of a right-hand side is the end marker. -/
theorem ne_endMarker (wellFormed : grammar.WellFormed) {id : Nat} {production : Production}
    {symbol : Symbol} (found : grammar.production? id = some production)
    (member : symbol ∈ production.right) : symbol ≠ Symbol.endMarker := by
  cases wellFormed.mentions found symbol member with
  | terminal input =>
      rintro rfl
      exact absurd input (by decide)
  | nonterminal nonterminal =>
      rintro rfl
      exact absurd nonterminal (by decide)

end WellFormed

/-- A nonterminal that is defined can be looked up. -/
theorem exists_productionsOf {grammar : Grammar} {symbol : Symbol}
    (defined : symbol ∈ grammar.nonterminals) :
    ∃ ids, grammar.productionsOf symbol = .ok ids ∧ (symbol, ids) ∈ grammar.alternatives := by
  obtain ⟨entry, member, rfl⟩ := List.mem_map.mp defined
  cases found : grammar.alternatives.find? (·.1 == entry.1) with
  | none =>
      have different := List.find?_eq_none.mp found entry member
      simp at different
  | some first =>
      have named : first.1 = entry.1 := by simpa using List.find?_some found
      refine ⟨first.2, by rw [productionsOf, found], ?_⟩
      rw [← named]
      exact List.mem_of_find?_eq_some found

/-- What is looked up for a nonterminal are the productions that it has. -/
theorem WellFormed.mem_productionsOf {grammar : Grammar} (wellFormed : grammar.WellFormed)
    {left : Symbol} {ids : List Nat} (listed : grammar.productionsOf left = .ok ids) (id : Nat) :
    id ∈ ids ↔ ∃ right, grammar.production? id = some ⟨left, right⟩ := by
  rw [productionsOf] at listed
  split at listed
  next symbol entry found =>
    cases listed
    have named : symbol = left := by simpa using List.find?_some found
    subst named
    exact wellFormed.mem_ids (List.mem_of_find?_eq_some found) id
  · cases listed

end Grammar

namespace RuleTable

theorem mem_rightSymbols {table : RuleTable} {symbol : Symbol} :
    symbol ∈ table.rightSymbols ↔
      ∃ production ∈ table.productions, symbol ∈ production.right := by
  simp only [rightSymbols, List.mem_flatten, List.mem_flatMap]
  constructor
  · intro given
    rcases given with ⟨right, ⟨entry, member, rightMember⟩, symbolMember⟩
    exact ⟨⟨entry.1, right⟩, mem_productions.mpr ⟨entry.2, member, rightMember⟩, symbolMember⟩
  · intro given
    rcases given with ⟨production, member, symbolMember⟩
    obtain ⟨alternatives, entryMember, rightMember⟩ := mem_productions.mp member
    exact ⟨production.right, ⟨_, entryMember, rightMember⟩, symbolMember⟩

/-- What the grammar of a complete table holds. -/
structure Makes (table : RuleTable) (grammar : Grammar) : Prop where
  dialect : grammar.dialect = table.dialect
  start : ∃ alternatives, (grammar.start, alternatives) ∈ table.entries
  complete : ∀ symbol ∈ table.rightSymbols, symbol.isNonterminal = true →
    symbol ∈ table.entries.map (·.1)
  productions : grammar.productions =
    (⟨table.dialect.augmentedStart, [grammar.start]⟩ :: table.productions).toArray
  alternatives : grammar.alternatives =
    (table.dialect.augmentedStart, [Grammar.augmentedProduction]) :: number 1 table.entries
  terminals : ∀ symbol, symbol ∈ grammar.terminals ↔
    symbol ∈ table.rightSymbols ∧ symbol.isTerminal = true ∨ symbol = Symbol.endMarker

theorem makes_of_toGrammar {table : RuleTable} {grammar : Grammar}
    (made : table.toGrammar = .ok grammar) : table.Makes grammar := by
  simp only [toGrammar] at made
  split at made
  · cases made
  next start alternatives entries equal =>
  split at made
  · cases made
  next complete =>
  cases made
  refine ⟨rfl, ⟨alternatives, equal ▸ List.mem_cons_self⟩, ?_, rfl, rfl, ?_⟩
  · intro symbol member nonterminal
    have defined := List.find?_eq_none.mp complete symbol member
    simp only [nonterminal, isDefined, Bool.true_and, Bool.not_eq_true', Bool.not_eq_false,
      List.any_eq_true, beq_iff_eq] at defined
    obtain ⟨entry, entryMember, named⟩ := defined
    exact List.mem_map.mpr ⟨entry, entryMember, named⟩
  · intro symbol
    simp only [OrderedSet.mem_toList, OrderedSet.mem_insert, OrderedSet.mem_ofList,
      List.mem_filter]

namespace Makes

variable {table : RuleTable} {grammar : Grammar}

theorem production?_zero (makes : table.Makes grammar) :
    grammar.production? 0 = some ⟨table.dialect.augmentedStart, [grammar.start]⟩ := by
  rw [Grammar.production?, makes.productions]
  rfl

theorem production?_succ (makes : table.Makes grammar) (id : Nat) :
    grammar.production? (id + 1) = table.productions[id]? := by
  rw [Grammar.production?, makes.productions, List.getElem?_toArray, List.getElem?_cons_succ]

theorem mem_nonterminals (makes : table.Makes grammar) (symbol : Symbol) :
    symbol ∈ grammar.nonterminals ↔
      symbol = table.dialect.augmentedStart ∨ symbol ∈ table.entries.map (·.1) := by
  simp only [Grammar.nonterminals, makes.alternatives, List.map_cons, map_fst_number,
    List.mem_cons]

/-- The productions of a table are of defined nonterminals. -/
theorem left_defined (wellFormed : table.WellFormed) {position : Nat} {production : Production}
    (found : table.productions[position]? = some production) :
    table.dialect.Defines production.left ∧ production.left ∈ table.entries.map (·.1) := by
  obtain ⟨_, entryMember, _⟩ := mem_productions.mp (List.mem_of_getElem? found)
  exact ⟨wellFormed.defines _ entryMember, List.mem_map_of_mem entryMember⟩

theorem ne_augmentedStart (wellFormed : table.WellFormed) {left : Symbol}
    (member : left ∈ table.entries.map (·.1)) : left ≠ table.dialect.augmentedStart := by
  obtain ⟨entry, entryMember, rfl⟩ := List.mem_map.mp member
  exact Dialect.ne_augmentedStart_of_unreserved (wellFormed.defines entry entryMember).unreserved

theorem augmentedStart_eq (makes : table.Makes grammar) :
    grammar.augmentedStart = table.dialect.augmentedStart := by
  rw [Grammar.augmentedStart, makes.dialect]

/-- A nonterminal that a rule may define and that has an entry may be mentioned. -/
theorem mentions_entry (makes : table.Makes grammar) (wellFormed : table.WellFormed)
    {symbol : Symbol} (member : symbol ∈ table.entries.map (·.1)) :
    grammar.Mentions symbol := by
  have different := ne_augmentedStart wellFormed member
  obtain ⟨entry, entryMember, rfl⟩ := List.mem_map.mp member
  refine .nonterminal (wellFormed.defines entry entryMember).nonterminal ?_
    ((makes.mem_nonterminals _).mpr (.inr member))
  rw [makes.augmentedStart_eq]
  exact different

theorem mentions (makes : table.Makes grammar) (wellFormed : table.WellFormed) {id : Nat}
    {production : Production} (found : grammar.production? id = some production) :
    ∀ symbol ∈ production.right, grammar.Mentions symbol := by
  intro symbol member
  cases id with
  | zero =>
      rw [makes.production?_zero] at found
      cases found
      obtain ⟨alternatives, startEntry⟩ := makes.start
      rw [List.mem_singleton.mp member]
      exact makes.mentions_entry wellFormed (List.mem_map_of_mem startEntry)
  | succ id =>
      rw [makes.production?_succ] at found
      have listed := List.mem_of_getElem? found
      obtain ⟨_, entryMember, rightMember⟩ := mem_productions.mp listed
      have allows := wellFormed.allows _ entryMember _ rightMember symbol member
      cases nonterminal : symbol.isNonterminal with
      | false => exact .terminal (allows.isInput nonterminal)
      | true =>
          have mentioned := mem_rightSymbols.mpr ⟨production, listed, member⟩
          exact makes.mentions_entry wellFormed
            (makes.complete symbol mentioned nonterminal)

/-- Entry by entry, the numbers are those of the nonterminal's productions. -/
theorem mem_ids (makes : table.Makes grammar) (wellFormed : table.WellFormed) {left : Symbol}
    {ids : List Nat} (entry : (left, ids) ∈ grammar.alternatives) (id : Nat) :
    id ∈ ids ↔ ∃ right, grammar.production? id = some ⟨left, right⟩ := by
  rw [makes.alternatives, List.mem_cons] at entry
  rcases entry with augmented | entry
  · obtain ⟨rfl, rfl⟩ := Prod.mk.inj augmented
    rw [List.mem_singleton]
    constructor
    · intro equal
      subst equal
      exact ⟨_, makes.production?_zero⟩
    · intro given
      rcases given with ⟨right, found⟩
      cases id with
      | zero => rfl
      | succ id =>
          rw [makes.production?_succ] at found
          exact absurd rfl (ne_augmentedStart wellFormed (left_defined wellFormed found).2)
  · have listed := List.mem_map_of_mem (f := (·.1)) entry
    rw [map_fst_number] at listed
    rw [mem_number_iff wellFormed.nodup entry]
    cases id with
    | zero =>
        constructor
        · intro given
          rcases given with ⟨lower, _⟩
          exact absurd lower (Nat.not_succ_le_zero 0)
        · intro given
          rcases given with ⟨right, found⟩
          rw [makes.production?_zero, Option.some.injEq, Production.mk.injEq] at found
          exact absurd found.1.symm (ne_augmentedStart wellFormed listed)
    | succ id =>
        rw [makes.production?_succ]
        constructor
        · intro given
          rcases given with ⟨_, found⟩
          exact found
        · intro found
          exact ⟨Nat.succ_le_succ (Nat.zero_le id), found⟩

theorem mem_terminals (makes : table.Makes grammar) (wellFormed : table.WellFormed)
    (symbol : Symbol) :
    symbol ∈ grammar.terminals ↔ symbol = Symbol.endMarker ∨
      symbol.isTerminal = true ∧ ∃ id production, grammar.production? id = some production ∧
        symbol ∈ production.right := by
  rw [makes.terminals, mem_rightSymbols, or_comm]
  refine or_congr Iff.rfl ⟨?_, ?_⟩
  · intro given
    rcases given with ⟨⟨production, member, symbolMember⟩, terminal⟩
    obtain ⟨position, found⟩ := List.getElem?_of_mem member
    exact ⟨terminal, position + 1, production, (makes.production?_succ position).trans found,
      symbolMember⟩
  · intro given
    rcases given with ⟨terminal, id, production, found, symbolMember⟩
    cases id with
    | zero =>
        rw [makes.production?_zero] at found
        cases found
        obtain ⟨alternatives, startEntry⟩ := makes.start
        rw [List.mem_singleton.mp symbolMember] at terminal
        have nonterminal := (wellFormed.defines _ startEntry).nonterminal
        rw [Symbol.not_isNonterminal_of_isTerminal terminal] at nonterminal
        cases nonterminal
    | succ id =>
        rw [makes.production?_succ] at found
        exact ⟨⟨production, List.mem_of_getElem? found, symbolMember⟩, terminal⟩

end Makes

/-- A complete table makes a well-formed grammar. -/
theorem WellFormed.toGrammar {table : RuleTable} {grammar : Grammar}
    (wellFormed : table.WellFormed)
    (augmentedStart : table.dialect.augmentedStart.isNonterminal = true)
    (numberTerminal : table.dialect.numberTerminal.isInput = true)
    (made : table.toGrammar = .ok grammar) : grammar.WellFormed := by
  have makes := makes_of_toGrammar made
  obtain ⟨alternatives, startEntry⟩ := makes.start
  have startMember := List.mem_map_of_mem (f := (·.1)) startEntry
  constructor
  · rw [makes.augmentedStart_eq]
    exact augmentedStart
  · rw [makes.dialect]
    exact numberTerminal
  · rw [makes.augmentedStart_eq]
    exact makes.production?_zero
  · exact (makes.mem_nonterminals _).mpr (.inr startMember)
  · rw [makes.augmentedStart_eq]
    exact Makes.ne_augmentedStart wellFormed startMember
  · intro id production found notAugmented
    rw [makes.augmentedStart_eq]
    cases id with
    | zero => exact absurd rfl notAugmented
    | succ id =>
        rw [makes.production?_succ] at found
        exact Makes.ne_augmentedStart wellFormed (Makes.left_defined wellFormed found).2
  · exact makes.mentions wellFormed
  · simp only [Grammar.nonterminals, makes.alternatives, List.map_cons, map_fst_number,
      List.nodup_cons]
    exact ⟨fun member => Makes.ne_augmentedStart wellFormed member rfl, wellFormed.nodup⟩
  · intro left member
    rcases (makes.mem_nonterminals left).mp member with rfl | member
    · exact augmentedStart
    · obtain ⟨entry, entryMember, rfl⟩ := List.mem_map.mp member
      exact (wellFormed.defines entry entryMember).nonterminal
  · intro id production found
    cases id with
    | zero =>
        rw [makes.production?_zero] at found
        cases found
        exact (makes.mem_nonterminals _).mpr (.inl rfl)
    | succ id =>
        rw [makes.production?_succ] at found
        exact (makes.mem_nonterminals _).mpr (.inr (Makes.left_defined wellFormed found).2)
  · exact makes.mem_ids wellFormed
  · exact makes.mem_terminals wellFormed

end RuleTable

namespace Grammar

/-- Collected rules have all been added to the empty table of the dialect. -/
theorem exists_table_of_collect {dialect : Dialect} {rules : List (Except Error Rule)}
    {grammar : Grammar} (made : (collect dialect rules).result = .ok grammar) :
    ∃ empty table, RuleTable.ofDialect dialect = .ok empty ∧ empty.addAll rules = (table, none) ∧
      table.toGrammar = .ok grammar := by
  simp only [collect] at made
  split at made
  · cases made
  next empty ready =>
  split at made
  · cases made
  next table collected =>
  exact ⟨empty, table, ready, collected, made⟩

theorem collect_wellFormed {dialect : Dialect} {rules : List (Except Error Rule)}
    {grammar : Grammar} (made : (collect dialect rules).result = .ok grammar) :
    grammar.WellFormed := by
  obtain ⟨empty, table, ready, collected, finished⟩ := exists_table_of_collect made
  obtain ⟨emptyWellFormed, augmentedStart, numberTerminal, dialectEqual⟩ :=
    RuleTable.ofDialect_wellFormed ready
  obtain ⟨wellFormed, sameDialect⟩ := emptyWellFormed.addAll rules collected
  rw [← dialectEqual, ← sameDialect] at augmentedStart numberTerminal
  exact wellFormed.toGrammar augmentedStart numberTerminal finished

/-- Loading produces well-formed grammars only. -/
theorem Loaded.wellFormed {grammar : Grammar} (loaded : grammar.Loaded) :
    grammar.WellFormed := by
  cases loaded with
  | source made => exact collect_wellFormed made
  | rules made => exact collect_wellFormed made

end Grammar

end ShiftReduce
