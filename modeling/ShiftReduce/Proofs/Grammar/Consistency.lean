import ShiftReduce.Proofs.Grammar.Format

/-!
# Consistent tables

The tables of a loaded grammar agree with its productions, whichever way it was loaded: the
numbers of the productions are shared out among the nonterminals, and the terminals and
nonterminals are listed in order of first occurrence.  What looks a nonterminal up never fails.
Main statement: `Grammar.consistent_of_loading`.
-/

namespace ShiftReduce

namespace Grammar

/-- The agreement of a grammar's tables, for a dialect and the left-hand sides of the rules in
their order. -/
structure Consistent (dialect : Dialect) (lefts : List Symbol) (grammar : Grammar) : Prop where
  dialect_eq : grammar.dialect = dialect
  augmented : grammar.production? augmentedProduction =
    some ⟨dialect.augmentedStart, [grammar.start]⟩
  augmented_only : ∀ {id production}, grammar.production? id = some production →
    production.left = dialect.augmentedStart ∨ dialect.augmentedStart ∈ production.right →
      id = augmentedProduction
  ascending : ∀ entry ∈ grammar.alternatives, entry.2.Pairwise (· < ·)
  mem_ids : ∀ {left ids}, (left, ids) ∈ grammar.alternatives → ∀ id,
    id ∈ ids ↔ ∃ right, grammar.production? id = some ⟨left, right⟩
  /-- One after the other, the numbers of the nonterminals are those of all productions. -/
  partition : grammar.alternatives.flatMap (·.2) = List.range grammar.productions.size
  distinct : grammar.productions.toList.Nodup
  mentions : ∀ {id production}, grammar.production? id = some production →
    ∀ symbol ∈ production.right, symbol ≠ Symbol.empty ∧
      (symbol.isPrintable = true ∧ symbol.isTerminal = true ∧ symbol ≠ Symbol.endMarker ∨
        symbol.isNonterminal = true ∧ ∃ ids, (symbol, ids) ∈ grammar.alternatives)
  terminals : grammar.terminals =
    ((grammar.productions.toList.flatMap (·.right)).filter (·.isTerminal)).eraseDups ++
      [Symbol.endMarker]
  terminals_nodup : grammar.terminals.Nodup
  nonterminals : grammar.nonterminals = dialect.augmentedStart :: lefts.eraseDups
  nonterminals_nodup : grammar.nonterminals.Nodup
  productionsOf : ∀ {id production}, grammar.production? id = some production →
    ∀ symbol ∈ production.right, symbol.isNonterminal = true →
      ∃ ids, grammar.productionsOf symbol = .ok ids ∧ (symbol, ids) ∈ grammar.alternatives

end Grammar

/-! ## Numbers of productions -/

namespace RuleTable

/-- One after the other, the numbers of the entries are consecutive. -/
theorem flatMap_number (next : Nat) (entries : List (Symbol × List (List Symbol))) :
    (number next entries).flatMap (·.2) =
      List.range' next (entries.flatMap fun (left, alternatives) =>
        alternatives.map (Production.mk left)).length := by
  induction entries generalizing next with
  | nil => rfl
  | cons entry entries ih =>
      rw [number, List.flatMap_cons, ih, List.flatMap_cons, List.length_append, List.length_map,
        List.range'_append_1]

theorem pairwise_number {next : Nat} {entries : List (Symbol × List (List Symbol))}
    {entry : Symbol × List Nat} (member : entry ∈ number next entries) :
    entry.2.Pairwise (· < ·) := by
  induction entries generalizing next with
  | nil => cases member
  | cons first entries ih =>
      rcases List.mem_cons.mp member with rfl | member
      · exact List.pairwise_lt_range'
      · exact ih member

end RuleTable

/-! ## Looking up what a well-formed grammar mentions -/

namespace Grammar

variable {grammar : Grammar} {id : Nat} {production : Production} {symbol : Symbol}

theorem WellFormed.mentions_cases (wellFormed : grammar.WellFormed)
    (found : grammar.production? id = some production) (member : symbol ∈ production.right) :
    symbol ≠ Symbol.empty ∧
      (symbol.isPrintable = true ∧ symbol.isTerminal = true ∧ symbol ≠ Symbol.endMarker ∨
        symbol.isNonterminal = true ∧ ∃ ids, (symbol, ids) ∈ grammar.alternatives) := by
  have unmarked := wellFormed.ne_endMarker found member
  cases wellFormed.mentions found symbol member with
  | terminal input =>
      have terminal := Symbol.isTerminal_of_isInput input
      refine ⟨?_, .inl ⟨Symbol.isPrintable_of_isInput input, terminal, unmarked⟩⟩
      rintro rfl
      exact absurd terminal (by decide)
  | nonterminal nonterminal _ defined =>
      refine ⟨?_, .inr ⟨nonterminal, ?_⟩⟩
      · rintro rfl
        exact absurd nonterminal (by decide)
      · obtain ⟨ids, _, listed⟩ := exists_productionsOf defined
        exact ⟨ids, listed⟩

/-- Only the augmented production mentions the augmented start. -/
theorem WellFormed.eq_augmentedProduction (wellFormed : grammar.WellFormed)
    (found : grammar.production? id = some production)
    (mentioned : production.left = grammar.augmentedStart ∨
      grammar.augmentedStart ∈ production.right) : id = augmentedProduction := by
  rcases mentioned with left | right
  · by_contra other
    exact wellFormed.left_ne found other left
  · cases wellFormed.mentions found _ right with
    | terminal input =>
        have terminal := Symbol.isTerminal_of_isInput input
        have nonterminal := wellFormed.augmentedStart_nonterminal
        rw [Symbol.not_isNonterminal_of_isTerminal terminal] at nonterminal
        cases nonterminal
    | nonterminal _ different => exact absurd rfl different

/-! ## The grammar of what is spelled -/

section Spelled

variable {dialect : Dialect} {start : Symbol} {spelled : List (Symbol × List (List Symbol))}

/-- The productions that the rules spell are numbered behind the augmented one. -/
theorem exists_production?_ofSpelled (dialect : Dialect) (start : Symbol)
    (member : production ∈ spelledProductions spelled) :
    ∃ position, (ofSpelled dialect start spelled).production? (position + 1) =
      some production := by
  obtain ⟨position, found⟩ := List.getElem?_of_mem member
  refine ⟨position, ?_⟩
  rw [production?, ofSpelled, List.getElem?_toArray, List.getElem?_cons_succ, found]

theorem nonterminals_ofSpelled :
    (ofSpelled dialect start spelled).nonterminals =
      dialect.augmentedStart :: (spelled.map (·.1)).eraseDups := by
  rw [nonterminals, ofSpelled, List.map_cons, RuleTable.map_fst_number, map_fst_collected]

theorem ascending_ofSpelled {entry : Symbol × List Nat}
    (member : entry ∈ (ofSpelled dialect start spelled).alternatives) :
    entry.2.Pairwise (· < ·) := by
  rcases List.mem_cons.mp member with rfl | member
  · exact List.pairwise_singleton _ _
  · exact RuleTable.pairwise_number member

theorem partition_ofSpelled :
    (ofSpelled dialect start spelled).alternatives.flatMap (·.2) =
      List.range (ofSpelled dialect start spelled).productions.size := by
  rw [ofSpelled, List.flatMap_cons, RuleTable.flatMap_number, List.size_toArray,
    List.length_cons, List.range_eq_range', List.range'_succ]
  rfl

theorem nodup_spelledProductions (spelled : List (Symbol × List (List Symbol))) :
    (spelledProductions spelled).Nodup := by
  apply RuleTable.nodup_productions
  · rw [map_fst_collected]
    exact nodup_eraseDups _
  · intro entry member
    obtain ⟨left, _, rfl⟩ := List.mem_map.mp member
    exact nodup_eraseDups _

/-- The augmented production is none of those that the rules spell. -/
theorem nodup_productions_ofSpelled
    (wellFormed : (ofSpelled dialect start spelled).WellFormed) :
    (ofSpelled dialect start spelled).productions.toList.Nodup := by
  refine List.nodup_cons.mpr ⟨fun member => ?_, nodup_spelledProductions spelled⟩
  obtain ⟨position, found⟩ := exists_production?_ofSpelled dialect start member
  cases wellFormed.eq_augmentedProduction found (.inl rfl)

/-- The terminals are those of the productions, which do not mention the end marker. -/
theorem terminals_ofSpelled (wellFormed : (ofSpelled dialect start spelled).WellFormed) :
    (ofSpelled dialect start spelled).terminals =
      (((ofSpelled dialect start spelled).productions.toList.flatMap (·.right)).filter
        (·.isTerminal)).eraseDups ++ [Symbol.endMarker] := by
  -- The augmented production mentions only the start symbol, which is no terminal.
  have startDropped : ((ofSpelled dialect start spelled).productions.toList.flatMap
      (·.right)).filter (·.isTerminal) =
        ((spelledProductions spelled).flatMap (·.right)).filter (·.isTerminal) := by
    have notTerminal : ¬start.isTerminal = true := fun terminal =>
      nomatch (Symbol.not_isNonterminal_of_isTerminal terminal).symm.trans
        wellFormed.start_nonterminal
    exact List.filter_cons_of_neg notTerminal
  have unmarked : Symbol.endMarker ∉ OrderedSet.ofList
      (((spelledProductions spelled).flatMap (·.right)).filter (·.isTerminal)) := by
    rw [OrderedSet.mem_ofList]
    intro member
    obtain ⟨production, listed, mentioned⟩ := List.mem_flatMap.mp (List.mem_filter.mp member).1
    obtain ⟨position, found⟩ := exists_production?_ofSpelled dialect start listed
    exact wellFormed.ne_endMarker found mentioned rfl
  rw [startDropped, ← OrderedSet.toList_ofList]
  exact OrderedSet.toList_insert_of_not_mem unmarked

theorem nodup_terminals_ofSpelled :
    (ofSpelled dialect start spelled).terminals.Nodup :=
  OrderedSet.nodup _

/-- A well-formed grammar of what is spelled is consistent. -/
theorem consistent_ofSpelled (wellFormed : (ofSpelled dialect start spelled).WellFormed) :
    (ofSpelled dialect start spelled).Consistent dialect (spelled.map (·.1)) where
  dialect_eq := rfl
  augmented := wellFormed.augmented
  augmented_only := wellFormed.eq_augmentedProduction
  ascending _ := ascending_ofSpelled
  mem_ids := wellFormed.mem_ids
  partition := partition_ofSpelled
  distinct := nodup_productions_ofSpelled wellFormed
  mentions found _ := wellFormed.mentions_cases found
  terminals := terminals_ofSpelled wellFormed
  terminals_nodup := nodup_terminals_ofSpelled
  nonterminals := nonterminals_ofSpelled
  nonterminals_nodup := wellFormed.nodup
  productionsOf found _ member nonterminal :=
    exists_productionsOf (wellFormed.nonterminal_mem found member nonterminal)

end Spelled

end Grammar

/-! ## Loaded grammars -/

namespace Grammar

/-- A loaded grammar lists every terminal once. -/
theorem Loaded.nodup_terminals {grammar : Grammar} (loaded : grammar.Loaded) :
    grammar.terminals.Nodup := by
  cases loaded with
  | source parsed =>
      obtain ⟨_, first, rules, _, rfl⟩ := parse_eq_ok_iff.mp parsed
      exact nodup_terminals_ofSpelled
  | rules made =>
      rw [ofRules, loadRules_eq] at made
      obtain ⟨spelled, _, _, first, rest, _, rfl⟩ := exists_spelled_of_collect made
      exact nodup_terminals_ofSpelled

/-- Every grammar that is loaded is consistent with its rules, which are the lines of a source or
are given as data. -/
theorem consistent_of_loading (dialect : Dialect) :
    (∀ source grammar, parse dialect source = .ok grammar →
      ∃ rules, Format dialect source rules ∧ grammar.Consistent dialect (rules.map (·.1))) ∧
    ∀ rules grammar, ofRules dialect rules = .ok grammar →
      grammar.Consistent dialect (rules.map (·.1)) := by
  constructor
  · intro source grammar loaded
    have wellFormed := (Loaded.source loaded).wellFormed
    obtain ⟨_, first, rules, format, rfl⟩ := parse_eq_ok_iff.mp loaded
    have lefts : ((first :: rules).map spelledRule).map (·.1) = (first :: rules).map (·.1) :=
      List.map_map
    exact ⟨first :: rules, format, lefts ▸ consistent_ofSpelled wellFormed⟩
  · intro rules grammar made
    have wellFormed := (Loaded.rules made).wellFormed
    rw [ofRules, loadRules_eq] at made
    obtain ⟨spelled, spells, _, first, rest, _, rfl⟩ := exists_spelled_of_collect made
    exact Rule.map_fst_of_numbered spells ▸ consistent_ofSpelled wellFormed

/-- A source with an alternative twice is consistent, and so are rules with an empty alternative,
of which one has no alternatives and one repeats a nonterminal. -/
theorem consistent_of_loading_repeated :
    (∃ rules grammar, parse .standard "S -> aT' | aT'\nT' -> + | e\nS -> n".toList = .ok grammar ∧
      Format .standard "S -> aT' | aT'\nT' -> + | e\nS -> n".toList rules ∧
        grammar.Consistent .standard (rules.map (·.1))) ∧
    ∃ grammar, ofRules .standard [(.ofChar 'S', [[.ofChar 'a', .ofChar 'A'], []]),
        (.ofChar 'A', []), (.ofChar 'S', [[.empty], [.ofChar 'b']])] = .ok grammar ∧
      grammar.alternatives =
        [(.ofChar 'Y', [0]), (.ofChar 'S', [1, 2, 3]), (.ofChar 'A', [])] ∧
      grammar.Consistent .standard [.ofChar 'S', .ofChar 'A', .ofChar 'S'] := by
  obtain ⟨ofSource, ofData⟩ := consistent_of_loading .standard
  have source : (parse .standard "S -> aT' | aT'\nT' -> + | e\nS -> n".toList).map
      (·.nonterminals) = .ok [.ofChar 'Y', .ofChar 'S', .ofChar 'U'] := by
    decide +kernel
  have data : (ofRules .standard [(.ofChar 'S', [[.ofChar 'a', .ofChar 'A'], []]),
      (.ofChar 'A', []), (.ofChar 'S', [[.empty], [.ofChar 'b']])]).map (·.alternatives) =
        .ok [(.ofChar 'Y', [0]), (.ofChar 'S', [1, 2, 3]), (.ofChar 'A', [])] := by
    decide +kernel
  constructor
  · obtain ⟨grammar, loaded, _⟩ := exists_of_map_eq_ok source
    obtain ⟨rules, format, consistent⟩ := ofSource _ grammar loaded
    exact ⟨rules, grammar, loaded, format, consistent⟩
  · obtain ⟨grammar, made, alternatives⟩ := exists_of_map_eq_ok data
    exact ⟨grammar, made, alternatives, ofData _ grammar made⟩

end Grammar

end ShiftReduce
