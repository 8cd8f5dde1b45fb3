import ShiftReduce.Proofs.Grammar.Reordering
import ShiftReduce.Proofs.OrderedSet
import ShiftReduce.Proofs.Text.Reading

/-!
# Collected rules

Rules are read one by one, and what they spell is collected: every nonterminal once, in order of
first definition, with its distinct alternatives in order of first occurrence.  Loading is
therefore a function of what the rules spell, from whichever source they come.
Main statement: `Grammar.result_collect`.
-/

namespace ShiftReduce

/-- The nonterminal of a rule and the sequences that its alternatives spell, if the rule has been
read and is well formed. -/
def Dialect.spell (dialect : Dialect) :
    Except Error Rule → Except Error (Symbol × List (List Symbol))
  | .error error => .error error
  | .ok rule =>
    match dialect.readRule rule with
    | .error error => .error error
    | .ok alternatives => .ok (rule.left, alternatives)

/-- The nonterminals that are spelled, in order of first definition, with their distinct
alternatives in order of first occurrence. -/
def collected (spelled : List (Symbol × List (List Symbol))) :
    List (Symbol × List (List Symbol)) :=
  (spelled.map (·.1)).eraseDups.map fun left => (left, (alternativesFor left spelled).eraseDups)

/-- The productions of what is spelled, in their order. -/
def spelledProductions (spelled : List (Symbol × List (List Symbol))) : List Production :=
  (collected spelled).flatMap fun (left, alternatives) => alternatives.map (Production.mk left)

/-- The first nonterminal on a right-hand side that is not defined. -/
def firstUndefined? (spelled : List (Symbol × List (List Symbol))) : Option Symbol :=
  ((spelledProductions spelled).flatMap (·.right)).find? fun symbol =>
    symbol.isNonterminal && !(spelled.any (·.1 == symbol))

/-- The grammar of what is spelled, with a start symbol. -/
def Grammar.ofSpelled (dialect : Dialect) (start : Symbol)
    (spelled : List (Symbol × List (List Symbol))) : Grammar where
  dialect
  start
  productions := (⟨dialect.augmentedStart, [start]⟩ :: spelledProductions spelled).toArray
  alternatives :=
    (dialect.augmentedStart, [augmentedProduction]) :: RuleTable.number 1 (collected spelled)
  terminals :=
    ((OrderedSet.ofList (((spelledProductions spelled).flatMap (·.right)).filter
      (·.isTerminal))).insert Symbol.endMarker).toList

/-! ## Tables that collect what is spelled -/

namespace RuleTable

/-- A table whose entries are what has been collected. -/
structure Collects (table : RuleTable) (spelled : List (Symbol × List (List Symbol))) : Prop where
  lefts : table.entries.map (·.1) = (spelled.map (·.1)).eraseDups
  alternatives : ∀ left, table.alternativesOf left = (alternativesFor left spelled).eraseDups

variable {table : RuleTable} {spelled : List (Symbol × List (List Symbol))}

theorem Collects.entries_eq (collects : table.Collects spelled) :
    table.entries = collected spelled := by
  have nodup : (table.entries.map (·.1)).Nodup := collects.lefts ▸ nodup_eraseDups _
  rw [collected, ← collects.lefts, List.map_map, List.map_congr_left (g := id), List.map_id]
  intro entry member
  rw [Function.comp_apply, ← collects.alternatives, alternativesOf_of_mem nodup member]
  rfl

/-! ### Adding alternatives and rules -/

variable {left : Symbol} {known : List (List Symbol)}

/-- An alternative of a nonterminal is collected, and nothing else changes. -/
theorem alternativesOf_addAlternative (line : Nat)
    (present : table.alternativesOf left = known.eraseDups) (alternative : List Symbol)
    (other : Symbol) :
    (addAlternative line left table alternative).alternativesOf other =
      if other = left then (known ++ [alternative]).eraseDups else table.alternativesOf other := by
  have listed : (table.alternativesOf left).contains alternative = true ↔ alternative ∈ known := by
    rw [present, List.contains_iff_mem, List.mem_eraseDups]
  simp only [addAlternative, listed]
  rw [eraseDups_concat]
  by_cases member : alternative ∈ known
  · rw [if_pos member, if_pos member, ← present]
    split
    next equal => rw [equal]; rfl
    next => rfl
  · rw [if_neg member, if_neg member, alternativesOf_setAlternatives, present]

theorem alternativesOf_foldl_addAlternative (line : Nat)
    (present : table.alternativesOf left = known.eraseDups) (alternatives : List (List Symbol))
    (other : Symbol) :
    (alternatives.foldl (addAlternative line left) table).alternativesOf other =
      if other = left then (known ++ alternatives).eraseDups
      else table.alternativesOf other := by
  induction alternatives generalizing table known with
  | nil =>
      rw [List.foldl_nil, List.append_nil, ← present]
      split
      next equal => rw [equal]
      next => rfl
  | cons alternative alternatives ih =>
      have added := alternativesOf_addAlternative line present alternative
      have extended : (addAlternative line left table alternative).alternativesOf left =
          (known ++ [alternative]).eraseDups := by
        rw [added, if_pos rfl]
      rw [List.foldl_cons, ih extended, added, List.append_assoc, List.singleton_append]
      split <;> rfl

theorem map_fst_foldl_addAlternative (line : Nat) (defined : left ∈ table.entries.map (·.1))
    (alternatives : List (List Symbol)) :
    (alternatives.foldl (addAlternative line left) table).entries.map (·.1) =
      table.entries.map (·.1) := by
  induction alternatives generalizing table with
  | nil => rfl
  | cons alternative alternatives ih =>
      have added : (addAlternative line left table alternative).entries.map (·.1) =
          table.entries.map (·.1) := by
        simp only [addAlternative]
        split
        · rfl
        · rw [map_fst_setAlternatives, if_pos defined]
      rw [List.foldl_cons, ih (added ▸ defined), added]

theorem dialect_foldl_addAlternative (line : Nat) (left : Symbol)
    (alternatives : List (List Symbol)) :
    (alternatives.foldl (addAlternative line left) table).dialect = table.dialect := by
  induction alternatives generalizing table with
  | nil => rfl
  | cons alternative alternatives ih => rw [List.foldl_cons, ih, dialect_addAlternative]

/-- A well-formed rule is collected behind the rules before it. -/
theorem Collects.add (collects : table.Collects spelled) {rule : Rule}
    {alternatives : List (List Symbol)}
    (read : table.dialect.readRule rule = .ok alternatives) :
    ∃ added, table.add rule = .ok added ∧ added.dialect = table.dialect ∧
      added.Collects (spelled ++ [(rule.left, alternatives)]) := by
  have addition : table.add rule = .ok (alternatives.foldl (addAlternative rule.line rule.left)
      (table.setAlternatives rule.left (table.alternativesOf rule.left))) := by
    rw [RuleTable.add, read]
  refine ⟨_, addition, dialect_foldl_addAlternative _ _ _, ?_, ?_⟩
  · rw [map_fst_foldl_addAlternative, map_fst_setAlternatives, collects.lefts, List.map_append,
      List.map_singleton, eraseDups_concat]
    · simp only [List.mem_eraseDups]
    · rw [map_fst_setAlternatives]
      split
      next defined => exact defined
      next => simp
  · intro other
    have present : (table.setAlternatives rule.left (table.alternativesOf rule.left)).alternativesOf
        rule.left = (alternativesFor rule.left spelled).eraseDups := by
      rw [alternativesOf_setAlternatives, if_pos rfl, collects.alternatives]
    rw [alternativesOf_foldl_addAlternative rule.line present, alternativesOf_setAlternatives]
    by_cases named : other = rule.left
    · subst named
      simp [alternativesFor]
    · simp [alternativesFor, named, Ne.symm named, collects.alternatives]

/-- Rules that all spell something are collected. -/
theorem Collects.addAll (collects : table.Collects spelled) {rules : List (Except Error Rule)}
    {further : List (Symbol × List (List Symbol))}
    (spells : rules.mapM table.dialect.spell = .ok further) :
    ∃ final, table.addAll rules = (final, none) ∧ final.dialect = table.dialect ∧
      final.Collects (spelled ++ further) := by
  induction rules generalizing table spelled further with
  | nil =>
      cases spells
      exact ⟨table, rfl, rfl, (List.append_nil spelled).symm ▸ collects⟩
  | cons rule rules ih =>
      obtain ⟨first, others, firstSpells, othersSpell, rfl⟩ :=
        List.forall₂_cons_left_iff.mp (mapM_eq_ok_iff.mp spells)
      cases rule with
      | error error => cases firstSpells
      | ok rule =>
          simp only [Dialect.spell] at firstSpells
          split at firstSpells
          · cases firstSpells
          next alternatives read =>
            cases firstSpells
            obtain ⟨added, addition, sameDialect, addedCollects⟩ := collects.add read
            rw [← sameDialect] at othersSpell
            obtain ⟨final, result, finalDialect, finalCollects⟩ :=
              ih addedCollects (mapM_eq_ok_iff.mpr othersSpell)
            refine ⟨final, ?_, finalDialect.trans sameDialect, ?_⟩
            · rw [RuleTable.addAll, addition]
              exact result
            · rwa [List.append_assoc] at finalCollects

/-- The first rule that spells nothing is refused. -/
theorem Collects.addAll_error (collects : table.Collects spelled)
    {rules : List (Except Error Rule)} {error : Error}
    (refused : rules.mapM table.dialect.spell = .error error) :
    (table.addAll rules).2 = some error := by
  induction rules generalizing table spelled with
  | nil => cases refused
  | cons rule rules ih =>
      rw [List.mapM_cons] at refused
      cases rule with
      | error ruleError =>
          cases refused
          rfl
      | ok rule =>
          cases read : table.dialect.readRule rule with
          | error ruleError =>
              simp only [Dialect.spell, read, bind, Except.bind, Except.error.injEq] at refused
              rw [RuleTable.addAll, RuleTable.add, read, refused]
          | ok alternatives =>
              obtain ⟨added, addition, sameDialect, addedCollects⟩ := collects.add read
              rw [RuleTable.addAll, addition]
              apply ih addedCollects
              rw [sameDialect]
              cases rest : rules.mapM table.dialect.spell with
              | ok others =>
                  simp [Dialect.spell, read, rest, bind, Except.bind, pure, Except.pure] at refused
              | error restError =>
                  simpa [Dialect.spell, read, rest, bind, Except.bind] using refused

/-- The grammar of a table does not depend on the duplicates that it has noted. -/
theorem toGrammar_congr {other : RuleTable} (sameDialect : table.dialect = other.dialect)
    (sameEntries : table.entries = other.entries) : table.toGrammar = other.toGrammar := by
  cases table
  cases other
  cases sameDialect
  cases sameEntries
  rfl

/-- The table of what has been collected. -/
def ofSpelled (dialect : Dialect) (spelled : List (Symbol × List (List Symbol))) : RuleTable where
  dialect
  entries := collected spelled
  duplicates := []

end RuleTable

/-! ## The grammar of what is spelled -/

section Spelled

variable {spelled : List (Symbol × List (List Symbol))}

theorem spelledProductions_eq (spelled : List (Symbol × List (List Symbol))) :
    spelledProductions spelled = (spelled.map (·.1)).eraseDups.flatMap fun left =>
      (alternativesFor left spelled).eraseDups.map (Production.mk left) := by
  rw [spelledProductions, collected, List.flatMap_map]

theorem map_fst_collected : (collected spelled).map (·.1) = (spelled.map (·.1)).eraseDups := by
  rw [collected, List.map_map]
  exact List.map_id _

theorem mem_spelledProductions {production : Production} :
    production ∈ spelledProductions spelled ↔
      ∃ alternatives, (production.left, alternatives) ∈ spelled ∧
        production.right ∈ alternatives := by
  rw [← mem_alternativesFor]
  simp only [spelledProductions_eq, List.mem_flatMap, List.mem_map, List.mem_eraseDups]
  constructor
  · rintro ⟨left, _, right, listed, rfl⟩
    exact listed
  · intro listed
    obtain ⟨alternatives, member, _⟩ := mem_alternativesFor.mp listed
    exact ⟨production.left, ⟨_, member, rfl⟩, production.right, listed, rfl⟩

theorem firstUndefined?_eq_none_iff :
    firstUndefined? spelled = none ↔ ∀ rule ∈ spelled, ∀ alternative ∈ rule.2,
      ∀ symbol ∈ alternative, symbol.isNonterminal = true → symbol ∈ spelled.map (·.1) := by
  have defined : ∀ symbol, (spelled.any (·.1 == symbol) = true) ↔ symbol ∈ spelled.map (·.1) := by
    intro symbol
    simp only [List.any_eq_true, beq_iff_eq, List.mem_map]
  simp only [firstUndefined?, List.find?_eq_none, List.mem_flatMap, Bool.and_eq_true,
    Bool.not_eq_true', not_and, Bool.not_eq_false, defined, forall_exists_index, and_imp]
  constructor
  · intro complete rule member alternative listed symbol
    exact complete symbol ⟨rule.1, alternative⟩
      (mem_spelledProductions.mpr ⟨rule.2, member, listed⟩)
  · intro complete symbol production member mentioned
    obtain ⟨alternatives, ruleMember, listed⟩ := mem_spelledProductions.mp member
    exact complete _ ruleMember _ listed symbol mentioned

theorem RuleTable.rightSymbols_eq (table : RuleTable) :
    table.rightSymbols = table.productions.flatMap (·.right) := by
  simp only [rightSymbols, productions, List.flatten_eq_flatMap, List.flatMap_assoc,
    List.flatMap_map]
  rfl

theorem RuleTable.isDefined_ofSpelled (dialect : Dialect) (symbol : Symbol) :
    (ofSpelled dialect spelled).isDefined symbol = spelled.any (·.1 == symbol) := by
  have listed : symbol ∈ (collected spelled).map (·.1) ↔ symbol ∈ spelled.map (·.1) := by
    rw [map_fst_collected, List.mem_eraseDups]
  simp only [List.mem_map] at listed
  rw [Bool.eq_iff_iff, isDefined, List.any_eq_true, List.any_eq_true]
  simp only [beq_iff_eq]
  exact listed

/-- The grammar of a table of what is spelled, if something is and nothing is undefined. -/
theorem RuleTable.toGrammar_ofSpelled (dialect : Dialect)
    (spelled : List (Symbol × List (List Symbol))) :
    (ofSpelled dialect spelled).toGrammar =
      match spelled with
      | [] => .error (.format 0 .noProductions)
      | (start, _) :: _ =>
        match firstUndefined? spelled with
        | some symbol => .error (.unknown symbol)
        | none => .ok (.ofSpelled dialect start spelled) := by
  cases spelled with
  | nil => rfl
  | cons rule rules =>
      obtain ⟨start, alternatives⟩ := rule
      have first : (ofSpelled dialect ((start, alternatives) :: rules)).entries.head?.map (·.1) =
          some start := by
        rw [ofSpelled, collected, List.map_cons, List.eraseDups_cons]
        rfl
      have undefined : (ofSpelled dialect ((start, alternatives) :: rules)).rightSymbols.find?
          (fun symbol => symbol.isNonterminal &&
            !(ofSpelled dialect ((start, alternatives) :: rules)).isDefined symbol) =
          firstUndefined? ((start, alternatives) :: rules) := by
        simp only [isDefined_ofSpelled, rightSymbols_eq]
        rfl
      have mentioned := rightSymbols_eq (ofSpelled dialect ((start, alternatives) :: rules))
      rw [toGrammar]
      split
      next entries =>
        rw [entries] at first
        cases first
      next listed _ _ entries =>
        rw [entries] at first
        cases first
        rw [undefined, mentioned]
        cases firstUndefined? ((listed, alternatives) :: rules) <;> rfl

theorem RuleTable.toGrammar_ofSpelled_eq_ok_iff {dialect : Dialect} {grammar : Grammar} :
    (ofSpelled dialect spelled).toGrammar = .ok grammar ↔
      firstUndefined? spelled = none ∧ ∃ first rest, spelled = first :: rest ∧
        grammar = .ofSpelled dialect first.1 spelled := by
  rw [toGrammar_ofSpelled]
  cases spelled with
  | nil => simp
  | cons first rest => cases firstUndefined? (first :: rest) <;> simp [eq_comm]

end Spelled

/-- Loading reads the rules one by one and makes a grammar of what they spell. -/
theorem Grammar.result_collect (dialect : Dialect) (rules : List (Except Error Rule)) :
    (collect dialect rules).result =
      RuleTable.ofDialect dialect >>= fun _ =>
        rules.mapM dialect.spell >>= fun spelled =>
          (RuleTable.ofSpelled dialect spelled).toGrammar := by
  cases ready : RuleTable.ofDialect dialect with
  | error error =>
      rw [collect, ready]
      rfl
  | ok empty =>
      have collects : empty.Collects [] := by
        refine ⟨?_, fun left => ?_⟩
        · rw [RuleTable.entries_of_ofDialect ready]
          rfl
        · rw [RuleTable.alternativesOf, RuleTable.entries_of_ofDialect ready]
          rfl
      obtain ⟨_, _, _, emptyDialect⟩ := RuleTable.ofDialect_wellFormed ready
      subst emptyDialect
      rw [collect, ready]
      cases spells : rules.mapM empty.dialect.spell with
      | error error =>
          have refused := collects.addAll_error spells
          cases added : empty.addAll rules with
          | mk table failure =>
              rw [added] at refused
              cases refused
              simp only [added]
              rfl
      | ok spelled =>
          obtain ⟨final, added, sameDialect, finalCollects⟩ := collects.addAll spells
          simp only [added]
          exact RuleTable.toGrammar_congr sameDialect finalCollects.entries_eq

/-- A grammar that is loaded is that of what its rules spell. -/
theorem Grammar.exists_spelled_of_collect {dialect : Dialect} {rules : List (Except Error Rule)}
    {grammar : Grammar} (made : (collect dialect rules).result = .ok grammar) :
    ∃ spelled, rules.mapM dialect.spell = .ok spelled ∧ firstUndefined? spelled = none ∧
      ∃ first rest, spelled = first :: rest ∧ grammar = ofSpelled dialect first.1 spelled := by
  rw [result_collect] at made
  cases ready : RuleTable.ofDialect dialect with
  | error error => simp [ready, bind, Except.bind] at made
  | ok empty =>
      cases spells : rules.mapM dialect.spell with
      | error error => simp [ready, spells, bind, Except.bind] at made
      | ok spelled =>
          rw [ready, spells] at made
          exact ⟨spelled, rfl, RuleTable.toGrammar_ofSpelled_eq_ok_iff.mp made⟩

/-! ## Rules that are given as data -/

/-- An alternative that is given as data, as it is written: no symbols are the empty symbol. -/
def shownAlternative (alternative : List Symbol) : List Symbol :=
  if alternative.isEmpty then [Symbol.empty] else alternative

/-- The rule of a line that renders a rule given as data. -/
def Rule.ofData (line : Nat) (given : Symbol × List (List Symbol)) : Rule where
  line
  left := given.1
  alternatives := given.2.map shownAlternative

/-- The rules of data, with the numbers of the lines that they stand in. -/
def Rule.numbered (number : Nat → Nat) (rules : List (Symbol × List (List Symbol))) :
    List (Except Error Rule) :=
  rules.mapIdx fun index given => .ok (.ofData (number index) given)

/-- A rule spells alternatives for its own nonterminal. -/
theorem Dialect.left_of_spell {dialect : Dialect} {rule : Rule}
    {spelled : Symbol × List (List Symbol)} (spells : dialect.spell (.ok rule) = .ok spelled) :
    spelled.1 = rule.left := by
  simp only [spell] at spells
  split at spells
  · cases spells
  · cases spells
    rfl

/-- Rules of data spell alternatives for the nonterminals that they are given for. -/
theorem Rule.map_fst_of_numbered {dialect : Dialect} {number : Nat → Nat}
    {rules spelled : List (Symbol × List (List Symbol))}
    (spells : (numbered number rules).mapM dialect.spell = .ok spelled) :
    spelled.map (·.1) = rules.map (·.1) := by
  rw [mapM_eq_ok_iff] at spells
  induction rules generalizing number spelled with
  | nil =>
      cases spells
      rfl
  | cons rule rules ih =>
      rw [numbered, List.mapIdx_cons] at spells
      obtain ⟨first, others, firstSpells, othersSpell, rfl⟩ :=
        List.forall₂_cons_left_iff.mp spells
      rw [List.map_cons, List.map_cons, Dialect.left_of_spell firstSpells, ih othersSpell]
      rfl

theorem Grammar.loadRules_eq (dialect : Dialect) (rules : List (Symbol × List (List Symbol))) :
    loadRules dialect rules = collect dialect (Rule.numbered (fun _ => 0) rules) := by
  rw [loadRules]
  congr 1
  apply List.ext_getElem
  · simp [Rule.numbered]
  · intro index _ _
    simp only [List.getElem_map, Rule.numbered, List.getElem_mapIdx]
    rfl

end ShiftReduce
