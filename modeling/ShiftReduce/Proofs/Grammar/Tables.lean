import ShiftReduce.Grammar.Source

/-!
# Well-formed tables of rules

A table of rules keeps an invariant while rules are added to it: its entries are
for distinct nonterminals and hold distinct alternatives of symbols that a rule may
mention.  When the alternatives are numbered, every entry gets the numbers of its
own nonterminal's productions.  Main statements: `RuleTable.WellFormed.addAll` and
`RuleTable.mem_number_iff`.
-/

namespace ShiftReduce

namespace Symbol

theorem isTerminal_of_isInput {symbol : Symbol} (input : symbol.isInput = true) :
    symbol.isTerminal = true := by
  simp only [isInput, Bool.and_eq_true] at input
  exact input.1.2

theorem not_isNonterminal_of_isTerminal {symbol : Symbol} (terminal : symbol.isTerminal = true) :
    symbol.isNonterminal = false := by
  simp only [isTerminal, Bool.not_eq_true', Bool.or_eq_false_iff] at terminal
  exact terminal.1

theorem isTerminal_of_not_isNonterminal {symbol : Symbol}
    (notNonterminal : symbol.isNonterminal = false) (notEmpty : symbol ≠ empty) :
    symbol.isTerminal = true := by
  simp [isTerminal, isEmpty, notNonterminal, notEmpty]

end Symbol

/-! ## Tables of rules -/

namespace Dialect

/-- A symbol that an alternative may mention: a printable one that is neither
reserved nor the empty symbol. -/
structure Allows (dialect : Dialect) (symbol : Symbol) : Prop where
  printable : symbol.isPrintable = true
  unreserved : dialect.isReserved symbol = false
  nonempty : symbol ≠ Symbol.empty

/-- A symbol that a rule may define: a printable nonterminal that is not reserved. -/
structure Defines (dialect : Dialect) (left : Symbol) : Prop where
  printable : left.isPrintable = true
  nonterminal : left.isNonterminal = true
  unreserved : dialect.isReserved left = false

theorem ne_augmentedStart_of_unreserved {dialect : Dialect} {symbol : Symbol}
    (unreserved : dialect.isReserved symbol = false) : symbol ≠ dialect.augmentedStart := by
  simp only [isReserved, Bool.or_eq_false_iff, beq_eq_false_iff_ne] at unreserved
  exact unreserved.2

/-- A terminal that an alternative may mention can also stand in an input. -/
theorem Allows.isInput {dialect : Dialect} {symbol : Symbol} (allows : dialect.Allows symbol)
    (notNonterminal : symbol.isNonterminal = false) : symbol.isInput = true := by
  have unreserved := allows.unreserved
  simp only [isReserved, Bool.or_eq_false_iff] at unreserved
  simp only [Symbol.isInput, Bool.and_eq_true, Bool.not_eq_true']
  exact ⟨⟨allows.printable,
    Symbol.isTerminal_of_not_isNonterminal notNonterminal allows.nonempty⟩, unreserved.1⟩

theorem symbolFault?_eq_none {dialect : Dialect} {line : Nat} {symbol : Symbol}
    (faultless : dialect.symbolFault? line symbol = none) :
    symbol.isPrintable = true ∧ dialect.isReserved symbol = false := by
  simp only [symbolFault?] at faultless
  cases printable : symbol.isPrintable <;> cases reserved : dialect.isReserved symbol <;>
    simp [printable, reserved] at faultless ⊢

theorem leftFault?_eq_none {dialect : Dialect} {line : Nat} {left : Symbol}
    (faultless : dialect.leftFault? line left = none) : dialect.Defines left := by
  simp only [leftFault?] at faultless
  cases printable : left.isPrintable <;> cases nonterminal : left.isNonterminal <;>
    cases reserved : dialect.isReserved left <;>
    simp [printable, nonterminal, reserved] at faultless
  exact ⟨printable, nonterminal, reserved⟩

/-- What an alternative spells mentions only symbols that it may mention. -/
theorem allows_of_readAlternative {dialect : Dialect} {line : Nat}
    {alternative spelled : List Symbol}
    (read : dialect.readAlternative line alternative = .ok spelled) :
    ∀ symbol ∈ spelled, dialect.Allows symbol := by
  simp only [readAlternative] at read
  split at read
  · cases read
  split at read
  · split at read
    · cases read
      intro symbol member
      cases member
    · cases read
  next noEmpty =>
  split at read
  · cases read
  next faultless =>
  cases read
  intro symbol member
  have fault := List.findSome?_eq_none_iff.mp faultless symbol member
  obtain ⟨printable, unreserved⟩ := symbolFault?_eq_none fault
  refine ⟨printable, unreserved, ?_⟩
  intro equal
  subst equal
  exact noEmpty (List.contains_iff_mem.mpr member)

/-- The alternatives of a rule are read one by one. -/
theorem mem_of_mapM {dialect : Dialect} {line : Nat} {right : List Symbol}
    {alternatives spelled : List (List Symbol)}
    (read : alternatives.mapM (dialect.readAlternative line) = .ok spelled) :
    right ∈ spelled ↔ ∃ alternative ∈ alternatives,
      dialect.readAlternative line alternative = .ok right := by
  induction alternatives generalizing spelled with
  | nil =>
      cases read
      simp
  | cons first rest ih =>
      rw [List.mapM_cons] at read
      cases firstRead : dialect.readAlternative line first with
      | error error => simp [firstRead, bind, Except.bind] at read
      | ok firstSpelled =>
        cases restRead : rest.mapM (dialect.readAlternative line) with
        | error error => simp [firstRead, restRead, bind, Except.bind] at read
        | ok restSpelled =>
            simp only [firstRead, restRead, bind, Except.bind, pure, Except.pure] at read
            cases read
            simp [ih restRead, firstRead, eq_comm]

end Dialect

namespace RuleTable

/-- Every nonterminal has one entry, may be defined, and has distinct alternatives
that mention only what they may mention. -/
structure WellFormed (table : RuleTable) : Prop where
  nodup : (table.entries.map (·.1)).Nodup
  defines : ∀ entry ∈ table.entries, table.dialect.Defines entry.1
  distinct : ∀ entry ∈ table.entries, entry.2.Nodup
  allows : ∀ entry ∈ table.entries, ∀ alternative ∈ entry.2, ∀ symbol ∈ alternative,
    table.dialect.Allows symbol

theorem ofDialect_wellFormed {dialect : Dialect} {table : RuleTable}
    (made : ofDialect dialect = .ok table) :
    table.WellFormed ∧ dialect.augmentedStart.isNonterminal = true ∧
      dialect.numberTerminal.isInput = true ∧ table.dialect = dialect := by
  simp only [ofDialect] at made
  split at made
  · cases made
  next augmented =>
  split at made
  · cases made
  next number =>
  cases made
  simp only [Bool.not_eq_true', Bool.not_eq_false, Bool.and_eq_true] at augmented number
  refine ⟨⟨List.nodup_nil, ?_, ?_, ?_⟩, augmented.2, number, rfl⟩
  · intro entry member
    cases member
  · intro entry member
    cases member
  · intro entry member
    cases member

theorem entries_of_ofDialect {dialect : Dialect} {table : RuleTable}
    (made : ofDialect dialect = .ok table) : table.entries = [] := by
  simp only [ofDialect] at made
  split at made
  · cases made
  split at made
  · cases made
  cases made
  rfl

theorem alternativesOf_mem {table : RuleTable} {left : Symbol}
    (present : table.alternativesOf left ≠ []) :
    (left, table.alternativesOf left) ∈ table.entries := by
  simp only [alternativesOf] at present ⊢
  cases found : table.entries.find? (·.1 == left) with
  | none => simp [found] at present
  | some entry =>
      have named : entry.1 = left := by simpa using List.find?_some found
      have member := List.mem_of_find?_eq_some found
      subst named
      exact member

/-- Facts about the alternatives of all entries hold of those that are looked up. -/
theorem WellFormed.alternativesOf {table : RuleTable} (wellFormed : table.WellFormed)
    (left : Symbol) :
    (table.alternativesOf left).Nodup ∧
      ∀ alternative ∈ table.alternativesOf left, ∀ symbol ∈ alternative,
        table.dialect.Allows symbol := by
  by_cases present : table.alternativesOf left = []
  · rw [present]
    exact ⟨List.nodup_nil, fun _ member => absurd member List.not_mem_nil⟩
  · have member := alternativesOf_mem present
    exact ⟨wellFormed.distinct _ member, wellFormed.allows _ member⟩

theorem mem_setAlternatives {table : RuleTable} {left : Symbol}
    {alternatives : List (List Symbol)} {entry : Symbol × List (List Symbol)}
    (member : entry ∈ (table.setAlternatives left alternatives).entries) :
    entry = (left, alternatives) ∨ entry ∈ table.entries := by
  unfold setAlternatives at member
  dsimp only at member
  split at member
  · obtain ⟨previous, previousMember, equal⟩ := List.mem_map.mp member
    split at equal
    · exact .inl equal.symm
    · exact .inr (equal ▸ previousMember)
  · rcases List.mem_append.mp member with member | member
    · exact .inr member
    · exact .inl (List.mem_singleton.mp member)

theorem map_fst_setAlternatives (table : RuleTable) (left : Symbol)
    (alternatives : List (List Symbol)) :
    (table.setAlternatives left alternatives).entries.map (·.1) =
      if left ∈ table.entries.map (·.1) then table.entries.map (·.1)
      else table.entries.map (·.1) ++ [left] := by
  have defined : (table.entries.any (·.1 == left) = true) ↔
      left ∈ table.entries.map (·.1) := by
    simp only [List.any_eq_true, beq_iff_eq, List.mem_map]
  simp only [setAlternatives]
  by_cases present : left ∈ table.entries.map (·.1)
  · rw [if_pos present, if_pos (defined.mpr present), List.map_map]
    apply List.map_congr_left
    intro entry _
    by_cases named : entry.1 = left <;> simp [named]
  · rw [if_neg present, if_neg fun found => present (defined.mp found), List.map_append]
    rfl

theorem WellFormed.setAlternatives {table : RuleTable} (wellFormed : table.WellFormed)
    {left : Symbol} {alternatives : List (List Symbol)} (defines : table.dialect.Defines left)
    (distinct : alternatives.Nodup)
    (allows : ∀ alternative ∈ alternatives, ∀ symbol ∈ alternative,
      table.dialect.Allows symbol) :
    (table.setAlternatives left alternatives).WellFormed := by
  constructor
  · rw [map_fst_setAlternatives]
    split
    · exact wellFormed.nodup
    next absent =>
      refine List.nodup_append.mpr ⟨wellFormed.nodup, by simp, ?_⟩
      intro other otherMember added addedMember equal
      rw [List.mem_singleton.mp addedMember] at equal
      exact absent (equal ▸ otherMember)
  · intro entry member
    rcases mem_setAlternatives member with rfl | member
    · exact defines
    · exact wellFormed.defines entry member
  · intro entry member
    rcases mem_setAlternatives member with rfl | member
    · exact distinct
    · exact wellFormed.distinct entry member
  · intro entry member
    rcases mem_setAlternatives member with rfl | member
    · exact allows
    · exact wellFormed.allows entry member

theorem WellFormed.addAlternative {table : RuleTable} (wellFormed : table.WellFormed)
    (line : Nat) {left : Symbol} {alternative : List Symbol}
    (defines : table.dialect.Defines left)
    (allows : ∀ symbol ∈ alternative, table.dialect.Allows symbol) :
    (RuleTable.addAlternative line left table alternative).WellFormed := by
  obtain ⟨distinct, presentAllows⟩ := wellFormed.alternativesOf left
  unfold RuleTable.addAlternative
  dsimp only
  split
  · exact ⟨wellFormed.nodup, wellFormed.defines, wellFormed.distinct, wellFormed.allows⟩
  next new =>
    apply wellFormed.setAlternatives defines
    · refine List.nodup_append.mpr ⟨distinct, by simp, ?_⟩
      intro other otherMember added addedMember equal
      rw [List.mem_singleton.mp addedMember] at equal
      exact new (List.contains_iff_mem.mpr (equal ▸ otherMember))
    · intro other member
      rcases List.mem_append.mp member with member | member
      · exact presentAllows other member
      · exact List.mem_singleton.mp member ▸ allows

@[simp] theorem dialect_addAlternative (line : Nat) (left : Symbol) (table : RuleTable)
    (alternative : List Symbol) :
    (addAlternative line left table alternative).dialect = table.dialect := by
  unfold addAlternative
  dsimp only
  split <;> rfl

private theorem foldl_addAlternative_wellFormed (line : Nat) {left : Symbol}
    (alternatives : List (List Symbol)) {table : RuleTable} (wellFormed : table.WellFormed)
    (defines : table.dialect.Defines left)
    (allows : ∀ alternative ∈ alternatives, ∀ symbol ∈ alternative,
      table.dialect.Allows symbol) :
    (alternatives.foldl (addAlternative line left) table).WellFormed ∧
      (alternatives.foldl (addAlternative line left) table).dialect = table.dialect := by
  induction alternatives generalizing table with
  | nil => exact ⟨wellFormed, rfl⟩
  | cons alternative alternatives ih =>
      have added := wellFormed.addAlternative line defines
        (allows alternative List.mem_cons_self)
      have rest := ih added (by simpa using defines) (by
        intro other member
        simpa using allows other (List.mem_cons_of_mem _ member))
      exact ⟨rest.1, by simpa using rest.2⟩

theorem WellFormed.add {table added : RuleTable} (wellFormed : table.WellFormed) {rule : Rule}
    (result : table.add rule = .ok added) :
    added.WellFormed ∧ added.dialect = table.dialect := by
  simp only [RuleTable.add] at result
  split at result
  · cases result
  next alternatives read =>
  cases result
  simp only [Dialect.readRule] at read
  split at read
  · cases read
  next faultless =>
  have defines := Dialect.leftFault?_eq_none faultless
  obtain ⟨distinct, allows⟩ := wellFormed.alternativesOf rule.left
  exact foldl_addAlternative_wellFormed rule.line alternatives
    (wellFormed.setAlternatives defines distinct allows) defines fun alternative member => by
      obtain ⟨_, _, spells⟩ := (Dialect.mem_of_mapM read).mp member
      exact Dialect.allows_of_readAlternative spells

theorem WellFormed.addAll {table final : RuleTable} (wellFormed : table.WellFormed)
    (rules : List (Except Error Rule)) (result : table.addAll rules = (final, none)) :
    final.WellFormed ∧ final.dialect = table.dialect := by
  induction rules generalizing table with
  | nil =>
      cases result
      exact ⟨wellFormed, rfl⟩
  | cons rule rules ih =>
      cases rule with
      | error error => simp [RuleTable.addAll] at result
      | ok rule =>
          rw [RuleTable.addAll] at result
          split at result
          · simp at result
          next added addition =>
            have first := wellFormed.add addition
            have rest := ih first.1 result
            exact ⟨rest.1, rest.2.trans first.2⟩

/-! ## Numbering -/

@[simp] theorem map_fst_number (next : Nat) (entries : List (Symbol × List (List Symbol))) :
    (number next entries).map (·.1) = entries.map (·.1) := by
  induction entries generalizing next with
  | nil => rfl
  | cons entry entries ih =>
      simp only [number, List.map_cons, List.cons.injEq, true_and]
      exact ih (next + entry.2.length)

theorem mem_productions {table : RuleTable} {production : Production} :
    production ∈ table.productions ↔
      ∃ alternatives, (production.left, alternatives) ∈ table.entries ∧
        production.right ∈ alternatives := by
  simp only [productions, List.mem_flatMap, List.mem_map]
  constructor
  · intro given
    rcases given with ⟨⟨left, alternatives⟩, member, right, rightMember, rfl⟩
    exact ⟨alternatives, member, rightMember⟩
  · intro given
    rcases given with ⟨alternatives, member, rightMember⟩
    exact ⟨_, member, production.right, rightMember, rfl⟩

/-- The first productions of a list of entries are those of its first entry. -/
theorem productions_of_lt {first : Symbol} {alternatives : List (List Symbol)}
    {entries : List (Symbol × List (List Symbol))} {position : Nat}
    (bound : position < alternatives.length) :
    (((first, alternatives) :: entries).flatMap fun (left, alternatives) =>
        alternatives.map (Production.mk left))[position]? =
      some ⟨first, alternatives[position]⟩ := by
  rw [List.flatMap_cons, List.getElem?_append_left (by simpa using bound), List.getElem?_map,
    List.getElem?_eq_getElem bound]
  rfl

/-- Behind them come the productions of the other entries. -/
theorem productions_of_le {first : Symbol} {alternatives : List (List Symbol)}
    {entries : List (Symbol × List (List Symbol))} {position : Nat}
    (bound : alternatives.length ≤ position) :
    (((first, alternatives) :: entries).flatMap fun (left, alternatives) =>
        alternatives.map (Production.mk left))[position]? =
      (entries.flatMap fun (left, alternatives) =>
        alternatives.map (Production.mk left))[position - alternatives.length]? := by
  rw [List.flatMap_cons, List.getElem?_append_right (by simpa using bound), List.length_map]

/-- The numbers of an entry are those of the productions of its nonterminal. The
induction is on the entries; the first of them owns the first numbers, and no other
entry is for the same nonterminal. -/
theorem mem_number_iff {next : Nat} {entries : List (Symbol × List (List Symbol))}
    (nodup : (entries.map (·.1)).Nodup) {left : Symbol} {ids : List Nat}
    (entry : (left, ids) ∈ number next entries) (id : Nat) :
    id ∈ ids ↔ next ≤ id ∧ ∃ right,
      (entries.flatMap fun (left, alternatives) =>
        alternatives.map (Production.mk left))[id - next]? = some ⟨left, right⟩ := by
  induction entries generalizing next with
  | nil => cases entry
  | cons head entries ih =>
      obtain ⟨first, alternatives⟩ := head
      simp only [List.map_cons, List.nodup_cons] at nodup
      simp only [number, List.mem_cons, Prod.mk.injEq] at entry
      rcases entry with ⟨rfl, rfl⟩ | entry
      · simp only [List.mem_range'_1]
        constructor
        · intro given
          rcases given with ⟨lower, upper⟩
          have bound : id - next < alternatives.length := by omega
          exact ⟨lower, _, productions_of_lt bound⟩
        · intro given
          rcases given with ⟨lower, right, found⟩
          refine ⟨lower, Nat.lt_of_not_le fun beyond => ?_⟩
          rw [productions_of_le (by omega)] at found
          have member := List.mem_of_getElem? found
          simp only [List.mem_flatMap, List.mem_map] at member
          obtain ⟨other, otherMember, _, _, equal⟩ := member
          exact nodup.1 (List.mem_map.mpr ⟨other, otherMember, (Production.mk.inj equal).1⟩)
      · have different : first ≠ left := by
          intro equal
          subst equal
          have listed := List.mem_map_of_mem (f := (·.1)) entry
          rw [map_fst_number] at listed
          exact nodup.1 listed
        rw [ih nodup.2 entry]
        constructor
        · intro given
          rcases given with ⟨lower, right, found⟩
          refine ⟨by omega, right, ?_⟩
          rw [productions_of_le (by omega), Nat.sub_sub]
          exact found
        · intro given
          rcases given with ⟨lower, right, found⟩
          by_cases within : id - next < alternatives.length
          · rw [productions_of_lt within, Option.some.injEq, Production.mk.injEq] at found
            exact absurd found.1 different
          · rw [productions_of_le (by omega), Nat.sub_sub] at found
            exact ⟨by omega, right, found⟩

end RuleTable

end ShiftReduce
