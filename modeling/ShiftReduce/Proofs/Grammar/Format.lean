import ShiftReduce.Proofs.Grammar.Line
import ShiftReduce.Proofs.Grammar.Spelling

/-!
# The format of sources

A source is in the format of a dialect if it has a line that is not blank, every such line is a
rule once its labels are written as symbols, and the nonterminals that the rules mention are
defined.  Just the sources in the format are loaded, with the productions that the rules spell in
order; any other source is refused because of its first line that is no rule, or as a whole.
Main statement: `Grammar.parse_format`.
-/

namespace ShiftReduce

/-- A dialect with which grammars can be loaded. -/
structure Dialect.Usable (dialect : Dialect) : Prop where
  augmentedStart : dialect.augmentedStart.isNonterminal = true
  numberTerminal : dialect.numberTerminal.isInput = true

/-- A line of the format: one nonterminal other than the augmented start, the only arrow of the
line, and alternatives between bars, each of them the empty symbol alone or some printable
symbols other than the empty symbol, the end marker and the augmented start. -/
structure Dialect.Conforms (dialect : Dialect) (text : List Char) (left : Symbol)
    (alternatives : List (List Symbol)) : Prop extends Writes text left alternatives where
  nonterminal : left.isNonterminal = true
  left_ne : left ≠ dialect.augmentedStart
  spells : ∀ alternative ∈ alternatives, alternative = [Symbol.empty] ∨
    alternative ≠ [] ∧ ∀ symbol ∈ alternative,
      symbol ≠ Symbol.empty ∧ symbol ≠ Symbol.endMarker ∧ symbol ≠ dialect.augmentedStart

namespace Grammar

/-- The lines of a source that are not blank, without their blanks and with labels written as
symbols. -/
def written (dialect : Dialect) (source : List Char) : List (List Char) :=
  (((Text.lines '\n' '\r' source).map Text.withoutBlanks).filter (!·.isEmpty)).map
    dialect.substitute

/-- A source in the format of a dialect, line by line with the rules that its lines are. -/
structure Format (dialect : Dialect) (source : List Char)
    (rules : List (Symbol × List (List Symbol))) : Prop where
  nonempty : rules ≠ []
  lines : List.Forall₂ (fun text rule => dialect.Conforms text rule.1 rule.2)
    (written dialect source) rules
  defined : ∀ rule ∈ rules, ∀ alternative ∈ rule.2, ∀ symbol ∈ alternative,
    symbol.isNonterminal = true → symbol ∈ rules.map (·.1)

/-- The first line of a source that is neither blank nor a rule, with its number and with its
labels written as symbols. -/
structure FirstMalformed (dialect : Dialect) (source : List Char) (line : Nat)
    (text : List Char) : Prop where
  positive : 0 < line
  found : ∃ raw, (Text.lines '\n' '\r' source)[line - 1]? = some raw ∧
    Text.withoutBlanks raw ≠ [] ∧ text = dialect.substitute (Text.withoutBlanks raw)
  malformed : ∀ left alternatives, ¬dialect.Conforms text left alternatives
  earlier : ∀ other, 0 < other → other < line → ∀ raw,
    (Text.lines '\n' '\r' source)[other - 1]? = some raw → Text.withoutBlanks raw ≠ [] →
      ∃ left alternatives,
        dialect.Conforms (dialect.substitute (Text.withoutBlanks raw)) left alternatives

/-- The rule of a line with the sequences that its alternatives spell. -/
def spelledRule (rule : Symbol × List (List Symbol)) : Symbol × List (List Symbol) :=
  (rule.1, rule.2.map spelledBy)

/-- Why a source is refused. -/
inductive Refuses (dialect : Dialect) (source : List Char) : Error → Prop where
  /-- All lines are blank. -/
  | unwritten : written dialect source = [] → Refuses dialect source (.format 0 .noProductions)
  | malformed {line : Nat} {text : List Char} (fault : FormatFault) :
      FirstMalformed dialect source line text → Refuses dialect source (.format line fault)
  /-- The first malformed line has a character that is no symbol. -/
  | unprintable {line : Nat} {text : List Char} {character : Char} :
      FirstMalformed dialect source line text → character ∈ text →
        ¬('!' ≤ character ∧ character ≤ '~') →
          Refuses dialect source (.unknownSymbol character)
  /-- All lines are rules, and this is the first nonterminal of a right-hand side that none of
  them defines. -/
  | undefined {rules : List (Symbol × List (List Symbol))} {symbol : Symbol} :
      List.Forall₂ (fun text rule => dialect.Conforms text rule.1 rule.2)
        (written dialect source) rules →
        firstUndefined? (rules.map spelledRule) = some symbol →
          Refuses dialect source (.unknown symbol)

end Grammar

/-! ## One line -/

namespace Dialect

variable {dialect : Dialect}

theorem isReserved_eq_false_iff {symbol : Symbol} :
    dialect.isReserved symbol = false ↔
      symbol ≠ Symbol.endMarker ∧ symbol ≠ dialect.augmentedStart := by
  simp [isReserved, Symbol.isEndMarker]

/-- A line conforms if it writes a well-formed rule. -/
theorem conforms_iff {text : List Char} {left : Symbol} {alternatives : List (List Symbol)} :
    dialect.Conforms text left alternatives ↔ Writes text left alternatives ∧
      dialect.Defines left ∧ ∀ alternative ∈ alternatives,
        dialect.AllowsAlternative alternative := by
  constructor
  · intro conforms
    have leftReserved : dialect.isReserved left = false := by
      refine isReserved_eq_false_iff.mpr ⟨?_, conforms.left_ne⟩
      rintro rfl
      exact absurd conforms.nonterminal (by decide)
    refine ⟨conforms.toWrites, ⟨conforms.left_printable, conforms.nonterminal, leftReserved⟩, ?_⟩
    intro alternative member
    refine (conforms.spells alternative member).imp id ?_
    rintro ⟨nonempty, allowed⟩
    refine ⟨nonempty, fun symbol listed => ?_⟩
    obtain ⟨notEmpty, unreserved⟩ := allowed symbol listed
    exact ⟨conforms.printable alternative member symbol listed,
      isReserved_eq_false_iff.mpr unreserved, notEmpty⟩
  · rintro ⟨writes, defines, allows⟩
    refine ⟨writes, defines.nonterminal, (isReserved_eq_false_iff.mp defines.unreserved).2, ?_⟩
    intro alternative member
    refine (allows alternative member).imp id ?_
    rintro ⟨nonempty, allowed⟩
    refine ⟨nonempty, fun symbol listed => ⟨(allowed symbol listed).nonempty, ?_⟩⟩
    exact isReserved_eq_false_iff.mp (allowed symbol listed).unreserved

/-- A line spells something exactly if it conforms. -/
theorem spell_readLine_eq_ok_iff {line : Nat} {text : List Char}
    {spelled : Symbol × List (List Symbol)} :
    dialect.spell (Grammar.readLine line text) = .ok spelled ↔
      ∃ rule, dialect.Conforms text rule.1 rule.2 ∧ spelled = Grammar.spelledRule rule := by
  constructor
  · intro spells
    cases read : Grammar.readLine line text with
    | error error =>
        rw [read] at spells
        cases spells
    | ok rule =>
        obtain ⟨_, writes⟩ := Grammar.readLine_eq_ok_iff.mp read
        simp only [read, spell] at spells
        split at spells
        next => cases spells
        next alternatives ruleRead =>
          cases spells
          obtain ⟨defines, allows, rfl⟩ := readRule_eq_ok_iff.mp ruleRead
          exact ⟨(rule.left, rule.alternatives), conforms_iff.mpr ⟨writes, defines, allows⟩, rfl⟩
  · rintro ⟨⟨left, alternatives⟩, conforms, rfl⟩
    obtain ⟨writes, defines, allows⟩ := conforms_iff.mp conforms
    have read : Grammar.readLine line text = .ok ⟨line, left, alternatives⟩ :=
      Grammar.readLine_eq_ok_iff.mpr ⟨rfl, writes⟩
    have ruleRead : dialect.readRule ⟨line, left, alternatives⟩ =
        .ok (alternatives.map spelledBy) :=
      readRule_eq_ok_iff.mpr ⟨defines, allows, rfl⟩
    rw [read, spell, ruleRead]
    rfl

/-- A line that spells nothing has a fault, or a character that is no symbol. -/
theorem spell_readLine_eq_error {line : Nat} {text : List Char} {error : Error}
    (refused : dialect.spell (Grammar.readLine line text) = .error error) :
    (∃ fault, error = .format line fault) ∨
      ∃ character ∈ text, Symbol.ofPrintable? character = none ∧
        error = .unknownSymbol character := by
  cases read : Grammar.readLine line text with
  | error readError =>
      rw [read] at refused
      cases refused
      exact Grammar.readLine_eq_error read
  | ok rule =>
      obtain ⟨rfl, writes⟩ := Grammar.readLine_eq_ok_iff.mp read
      rcases readRule_namesLine dialect writes.left_printable writes.printable with
        ⟨alternatives, fine⟩ | ⟨fault, faulty⟩
      · simp only [read, spell, fine] at refused
        cases refused
      · simp only [read, spell, faulty] at refused
        cases refused
        exact .inl ⟨fault, rfl⟩

end Dialect

/-! ## The lines of a source -/

namespace Grammar

variable {dialect : Dialect} {source : List Char}

theorem mem_sourceLines {entry : Nat × List Char} :
    entry ∈ sourceLines source ↔ 0 < entry.1 ∧ ∃ raw,
      (Text.lines '\n' '\r' source)[entry.1 - 1]? = some raw ∧
        entry.2 = Text.withoutBlanks raw ∧ Text.withoutBlanks raw ≠ [] := by
  simp only [sourceLines, List.mem_filter, List.mem_mapIdx, Bool.not_eq_true',
    List.isEmpty_eq_false_iff]
  constructor
  · rintro ⟨⟨index, bound, rfl⟩, nonempty⟩
    exact ⟨index.succ_pos, _, List.getElem?_eq_getElem bound, rfl, nonempty⟩
  · rintro ⟨positive, raw, found, same, nonempty⟩
    obtain ⟨bound, rfl⟩ := List.getElem?_eq_some_iff.mp found
    exact ⟨⟨entry.1 - 1, bound, Prod.ext (by omega) same.symm⟩, same ▸ nonempty⟩

/-- The lines of a source are numbered in ascending order. -/
theorem sourceLines_ascending (source : List Char) :
    (sourceLines source).Pairwise fun entry other => entry.1 < other.1 := by
  apply List.Pairwise.filter
  rw [List.pairwise_iff_getElem]
  intro index other _ _ lower
  simpa using lower

theorem written_eq (dialect : Dialect) (source : List Char) :
    written dialect source = (sourceLines source).map fun entry => dialect.substitute entry.2 := by
  have numbered : ((Text.lines '\n' '\r' source).mapIdx fun index line =>
      (index + 1, Text.withoutBlanks line)).map (·.2) =
        (Text.lines '\n' '\r' source).map Text.withoutBlanks := by
    apply List.ext_getElem <;> simp
  rw [written, ← numbered, List.filter_map, List.map_map]
  rfl

/-- The rules of all lines are read, if all lines conform. -/
theorem mapM_spell_eq_ok_iff {spelled : List (Symbol × List (List Symbol))} :
    ((sourceLines source).map fun (line, text) =>
        readLine line (dialect.substitute text)).mapM dialect.spell = .ok spelled ↔
      ∃ rules, List.Forall₂ (fun text rule => dialect.Conforms text rule.1 rule.2)
        (written dialect source) rules ∧ spelled = rules.map spelledRule := by
  rw [mapM_eq_ok_iff, List.forall₂_map_left_iff, written_eq]
  simp only [List.forall₂_map_left_iff, Dialect.spell_readLine_eq_ok_iff]
  generalize sourceLines source = entries
  constructor
  · intro related
    induction related with
    | nil => exact ⟨[], .nil, rfl⟩
    | cons first _ ih =>
        obtain ⟨rule, conforms, rfl⟩ := first
        obtain ⟨rules, others, rfl⟩ := ih
        exact ⟨rule :: rules, .cons conforms others, rfl⟩
  · rintro ⟨rules, related, rfl⟩
    rw [List.forall₂_map_right_iff]
    exact related.imp fun entry rule conforms => ⟨rule, conforms, rfl⟩

/-- The first line that spells nothing is the first malformed one. -/
theorem exists_firstMalformed {error : Error}
    (refused : ((sourceLines source).map fun (line, text) =>
      readLine line (dialect.substitute text)).mapM dialect.spell = .error error) :
    ∃ line text, FirstMalformed dialect source line text ∧
      dialect.spell (readLine line text) = .error error := by
  rw [List.mapM_map] at refused
  obtain ⟨before, ⟨line, stripped⟩, after, cut, fine, unread⟩ := mapM_eq_error_iff.mp refused
  obtain ⟨positive, raw, found, rfl, nonempty⟩ :=
    mem_sourceLines.mp (cut ▸ List.mem_append_right before List.mem_cons_self)
  refine ⟨line, _, ⟨positive, ⟨raw, found, nonempty, rfl⟩, ?_, ?_⟩, unread⟩
  · intro left alternatives conforms
    have spells : dialect.spell (readLine line (dialect.substitute (Text.withoutBlanks raw))) =
        .ok (spelledRule (left, alternatives)) :=
      Dialect.spell_readLine_eq_ok_iff.mpr ⟨(left, alternatives), conforms, rfl⟩
    exact nomatch unread.symm.trans spells
  · -- An earlier line stands before the refused one in the list, where all lines spell something.
    intro other otherPositive lower otherRaw otherFound otherNonempty
    have listed : (other, Text.withoutBlanks otherRaw) ∈ sourceLines source :=
      mem_sourceLines.mpr ⟨otherPositive, otherRaw, otherFound, rfl, otherNonempty⟩
    have ascending := sourceLines_ascending source
    rw [cut] at listed ascending
    obtain ⟨_, behind, _⟩ := List.pairwise_append.mp ascending
    rcases List.mem_append.mp listed with listed | listed
    · obtain ⟨spelled, spells⟩ := fine _ listed
      obtain ⟨rule, conforms, _⟩ := Dialect.spell_readLine_eq_ok_iff.mp spells
      exact ⟨rule.1, rule.2, conforms⟩
    · rcases List.mem_cons.mp listed with same | listed
      · exact absurd (congrArg Prod.fst same) (Nat.ne_of_lt lower)
      · exact absurd ((List.pairwise_cons.mp behind).1 _ listed) (Nat.lt_asymm lower)

/-! ## Loading a source -/

theorem ofDialect_of_usable (usable : dialect.Usable) :
    RuleTable.ofDialect dialect = .ok ⟨dialect, [], []⟩ := by
  have printable := Symbol.isPrintable_of_isNonterminal usable.augmentedStart
  simp [RuleTable.ofDialect, printable, usable.augmentedStart, usable.numberTerminal]

theorem usable_of_ofDialect {table : RuleTable}
    (made : RuleTable.ofDialect dialect = .ok table) : dialect.Usable := by
  obtain ⟨_, augmentedStart, numberTerminal, _⟩ := RuleTable.ofDialect_wellFormed made
  exact ⟨augmentedStart, numberTerminal⟩

/-- Loading a source reads its lines and makes a grammar of what they spell. -/
theorem parse_eq (usable : dialect.Usable) (source : List Char) :
    parse dialect source =
      ((sourceLines source).map fun (line, text) =>
        readLine line (dialect.substitute text)).mapM dialect.spell >>= fun spelled =>
          (RuleTable.ofSpelled dialect spelled).toGrammar := by
  rw [parse, loadSource, result_collect, ofDialect_of_usable usable]
  rfl

/-- A source that writes a list of rules is loaded as what they spell. -/
theorem parse_of_conforms (usable : dialect.Usable)
    {rules : List (Symbol × List (List Symbol))}
    (lines : List.Forall₂ (fun text rule => dialect.Conforms text rule.1 rule.2)
      (written dialect source) rules) :
    parse dialect source = (RuleTable.ofSpelled dialect (rules.map spelledRule)).toGrammar := by
  rw [parse_eq usable, mapM_spell_eq_ok_iff.mpr ⟨rules, lines, rfl⟩]
  rfl

/-- A nonterminal is mentioned by an alternative if it is in the sequence that this spells. -/
theorem mem_spelledBy {symbol : Symbol} (nonterminal : symbol.isNonterminal = true)
    {alternative : List Symbol} : symbol ∈ spelledBy alternative ↔ symbol ∈ alternative := by
  rw [spelledBy]
  split
  next alone =>
    subst alone
    refine iff_of_false List.not_mem_nil fun member => ?_
    rw [List.mem_singleton.mp member] at nonterminal
    exact absurd nonterminal (by decide)
  next => exact Iff.rfl

/-- The nonterminals that rules mention are defined if those that they spell are. -/
theorem firstUndefined?_map_spelledRule (rules : List (Symbol × List (List Symbol))) :
    firstUndefined? (rules.map spelledRule) = none ↔
      ∀ rule ∈ rules, ∀ alternative ∈ rule.2, ∀ symbol ∈ alternative,
        symbol.isNonterminal = true → symbol ∈ rules.map (·.1) := by
  have lefts : (rules.map spelledRule).map (·.1) = rules.map (·.1) := List.map_map
  simp only [firstUndefined?_eq_none_iff, lefts, List.forall_mem_map, spelledRule]
  constructor
  · intro complete rule member alternative listed symbol mentioned nonterminal
    exact complete rule member alternative listed symbol
      ((mem_spelledBy nonterminal).mpr mentioned) nonterminal
  · intro complete rule member alternative listed symbol mentioned nonterminal
    exact complete rule member alternative listed symbol
      ((mem_spelledBy nonterminal).mp mentioned) nonterminal

/-- A source is loaded exactly if it is in the format of a dialect that can be used. -/
theorem parse_eq_ok_iff {grammar : Grammar} :
    parse dialect source = .ok grammar ↔ dialect.Usable ∧ ∃ first rules,
      Format dialect source (first :: rules) ∧
        grammar = ofSpelled dialect first.1 ((first :: rules).map spelledRule) := by
  constructor
  · intro loaded
    have usable : dialect.Usable := by
      obtain ⟨_, _, ready, _⟩ := exists_table_of_collect loaded
      exact usable_of_ofDialect ready
    obtain ⟨spelled, spells, complete, _, _, cut, rfl⟩ := exists_spelled_of_collect loaded
    obtain ⟨rules, lines, rfl⟩ := mapM_spell_eq_ok_iff.mp spells
    cases rules with
    | nil => cases cut
    | cons first rules =>
        cases cut
        exact ⟨usable, first, rules, ⟨List.cons_ne_nil first rules, lines,
          (firstUndefined?_map_spelledRule _).mp complete⟩, rfl⟩
  · rintro ⟨usable, first, rules, format, rfl⟩
    rw [parse_of_conforms usable format.lines]
    exact RuleTable.toGrammar_ofSpelled_eq_ok_iff.mpr
      ⟨(firstUndefined?_map_spelledRule _).mpr format.defined, _, _, rfl, rfl⟩

theorem refuses_of_parse (usable : dialect.Usable) {error : Error}
    (refused : parse dialect source = .error error) : Refuses dialect source error := by
  cases spells : ((sourceLines source).map fun (line, text) =>
      readLine line (dialect.substitute text)).mapM dialect.spell with
  | error spellError =>
      rw [parse_eq usable, spells] at refused
      cases refused
      obtain ⟨line, text, first, unread⟩ := exists_firstMalformed spells
      rcases Dialect.spell_readLine_eq_error unread with
        ⟨fault, rfl⟩ | ⟨character, member, unprintable, rfl⟩
      · exact .malformed fault first
      · exact .unprintable first member (Symbol.ofPrintable?_eq_none_iff.mp unprintable)
  | ok spelled =>
      obtain ⟨rules, lines, rfl⟩ := mapM_spell_eq_ok_iff.mp spells
      rw [parse_of_conforms usable lines, RuleTable.toGrammar_ofSpelled] at refused
      cases rules with
      | nil =>
          cases refused
          exact .unwritten (List.forall₂_nil_right_iff.mp lines)
      | cons first rules =>
          simp only [List.map_cons] at refused
          split at refused
          next symbol undefined =>
            cases refused
            exact .undefined lines undefined
          next => cases refused

/-- Just the sources in the format are loaded. The productions of such a grammar are the augmented
one, to the left-hand side of the first line, and then for each left-hand side in order of first
definition its distinct alternatives in order of first occurrence. A source that is refused is
refused for a reason, and the line that a fault names is the first that is malformed. -/
theorem parse_format (usable : dialect.Usable) (source : List Char) :
    ((∃ grammar, parse dialect source = .ok grammar) ↔ ∃ rules, Format dialect source rules) ∧
      (∀ grammar, parse dialect source = .ok grammar → ∃ first rules,
        Format dialect source (first :: rules) ∧
          grammar.productions.toList = ⟨dialect.augmentedStart, [first.1]⟩ ::
            ((first :: rules).map (·.1)).eraseDups.flatMap fun left =>
              (alternativesFor left ((first :: rules).map spelledRule)).eraseDups.map
                (Production.mk left)) ∧
      (∀ line fault, parse dialect source = .error (.format line fault) → 0 < line →
        ∃ text, FirstMalformed dialect source line text) ∧
      ∀ error, parse dialect source = .error error → Refuses dialect source error := by
  refine ⟨⟨?_, ?_⟩, ?_, ?_, fun error => refuses_of_parse usable⟩
  · rintro ⟨grammar, loaded⟩
    obtain ⟨_, first, rules, format, _⟩ := parse_eq_ok_iff.mp loaded
    exact ⟨first :: rules, format⟩
  · rintro ⟨rules, format⟩
    cases rules with
    | nil => exact absurd rfl format.nonempty
    | cons first rules => exact ⟨_, parse_eq_ok_iff.mpr ⟨usable, first, rules, format, rfl⟩⟩
  · intro grammar loaded
    obtain ⟨_, first, rules, format, rfl⟩ := parse_eq_ok_iff.mp loaded
    refine ⟨first, rules, format, ?_⟩
    rw [ofSpelled, spelledProductions_eq, List.map_map]
    rfl
  · intro line fault refused positive
    cases refuses_of_parse usable refused with
    | unwritten => exact absurd positive (Nat.lt_irrefl 0)
    | malformed _ first => exact ⟨_, first⟩

/-- A source with primed labels, with a nonterminal in two lines and with an alternative twice is
in the format. In another source the third line, which has no arrow, is the first that is
malformed. -/
theorem parse_format_labels :
    Dialect.standard.Usable ∧
      (∃ rules, Format .standard "T -> FT' | n\n\nF -> n\nT' -> +TT' | e\nT -> n".toList rules) ∧
      (∃ grammar,
        parse .standard "T -> FT' | n\n\nF -> n\nT' -> +TT' | e\nT -> n".toList = .ok grammar ∧
          grammar.productions.toList.map (·.text) =
            ["Y -> T", "T -> FU", "T -> n", "F -> n", "U -> +TU", "U -> e"]) ∧
      ∃ text, FirstMalformed .standard "T -> n\n\nF n\nn".toList 3 text := by
  have usable : Dialect.standard.Usable := ⟨by decide, by decide⟩
  have loaded : (parse .standard "T -> FT' | n\n\nF -> n\nT' -> +TT' | e\nT -> n".toList).map
      (·.productions.toList.map (·.text)) =
        .ok ["Y -> T", "T -> FU", "T -> n", "F -> n", "U -> +TU", "U -> e"] := by
    decide +kernel
  have refused : parse .standard "T -> n\n\nF n\nn".toList = .error (.format 3 .arrowCount) := by
    decide +kernel
  obtain ⟨accepted, _⟩ :=
    parse_format usable "T -> FT' | n\n\nF -> n\nT' -> +TT' | e\nT -> n".toList
  obtain ⟨_, _, first, _⟩ := parse_format usable "T -> n\n\nF n\nn".toList
  obtain ⟨grammar, made, productions⟩ := exists_of_map_eq_ok loaded
  exact ⟨usable, accepted.mp ⟨grammar, made⟩, ⟨grammar, made, productions⟩,
    first 3 .arrowCount refused (by decide)⟩

end Grammar

end ShiftReduce
