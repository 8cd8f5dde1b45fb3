import ShiftReduce.Proofs.Grammar.Format
import ShiftReduce.Proofs.Grammar.Listing

/-!
# Listings that are loaded again

The productions that a loaded grammar lists, without their numbers and without the augmented one,
are a source again, and the grammar of this source is the same.  Labels never arise across the
symbols of a production, because the source of the grammar has them written as symbols already.
Main statement: `Grammar.parse_dumpedRules`.
-/

namespace ShiftReduce

/-! ## Rules with one alternative each -/

/-- The alternatives of some rules, each in a rule of its own. -/
def oneByOne (rules : List (Symbol × List (List Symbol))) : List (Symbol × List (List Symbol)) :=
  rules.flatMap fun (left, alternatives) =>
    alternatives.map fun alternative => (left, [alternative])

section OneByOne

variable {rules : List (Symbol × List (List Symbol))} {left : Symbol}

theorem alternativesFor_append (left : Symbol) (front back : List (Symbol × List (List Symbol))) :
    alternativesFor left (front ++ back) =
      alternativesFor left front ++ alternativesFor left back := by
  simp [alternativesFor]

theorem alternativesFor_oneByOne (left : Symbol) (rules : List (Symbol × List (List Symbol))) :
    alternativesFor left (oneByOne rules) = alternativesFor left rules := by
  induction rules with
  | nil => rfl
  | cons rule rules ih =>
      obtain ⟨defined, alternatives⟩ := rule
      have first : alternativesFor left (alternatives.map fun alternative =>
          (defined, [alternative])) = if defined = left then alternatives else [] := by
        by_cases named : defined = left <;> simp [alternativesFor, List.filter_map, named,
          Function.comp_def, List.flatMap_map]
      rw [oneByOne, List.flatMap_cons, ← oneByOne, alternativesFor_append, ih, first,
        alternativesFor_cons]

/-- A nonterminal with one rule has the alternatives of that rule. -/
theorem alternativesFor_of_mem (nodup : (rules.map (·.1)).Nodup)
    {rule : Symbol × List (List Symbol)} (member : rule ∈ rules) :
    alternativesFor rule.1 rules = rule.2 := by
  induction rules with
  | nil => cases member
  | cons first rules ih =>
      obtain ⟨new, nodup⟩ := List.nodup_cons.mp nodup
      rw [alternativesFor_cons]
      rcases List.mem_cons.mp member with rfl | member
      · have others : alternativesFor rule.1 rules = [] := by
          rw [List.eq_nil_iff_forall_not_mem]
          intro alternative listed
          obtain ⟨alternatives, again, _⟩ := mem_alternativesFor.mp listed
          exact new (List.mem_map_of_mem (f := (·.1)) again)
        rw [if_pos rfl, others, List.append_nil]
      · have listed := List.mem_map_of_mem (f := (·.1)) member
        have different : first.1 ≠ rule.1 := by
          intro same
          rw [← same] at listed
          exact new listed
        rw [if_neg different, List.nil_append, ih nodup member]

theorem mem_lefts_of_oneByOne (member : left ∈ (oneByOne rules).map (·.1)) :
    left ∈ rules.map (·.1) := by
  obtain ⟨single, listed, rfl⟩ := List.mem_map.mp member
  obtain ⟨rule, ruleMember, listed⟩ := List.mem_flatMap.mp listed
  obtain ⟨alternative, _, rfl⟩ := List.mem_map.mp listed
  exact List.mem_map_of_mem (f := (·.1)) ruleMember

/-- Nonterminals with alternatives are defined in the same order. -/
theorem eraseDups_lefts_oneByOne (nodup : (rules.map (·.1)).Nodup)
    (nonempty : ∀ rule ∈ rules, rule.2 ≠ []) :
    ((oneByOne rules).map (·.1)).eraseDups = rules.map (·.1) := by
  induction rules with
  | nil => rfl
  | cons rule rules ih =>
      obtain ⟨defined, alternatives⟩ := rule
      obtain ⟨new, restNodup⟩ := List.nodup_cons.mp nodup
      obtain ⟨some, restNonempty⟩ := List.forall_mem_cons.mp nonempty
      cases alternatives with
      | nil => exact absurd rfl some
      | cons alternative alternatives =>
          -- Its further alternatives define the nonterminal again, and no other rule does.
          have lefts : (oneByOne ((defined, alternative :: alternatives) :: rules)).map (·.1) =
              defined :: (alternatives.map (fun _ => defined) ++ (oneByOne rules).map (·.1)) := by
            simp [oneByOne, Function.comp_def]
          have again : (alternatives.map fun _ => defined).filter (fun left => !left == defined) =
              [] := by
            simp
          have others : ((oneByOne rules).map (·.1)).filter (fun left => !left == defined) =
              (oneByOne rules).map (·.1) := by
            rw [List.filter_eq_self]
            intro left member
            have listed := mem_lefts_of_oneByOne member
            simpa using fun same : left = defined => new (same ▸ listed)
          rw [lefts, List.eraseDups_cons, List.filter_append, again, others, List.nil_append,
            ih restNodup restNonempty]
          rfl

/-- Rules are collected again from their alternatives. -/
theorem collected_oneByOne (nodup : (rules.map (·.1)).Nodup)
    (distinct : ∀ rule ∈ rules, rule.2.Nodup) (nonempty : ∀ rule ∈ rules, rule.2 ≠ []) :
    collected (oneByOne rules) = rules := by
  rw [collected, eraseDups_lefts_oneByOne nodup nonempty, List.map_map]
  refine (List.map_congr_left fun rule member => ?_).trans (List.map_id rules)
  rw [Function.comp_apply, alternativesFor_oneByOne, alternativesFor_of_mem nodup member,
    eraseDups_eq_self (distinct rule member)]
  rfl

end OneByOne

/-! ## What the lines write -/

theorem shownAlternative_spelledBy {alternative : List Symbol} (nonempty : alternative ≠ []) :
    shownAlternative (spelledBy alternative) = alternative := by
  rw [spelledBy]
  split
  next alone => rw [alone]; rfl
  next => rw [shownAlternative, if_neg (by simpa using nonempty)]

/-- The alternatives of a line occur in it. -/
theorem Writes.infix_text {text : List Char} {left : Symbol} {alternatives : List (List Symbol)}
    (writes : Writes text left alternatives) {alternative : List Symbol}
    (member : alternative ∈ alternatives) : alternative.map Symbol.toChar <:+: text := by
  have occurs : alternative.map Symbol.toChar <:+:
      ['|'].intercalate (alternatives.map (·.map Symbol.toChar)) :=
    Text.infix_intercalate (List.mem_map_of_mem member)
  rw [writes.text_eq, lineText]
  exact occurs.trans (List.suffix_append [left.toChar, '-', '>'] _).isInfix

theorem lineText_singleton (left : Symbol) (alternative : List Symbol) :
    lineText left [alternative] =
      (left :: .ofChar '-' :: .ofChar '>' :: alternative).map Symbol.toChar := by
  rw [lineText, List.map_singleton, List.intercalate_singleton]
  rfl

/-- Every alternative of a line can have a line of its own. -/
theorem Dialect.Conforms.single {dialect : Dialect} {text : List Char} {left : Symbol}
    {alternatives : List (List Symbol)} (conforms : dialect.Conforms text left alternatives)
    {alternative : List Symbol} (member : alternative ∈ alternatives) :
    dialect.Conforms (lineText left [alternative]) left [alternative] where
  text_eq := rfl
  arrow := by
    have arrow := conforms.arrow
    rw [conforms.text_eq, countArrows_lineText, Nat.add_eq_right,
      Text.countArrows_eq_zero_iff] at arrow
    rw [countArrows_lineText, List.map_singleton, List.intercalate_singleton, Nat.add_eq_right,
      Text.countArrows_eq_zero_iff]
    exact fun occurs => arrow (occurs.trans
      (Text.infix_intercalate (List.mem_map_of_mem member)))
  left_printable := conforms.left_printable
  nonempty := List.cons_ne_nil _ _
  printable := by simpa using conforms.printable alternative member
  unbarred := by simpa using conforms.unbarred alternative member
  nonterminal := conforms.nonterminal
  left_ne := conforms.left_ne
  spells := by simpa using conforms.spells alternative member

namespace Grammar

variable {source : List Char} {rules : List (Symbol × List (List Symbol))}

theorem Format.exists_text {dialect : Dialect} (format : Format dialect source rules)
    {rule : Symbol × List (List Symbol)} (member : rule ∈ rules) :
    ∃ text, dialect.Conforms (dialect.substitute text) rule.1 rule.2 := by
  have lines := format.lines
  rw [written, List.forall₂_map_left_iff] at lines
  generalize ((Text.lines '\n' '\r' source).map Text.withoutBlanks).filter _ = texts at lines
  clear format
  induction lines with
  | nil => cases member
  | cons conforms _ ih =>
      rcases List.mem_cons.mp member with rfl | member
      · exact ⟨_, conforms⟩
      · exact ih member

/-- A production that the rules of a source spell has a line of its own, in which no label
occurs. -/
theorem Format.production (format : Format .standard source rules) {production : Production}
    (member : production ∈ spelledProductions (rules.map spelledRule)) :
    Dialect.standard.Conforms (lineText production.left [shownAlternative production.right])
        production.left [shownAlternative production.right] ∧
      Dialect.Unlabelled (lineText production.left [shownAlternative production.right]) ∧
        spelledBy (shownAlternative production.right) = production.right := by
  obtain ⟨left, right⟩ := production
  obtain ⟨_, spelled, rightSpelled⟩ := mem_spelledProductions.mp member
  obtain ⟨rule, ruleMember, equal⟩ := List.mem_map.mp spelled
  cases equal
  obtain ⟨alternative, listed, rfl⟩ := List.mem_map.mp rightSpelled
  obtain ⟨text, conforms⟩ := format.exists_text ruleMember
  have nonempty : alternative ≠ [] := by
    rcases conforms.spells alternative listed with rfl | ⟨nonempty, _⟩
    · exact List.cons_ne_nil _ _
    · exact nonempty
  rw [shownAlternative_spelledBy nonempty]
  have unlabelled := (Dialect.unlabelled_substitute text).part
    (conforms.infix_text listed)
  refine ⟨conforms.single listed, ⟨?_, ?_⟩, rfl⟩
  · simpa [lineText, Text.pair_infix_cons] using unlabelled.sum
  · simpa [lineText, Text.pair_infix_cons] using unlabelled.term

/-- The rules of a source are collected again from their productions. -/
theorem Format.collected_productions {dialect : Dialect} (format : Format dialect source rules) :
    collected ((spelledProductions (rules.map spelledRule)).map fun production =>
      (production.left, [production.right])) = collected (rules.map spelledRule) := by
  have same : (spelledProductions (rules.map spelledRule)).map (fun production =>
      (production.left, [production.right])) = oneByOne (collected (rules.map spelledRule)) := by
    simp only [spelledProductions, oneByOne, List.map_flatMap, List.map_map]
    rfl
  rw [same, collected_oneByOne]
  · rw [map_fst_collected]
    exact nodup_eraseDups _
  · intro entry member
    obtain ⟨left, _, rfl⟩ := List.mem_map.mp member
    exact nodup_eraseDups _
  · intro entry member
    obtain ⟨left, defined, rfl⟩ := List.mem_map.mp member
    obtain ⟨spelled, spelledMember, rfl⟩ := List.mem_map.mp (List.mem_eraseDups.mp defined)
    obtain ⟨rule, ruleMember, rfl⟩ := List.mem_map.mp spelledMember
    obtain ⟨text, conforms⟩ := format.exists_text ruleMember
    obtain ⟨alternative, listed⟩ := List.exists_mem_of_ne_nil _ conforms.nonempty
    apply List.ne_nil_of_mem (a := spelledBy alternative)
    rw [List.mem_eraseDups, mem_alternativesFor]
    exact ⟨_, spelledMember, List.mem_map_of_mem listed⟩

/-- Symbols of a well-formed grammar's productions are printable. -/
theorem WellFormed.printable {grammar : Grammar} (wellFormed : grammar.WellFormed)
    {production : Production} (member : production ∈ grammar.productions.toList) :
    ∀ symbol ∈ production.left :: production.right, symbol.isPrintable = true := by
  obtain ⟨id, found⟩ := List.getElem?_of_mem member
  have found : grammar.production? id = some production := by
    rwa [Array.getElem?_toList] at found
  intro symbol mentioned
  rcases List.mem_cons.mp mentioned with rfl | mentioned
  · exact Symbol.isPrintable_of_isNonterminal (wellFormed.left_nonterminal found)
  · cases wellFormed.mentions found symbol mentioned with
    | terminal input => exact Symbol.isPrintable_of_isInput input
    | nonterminal nonterminal => exact Symbol.isPrintable_of_isNonterminal nonterminal

/-! ## Loading a listing -/

section Loading

variable {grammar : Grammar} {text : List Char}

/-- What loading a listed production reads is the production with its symbols as characters. -/
theorem substitute_withoutBlanks_labelledProduction (standard : grammar.dialect = .standard)
    {production : Production}
    (printable : ∀ symbol ∈ production.left :: production.right, symbol.isPrintable = true)
    (unlabelled : Dialect.Unlabelled
      (lineText production.left [shownAlternative production.right])) :
    Dialect.standard.substitute
        (Text.withoutBlanks (grammar.labelledProduction production).toList) =
      lineText production.left [shownAlternative production.right] := by
  rw [lineText_singleton] at unlabelled ⊢
  rw [withoutBlanks_labelledProduction standard printable, labelText]
  simp only [label, standard]
  exact Dialect.substitute_labels unlabelled

/-- Blank lines are not written, and the others are written as their symbols. -/
theorem written_dumpedRules (standard : grammar.dialect = .standard)
    (printable : ∀ production ∈ grammar.productions.toList,
      ∀ symbol ∈ production.left :: production.right, symbol.isPrintable = true)
    {first : Production} {rest : List Production}
    (cut : grammar.productions.toList = first :: rest)
    (unlabelled : ∀ production ∈ rest, Dialect.Unlabelled
      (lineText production.left [shownAlternative production.right]))
    (lines : Text.lines '\n' '\r' text = grammar.dumpedRules) :
    written .standard text = rest.map fun production =>
      lineText production.left [shownAlternative production.right] := by
  have restores : ∀ production ∈ rest, Dialect.standard.substitute
      (Text.withoutBlanks (grammar.labelledProduction production).toList) =
        lineText production.left [shownAlternative production.right] := by
    intro production member
    have listed : production ∈ grammar.productions.toList := cut ▸ List.mem_cons_of_mem first member
    exact substitute_withoutBlanks_labelledProduction standard (printable production listed)
      (unlabelled production member)
  have shown : ((rest.map fun production => Text.withoutBlanks
      (grammar.labelledProduction production).toList).filter (!·.isEmpty)) =
        rest.map fun production => Text.withoutBlanks
          (grammar.labelledProduction production).toList := by
    rw [List.filter_eq_self, List.forall_mem_map]
    intro production member
    rw [Bool.not_eq_true', List.isEmpty_eq_false_iff]
    intro blank
    have read := restores production member
    rw [blank] at read
    cases read
  rw [written, lines, dumpedRules_eq standard printable cut, List.map_cons, List.map_map]
  change ((rest.map fun production => Text.withoutBlanks
    (grammar.labelledProduction production).toList).filter (!·.isEmpty)).map _ = _
  rw [shown, List.map_map]
  exact List.map_congr_left restores

/-- The labels of a symbol sequence that loading has produced stand for the sequence. -/
theorem substitute_labelText (standard : grammar.dialect = .standard) {symbols : List Symbol}
    (unlabelled : Dialect.Unlabelled (symbols.map Symbol.toChar)) :
    Dialect.standard.substitute (grammar.labelText symbols) = symbols.map Symbol.toChar := by
  simp only [labelText, label, standard]
  exact Dialect.substitute_labels unlabelled

theorem unlabelled_singleton (symbol : Symbol) :
    Dialect.Unlabelled ([symbol].map Symbol.toChar) := by
  constructor
  · simp [Text.pair_infix_cons]
  · simp [Text.pair_infix_cons]

/-- A grammar that is loaded from a source in the standard dialect is loaded again from the lines
of its listing, and the labels of its productions stand for their symbols. -/
theorem parse_dumpedRules (loaded : parse .standard source = .ok grammar) :
    (∀ text, Text.lines '\n' '\r' text = grammar.dumpedRules →
      parse .standard text = .ok grammar) ∧
    parse .standard (Text.ofLines grammar.dumpedRules) = .ok grammar ∧
    ∀ id production, grammar.production? id = some production →
      Dialect.standard.substitute (grammar.labelText [production.left]) =
          [production.left].map Symbol.toChar ∧
        Dialect.standard.substitute (grammar.labelText production.right) =
          production.right.map Symbol.toChar := by
  have wellFormed := (Loaded.source loaded).wellFormed
  obtain ⟨usable, first, rules, format, equal⟩ := parse_eq_ok_iff.mp loaded
  have standard : grammar.dialect = .standard := equal ▸ rfl
  have cut : grammar.productions.toList = ⟨Dialect.standard.augmentedStart, [first.1]⟩ ::
      spelledProductions ((first :: rules).map spelledRule) := equal ▸ rfl
  have printable : ∀ production ∈ grammar.productions.toList,
      ∀ symbol ∈ production.left :: production.right, symbol.isPrintable = true :=
    fun production member => wellFormed.printable member
  have again : ∀ text, Text.lines '\n' '\r' text = grammar.dumpedRules →
      parse .standard text = .ok grammar := by
    intro text lines
    have written := written_dumpedRules standard printable cut
      (fun production member => (format.production member).2.1) lines
    have conforms : List.Forall₂ (fun text rule => Dialect.standard.Conforms text rule.1 rule.2)
        (Grammar.written .standard text)
        ((spelledProductions ((first :: rules).map spelledRule)).map fun production =>
          (production.left, [shownAlternative production.right])) := by
      rw [written, List.forall₂_map_left_iff, List.forall₂_map_right_iff, List.forall₂_same]
      exact fun production member => (format.production member).1
    have spells : ((spelledProductions ((first :: rules).map spelledRule)).map fun production =>
        (production.left, [shownAlternative production.right])).map spelledRule =
          (spelledProductions ((first :: rules).map spelledRule)).map fun production =>
            (production.left, [production.right]) := by
      rw [List.map_map]
      refine List.map_congr_left fun production member => ?_
      rw [Function.comp_apply, spelledRule, List.map_singleton, (format.production member).2.2]
    -- Both sources spell the same once their rules have been joined.
    rw [parse_of_conforms usable conforms, spells, RuleTable.ofSpelled,
      format.collected_productions, ← RuleTable.ofSpelled,
      ← parse_of_conforms usable format.lines, loaded]
  refine ⟨again, again _ (Text.lines_ofLines ?_), ?_⟩
  · rw [dumpedRules_eq standard printable cut]
    refine List.forall_mem_cons.mpr ⟨by simp, ?_⟩
    rw [List.forall_mem_map]
    intro production member
    exact inline_labelledProduction standard
      (printable production (cut ▸ List.mem_cons_of_mem _ member))
  · intro id production found
    refine ⟨substitute_labelText standard (unlabelled_singleton _),
      substitute_labelText standard ?_⟩
    have member : production ∈ grammar.productions.toList :=
      Array.mem_toList_iff.mpr (Array.mem_of_getElem? found)
    rw [cut] at member
    rcases List.mem_cons.mp member with rfl | member
    · exact unlabelled_singleton _
    · obtain ⟨_, unlabelled, _⟩ := format.production member
      apply unlabelled.part
      rw [lineText_singleton, shownAlternative]
      split
      next nothing =>
        rw [List.isEmpty_iff.mp nothing]
        exact List.nil_infix
      next => exact (List.suffix_append [_, _, _] _).isInfix

/-- A primed nonterminal is listed by its label, also where the source has the symbol itself or one
more prime. -/
theorem parse_dumpedRules_primed :
    ∃ grammar, parse .standard "E -> nR | E''\nE' -> e".toList = .ok grammar ∧
      grammar.dumpedRules = ["".toList, "E -> n E'".toList, "E -> E' '".toList,
        "E' -> e".toList] ∧
      parse .standard (Text.ofLines grammar.dumpedRules) = .ok grammar := by
  have listed : (parse .standard "E -> nR | E''\nE' -> e".toList).map (·.dumpedRules) =
      .ok ["".toList, "E -> n E'".toList, "E -> E' '".toList, "E' -> e".toList] := by
    decide +kernel
  obtain ⟨grammar, loaded, dumped⟩ := exists_of_map_eq_ok listed
  obtain ⟨_, again, _⟩ := parse_dumpedRules loaded
  exact ⟨grammar, loaded, dumped, again⟩

end Loading

end Grammar

end ShiftReduce
