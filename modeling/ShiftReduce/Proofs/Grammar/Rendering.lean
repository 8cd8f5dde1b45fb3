import ShiftReduce.Proofs.Grammar.Line
import ShiftReduce.Proofs.Grammar.Spelling
import ShiftReduce.Proofs.Text.Replacing

/-!
# Rendered rules

Rules that are given as data can be rendered as the lines of a source. Loading the rules and
loading the source agree: they make the same grammar, or they fail in the same way, except that
the fault of a rule names the line of the rule in the source and no line for data.
Main statement: `Grammar.parse_agrees`.
-/

namespace ShiftReduce

/-- The line that renders a rule given as data. -/
def ruleText (given : Symbol × List (List Symbol)) : List Char :=
  lineText given.1 (given.2.map shownAlternative)

/-- A rule of printable symbols that can be told from its text: it has alternatives, and none of
them has a bar or an arrow. -/
structure Renderable (given : Symbol × List (List Symbol)) : Prop where
  left_printable : given.1.isPrintable = true
  nonempty : given.2 ≠ []
  printable : ∀ alternative ∈ given.2, ∀ symbol ∈ alternative, symbol.isPrintable = true
  unbarred : ∀ alternative ∈ given.2, Symbol.ofChar '|' ∉ alternative
  arrowless : ∀ alternative ∈ given.2, ¬['-', '>'] <:+: alternative.map Symbol.toChar

/-- How loading rules from a source, first, and as data, second, may end. -/
inductive Agreement (dialect : Dialect) (rules : List (Symbol × List (List Symbol))) :
    Except Error Grammar → Except Error Grammar → Prop where
  | loaded (grammar : Grammar) : Agreement dialect rules (.ok grammar) (.ok grammar)
  /-- The dialect cannot be used. -/
  | unusable {error : Error} : RuleTable.ofDialect dialect = .error error →
      Agreement dialect rules (.error error) (.error error)
  /-- The rules are well formed one by one, but make no grammar. -/
  | incomplete {error : Error} :
      (∀ given ∈ rules, ∃ alternatives, ∀ line,
        dialect.readRule (.ofData line given) = .ok alternatives) →
          Agreement dialect rules (.error error) (.error error)
  /-- The first rule that is not well formed is reported with its line in the source. -/
  | faulty {before after : List (Symbol × List (List Symbol))}
      {given : Symbol × List (List Symbol)} {fault : FormatFault} :
      rules = before ++ given :: after →
        (∀ earlier ∈ before, ∃ alternatives, ∀ line,
          dialect.readRule (.ofData line earlier) = .ok alternatives) →
        (∀ line, dialect.readRule (.ofData line given) = .error (.format line fault)) →
          Agreement dialect rules (.error (.format (before.length + 1) fault))
            (.error (.format 0 fault))

/-! ## Lines that render rules -/

theorem printable_shownAlternative {alternative : List Symbol}
    (printable : ∀ symbol ∈ alternative, symbol.isPrintable = true) :
    ∀ symbol ∈ shownAlternative alternative, symbol.isPrintable = true := by
  rw [shownAlternative]
  split
  · decide
  · exact printable

/-- A rule that can be told from its text is written by it. -/
theorem Renderable.writes {given : Symbol × List (List Symbol)} (renderable : Renderable given) :
    Writes (ruleText given) given.1 (given.2.map shownAlternative) where
  text_eq := rfl
  arrow := by
    rw [ruleText, countArrows_lineText, Text.countArrows_intercalate_bar]
    simp only [List.map_map, List.forall_mem_map, Function.comp_apply]
    intro alternative member
    rw [Text.countArrows_eq_zero_iff, shownAlternative]
    split
    · decide
    · exact renderable.arrowless alternative member
  left_printable := renderable.left_printable
  nonempty := by simpa using renderable.nonempty
  printable := by
    simp only [List.forall_mem_map]
    intro alternative member
    exact printable_shownAlternative (renderable.printable alternative member)
  unbarred := by
    simp only [List.forall_mem_map]
    intro alternative member
    rw [shownAlternative]
    split
    · decide
    · exact renderable.unbarred alternative member

/-- A line that writes a rule consists of visible characters. -/
theorem Writes.visible {text : List Char} {left : Symbol} {alternatives : List (List Symbol)}
    (writes : Writes text left alternatives) :
    ∀ character ∈ text, '!' ≤ character ∧ character ≤ '~' := by
  intro character member
  rw [writes.text_eq, lineText, List.mem_cons, List.mem_cons, List.mem_cons] at member
  rcases member with rfl | rfl | rfl | member
  · exact Symbol.isPrintable_iff.mp writes.left_printable
  · decide
  · decide
  · rcases Text.mem_of_mem_intercalate member with bar | ⟨piece, listed, within⟩
    · rw [List.mem_singleton.mp bar]
      decide
    · obtain ⟨alternative, alternativeListed, rfl⟩ := List.mem_map.mp listed
      obtain ⟨symbol, mentioned, rfl⟩ := List.mem_map.mp within
      exact Symbol.isPrintable_iff.mp
        (writes.printable alternative alternativeListed symbol mentioned)

/-- A text in which no label occurs stays as it is. -/
theorem Dialect.substitute_eq_self {dialect : Dialect} {text : List Char}
    (absent : ∀ entry ∈ dialect.labels, ¬entry.1.toList <:+: text) :
    dialect.substitute text = text := by
  rw [substitute]
  generalize dialect.labels = labels at absent
  induction labels with
  | nil => rfl
  | cons entry labels ih =>
      obtain ⟨first, others⟩ := List.forall_mem_cons.mp absent
      rw [List.foldl_cons]
      change labels.foldl _ (Text.replaceAll entry.1.toList [entry.2.toChar] text) = text
      rw [Text.replaceAll_eq_self first, ih others]

namespace Grammar

variable {dialect : Dialect} {rules : List (Symbol × List (List Symbol))} {source : List Char}

/-- Visible lines are kept, all of them with their numbers. -/
theorem sourceLines_of_visible {lines : List (List Char)}
    (cut : Text.lines '\n' '\r' source = lines) (nonempty : ∀ line ∈ lines, line ≠ [])
    (visible : ∀ line ∈ lines, ∀ character ∈ line, '!' ≤ character ∧ character ≤ '~') :
    sourceLines source = lines.mapIdx fun index line => (index + 1, line) := by
  have stripped : lines.mapIdx (fun index line => (index + 1, Text.withoutBlanks line)) =
      lines.mapIdx fun index line => (index + 1, line) := by
    rw [List.mapIdx_eq_mapIdx_iff]
    intro index bound
    rw [Text.withoutBlanks_eq_self (visible _ (List.getElem_mem bound))]
  rw [sourceLines, cut, stripped, List.filter_eq_self]
  intro entry member
  obtain ⟨index, bound, rfl⟩ := List.mem_mapIdx.mp member
  simpa using nonempty _ (List.getElem_mem bound)

/-- The lines that render rules are read as these rules, with the numbers of the lines. -/
theorem readLines_of_renderable (renderable : ∀ given ∈ rules, Renderable given)
    (cut : Text.lines '\n' '\r' source = rules.map ruleText)
    (unlabelled : ∀ entry ∈ dialect.labels, ¬entry.1.toList <:+: source) :
    ((sourceLines source).map fun (line, text) => readLine line (dialect.substitute text)) =
      Rule.numbered (· + 1) rules := by
  have nonempty : ∀ line ∈ rules.map ruleText, line ≠ [] := by
    simp only [List.forall_mem_map]
    exact fun given _ => List.cons_ne_nil _ _
  have visible : ∀ line ∈ rules.map ruleText, ∀ character ∈ line,
      '!' ≤ character ∧ character ≤ '~' := by
    simp only [List.forall_mem_map]
    exact fun given member => (renderable given member).writes.visible
  rw [sourceLines_of_visible cut nonempty visible]
  have reads : ∀ given ∈ rules, ∀ line,
      readLine line (dialect.substitute (ruleText given)) = .ok (.ofData line given) := by
    intro given member line
    have occurs : ruleText given <:+: source :=
      Text.infix_of_mem_lines (cut ▸ List.mem_map_of_mem member)
    have kept : dialect.substitute (ruleText given) = ruleText given :=
      Dialect.substitute_eq_self fun entry listed within =>
        unlabelled entry listed (within.trans occurs)
    rw [kept]
    exact readLine_eq_ok_iff.mpr ⟨rfl, (renderable given member).writes⟩
  apply List.ext_getElem (by simp [Rule.numbered])
  intro index _ _
  simp only [List.getElem_map, List.getElem_mapIdx, Rule.numbered]
  exact reads _ (List.getElem_mem _) (index + 1)

end Grammar

/-! ## Numbered rules -/

namespace Dialect

variable {dialect : Dialect} {rules : List (Symbol × List (List Symbol))}

/-- Rules are read whatever their lines are, or there is a first one with a fault. -/
theorem exists_faulty (dialect : Dialect) (renderable : ∀ given ∈ rules, Renderable given) :
    (∀ given ∈ rules, ∃ alternatives, ∀ line,
      dialect.readRule (.ofData line given) = .ok alternatives) ∨
      ∃ before given after fault, rules = before ++ given :: after ∧
        (∀ earlier ∈ before, ∃ alternatives, ∀ line,
          dialect.readRule (.ofData line earlier) = .ok alternatives) ∧
            ∀ line, dialect.readRule (.ofData line given) = .error (.format line fault) := by
  induction rules with
  | nil => exact .inl (by simp)
  | cons first rest ih =>
      obtain ⟨firstRenderable, restRenderable⟩ := List.forall_mem_cons.mp renderable
      have writes := firstRenderable.writes
      rcases readRule_namesLine dialect writes.left_printable writes.printable with
        fine | ⟨fault, faulty⟩
      · rcases ih restRenderable with
          restFine | ⟨before, given, after, fault, rfl, earlier, faulty⟩
        · exact .inl (List.forall_mem_cons.mpr ⟨fine, restFine⟩)
        · exact .inr ⟨first :: before, given, after, fault, rfl,
            List.forall_mem_cons.mpr ⟨fine, earlier⟩, faulty⟩
      · exact .inr ⟨[], first, rest, fault, rfl, by simp, faulty⟩

/-- Rules that are well formed spell the same whatever their lines are. -/
theorem exists_spelled_of_fine
    (fine : ∀ given ∈ rules, ∃ alternatives, ∀ line,
      dialect.readRule (.ofData line given) = .ok alternatives) :
    ∃ spelled, ∀ number, (Rule.numbered number rules).mapM dialect.spell = .ok spelled := by
  induction rules with
  | nil => exact ⟨[], fun _ => rfl⟩
  | cons first rest ih =>
      obtain ⟨⟨alternatives, firstRead⟩, restFine⟩ := List.forall_mem_cons.mp fine
      obtain ⟨spelled, restSpells⟩ := ih restFine
      refine ⟨(first.1, alternatives) :: spelled, fun number => ?_⟩
      have restNumbered := restSpells fun index => number (index + 1)
      rw [Rule.numbered] at restNumbered
      rw [Rule.numbered, List.mapIdx_cons, List.mapM_cons, spell, firstRead, restNumbered]
      rfl

/-- The first rule that is not well formed is refused with the number of its line. -/
theorem mapM_spell_of_faulty {before after : List (Symbol × List (List Symbol))}
    {given : Symbol × List (List Symbol)} {fault : FormatFault}
    (fine : ∀ earlier ∈ before, ∃ alternatives, ∀ line,
      dialect.readRule (.ofData line earlier) = .ok alternatives)
    (faulty : ∀ line, dialect.readRule (.ofData line given) = .error (.format line fault))
    (number : Nat → Nat) :
    (Rule.numbered number (before ++ given :: after)).mapM dialect.spell =
      .error (.format (number before.length) fault) := by
  rw [Rule.numbered, List.mapIdx_append, List.mapIdx_cons, Nat.zero_add]
  refine mapM_eq_error_iff.mpr ⟨_, _, _, rfl, ?_, ?_⟩
  · intro rule member
    obtain ⟨index, bound, rfl⟩ := List.mem_mapIdx.mp member
    obtain ⟨alternatives, read⟩ := fine _ (List.getElem_mem bound)
    exact ⟨(before[index].1, alternatives), by rw [spell, read]; rfl⟩
  · rw [spell, faulty]

end Dialect

namespace Grammar

variable {dialect : Dialect} {rules : List (Symbol × List (List Symbol))} {source : List Char}

/-- A source whose lines render rules is loaded as the rules are, or fails as they do, if no label
of the dialect occurs in it. -/
theorem parse_agrees (renderable : ∀ given ∈ rules, Renderable given)
    (cut : Text.lines '\n' '\r' source = rules.map ruleText)
    (unlabelled : ∀ entry ∈ dialect.labels, ¬entry.1.toList <:+: source) :
    Agreement dialect rules (parse dialect source) (ofRules dialect rules) := by
  rw [parse, loadSource, readLines_of_renderable renderable cut unlabelled, result_collect,
    ofRules, loadRules_eq, result_collect]
  cases ready : RuleTable.ofDialect dialect with
  | error error => exact .unusable ready
  | ok table =>
      rcases Dialect.exists_faulty dialect renderable with
        fine | ⟨before, given, after, fault, rfl, fine, faulty⟩
      · obtain ⟨spelled, spells⟩ := Dialect.exists_spelled_of_fine fine
        rw [spells, spells]
        change Agreement dialect rules (RuleTable.ofSpelled dialect spelled).toGrammar
          (RuleTable.ofSpelled dialect spelled).toGrammar
        cases (RuleTable.ofSpelled dialect spelled).toGrammar with
        | error error => exact .incomplete fine
        | ok grammar => exact .loaded grammar
      · rw [Dialect.mapM_spell_of_faulty fine faulty, Dialect.mapM_spell_of_faulty fine faulty]
        exact .faulty rfl fine faulty

/-- A rule with a minus sign behind its arrow and with an empty alternative is loaded in both
ways. The end marker in another rule is a fault of line two in the source and of no line in
data. -/
theorem parse_agrees_reserved :
    Agreement .standard [(.ofChar 'S', [[.ofChar '-', .ofChar 'S'], []])]
      (parse .standard "S->-S|e".toList)
      (ofRules .standard [(.ofChar 'S', [[.ofChar '-', .ofChar 'S'], []])]) ∧
    (∃ grammar, parse .standard "S->-S|e".toList = .ok grammar) ∧
    Agreement .standard
      [(.ofChar 'S', [[.ofChar 'n']]), (.ofChar 'T', [[.ofChar 'n'], [.endMarker]])]
      (.error (.format 2 (.rightReserved .endMarker)))
      (.error (.format 0 (.rightReserved .endMarker))) := by
  have minusLoaded : (parse .standard "S->-S|e".toList).map (·.productions.size) = .ok 3 := by
    decide +kernel
  have markerRefused : parse .standard "S->n\nT->n|#\n".toList =
      .error (.format 2 (.rightReserved .endMarker)) := by
    decide +kernel
  have markerRefusedData : ofRules .standard
      [(.ofChar 'S', [[.ofChar 'n']]), (.ofChar 'T', [[.ofChar 'n'], [.endMarker]])] =
        .error (.format 0 (.rightReserved .endMarker)) := rfl
  have minus : ∀ given ∈ [(Symbol.ofChar 'S', [[Symbol.ofChar '-', Symbol.ofChar 'S'], []])],
      Renderable given := by
    rintro _ (_ | ⟨_, ⟨⟩⟩)
    exact ⟨by decide, by decide, by decide, by decide, by decide⟩
  have marker : ∀ given ∈ [(Symbol.ofChar 'S', [[Symbol.ofChar 'n']]),
      (Symbol.ofChar 'T', [[Symbol.ofChar 'n'], [Symbol.endMarker]])], Renderable given := by
    rintro _ (_ | ⟨_, _ | ⟨_, ⟨⟩⟩⟩)
    · exact ⟨by decide, by decide, by decide, by decide, by decide⟩
    · exact ⟨by decide, by decide, by decide, by decide, by decide⟩
  have minusLines : Text.lines '\n' '\r' "S->-S|e".toList =
      [(Symbol.ofChar 'S', [[Symbol.ofChar '-', Symbol.ofChar 'S'], []])].map ruleText := by
    decide +kernel
  have markerLines : Text.lines '\n' '\r' "S->n\nT->n|#\n".toList =
      [(Symbol.ofChar 'S', [[Symbol.ofChar 'n']]),
        (Symbol.ofChar 'T', [[Symbol.ofChar 'n'], [Symbol.endMarker]])].map ruleText := by
    decide +kernel
  refine ⟨parse_agrees minus minusLines (by decide), ?_, ?_⟩
  · obtain ⟨grammar, loaded, _⟩ := exists_of_map_eq_ok minusLoaded
    exact ⟨grammar, loaded⟩
  · have agreed : Agreement .standard
        [(.ofChar 'S', [[.ofChar 'n']]), (.ofChar 'T', [[.ofChar 'n'], [.endMarker]])]
        (parse .standard "S->n\nT->n|#\n".toList) _ :=
      parse_agrees marker markerLines (by decide)
    rwa [markerRefused, markerRefusedData] at agreed

end Grammar

end ShiftReduce
