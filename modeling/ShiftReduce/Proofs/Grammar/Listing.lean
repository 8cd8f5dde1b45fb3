import ShiftReduce.Proofs.Grammar.Collecting
import ShiftReduce.Proofs.Text.FixedWidth
import ShiftReduce.Proofs.Text.Replacing

/-!
# Lines of a listing

The listing of a grammar has one line for each production, which shows the symbols by their labels.
In the standard dialect the labels are read as the symbols again, if the characters of the symbols
do not make a label by themselves.
Main statements: `Dialect.substitute_labels` and `Grammar.dumpedRules_eq`.
-/

namespace ShiftReduce

/-- What stands behind the first comma of a text. -/
def Text.afterComma (text : List Char) : List Char := (text.dropWhile (· != ',')).drop 1

/-- The lines of a grammar's listing without the header and the augmented production, and without
what stands in front of the productions. -/
def Grammar.dumpedRules (grammar : Grammar) : List (List Char) :=
  (((Text.lines '\n' '\r' grammar.listing.toList).drop 1).eraseIdx 1).map fun line =>
    Text.afterComma (Text.afterComma line)

/-- The labels of some symbols, without separators. -/
def Grammar.labelText (grammar : Grammar) (symbols : List Symbol) : List Char :=
  symbols.flatMap fun symbol => (grammar.label symbol).toList

/-! ## Labels of the standard dialect -/

namespace Dialect

/-- A text in which no label of the standard dialect occurs. -/
structure Unlabelled (text : List Char) : Prop where
  sum : ¬['E', '\''] <:+: text
  term : ¬['T', '\''] <:+: text

theorem toList_label_standard (symbol : Symbol) :
    (Dialect.standard.label symbol).toList =
      Text.expand 'R' ['E', '\''] (Text.expand 'U' ['T', '\''] [symbol.toChar]) := by
  have sum : symbol.toChar = 'R' ↔ Symbol.ofChar 'R' = symbol := by
    constructor
    · intro same
      rw [← same, Symbol.ofChar_toChar]
    · rintro rfl
      rfl
  have term : symbol.toChar = 'U' ↔ Symbol.ofChar 'U' = symbol := by
    constructor
    · intro same
      rw [← same, Symbol.ofChar_toChar]
    · rintro rfl
      rfl
  by_cases isSum : Symbol.ofChar 'R' = symbol
  · subst isSum
    rfl
  · by_cases isTerm : Symbol.ofChar 'U' = symbol
    · subst isTerm
      rfl
    · simp [label, label?, standard, Text.expand, sum, term, isSum, isTerm, Symbol.text]

/-- Labels are written in the place of the symbols that stand for them. -/
theorem flatMap_label_standard (symbols : List Symbol) :
    (symbols.flatMap fun symbol => (Dialect.standard.label symbol).toList) =
      Text.expand 'R' ['E', '\''] (Text.expand 'U' ['T', '\''] (symbols.map Symbol.toChar)) := by
  induction symbols with
  | nil => rfl
  | cons symbol symbols ih =>
      rw [List.flatMap_cons, ih, toList_label_standard, List.map_cons]
      simp [Text.expand]

theorem substitute_standard (text : List Char) :
    Dialect.standard.substitute text = Text.replaceAll ['T', '\''] ['U']
      (Text.replaceAll ['E', '\''] ['R'] text) := rfl

/-- No label is left where labels are written as symbols. -/
theorem unlabelled_substitute (text : List Char) :
    Unlabelled (Dialect.standard.substitute text) where
  sum := Text.not_infix_replaceFrom_of_absent (by decide) (by decide) 0
    (Text.not_infix_replaceFrom (by decide) (by decide) 0)
  term := Text.not_infix_replaceFrom (by decide) (by decide) 0

theorem Unlabelled.part {text part : List Char} (unlabelled : Unlabelled text)
    (within : part <:+: text) : Unlabelled part where
  sum occurs := unlabelled.sum (occurs.trans within)
  term occurs := unlabelled.term (occurs.trans within)

/-- Writing labels as symbols restores symbols that are shown by their labels. -/
theorem substitute_labels {symbols : List Symbol}
    (unlabelled : Unlabelled (symbols.map Symbol.toChar)) :
    (Dialect.standard.substitute
      (symbols.flatMap fun symbol => (Dialect.standard.label symbol).toList)) =
        symbols.map Symbol.toChar := by
  have sum : ¬['E', '\''] <:+: Text.expand 'U' ['T', '\''] (symbols.map Symbol.toChar) :=
    Text.not_infix_expand (by decide) (by decide) (by decide) unlabelled.sum
  rw [flatMap_label_standard, substitute_standard, Text.replaceAll_expand (by decide) sum,
    Text.replaceAll_expand (by decide) unlabelled.term]

end Dialect

/-! ## The lines of a listing -/

theorem Text.afterComma_append {front : List Char} (absent : ',' ∉ front) (back : List Char) :
    Text.afterComma (front ++ ',' :: back) = back := by
  have skipped : (front ++ ',' :: back).dropWhile (· != ',') = ',' :: back := by
    rw [List.dropWhile_append_of_pos]
    · rfl
    · intro character member
      simpa using fun same : character = ',' => absent (same ▸ member)
  rw [Text.afterComma, skipped]
  rfl

namespace Grammar

variable {grammar : Grammar}

theorem toList_labelledProduction (production : Production) :
    (grammar.labelledProduction production).toList =
      (grammar.label production.left).toList ++ ' ' :: '-' :: '>' ::
        (if production.right.isEmpty then [' ', 'e']
        else production.right.flatMap fun symbol => ' ' :: (grammar.label symbol).toList) := by
  have arrow : " ->".toList = [' ', '-', '>'] := rfl
  have nothing : (" " ++ Symbol.empty.text).toList = [' ', 'e'] := rfl
  rw [labelledProduction, String.toList_append, String.toList_append, arrow, List.append_assoc]
  split
  · rw [nothing]
    rfl
  · simp [String.toList_append, List.flatMap_map]

/-- The line of a listing that shows a production. -/
def numberedLine (grammar : Grammar) (id : Nat) (production : Production) : List Char :=
  'P' :: ',' :: ((toString id).toList ++ ',' :: (grammar.labelledProduction production).toList)

theorem toList_numberedLine (id : Nat) (production : Production) :
    (s!"P,{id},{grammar.labelledProduction production}").toList =
      grammar.numberedLine id production := by
  change ("P," ++ toString id ++ "," ++ grammar.labelledProduction production).toList = _
  rw [String.toList_append, String.toList_append, String.toList_append, List.append_assoc,
    List.append_assoc]
  rfl

theorem afterComma_numberedLine (id : Nat) (production : Production) :
    Text.afterComma (Text.afterComma (grammar.numberedLine id production)) =
      (grammar.labelledProduction production).toList := by
  have noComma : ',' ∉ (toString id).toList := fun member =>
    absurd (isDigit_of_mem_toString member) (by decide)
  have first : Text.afterComma (grammar.numberedLine id production) =
      (toString id).toList ++ ',' :: (grammar.labelledProduction production).toList :=
    Text.afterComma_append (List.mem_singleton.not.mpr (by decide : ',' ≠ 'P')) _
  rw [first, Text.afterComma_append noComma]

/-! ### The lines of a grammar in the standard dialect -/

section Standard

variable (standard : grammar.dialect = .standard) {production : Production}
include standard

theorem visible_label {symbol : Symbol} (printable : symbol.isPrintable = true) :
    ∀ character ∈ (grammar.label symbol).toList, '!' ≤ character ∧ character ≤ '~' := by
  intro character member
  rw [label, standard, Dialect.toList_label_standard] at member
  rcases Text.mem_of_mem_expand member with listed | member
  · simp only [List.mem_cons, List.not_mem_nil, or_false] at listed
    rcases listed with rfl | rfl
    · decide
    · decide
  · rcases Text.mem_of_mem_expand member with listed | same
    · simp only [List.mem_cons, List.not_mem_nil, or_false] at listed
      rcases listed with rfl | rfl
      · decide
      · decide
    · rw [List.mem_singleton.mp same]
      exact Symbol.isPrintable_iff.mp printable

theorem inline_labelledProduction
    (printable : ∀ symbol ∈ production.left :: production.right, symbol.isPrintable = true) :
    ∀ character ∈ (grammar.labelledProduction production).toList, Text.Inline character := by
  have inlineLabel : ∀ symbol ∈ production.left :: production.right,
      ∀ character ∈ (grammar.label symbol).toList, Text.Inline character :=
    fun symbol member character within =>
      Text.inline_of_le (visible_label standard (printable symbol member) character within).1
  obtain ⟨left, right⟩ := List.forall_mem_cons.mp inlineLabel
  rw [toList_labelledProduction, List.forall_mem_append, List.forall_mem_cons,
    List.forall_mem_cons, List.forall_mem_cons]
  refine ⟨left, by decide, by decide, by decide, ?_⟩
  split
  · rw [List.forall_mem_cons, List.forall_mem_singleton]
    exact ⟨by decide, by decide⟩
  · rw [List.forall_mem_flatMap]
    exact fun symbol mentioned => List.forall_mem_cons.mpr ⟨by decide, right symbol mentioned⟩

/-- Without its blanks, a production is shown by the labels of its symbols around an arrow. -/
theorem withoutBlanks_labelledProduction
    (printable : ∀ symbol ∈ production.left :: production.right, symbol.isPrintable = true) :
    Text.withoutBlanks (grammar.labelledProduction production).toList =
      grammar.labelText (production.left :: .ofChar '-' :: .ofChar '>' ::
        shownAlternative production.right) := by
  have kept : ∀ symbol ∈ production.left :: production.right,
      Text.withoutBlanks (grammar.label symbol).toList = (grammar.label symbol).toList :=
    fun symbol member =>
      Text.withoutBlanks_eq_self (visible_label standard (printable symbol member))
  obtain ⟨left, right⟩ := List.forall_mem_cons.mp kept
  have minus : (grammar.label (.ofChar '-')).toList = ['-'] := by
    rw [label, standard]
    decide
  have greater : (grammar.label (.ofChar '>')).toList = ['>'] := by
    rw [label, standard]
    decide
  have nothing : (grammar.label .empty).toList = ['e'] := by
    rw [label, standard]
    decide
  have around : ∀ back : List Char,
      Text.withoutBlanks ((grammar.label production.left).toList ++ ' ' :: '-' :: '>' :: back) =
        (grammar.label production.left).toList ++ '-' :: '>' :: Text.withoutBlanks back := by
    intro back
    rw [Text.withoutBlanks, List.filter_append, ← Text.withoutBlanks, left]
    rfl
  rw [toList_labelledProduction, around, labelText, List.flatMap_cons, List.flatMap_cons,
    List.flatMap_cons, minus, greater, shownAlternative]
  split
  · simp [nothing]
    rfl
  · have symbols : Text.withoutBlanks (production.right.flatMap fun symbol =>
        ' ' :: (grammar.label symbol).toList) =
          production.right.flatMap fun symbol => (grammar.label symbol).toList := by
      rw [Text.withoutBlanks, List.filter_flatMap]
      exact List.flatMap_congr right
    rw [symbols]
    rfl

theorem inline_numberedLine
    (printable : ∀ symbol ∈ production.left :: production.right, symbol.isPrintable = true)
    (id : Nat) : ∀ character ∈ grammar.numberedLine id production, Text.Inline character := by
  rw [numberedLine, List.forall_mem_cons, List.forall_mem_cons, List.forall_mem_append,
    List.forall_mem_cons]
  exact ⟨by decide, by decide, fun _ => inline_of_mem_toString, by decide,
    inline_labelledProduction standard printable⟩

/-- The lines of a listing are a header, a blank line, and the numbered productions. -/
theorem lines_listing
    (printable : ∀ production ∈ grammar.productions.toList,
      ∀ symbol ∈ production.left :: production.right, symbol.isPrintable = true) :
    ∃ header, Text.lines '\n' '\r' grammar.listing.toList =
      header :: [] :: grammar.productions.toList.mapIdx grammar.numberedLine := by
  have numbered : (grammar.productions.toList.mapIdx fun id production =>
      s!"P,{id},{grammar.labelledProduction production}").map String.toList =
        grammar.productions.toList.mapIdx grammar.numberedLine := by
    apply List.ext_getElem (by simp)
    intro id _ _
    rw [List.getElem_map, List.getElem_mapIdx, List.getElem_mapIdx, toList_numberedLine]
  have header : (s!"PS,{grammar.productions.size}").toList =
      'P' :: 'S' :: ',' :: (toString grammar.productions.size).toList := by
    change ("PS," ++ toString grammar.productions.size).toList = _
    rw [String.toList_append]
    rfl
  refine ⟨(s!"PS,{grammar.productions.size}").toList, ?_⟩
  rw [listing, Text.toList_unlines, List.map_cons, List.map_cons, numbered, Text.lines_ofLines]
  · rfl
  · rw [header]
    refine List.forall_mem_cons.mpr ⟨?_, List.forall_mem_cons.mpr ⟨by simp, ?_⟩⟩
    · rw [List.forall_mem_cons, List.forall_mem_cons, List.forall_mem_cons]
      exact ⟨by decide, by decide, by decide, fun _ => inline_of_mem_toString⟩
    · intro line member
      obtain ⟨id, bound, rfl⟩ := List.mem_mapIdx.mp member
      exact inline_numberedLine standard (printable _ (List.getElem_mem bound)) id

/-- The lines that are loaded again are a blank one and the labelled productions. -/
theorem dumpedRules_eq
    (printable : ∀ production ∈ grammar.productions.toList,
      ∀ symbol ∈ production.left :: production.right, symbol.isPrintable = true)
    {first : Production} {rest : List Production}
    (cut : grammar.productions.toList = first :: rest) :
    grammar.dumpedRules =
      [] :: rest.map fun production => (grammar.labelledProduction production).toList := by
  obtain ⟨header, lines⟩ := lines_listing standard printable
  have unnumbered : (rest.mapIdx fun index => grammar.numberedLine (index + 1)).map
      (fun line => Text.afterComma (Text.afterComma line)) =
        rest.map fun production => (grammar.labelledProduction production).toList := by
    apply List.ext_getElem (by simp)
    intro id _ _
    rw [List.getElem_map, List.getElem_mapIdx, List.getElem_map, afterComma_numberedLine]
  rw [dumpedRules, lines, cut, List.mapIdx_cons, ← unnumbered]
  rfl

end Standard

end Grammar

end ShiftReduce
