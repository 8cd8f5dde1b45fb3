import ShiftReduce.Grammar.Source
import ShiftReduce.Proofs.Text.Reading

/-!
# Lines of a source

A line writes a rule as its nonterminal, the only arrow of the line, and the alternatives with
bars between them.  Reading a line yields just the rule that it writes, and a line that writes no
rule is refused as such or because of a character that is no symbol.
Main statements: `Grammar.readLine_eq_ok_iff` and `Grammar.readLine_eq_error`.
-/

namespace ShiftReduce

/-- The text of a rule on one line. -/
def lineText (left : Symbol) (alternatives : List (List Symbol)) : List Char :=
  left.toChar :: '-' :: '>' :: ['|'].intercalate (alternatives.map (·.map Symbol.toChar))

/-- A text that writes a rule on one line, with printable symbols, and cannot be cut up in any
other way. -/
structure Writes (text : List Char) (left : Symbol) (alternatives : List (List Symbol)) :
    Prop where
  text_eq : text = lineText left alternatives
  arrow : Text.countArrows text = 1
  left_printable : left.isPrintable = true
  nonempty : alternatives ≠ []
  printable : ∀ alternative ∈ alternatives, ∀ symbol ∈ alternative, symbol.isPrintable = true
  unbarred : ∀ alternative ∈ alternatives, Symbol.ofChar '|' ∉ alternative

theorem Symbol.bar_mem_map_toChar {symbols : List Symbol} :
    '|' ∈ symbols.map toChar ↔ ofChar '|' ∈ symbols :=
  List.mem_map_of_injective toChar_injective (a := ofChar '|')

/-- What stands behind the arrow of a line that writes a rule has no arrow. -/
theorem countArrows_lineText (left : Symbol) (alternatives : List (List Symbol)) :
    Text.countArrows (lineText left alternatives) =
      Text.countArrows (['|'].intercalate (alternatives.map (·.map Symbol.toChar))) + 1 := by
  simp [lineText, Text.countArrows_cons, List.isPrefixOf]

namespace Grammar

variable {line : Nat} {text : List Char} {rule : Rule}

theorem mapM_readAll_eq_ok_iff {pieces : List (List Char)} {alternatives : List (List Symbol)} :
    pieces.mapM Symbol.readAll = .ok alternatives ↔
      pieces = alternatives.map (·.map Symbol.toChar) ∧
        ∀ alternative ∈ alternatives, ∀ symbol ∈ alternative, symbol.isPrintable = true := by
  rw [mapM_eq_ok_iff]
  apply forall₂_iff_eq_map
  intro piece alternative
  exact Symbol.readAll_eq_ok_iff

/-- What is read from the two sides of an arrow is written by the whole. -/
theorem writes_of_splitArrows {left : Symbol} {right : List Char}
    {alternatives : List (List Symbol)} (cut : Text.splitArrows text = [[left.toChar], right])
    (printable : left.isPrintable = true)
    (read : (Text.splitOn '|' right).mapM Symbol.readAll = .ok alternatives) :
    Writes text left alternatives := by
  obtain ⟨pieces, symbols⟩ := mapM_readAll_eq_ok_iff.mp read
  have whole := Text.intercalate_splitArrows text
  have arrows := Text.length_splitArrows text
  rw [cut] at whole arrows
  refine ⟨?_, by simpa using arrows.symm, printable, ?_, symbols, ?_⟩
  · rw [← whole, lineText, ← pieces, Text.intercalate_splitOn, List.intercalate_cons_cons,
      List.intercalate_singleton]
    rfl
  · rintro rfl
    exact Text.splitOn_ne_nil '|' right pieces
  · intro alternative member
    have listed : alternative.map Symbol.toChar ∈ Text.splitOn '|' right :=
      pieces ▸ List.mem_map_of_mem member
    rw [← Symbol.bar_mem_map_toChar]
    exact Text.not_mem_of_mem_splitOn listed

/-- A line that writes a rule is cut at its arrow and its bars. -/
theorem splitArrows_of_writes {left : Symbol} {alternatives : List (List Symbol)}
    (writes : Writes text left alternatives) :
    ∃ right, Text.splitArrows text = [[left.toChar], right] ∧
      (Text.splitOn '|' right).mapM Symbol.readAll = .ok alternatives := by
  refine ⟨['|'].intercalate (alternatives.map (·.map Symbol.toChar)), ?_, ?_⟩
  · have arrow := writes.arrow
    rw [writes.text_eq, countArrows_lineText, Nat.add_eq_right] at arrow
    rw [writes.text_eq, lineText, Text.splitArrows_cons_arrow,
      Text.splitArrows_of_countArrows_eq_zero arrow]
  · refine mapM_readAll_eq_ok_iff.mpr ⟨Text.splitOn_intercalate '|' ?_ ?_, writes.printable⟩
    · intro piece member
      obtain ⟨alternative, listed, rfl⟩ := List.mem_map.mp member
      rw [Symbol.bar_mem_map_toChar]
      exact writes.unbarred alternative listed
    · simpa using writes.nonempty

/-- Reading a line yields the rule that the line writes. -/
theorem readLine_eq_ok_iff :
    readLine line text = .ok rule ↔
      rule.line = line ∧ Writes text rule.left rule.alternatives := by
  constructor
  · intro read
    simp only [readLine] at read
    split at read
    next left right cut =>
      split at read
      next => cases read
      next symbol leftRead =>
        obtain ⟨rfl, printable⟩ := Symbol.readAll_eq_ok_iff.mp leftRead
        cases alternativesRead : (Text.splitOn '|' right).mapM Symbol.readAll with
        | error error => simp [alternativesRead, bind, Except.bind] at read
        | ok alternatives =>
            simp only [alternativesRead, bind, Except.bind, Except.ok.injEq] at read
            subst read
            exact ⟨rfl, writes_of_splitArrows cut (printable symbol List.mem_cons_self)
              alternativesRead⟩
      next => cases read
    next => cases read
  · rintro ⟨rfl, writes⟩
    obtain ⟨right, cut, alternativesRead⟩ := splitArrows_of_writes writes
    have leftRead : Symbol.readAll [rule.left.toChar] = .ok [rule.left] :=
      Symbol.readAll_eq_ok_iff.mpr ⟨rfl, by simpa using writes.left_printable⟩
    simp only [readLine, cut, leftRead, alternativesRead]
    rfl

/-- A line that is not read does not have one arrow with one symbol in front, or it has a
character that is no symbol. -/
theorem readLine_eq_error {error : Error} (refused : readLine line text = .error error) :
    (∃ fault, error = .format line fault) ∨
      ∃ character ∈ text, Symbol.ofPrintable? character = none ∧
        error = .unknownSymbol character := by
  have whole := Text.intercalate_splitArrows text
  simp only [readLine] at refused
  split at refused
  next left right cut =>
    rw [cut] at whole
    have within : ∀ side ∈ [left, right], ∀ character ∈ side, character ∈ text := by
      intro side member character
      exact fun listed => whole ▸ (Text.infix_intercalate member).subset listed
    split at refused
    next leftError unread =>
      cases refused
      obtain ⟨character, listed, unknown⟩ := Symbol.readAll_eq_error unread
      exact .inr ⟨character, within left (by simp) character listed, unknown⟩
    next =>
      cases alternativesRead : (Text.splitOn '|' right).mapM Symbol.readAll with
      | ok alternatives => simp [alternativesRead, bind, Except.bind] at refused
      | error alternativeError =>
          simp only [alternativesRead, bind, Except.bind, Except.error.injEq] at refused
          subst refused
          obtain ⟨before, piece, after, pieces, _, unread⟩ := mapM_eq_error_iff.mp alternativesRead
          obtain ⟨character, listed, unknown⟩ := Symbol.readAll_eq_error unread
          have occurs : piece <:+: right := by
            rw [← Text.intercalate_splitOn '|' right, pieces]
            exact Text.infix_intercalate (by simp)
          exact .inr ⟨character, within right (by simp) character (occurs.subset listed),
            unknown⟩
    next =>
      cases refused
      exact .inl ⟨_, rfl⟩
  next =>
    cases refused
    exact .inl ⟨_, rfl⟩

end Grammar

end ShiftReduce
