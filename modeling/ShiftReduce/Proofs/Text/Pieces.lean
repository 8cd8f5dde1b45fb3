import Mathlib.Data.List.Infix
import ShiftReduce.Text.Pieces

/-!
# Pieces of text put together again

Cutting a text undoes putting it together: from lines, from pieces between separators, and from
the two sides of its only arrow.  Main statements: `splitOn_intercalate`, `lines_ofLines` and
`intercalate_splitArrows`.
-/

namespace ShiftReduce.Text

/-! ## Pieces between separators -/

theorem splitOn_eq (separator : Char) (text : List Char) :
    splitOn separator text = text.splitOn separator := by
  induction text with
  | nil => rfl
  | cons first rest ih =>
      have cut : (first :: rest).splitOn separator = if first == separator then
          [] :: rest.splitOn separator else (rest.splitOn separator).modifyHead (first :: ·) := by
        simp only [List.splitOn_eq_splitOnP, List.splitOnP_cons_eq_if_modifyHead]
      rw [splitOn, ih, cut]
      by_cases equal : first = separator
      · simp [equal]
      · rw [if_neg equal, if_neg (by simpa using equal)]
        cases pieces : rest.splitOn separator with
        | nil => exact absurd pieces (List.splitOn_ne_nil separator rest)
        | cons piece others => rfl

theorem splitOn_intercalate (separator : Char) {pieces : List (List Char)}
    (unseparated : ∀ piece ∈ pieces, separator ∉ piece) (nonempty : pieces ≠ []) :
    splitOn separator ([separator].intercalate pieces) = pieces := by
  rw [splitOn_eq, List.splitOn_intercalate separator unseparated nonempty]

theorem intercalate_splitOn (separator : Char) (text : List Char) :
    [separator].intercalate (splitOn separator text) = text := by
  rw [splitOn_eq, List.intercalate_splitOn]

theorem splitOn_ne_nil (separator : Char) (text : List Char) : splitOn separator text ≠ [] := by
  rw [splitOn_eq]
  exact List.splitOn_ne_nil separator text

theorem not_mem_of_mem_splitOn {separator : Char} {text piece : List Char}
    (member : piece ∈ splitOn separator text) : separator ∉ piece := by
  induction text generalizing piece with
  | nil =>
      rw [List.mem_singleton.mp member]
      exact List.not_mem_nil
  | cons first rest ih =>
      rw [splitOn] at member
      split at member
      · rcases List.mem_cons.mp member with rfl | member
        · exact List.not_mem_nil
        · exact ih member
      next different =>
        cases pieces : splitOn separator rest with
        | nil => exact absurd pieces (splitOn_ne_nil separator rest)
        | cons head others =>
            rw [pieces, extendFirst] at member
            rw [pieces] at ih
            rcases List.mem_cons.mp member with rfl | member
            · rw [List.mem_cons, not_or]
              exact ⟨Ne.symm different, ih List.mem_cons_self⟩
            · exact ih (List.mem_cons_of_mem _ member)

/-- Pieces occur in the text that is put together from them. -/
theorem infix_intercalate {separator piece : List Char} {pieces : List (List Char)}
    (member : piece ∈ pieces) : piece <:+: separator.intercalate pieces := by
  induction pieces with
  | nil => cases member
  | cons head pieces ih =>
      cases pieces with
      | nil =>
          rw [List.intercalate_singleton, List.mem_singleton.mp member]
      | cons second pieces =>
          rw [List.intercalate_cons_cons]
          rcases List.mem_cons.mp member with rfl | member
          · rw [List.append_assoc]
            exact (List.prefix_append piece _).isInfix
          · exact (ih member).trans (List.suffix_append _ _).isInfix

theorem mem_of_mem_intercalate {separator : List Char} {character : Char}
    {pieces : List (List Char)} (member : character ∈ separator.intercalate pieces) :
    character ∈ separator ∨ ∃ piece ∈ pieces, character ∈ piece := by
  induction pieces with
  | nil => cases member
  | cons head pieces ih =>
      cases pieces with
      | nil => exact .inr ⟨head, List.mem_cons_self, by simpa using member⟩
      | cons second pieces =>
          rw [List.intercalate_cons_cons, List.append_assoc, List.mem_append,
            List.mem_append] at member
          rcases member with member | member | member
          · exact .inr ⟨head, List.mem_cons_self, member⟩
          · exact .inl member
          · exact (ih member).imp id fun ⟨piece, listed, within⟩ =>
              ⟨piece, List.mem_cons_of_mem head listed, within⟩

/-! ## Lines -/

/-- A character that ends no line. -/
def Inline (character : Char) : Prop := character ≠ '\n' ∧ character ≠ '\r'

instance (character : Char) : Decidable (Inline character) := inferInstanceAs (Decidable (_ ∧ _))

/-- The text of some lines, each of them ended by a newline. -/
def ofLines (lines : List (List Char)) : List Char := lines.flatMap (· ++ ['\n'])

theorem lines_cons_newline (rest : List Char) :
    lines '\n' '\r' ('\n' :: rest) = [] :: lines '\n' '\r' rest := by
  rw [lines.eq_def]
  exact if_pos rfl

theorem lines_append_newline {line : List Char} (inline : ∀ character ∈ line, Inline character)
    (rest : List Char) :
    lines '\n' '\r' (line ++ '\n' :: rest) = line :: lines '\n' '\r' rest := by
  induction line with
  | nil => exact lines_cons_newline rest
  | cons first line ih =>
      obtain ⟨notNewline, notReturn⟩ := inline first List.mem_cons_self
      have rest := ih fun character member => inline character (List.mem_cons_of_mem _ member)
      cases line with
      | nil => simp [lines, notNewline, notReturn, lines_cons_newline, extendFirst]
      | cons second line =>
          rw [List.cons_append] at rest
          simp [lines, notNewline, notReturn, rest, extendFirst]

/-- Lines that are ended by newlines are the first lines of a text. -/
theorem lines_ofLines_append {front : List (List Char)}
    (inline : ∀ line ∈ front, ∀ character ∈ line, Inline character) (rest : List Char) :
    lines '\n' '\r' (ofLines front ++ rest) = front ++ lines '\n' '\r' rest := by
  induction front with
  | nil => rfl
  | cons line front ih =>
      have others := ih fun other member => inline other (List.mem_cons_of_mem _ member)
      rw [ofLines, List.flatMap_cons, List.append_assoc, List.append_assoc, List.singleton_append,
        lines_append_newline (inline line List.mem_cons_self), ← ofLines, others,
        List.cons_append]

theorem lines_ofLines {all : List (List Char)}
    (inline : ∀ line ∈ all, ∀ character ∈ line, Inline character) :
    lines '\n' '\r' (ofLines all) = all := by
  have cut := lines_ofLines_append inline []
  rwa [List.append_nil, lines, List.append_nil] at cut

theorem lines_ne_nil {text : List Char} (nonempty : text ≠ []) : lines '\n' '\r' text ≠ [] := by
  fun_cases lines '\n' '\r' text with
  | case1 => exact absurd rfl nonempty
  | case2 => exact List.cons_ne_nil _ _
  | case3 => exact List.cons_ne_nil _ _
  | case4 => exact List.cons_ne_nil _ _
  | case5 first _ second others _ =>
      cases lines '\n' '\r' (second :: others) with
      | nil => exact List.cons_ne_nil _ _
      | cons line rest => exact List.cons_ne_nil _ _

theorem extendFirst_append {pieces : List (List Char)} (nonempty : pieces ≠ []) (first : Char)
    (others : List (List Char)) :
    extendFirst first (pieces ++ others) = extendFirst first pieces ++ others := by
  obtain ⟨piece, rest, rfl⟩ := List.exists_cons_of_ne_nil nonempty
  rfl

/-- What ends with a newline has its own lines, whatever they are, and the lines of what
follows come behind them. -/
theorem lines_append_lines (text rest : List Char) :
    lines '\n' '\r' (text ++ '\n' :: rest) =
      lines '\n' '\r' (text ++ ['\n']) ++ lines '\n' '\r' rest := by
  fun_induction lines '\n' '\r' text with
  | case1 => rw [List.nil_append, List.nil_append, lines_cons_newline, lines_cons_newline]; rfl
  | case2 others ih =>
      rw [List.cons_append, List.cons_append, lines_cons_newline, lines_cons_newline, ih]
      rfl
  | case3 first notNewline =>
      by_cases carriage : first = '\r'
      · simp [lines, carriage]
      · simp [lines, notNewline, carriage, extendFirst, lines_cons_newline]
  | case4 first notNewline second others ends ih =>
      obtain ⟨rfl, rfl⟩ := ends
      simp [lines, ih]
  | case5 first notNewline second others inside ih =>
      simp only [List.cons_append] at ih ⊢
      rw [lines, lines, if_neg notNewline, if_neg notNewline]
      simp only [if_neg inside]
      rw [ih, extendFirst_append (lines_ne_nil (List.cons_ne_nil _ _))]

/-- The first line of a text begins it, and every line occurs in it. The first line is tracked
because a character in front of a text goes to its first line. -/
theorem prefix_and_infix_of_lines (newline carriageReturn : Char) (text : List Char) :
    (∀ line ∈ (lines newline carriageReturn text).head?, line <+: text) ∧
      ∀ line ∈ lines newline carriageReturn text, line <:+: text := by
  fun_induction lines newline carriageReturn text with
  | case1 => simp
  | case2 rest ih =>
      refine ⟨by simp, List.forall_mem_cons.mpr ⟨List.nil_infix, fun line member => ?_⟩⟩
      exact (ih.2 line member).trans (List.suffix_cons _ _).isInfix
  | case3 first => simp
  | case4 first _ second others _ ih =>
      refine ⟨by simp, List.forall_mem_cons.mpr ⟨List.nil_infix, fun line member => ?_⟩⟩
      exact (ih.2 line member).trans
        ((List.suffix_cons _ _).trans (List.suffix_cons _ _)).isInfix
  | case5 first _ second others _ ih =>
      obtain ⟨begins, occurs⟩ := ih
      cases cut : lines newline carriageReturn (second :: others) with
      | nil =>
          have single : [first] <+: first :: second :: others := ⟨second :: others, rfl⟩
          simp only [extendFirst, List.head?_cons, List.mem_singleton, Option.mem_some_iff]
          exact ⟨fun line same => same ▸ single, fun line same => same ▸ single.isInfix⟩
      | cons head rest =>
          rw [cut] at begins occurs
          have extended : first :: head <+: first :: second :: others :=
            (List.prefix_cons_inj first).mpr (begins head rfl)
          refine ⟨by simpa [extendFirst] using extended, ?_⟩
          rw [extendFirst]
          refine List.forall_mem_cons.mpr ⟨extended.isInfix, fun line member => ?_⟩
          exact (occurs line (List.mem_cons_of_mem head member)).trans
            (List.suffix_cons _ _).isInfix

theorem infix_of_mem_lines {text line : List Char} (member : line ∈ lines '\n' '\r' text) :
    line <:+: text :=
  (prefix_and_infix_of_lines '\n' '\r' text).2 line member

theorem toList_unlines (texts : List String) :
    (unlines texts).toList = ofLines (texts.map String.toList) := by
  simp [unlines, ofLines, List.flatMap_map]

/-! ## Arrows -/

/-- How many arrows `->` a text has. -/
def countArrows (text : List Char) : Nat := text.tails.countP (['-', '>'].isPrefixOf ·)

theorem countArrows_cons (first : Char) (rest : List Char) :
    countArrows (first :: rest) =
      countArrows rest + if ['-', '>'].isPrefixOf (first :: rest) then 1 else 0 := by
  rw [countArrows, List.tails, List.countP_cons]
  rfl

/-- There is one piece more than there are arrows. -/
theorem length_splitArrows (text : List Char) :
    (splitArrows text).length = countArrows text + 1 := by
  fun_induction splitArrows text with
  | case1 => rfl
  | case2 rest ih => simp [countArrows_cons, ih]
  | case3 first rest noArrow ih =>
      have different : ['-', '>'].isPrefixOf (first :: rest) = false := by
        cases rest with
        | nil => simp [List.isPrefixOf]
        | cons second rest =>
            rw [Bool.eq_false_iff]
            intro arrow
            simp only [List.isPrefixOf_cons_cons, List.isPrefixOf_nil_left, Bool.and_true,
              Bool.and_eq_true, beq_iff_eq] at arrow
            exact noArrow rest arrow.1.symm (by rw [← arrow.2])
      rw [countArrows_cons, different]
      cases pieces : splitArrows rest with
      | nil => simp [pieces] at ih
      | cons piece others =>
          rw [pieces] at ih
          simpa [extendFirst] using ih

theorem intercalate_splitArrows (text : List Char) :
    ['-', '>'].intercalate (splitArrows text) = text := by
  fun_induction splitArrows text with
  | case1 => rfl
  | case2 rest ih =>
      cases pieces : splitArrows rest with
      | nil => simpa [pieces] using length_splitArrows rest
      | cons piece others =>
          rw [pieces] at ih
          rw [List.intercalate_cons_cons, ih]
          rfl
  | case3 first rest noArrow ih =>
      cases pieces : splitArrows rest with
      | nil => simpa [pieces] using length_splitArrows rest
      | cons piece others =>
          rw [pieces] at ih
          cases others with
          | nil =>
              rw [List.intercalate_singleton] at ih
              rw [extendFirst, List.intercalate_singleton, ih]
          | cons other others =>
              rw [List.intercalate_cons_cons] at ih
              rw [extendFirst, List.intercalate_cons_cons, ← ih]
              rfl

/-- An arrow behind one character cuts off just that character. -/
theorem splitArrows_cons_arrow (first : Char) (rest : List Char) :
    splitArrows (first :: '-' :: '>' :: rest) = [first] :: splitArrows rest := by
  rw [splitArrows, splitArrows]
  · rfl
  · simp

theorem splitArrows_of_countArrows_eq_zero {text : List Char} (none : countArrows text = 0) :
    splitArrows text = [text] := by
  have length := length_splitArrows text
  rw [none, Nat.zero_add] at length
  obtain ⟨piece, single⟩ := List.length_eq_one_iff.mp length
  have whole := intercalate_splitArrows text
  rw [single, List.intercalate_singleton] at whole
  rw [single, whole]

theorem countArrows_eq_zero_iff {text : List Char} :
    countArrows text = 0 ↔ ¬['-', '>'] <:+: text := by
  simp only [countArrows, List.countP_eq_zero, List.mem_tails, List.isPrefixOf_iff_prefix,
    List.infix_iff_prefix_suffix]
  grind

/-- What stands on both sides of a bar makes no arrow. -/
theorem countArrows_append_bar (front back : List Char) :
    countArrows (front ++ '|' :: back) = countArrows front + countArrows back := by
  induction front with
  | nil => simp [countArrows]
  | cons first front ih =>
      rw [List.cons_append, countArrows_cons, countArrows_cons, ih]
      cases front with
      | nil => simp [List.isPrefixOf]
      | cons second front =>
          simp only [List.cons_append, List.isPrefixOf_cons_cons, List.isPrefixOf_nil_left]
          omega

theorem countArrows_intercalate_bar {pieces : List (List Char)}
    (none : ∀ piece ∈ pieces, countArrows piece = 0) :
    countArrows (['|'].intercalate pieces) = 0 := by
  induction pieces with
  | nil => rfl
  | cons piece pieces ih =>
      have rest := ih fun other member => none other (List.mem_cons_of_mem _ member)
      cases pieces with
      | nil =>
          rw [List.intercalate_singleton]
          exact none piece List.mem_cons_self
      | cons second pieces =>
          rw [List.intercalate_cons_cons, List.append_assoc, List.singleton_append,
            countArrows_append_bar, rest, none piece List.mem_cons_self]

end ShiftReduce.Text
