import Mathlib.Data.List.Infix
import ShiftReduce.Text.Pieces

/-!
# Replaced text

Replacement leaves a text as it is in which the pattern does not occur.  A pattern of two
characters that is replaced by a third one is gone from the result, and putting it in the place
of every such character is undone by replacing it again.
Main statements: `not_infix_replaceFrom` and `replaceAll_expand`.
-/

namespace ShiftReduce.Text

/-! ## Texts without the pattern -/

theorem replaceFrom_eq_self {pattern replacement text : List Char}
    (absent : ¬pattern <:+: text) : replaceFrom pattern replacement 0 text = text := by
  induction text with
  | nil => rfl
  | cons first rest ih =>
      have notPrefix : pattern.isPrefixOf (first :: rest) = false := by
        rw [Bool.eq_false_iff, ne_eq, List.isPrefixOf_iff_prefix]
        exact fun prefixed => absent prefixed.isInfix
      have notWithin : ¬pattern <:+: rest :=
        fun within => absent (within.trans (List.suffix_cons first rest).isInfix)
      rw [replaceFrom, notPrefix, ih notWithin]
      rfl

/-- A text stays as it is if the pattern does not occur in it. -/
theorem replaceAll_eq_self {pattern replacement text : List Char}
    (absent : ¬pattern <:+: text) : replaceAll pattern replacement text = text := by
  cases pattern with
  | nil => exact absurd text.nil_infix absent
  | cons first pattern => exact replaceFrom_eq_self absent

/-! ## Patterns of two characters -/

section Pairs

variable {first second mark : Char}

/-- Two characters occur at the beginning of a text or behind its first character. -/
theorem pair_infix_cons {character : Char} {text : List Char} :
    [first, second] <:+: character :: text ↔
      (character = first ∧ text.head? = some second) ∨ [first, second] <:+: text := by
  rw [List.infix_cons_iff, List.cons_prefix_cons, List.singleton_prefix_iff_head?_eq_some,
    eq_comm]

/-- A replaced text begins with the replacement or as the text does. -/
theorem head?_replaceFrom {pattern text : List Char} {character : Char}
    (begins : (replaceFrom pattern [mark] 0 text).head? = some character) :
    character = mark ∨ text.head? = some character := by
  cases text with
  | nil => cases begins
  | cons head rest =>
      rw [replaceFrom] at begins
      split at begins
      · cases begins
        exact .inl rfl
      · exact .inr begins

/-- Two characters that are no mark do not meet where the mark is put in the place of a pattern,
if they do not meet in the text. -/
theorem not_infix_replaceFrom_of_absent {pattern text : List Char} (firstNe : first ≠ mark)
    (secondNe : second ≠ mark) (skip : Nat) (absent : ¬[first, second] <:+: text) :
    ¬[first, second] <:+: replaceFrom pattern [mark] skip text := by
  fun_induction replaceFrom pattern [mark] skip text with
  | case1 => simp
  | case2 skip head rest ih => exact ih fun within => absent (pair_infix_cons.mpr (.inr within))
  | case3 head rest _ ih =>
      rw [List.singleton_append, pair_infix_cons, not_or]
      exact ⟨fun marked => firstNe marked.1.symm,
        ih fun within => absent (pair_infix_cons.mpr (.inr within))⟩
  | case4 head rest _ ih =>
      rw [pair_infix_cons, not_or]
      refine ⟨?_, ih fun within => absent (pair_infix_cons.mpr (.inr within))⟩
      rintro ⟨begins, follows⟩
      rcases head?_replaceFrom follows with marked | follows
      · exact secondNe marked
      · exact absent (pair_infix_cons.mpr (.inl ⟨begins, follows⟩))

/-- A pair that is replaced by a mark does not occur in the result. -/
theorem not_infix_replaceFrom {text : List Char} (firstNe : first ≠ mark)
    (secondNe : second ≠ mark) (skip : Nat) :
    ¬[first, second] <:+: replaceFrom [first, second] [mark] skip text := by
  fun_induction replaceFrom [first, second] [mark] skip text with
  | case1 => simp
  | case2 skip head rest ih => exact ih
  | case3 head rest _ ih =>
      rw [List.singleton_append, pair_infix_cons, not_or]
      exact ⟨fun marked => firstNe marked.1.symm, ih⟩
  | case4 head rest different ih =>
      rw [pair_infix_cons, not_or]
      refine ⟨?_, ih⟩
      rintro ⟨begins, follows⟩
      rcases head?_replaceFrom follows with marked | follows
      · exact secondNe marked
      · rw [List.isPrefixOf_iff_prefix, List.cons_prefix_cons,
          List.singleton_prefix_iff_head?_eq_some] at different
        exact different ⟨begins.symm, follows⟩

/-- A text with a label in the place of every mark. -/
def expand (mark : Char) (label text : List Char) : List Char :=
  text.flatMap fun character => if character = mark then label else [character]

theorem expand_cons (label : List Char) (character : Char) (text : List Char) :
    expand mark label (character :: text) =
      (if character = mark then label else [character]) ++ expand mark label text :=
  List.flatMap_cons

theorem mem_of_mem_expand {label text : List Char} {character : Char}
    (member : character ∈ expand mark label text) : character ∈ label ∨ character ∈ text := by
  obtain ⟨other, listed, within⟩ := List.mem_flatMap.mp member
  split at within
  · exact .inl within
  · exact .inr (List.mem_singleton.mp within ▸ listed)

/-- An expanded text begins with the label or as the text does. -/
theorem head?_expand {head : Char} {label text : List Char} {character : Char}
    (begins : (expand mark (head :: label) text).head? = some character) :
    character = head ∨ text.head? = some character := by
  cases text with
  | nil => cases begins
  | cons other rest =>
      rw [expand_cons] at begins
      split at begins
      · cases begins
        exact .inl rfl
      · exact .inr begins

/-- Two characters do not meet in an expanded text if they do not meet in the text, and if the
label neither has the first of them nor begins with the second. -/
theorem not_infix_expand {left right : Char} {text : List Char} (leftNe : left ≠ first)
    (rightNe : right ≠ first) (begins : second ≠ left) (absent : ¬[first, second] <:+: text) :
    ¬[first, second] <:+: expand mark [left, right] text := by
  induction text with
  | nil => simp [expand]
  | cons character text ih =>
      rw [pair_infix_cons, not_or] at absent
      obtain ⟨apart, rest⟩ := absent
      have rest := ih rest
      rw [expand_cons]
      split
      · simp only [List.cons_append, List.nil_append, pair_infix_cons, not_or, not_and]
        exact ⟨fun equal => absurd equal leftNe, fun equal => absurd equal rightNe, rest⟩
      · rw [List.singleton_append, pair_infix_cons, not_or]
        refine ⟨?_, rest⟩
        rintro ⟨starts, follows⟩
        rcases head?_expand follows with label | follows
        · exact begins label
        · exact apart ⟨starts, follows⟩

/-- Replacing a pair by a mark restores a text that has the pair in the place of every mark, if
the pair does not occur in the text itself. -/
theorem replaceAll_expand {text : List Char} (different : first ≠ second)
    (absent : ¬[first, second] <:+: text) :
    replaceAll [first, second] [mark] (expand mark [first, second] text) = text := by
  rw [replaceAll]
  induction text with
  | nil => rfl
  | cons character text ih =>
      rw [pair_infix_cons, not_or] at absent
      obtain ⟨apart, rest⟩ := absent
      have rest := ih rest
      rw [expand_cons]
      split
      next marked =>
        rw [List.cons_append, List.cons_append, List.nil_append, replaceFrom]
        simp [List.isPrefixOf, replaceFrom, rest, marked]
      next =>
        -- A pair that begins here would end in the text or with the first character of a label.
        have kept : [first, second].isPrefixOf
            (character :: expand mark [first, second] text) = false := by
          rw [Bool.eq_false_iff, ne_eq, List.isPrefixOf_iff_prefix, List.cons_prefix_cons,
            List.singleton_prefix_iff_head?_eq_some]
          rintro ⟨starts, follows⟩
          rcases head?_expand follows with label | follows
          · exact different label.symm
          · exact apart ⟨starts.symm, follows⟩
        rw [List.singleton_append, replaceFrom, kept, rest]
        rfl

end Pairs

end ShiftReduce.Text
