import Mathlib.Algebra.Group.Nat.Defs
import ShiftReduce.Proofs.Text.Pieces

/-!
# Texts of a fixed width

A text that is padded with spaces is read back by its width alone.  A decimal has only digits
and no more of them than its number has powers of ten, so a number below such a power is shown
in that many places, and what is read there is that number and no other.
Main statements: `Text.length_padLeft` and `Text.readNumber?_eq_some_iff`.
-/

namespace ShiftReduce

/-! ## Decimals -/

theorem toList_toString (number : Nat) : (toString number).toList = Nat.toDigits 10 number := by
  simp [toString, Nat.repr]

theorem isDigit_of_mem_toString {number : Nat} {character : Char}
    (member : character ∈ (toString number).toList) : character.isDigit = true := by
  rw [toList_toString] at member
  exact Nat.isDigit_of_mem_toDigits (by decide) (by decide) member

theorem inline_of_mem_toString {number : Nat} {character : Char}
    (member : character ∈ (toString number).toList) : Text.Inline character := by
  have digit := isDigit_of_mem_toString member
  constructor
  · rintro rfl
    exact absurd digit (by decide)
  · rintro rfl
    exact absurd digit (by decide)

/-- A number is computed from its decimal. -/
theorem ofDigitChars_toString (number : Nat) :
    Nat.ofDigitChars 10 (toString number).toList 0 = number := by
  rw [toList_toString]
  exact Nat.ofDigitChars_ten_toDigits

/-- A number below a power of ten is shown in as many places. -/
theorem length_toString_le {number width : Nat} (positive : 0 < width)
    (below : number < 10 ^ width) : (toString number).length ≤ width := by
  rw [← String.length_toList, toList_toString]
  exact (Nat.length_toDigits_le_iff (by decide) positive).mpr below

namespace Text

variable {width number : Nat} {text : String} {cell : List Char}

/-! ## Padding -/

theorem toList_padLeft (width : Nat) (text : String) :
    (padLeft width text).toList = List.replicate (width - text.length) ' ' ++ text.toList := by
  rw [padLeft, String.toList_append, String.toList_ofList]

theorem length_padLeft (fits : text.length ≤ width) :
    (padLeft width text).toList.length = width := by
  rw [toList_padLeft, List.length_append, List.length_replicate, String.length_toList]
  omega

theorem inline_padLeft (inline : ∀ character ∈ text.toList, Inline character) :
    ∀ character ∈ (padLeft width text).toList, Inline character := by
  rw [toList_padLeft, List.forall_mem_append]
  refine ⟨?_, inline⟩
  intro character member
  rw [List.eq_of_mem_replicate member]
  decide

/-- Padding a text that does not begin with a space adds just the spaces in front. -/
theorem dropWhile_padLeft (visible : ∀ character ∈ text.toList, character ≠ ' ') :
    (padLeft width text).toList.dropWhile (· == ' ') = text.toList := by
  rw [toList_padLeft, List.dropWhile_append_of_pos (by simp)]
  cases characters : text.toList with
  | nil => rfl
  | cons first rest =>
      rw [characters] at visible
      rw [List.dropWhile_cons_of_neg]
      simpa using visible first List.mem_cons_self

theorem ne_space_of_mem_toString {character : Char}
    (member : character ∈ (toString number).toList) : character ≠ ' ' := by
  rintro rfl
  exact absurd (isDigit_of_mem_toString member) (by decide)

/-! ## Reading numbers -/

/-- The number that a text shows as a decimal with spaces in front. -/
def readNumber? (cell : List Char) : Option Nat :=
  let number := Nat.ofDigitChars 10 (cell.dropWhile (· == ' ')) 0
  if (padLeft cell.length (toString number)).toList = cell then some number else none

/-- A number is read where it is shown on the right, and nowhere else. -/
theorem readNumber?_eq_some_iff :
    readNumber? cell = some number ↔ cell = (padLeft cell.length (toString number)).toList := by
  constructor
  · intro read
    simp only [readNumber?] at read
    split at read
    next shown =>
      cases read
      exact shown.symm
    next => cases read
  · intro shown
    have value : Nat.ofDigitChars 10 (cell.dropWhile (· == ' ')) 0 = number := by
      rw [shown, dropWhile_padLeft fun character => ne_space_of_mem_toString,
        ofDigitChars_toString]
    simp only [readNumber?, value]
    exact if_pos shown.symm

theorem readNumber?_padLeft (fits : (toString number).length ≤ width) :
    readNumber? (padLeft width (toString number)).toList = some number := by
  rw [readNumber?_eq_some_iff, length_padLeft fits]

/-- A text of spaces shows no number. -/
theorem not_blank_padLeft (width number : Nat) :
    (padLeft width (toString number)).toList.all (· == ' ') = false := by
  rw [toList_padLeft, List.all_append, Bool.and_eq_false_iff]
  right
  cases digits : (toString number).toList with
  | nil => exact absurd (toList_toString number ▸ digits) (Nat.toDigits_ne_nil)
  | cons first rest =>
      have visible : first ≠ ' ' := ne_space_of_mem_toString (digits ▸ List.mem_cons_self)
      simp [visible]

end Text

end ShiftReduce
