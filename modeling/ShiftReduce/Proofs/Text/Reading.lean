import Mathlib.Data.List.Forall2
import ShiftReduce.Error
import ShiftReduce.Proofs.Text.Pieces
import ShiftReduce.Text.Blank

/-!
# Reading symbols

What is read one by one is read as a whole if nothing in it is refused, and the first refusal is
the refusal of the whole.  Every symbol has its own character, and the texts that are read as
symbols are those of printable symbols.
Main statements: `Symbol.readAll_eq_ok_iff` and `Symbol.readAll_eq_error`.
-/

namespace ShiftReduce

/-! ## Reading one by one -/

/-- What was written can be read as a whole if it can be read one by one. -/
theorem mapM_map_eq_some {α β γ : Type} {read : β → Option γ} {write : α → β} {value : α → γ}
    (elements : List α) (reads : ∀ element ∈ elements, read (write element) = some (value element)) :
    (elements.map write).mapM read = some (elements.map value) := by
  induction elements with
  | nil => rfl
  | cons element elements ih =>
      have rest := ih fun other member => reads other (List.mem_cons_of_mem _ member)
      rw [List.map_cons, List.mapM_cons, reads element List.mem_cons_self, rest]
      rfl

section Reading

variable {α β ε : Type} {read : α → Except ε β}

theorem mapM_eq_ok_iff {elements : List α} {results : List β} :
    elements.mapM read = .ok results ↔
      List.Forall₂ (fun element result => read element = .ok result) elements results := by
  induction elements generalizing results with
  | nil =>
      rw [List.mapM_nil, List.forall₂_nil_left_iff]
      exact ⟨fun same => (Except.ok.inj same).symm, fun same => same ▸ rfl⟩
  | cons element elements ih =>
      rw [List.mapM_cons, List.forall₂_cons_left_iff]
      cases first : read element with
      | error error => simp [bind, Except.bind]
      | ok result =>
          cases rest : elements.mapM read with
          | error error => simp [bind, Except.bind, ← ih, rest]
          | ok others =>
              simp only [bind, Except.bind, pure, Except.pure, ← ih, rest, Except.ok.injEq]
              grind

/-- What is known of a result that is read holds of the result. -/
theorem exists_of_map_eq_ok {outcome : Except ε α} {value : α → β} {result : β}
    (mapped : outcome.map value = .ok result) : ∃ element, outcome = .ok element ∧
      value element = result := by
  cases outcome with
  | error error => cases mapped
  | ok element => exact ⟨element, rfl, Except.ok.inj mapped⟩

/-- Lists whose elements are paired by writing some of them. -/
theorem forall₂_iff_eq_map {relation : α → β → Prop} {write : β → α} {property : β → Prop}
    (pairs : ∀ element result, relation element result ↔ element = write result ∧ property result)
    {elements : List α} {results : List β} :
    List.Forall₂ relation elements results ↔
      elements = results.map write ∧ ∀ result ∈ results, property result := by
  constructor
  · intro related
    induction related with
    | nil => exact ⟨rfl, by simp⟩
    | cons related _ ih =>
        obtain ⟨rfl, first⟩ := (pairs _ _).mp related
        obtain ⟨rfl, others⟩ := ih
        exact ⟨rfl, List.forall_mem_cons.mpr ⟨first, others⟩⟩
  · rintro ⟨rfl, fine⟩
    rw [List.forall₂_map_left_iff, List.forall₂_same]
    exact fun result member => (pairs _ _).mpr ⟨rfl, fine result member⟩

/-- Lists whose elements are paired by reading some of them. -/
theorem forall₂_iff_map_eq {relation : α → β → Prop} {value : α → β} {property : α → Prop}
    (pairs : ∀ element result, relation element result ↔
      result = value element ∧ property element)
    {elements : List α} {results : List β} :
    List.Forall₂ relation elements results ↔
      results = elements.map value ∧ ∀ element ∈ elements, property element := by
  have flipped : ∀ result element, flip relation result element ↔
      result = value element ∧ property element := fun result element => pairs element result
  exact ⟨fun related => (forall₂_iff_eq_map flipped).mp related.flip,
    fun given => ((forall₂_iff_eq_map flipped).mpr given).flip⟩

/-- Reading fails with the first error. -/
theorem mapM_eq_error_iff {elements : List α} {error : ε} :
    elements.mapM read = .error error ↔ ∃ before element after,
      elements = before ++ element :: after ∧
        (∀ earlier ∈ before, ∃ result, read earlier = .ok result) ∧
          read element = .error error := by
  induction elements with
  | nil => simp [pure, Except.pure]
  | cons first rest ih =>
      rw [List.mapM_cons]
      constructor
      · intro failed
        cases firstRead : read first with
        | error firstError =>
            rw [firstRead] at failed
            cases failed
            exact ⟨[], first, rest, rfl, by simp, firstRead⟩
        | ok result =>
            cases restRead : rest.mapM read with
            | ok others =>
                simp [firstRead, restRead, bind, Except.bind, pure, Except.pure] at failed
            | error restError =>
                simp only [firstRead, restRead, bind, Except.bind, Except.error.injEq] at failed
                subst failed
                obtain ⟨before, element, after, rfl, fine, refused⟩ := ih.mp restRead
                exact ⟨first :: before, element, after, rfl,
                  List.forall_mem_cons.mpr ⟨⟨result, firstRead⟩, fine⟩, refused⟩
      · rintro ⟨before, element, after, cut, fine, refused⟩
        cases before with
        | nil =>
            cases cut
            rw [refused]
            rfl
        | cons head before =>
            cases cut
            obtain ⟨⟨result, firstRead⟩, fine⟩ := List.forall_mem_cons.mp fine
            rw [firstRead, ih.mpr ⟨before, element, after, rfl, fine, refused⟩]
            rfl

end Reading

/-! ## Symbols as characters -/

namespace Symbol

@[simp] theorem ofChar_toChar (symbol : Symbol) : ofChar symbol.toChar = symbol := by
  change Symbol.mk symbol.byte.toUInt32.toUInt8 = symbol
  rw [UInt8.toUInt8_toUInt32]

theorem toChar_injective : Function.Injective toChar := by
  intro left right same
  rw [← ofChar_toChar left, same, ofChar_toChar]

theorem isPrintable_iff {symbol : Symbol} :
    symbol.isPrintable = true ↔ '!' ≤ symbol.toChar ∧ symbol.toChar ≤ '~' := by
  simp only [isPrintable, Bool.and_eq_true, decide_eq_true_eq, UInt8.le_iff_toNat_le,
    Char.le_def, UInt32.le_iff_toNat_le]
  rfl

theorem toChar_ofChar {character : Char} (ascii : character ≤ '~') :
    (ofChar character).toChar = character := by
  apply Char.ext
  apply UInt32.toNat_inj.mp
  have bound : character.val.toNat ≤ 126 := ascii
  change character.val.toUInt8.toUInt32.toNat = character.val.toNat
  rw [UInt8.toNat_toUInt32, UInt32.toNat_toUInt8]
  omega

theorem ofPrintable?_eq_some_iff {character : Char} {symbol : Symbol} :
    ofPrintable? character = some symbol ↔
      character = symbol.toChar ∧ symbol.isPrintable = true := by
  rw [isPrintable_iff, ofPrintable?]
  constructor
  · intro read
    split at read
    next range =>
      cases read
      rw [toChar_ofChar range.2]
      exact ⟨rfl, range⟩
    next => cases read
  · rintro ⟨rfl, range⟩
    rw [if_pos range, ofChar_toChar]

theorem ofPrintable?_eq_none_iff {character : Char} :
    ofPrintable? character = none ↔ ¬('!' ≤ character ∧ character ≤ '~') := by
  rw [ofPrintable?]
  split
  next range => simpa using range
  next range => simpa using range

/-- The texts that are read as symbols are those of printable symbols. -/
theorem readAll_eq_ok_iff {text : List Char} {symbols : List Symbol} :
    readAll text = .ok symbols ↔
      text = symbols.map toChar ∧ ∀ symbol ∈ symbols, symbol.isPrintable = true := by
  rw [readAll, mapM_eq_ok_iff]
  apply forall₂_iff_eq_map
  intro character symbol
  rw [← ofPrintable?_eq_some_iff]
  cases ofPrintable? character <;> simp

/-- What is not read is refused because of a character that is no printable symbol. -/
theorem readAll_eq_error {text : List Char} {error : Error}
    (refused : readAll text = .error error) :
    ∃ character ∈ text, ofPrintable? character = none ∧ error = .unknownSymbol character := by
  obtain ⟨before, character, after, rfl, _, unread⟩ := mapM_eq_error_iff.mp refused
  refine ⟨character, by simp, ?_⟩
  split at unread
  · cases unread
  next absent =>
    cases unread
    exact ⟨absent, rfl⟩

theorem isPrintable_of_isInput {symbol : Symbol} (input : symbol.isInput = true) :
    symbol.isPrintable = true := by
  simp only [isInput, Bool.and_eq_true] at input
  exact input.1.1

theorem isPrintable_of_isNonterminal {symbol : Symbol}
    (nonterminal : symbol.isNonterminal = true) : symbol.isPrintable = true := by
  simp only [isNonterminal, isPrintable, Bool.and_eq_true, decide_eq_true_eq,
    UInt8.le_iff_toNat_le] at nonterminal ⊢
  exact ⟨Nat.le_trans (by decide) nonterminal.1, Nat.le_trans nonterminal.2 (by decide)⟩

end Symbol

/-! ## Visible characters -/

namespace Text

variable {character : Char}

/-- The characters of printable symbols are not blank. -/
theorem isBlank_eq_false (visible : '!' ≤ character ∧ character ≤ '~') :
    isBlank character = false := by
  have lower : 33 ≤ character.toNat := visible.1
  have upper : character.toNat ≤ 126 := visible.2
  simp only [isBlank, Bool.or_eq_false_iff, Bool.and_eq_false_iff, decide_eq_false_iff_not,
    beq_eq_false_iff_ne]
  omega

theorem inline_of_le (visible : '!' ≤ character) : Inline character := by
  constructor
  · rintro rfl
    exact absurd visible (by decide)
  · rintro rfl
    exact absurd visible (by decide)

theorem withoutBlanks_eq_self {text : List Char}
    (visible : ∀ character ∈ text, '!' ≤ character ∧ character ≤ '~') :
    withoutBlanks text = text := by
  rw [withoutBlanks, List.filter_eq_self]
  intro character member
  rw [isBlank_eq_false (visible character member)]
  rfl

end Text

end ShiftReduce
