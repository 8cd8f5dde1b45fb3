import ShiftReduce.Proofs.Grammar.Collecting

/-!
# Spelled rules

What a well-formed rule spells, and how a rule that is not well formed is refused: its fault does
not depend on the line that it stands in, except that it names that line.
Main statements: `Dialect.readRule_eq_ok_iff` and `Dialect.readRule_namesLine`.
-/

namespace ShiftReduce

/-- The sequence that an alternative spells: the empty symbol alone spells the empty one. -/
def spelledBy (alternative : List Symbol) : List Symbol :=
  if alternative = [Symbol.empty] then [] else alternative

namespace Dialect

variable {dialect : Dialect} {line : Nat}

/-- An alternative that a rule may have. -/
def AllowsAlternative (dialect : Dialect) (alternative : List Symbol) : Prop :=
  alternative = [Symbol.empty] ∨
    alternative ≠ [] ∧ ∀ symbol ∈ alternative, dialect.Allows symbol

theorem symbolFault?_eq_none_of_allows {symbol : Symbol} (allows : dialect.Allows symbol) :
    dialect.symbolFault? line symbol = none := by
  simp [symbolFault?, allows.printable, allows.unreserved]

theorem leftFault?_eq_none_of_defines {left : Symbol} (defines : dialect.Defines left) :
    dialect.leftFault? line left = none := by
  simp [leftFault?, defines.printable, defines.nonterminal, defines.unreserved]

/-- Only the empty symbol alone spells nothing. -/
theorem eq_empty_of_contains {alternative : List Symbol}
    (contains : alternative.contains Symbol.empty = true) (single : alternative.length = 1) :
    alternative = [Symbol.empty] := by
  obtain ⟨symbol, rfl⟩ := List.length_eq_one_iff.mp single
  rw [List.mem_singleton.mp (List.contains_iff_mem.mp contains)]

theorem readAlternative_eq_ok_iff {alternative right : List Symbol} :
    dialect.readAlternative line alternative = .ok right ↔
      right = spelledBy alternative ∧ dialect.AllowsAlternative alternative := by
  constructor
  · intro read
    have allows := allows_of_readAlternative read
    simp only [readAlternative] at read
    split at read
    next => cases read
    next nonempty =>
      split at read
      next contains =>
        split at read
        next single =>
          cases read
          have alone := eq_empty_of_contains contains single
          exact ⟨by rw [spelledBy, if_pos alone], .inl alone⟩
        next => cases read
      next notContains =>
        have different : alternative ≠ [Symbol.empty] := by
          rintro rfl
          simp at notContains
        split at read
        next => cases read
        next =>
          cases read
          exact ⟨by rw [spelledBy, if_neg different], .inr ⟨by simpa using nonempty, allows⟩⟩
  · rintro ⟨rfl, rfl | ⟨nonempty, allows⟩⟩
    · rfl
    · have absent : Symbol.empty ∉ alternative :=
        fun member => (allows Symbol.empty member).nonempty rfl
      have different : alternative ≠ [Symbol.empty] := by
        rintro rfl
        exact absent List.mem_cons_self
      have faultless : alternative.findSome? (dialect.symbolFault? line) = none := by
        rw [List.findSome?_eq_none_iff]
        exact fun symbol member => symbolFault?_eq_none_of_allows (allows symbol member)
      rw [readAlternative, faultless]
      simp [nonempty, absent, spelledBy, different]

/-- A well-formed rule spells the alternatives that it has. -/
theorem readRule_eq_ok_iff {rule : Rule} {alternatives : List (List Symbol)} :
    dialect.readRule rule = .ok alternatives ↔
      dialect.Defines rule.left ∧ (∀ alternative ∈ rule.alternatives,
        dialect.AllowsAlternative alternative) ∧
          alternatives = rule.alternatives.map spelledBy := by
  have reads : rule.alternatives.mapM (dialect.readAlternative rule.line) = .ok alternatives ↔
      alternatives = rule.alternatives.map spelledBy ∧
        ∀ alternative ∈ rule.alternatives, dialect.AllowsAlternative alternative := by
    rw [mapM_eq_ok_iff]
    apply forall₂_iff_map_eq
    intro alternative right
    exact readAlternative_eq_ok_iff
  rw [readRule, and_comm (a := ∀ _, _), ← reads]
  split
  next error faulty =>
    constructor
    · intro read
      cases read
    · intro given
      rw [leftFault?_eq_none_of_defines given.1] at faulty
      cases faulty
  next faultless =>
    exact ⟨fun read => ⟨leftFault?_eq_none faultless, read⟩, fun given => given.2⟩

end Dialect

/-! ## Faults of lines -/

/-- A reading that does not depend on the line, except that a fault names it. -/
def NamesLine {α : Type} (read : Nat → Except Error α) : Prop :=
  (∃ value, ∀ line, read line = .ok value) ∨
    ∃ fault, ∀ line, read line = .error (.format line fault)

theorem NamesLine.mapM {α β : Type} {read : Nat → α → Except Error β} {elements : List α}
    (each : ∀ element ∈ elements, NamesLine (read · element)) :
    NamesLine fun line => elements.mapM (read line) := by
  induction elements with
  | nil => exact .inl ⟨[], fun _ => rfl⟩
  | cons element elements ih =>
      obtain ⟨first, others⟩ := List.forall_mem_cons.mp each
      have rest := ih others
      simp only [NamesLine, List.mapM_cons] at first rest ⊢
      rcases first with ⟨value, valueRead⟩ | ⟨fault, refused⟩
      · rcases rest with ⟨values, valuesRead⟩ | ⟨fault, refused⟩
        · exact .inl ⟨value :: values, fun line => by rw [valueRead, valuesRead]; rfl⟩
        · exact .inr ⟨fault, fun line => by rw [valueRead, refused]; rfl⟩
      · exact .inr ⟨fault, fun line => by rw [refused]; rfl⟩

namespace Dialect

variable {dialect : Dialect}

/-- The fault of printable symbols is the first reserved one. -/
theorem findSome?_symbolFault? {symbols : List Symbol}
    (printable : ∀ symbol ∈ symbols, symbol.isPrintable = true) (line : Nat) :
    symbols.findSome? (dialect.symbolFault? line) =
      (symbols.find? dialect.isReserved).map fun symbol =>
        .format line (.rightReserved symbol) := by
  induction symbols with
  | nil => rfl
  | cons first rest ih =>
      obtain ⟨firstPrintable, restPrintable⟩ := List.forall_mem_cons.mp printable
      rw [List.findSome?_cons, List.find?_cons, ih restPrintable, symbolFault?, firstPrintable]
      cases dialect.isReserved first <;> rfl

theorem readAlternative_namesLine {alternative : List Symbol}
    (printable : ∀ symbol ∈ alternative, symbol.isPrintable = true) :
    NamesLine fun line => dialect.readAlternative line alternative := by
  simp only [NamesLine, readAlternative, findSome?_symbolFault? printable]
  split
  next => exact .inr ⟨_, fun _ => rfl⟩
  next =>
    split
    next =>
      split
      next => exact .inl ⟨_, fun _ => rfl⟩
      next => exact .inr ⟨_, fun _ => rfl⟩
    next =>
      cases alternative.find? dialect.isReserved with
      | none => exact .inl ⟨_, fun _ => rfl⟩
      | some symbol => exact .inr ⟨_, fun _ => rfl⟩

/-- A rule with printable symbols is well formed, or it has a fault in its line. -/
theorem readRule_namesLine (dialect : Dialect) {left : Symbol}
    {alternatives : List (List Symbol)} (leftPrintable : left.isPrintable = true)
    (printable : ∀ alternative ∈ alternatives, ∀ symbol ∈ alternative,
      symbol.isPrintable = true) :
    NamesLine fun line => dialect.readRule ⟨line, left, alternatives⟩ := by
  have each : NamesLine fun line => alternatives.mapM (dialect.readAlternative line) :=
    .mapM fun alternative member => readAlternative_namesLine (printable alternative member)
  simp only [readRule, leftFault?, leftPrintable]
  cases left.isNonterminal with
  | false => exact .inr ⟨_, fun _ => rfl⟩
  | true =>
      cases dialect.isReserved left with
      | true => exact .inr ⟨_, fun _ => rfl⟩
      | false => exact each

end Dialect
end ShiftReduce
