import Mathlib.Logic.Function.Iterate
import ShiftReduce.Analysis.First
import ShiftReduce.Proofs.Grammar.Derivation
import ShiftReduce.Proofs.Grammar.WellFormed

/-!
# Completeness of FIRST sets

When a pass over the productions adds nothing any more, the FIRST sets are closed under
every single production, since no production undoes what another one adds.  So a symbol
that a form can begin with is one that every form which derives it can begin with.
Main statement: `FirstSets.Closed.mem_of_derives`.
-/

namespace ShiftReduce

/-! ## Saturated passes -/

namespace Shrinks

variable {α : Type} {room : α → Nat}

/-- There is no way back from a change. -/
theorem antisymm {before after : α} (shrinks : Shrinks room before after)
    (back : Shrinks room after before) : after = before := by
  rcases shrinks with same | less
  · exact same
  · rcases back with same | lesser
    · exact same.symm
    · exact absurd less (Nat.lt_asymm lesser)

/-- If a sequence of changes comes to nothing, each one of them changes nothing. -/
theorem eq_of_foldl_eq {β : Type} {step : α → β → α}
    (shrinks : ∀ value element, Shrinks room value (step value element)) {elements : List β}
    {value : α} (fixed : elements.foldl step value = value) :
    ∀ element ∈ elements, step value element = value := by
  induction elements with
  | nil => exact fun _ member => absurd member List.not_mem_nil
  | cons first rest ih =>
      have back := Shrinks.foldl shrinks rest (step value first)
      rw [List.foldl_cons] at fixed
      rw [fixed] at back
      have firstFixed := (shrinks value first).antisymm back
      rw [firstFixed] at fixed
      intro element member
      rcases List.mem_cons.mp member with rfl | member
      · exact firstFixed
      · exact ih fixed element member

end Shrinks

namespace Pass

variable {α : Type} [DecidableEq α] {value : α}

theorem saturate_eq_self (pass : Pass α) (stable : pass.run value = value) :
    pass.saturate value = value := by
  rw [saturate, dif_pos stable]

theorem saturate_run (pass : Pass α) (value : α) :
    pass.saturate (pass.run value) = pass.saturate value := by
  by_cases stable : pass.run value = value
  · rw [stable]
  · rw [saturate.eq_def pass value, dif_neg stable]

/-- Repeating a pass ends where so many passes lead, if one more changes nothing there. -/
theorem saturate_eq_iterate (pass : Pass α) (count : Nat)
    (stable : pass.run (pass.run^[count] value) = pass.run^[count] value) :
    pass.saturate value = pass.run^[count] value := by
  induction count generalizing value with
  | zero => exact pass.saturate_eq_self stable
  | succ count ih =>
      rw [Function.iterate_succ_apply] at stable ⊢
      rw [← saturate_run, ih stable]

end Pass

/-! ## Sets of a table -/

namespace SymbolSet

theorem not_mem_empty (symbol : Symbol) : symbol ∉ empty := List.not_mem_nil

@[simp] theorem mem_singleton {symbol other : Symbol} : symbol ∈ singleton other ↔ symbol = other :=
  List.mem_singleton

end SymbolSet

namespace SymbolTable

variable {table : SymbolTable} {key other symbol : Symbol} {symbols : SymbolSet}

@[simp] theorem map_fst_ofKeys (keys : List Symbol) : (ofKeys keys).map (·.1) = keys := by
  simp [ofKeys, Function.comp_def]

theorem get_ofKeys (keys : List Symbol) (key : Symbol) : (ofKeys keys).get key = .empty := by
  induction keys with
  | nil => rfl
  | cons first rest ih =>
      by_cases same : first = key
      · simp [ofKeys, get, same]
      · simpa [ofKeys, get, same] using ih

/-- What is no key has the empty set. -/
theorem get_eq_empty (unlisted : key ∉ table.map (·.1)) : table.get key = .empty := by
  have missing : table.find? (·.1 == key) = none := by
    rw [List.find?_eq_none]
    intro entry member named
    exact unlisted (List.mem_map.mpr ⟨entry, member, eq_of_beq named⟩)
  rw [get, missing]
  rfl

/-- What is added to the set of a key. -/
theorem get_extend_self (listed : key ∈ table.map (·.1)) :
    (table.extend key symbols).get key = (table.get key).union symbols := by
  induction table with
  | nil => cases listed
  | cons entry rest ih =>
      by_cases same : entry.1 = key
      · simp [extend, get, same]
      · have later : key ∈ rest.map (·.1) := by
          simpa [Ne.symm same] using listed
        simpa [extend, get, same] using ih later

theorem get_extend_of_ne (different : other ≠ key) :
    (table.extend key symbols).get other = table.get other := by
  induction table with
  | nil => rfl
  | cons entry rest ih =>
      by_cases found : entry.1 = other
      · simp [extend, get, found, different]
      · simpa [extend, get, found] using ih

theorem mem_get_extend_of_mem (member : symbol ∈ table.get other) :
    symbol ∈ (table.extend key symbols).get other := by
  by_cases same : other = key
  · subst same
    by_cases listed : other ∈ table.map (·.1)
    · rw [get_extend_self listed]
      exact SymbolSet.mem_union.mpr (.inl member)
    · rw [get_eq_empty listed] at member
      exact absurd member (SymbolSet.not_mem_empty symbol)
  · rw [get_extend_of_ne same]
    exact member

/-- What is in a set of an extended table was there or was added to that set. -/
theorem mem_of_mem_get_extend (member : symbol ∈ (table.extend key symbols).get other) :
    symbol ∈ table.get other ∨ other = key ∧ symbol ∈ symbols := by
  by_cases same : other = key
  · subst same
    by_cases listed : other ∈ table.map (·.1)
    · rw [get_extend_self listed, SymbolSet.mem_union] at member
      exact member.imp_right fun added => ⟨rfl, added⟩
    · rw [← map_fst_extend table other symbols] at listed
      rw [get_eq_empty listed] at member
      exact absurd member (SymbolSet.not_mem_empty symbol)
  · rw [get_extend_of_ne same] at member
    exact .inl member

theorem mem_get_extend (listed : key ∈ table.map (·.1)) (member : symbol ∈ symbols) :
    symbol ∈ (table.extend key symbols).get key := by
  rw [get_extend_self listed]
  exact SymbolSet.mem_union.mpr (.inr member)

/-- The set of a key already holds what changes nothing when it is added. -/
theorem mem_get_of_extend_eq (listed : key ∈ table.map (·.1))
    (fixed : table.extend key symbols = table) (member : symbol ∈ symbols) :
    symbol ∈ table.get key := by
  have added := mem_get_extend listed member
  rw [fixed] at added
  exact added

end SymbolTable

/-! ## FIRST -/

namespace FirstSets

variable {grammar : Grammar} {sets : FirstSets} {symbol : Symbol}

theorem mem_ofSequence_cons {first : Symbol} {rest : List Symbol} :
    symbol ∈ (sets.ofSequence (first :: rest)).1 ↔
      symbol ∈ sets.ofSymbol first ∨
        sets.isNullable first = true ∧ symbol ∈ (sets.ofSequence rest).1 := by
  rw [ofSequence]
  split
  next nullable => simp [nullable]
  next notNullable => simp [notNullable]

theorem ofSequence_cons_snd {first : Symbol} {rest : List Symbol} :
    (sets.ofSequence (first :: rest)).2 =
      (sets.isNullable first && (sets.ofSequence rest).2) := by
  rw [ofSequence]
  split
  next nullable => simp [nullable]
  next notNullable => simp [notNullable]

/-- A sequence begins with what its first part begins with or, if that part is nullable,
with what its second part begins with. -/
theorem mem_ofSequence_append {left right : List Symbol} :
    symbol ∈ (sets.ofSequence (left ++ right)).1 ↔
      symbol ∈ (sets.ofSequence left).1 ∨
        (sets.ofSequence left).2 = true ∧ symbol ∈ (sets.ofSequence right).1 := by
  induction left with
  | nil => simp [ofSequence, SymbolSet.not_mem_empty]
  | cons first rest ih =>
      rw [List.cons_append, mem_ofSequence_cons, ih, mem_ofSequence_cons, ofSequence_cons_snd,
        Bool.and_eq_true, and_assoc, and_or_left, or_assoc]

theorem ofSequence_append_snd {left right : List Symbol} :
    (sets.ofSequence (left ++ right)).2 =
      ((sets.ofSequence left).2 && (sets.ofSequence right).2) := by
  induction left with
  | nil => simp [ofSequence]
  | cons first rest ih =>
      rw [List.cons_append, ofSequence_cons_snd, ih, ofSequence_cons_snd, Bool.and_assoc]

theorem mem_ofSequence_singleton {only : Symbol} :
    symbol ∈ (sets.ofSequence [only]).1 ↔ symbol ∈ sets.ofSymbol only := by
  rw [mem_ofSequence_cons]
  exact or_iff_left fun rest => SymbolSet.not_mem_empty symbol rest.2

theorem ofSequence_singleton_snd {only : Symbol} :
    (sets.ofSequence [only]).2 = sets.isNullable only := by
  rw [ofSequence_cons_snd]
  exact Bool.and_true _

theorem ofSymbol_of_isTerminal {terminal : Symbol} (isTerminal : terminal.isTerminal = true) :
    sets.ofSymbol terminal = .singleton terminal := by
  simp only [Symbol.isTerminal, Bool.not_eq_true', Bool.or_eq_false_iff] at isTerminal
  simp [ofSymbol, isTerminal]

/-- A sequence with a terminal in front begins with it. -/
theorem mem_ofSequence_of_isTerminal {terminal : Symbol} (isTerminal : terminal.isTerminal = true)
    (rest : List Symbol) : terminal ∈ (sets.ofSequence (terminal :: rest)).1 := by
  rw [mem_ofSequence_cons, ofSymbol_of_isTerminal isTerminal]
  exact .inl (SymbolSet.mem_singleton.mpr rfl)

/-- A word of terminals begins with its first one, or ends at once. -/
theorem headD_mem_ofSequence {word : List Symbol}
    (terminal : ∀ symbol ∈ word, symbol.isTerminal = true) :
    word.headD Symbol.endMarker ∈ (sets.ofSequence (word ++ [Symbol.endMarker])).1 := by
  cases word with
  | nil => exact mem_ofSequence_of_isTerminal (by decide) []
  | cons first rest => exact mem_ofSequence_of_isTerminal (terminal first List.mem_cons_self) _

/-- The sets of its left-hand side hold what a production says. -/
structure Covers (sets : FirstSets) (production : Production) : Prop where
  first : ∀ symbol ∈ (sets.ofSequence production.right).1, symbol ∈ sets.first.get production.left
  nullable : (sets.ofSequence production.right).2 = true → production.left ∈ sets.nullable

/-- The sets hold what all productions say. -/
def Closed (grammar : Grammar) (sets : FirstSets) : Prop :=
  ∀ {id production}, grammar.production? id = some production → sets.Covers production

theorem map_fst_absorb (sets : FirstSets) (production : Production) :
    (sets.absorb production).first.map (·.1) = sets.first.map (·.1) := by
  simp only [absorb]
  split <;> exact SymbolTable.map_fst_extend _ _ _

/-- The sets hold what a production says if it adds nothing to them. -/
theorem covers_of_absorb_eq {production : Production}
    (listed : production.left ∈ sets.first.map (·.1)) (fixed : sets.absorb production = sets) :
    sets.Covers production := by
  have tableFixed : sets.first.extend production.left (sets.ofSequence production.right).1 =
      sets.first := by
    have same := congrArg FirstSets.first fixed
    simp only [absorb] at same
    split at same <;> exact same
  refine ⟨fun symbol => SymbolTable.mem_get_of_extend_eq listed tableFixed, fun nullable => ?_⟩
  simp only [absorb, if_pos nullable] at fixed
  have nullableFixed : sets.nullable.insert production.left = sets.nullable :=
    congrArg FirstSets.nullable fixed
  rw [← nullableFixed]
  exact SymbolSet.mem_insert.mpr (.inl rfl)

/-- A pass keeps what every production of the grammar keeps. -/
theorem pass_keeps (property : FirstSets → Prop)
    (kept : ∀ sets production, production ∈ grammar.productions.toList → property sets →
      property (sets.absorb production))
    (holds : property sets) : property ((pass grammar).run sets) :=
  List.foldlRecOn _ _ holds fun sets holds production member => kept sets production member holds

end FirstSets

namespace Grammar

variable {grammar : Grammar}

/-- The FIRST sets are those of the nonterminals, in their order. -/
theorem map_fst_firstSets (grammar : Grammar) :
    grammar.firstSets.first.map (·.1) = grammar.nonterminals := by
  have kept : ∀ sets : FirstSets, sets.first.map (·.1) = grammar.nonterminals →
      ((FirstSets.pass grammar).run sets).first.map (·.1) = grammar.nonterminals :=
    fun _ => FirstSets.pass_keeps (·.first.map (·.1) = grammar.nonterminals)
      fun sets production _ keys => (sets.map_fst_absorb production).trans keys
  exact (FirstSets.pass grammar).saturate_induction kept (SymbolTable.map_fst_ofKeys _)

/-- The FIRST sets of a grammar are closed under its productions. -/
theorem WellFormed.firstSets_closed (wellFormed : grammar.WellFormed) :
    FirstSets.Closed grammar grammar.firstSets := by
  have fixed := (FirstSets.pass grammar).run_saturate ⟨.ofKeys grammar.nonterminals, .empty⟩
  have absorbs := Shrinks.eq_of_foldl_eq FirstSets.shrinks_absorb fixed
  intro id production found
  have member : production ∈ grammar.productions.toList :=
    Array.mem_toList_iff.mpr (Array.mem_of_getElem? found)
  refine FirstSets.covers_of_absorb_eq ?_ (absorbs production member)
  change _ ∈ grammar.firstSets.first.map (·.1)
  rw [map_fst_firstSets]
  exact wellFormed.left_mem found

end Grammar

namespace FirstSets.Closed

variable {grammar : Grammar} {sets : FirstSets} {form next : List Symbol}

/-- Where a production is reduced, nothing is lost of what can be at the beginning. -/
theorem of_rewrites (closed : Closed grammar sets) (wellFormed : grammar.WellFormed)
    (rewrites : grammar.Rewrites form next) :
    (∀ symbol ∈ (sets.ofSequence next).1, symbol ∈ (sets.ofSequence form).1) ∧
      ((sets.ofSequence next).2 = true → (sets.ofSequence form).2 = true) := by
  cases rewrites with
  | @intro id production before after found =>
      have nonterminal := wellFormed.left_nonterminal found
      have nullable : (sets.ofSequence production.right).2 = true →
          sets.isNullable production.left = true := by
        intro right
        rw [isNullable, decide_eq_true ((closed found).nullable right), Bool.or_true]
      constructor
      · intro symbol member
        rw [List.append_assoc, mem_ofSequence_append, mem_ofSequence_append] at member
        rw [mem_ofSequence_append, mem_ofSequence_cons, ofSymbol, if_pos nonterminal]
        rcases member with member | ⟨beforeNullable, member | ⟨rightNullable, member⟩⟩
        · exact .inl member
        · exact .inr ⟨beforeNullable, .inl ((closed found).first symbol member)⟩
        · exact .inr ⟨beforeNullable, .inr ⟨nullable rightNullable, member⟩⟩
      · simp only [ofSequence_append_snd, ofSequence_cons_snd, Bool.and_eq_true]
        rintro ⟨⟨beforeNullable, rightNullable⟩, afterNullable⟩
        exact ⟨beforeNullable, nullable rightNullable, afterNullable⟩

/-- A form can begin with whatever a form that it derives can begin with. -/
theorem mem_of_derives (closed : Closed grammar sets) (wellFormed : grammar.WellFormed)
    (derives : grammar.Derives form next) :
    ∀ symbol ∈ (sets.ofSequence next).1, symbol ∈ (sets.ofSequence form).1 := by
  induction derives with
  | refl => exact fun _ member => member
  | tail _ rewrites ih =>
      intro symbol member
      exact ih symbol ((closed.of_rewrites wellFormed rewrites).1 symbol member)

/-- What derives the empty sequence is nullable. -/
theorem nullable_of_derives (closed : Closed grammar sets) (wellFormed : grammar.WellFormed)
    (derives : grammar.Derives form []) : (sets.ofSequence form).2 = true := by
  induction derives using Relation.ReflTransGen.head_induction_on with
  | refl => rfl
  | head rewrites _ ih => exact (closed.of_rewrites wellFormed rewrites).2 ih

end FirstSets.Closed

end ShiftReduce
