import Mathlib.Data.List.Forall2
import Mathlib.Data.List.Nodup
import Mathlib.Logic.Equiv.Basic
import ShiftReduce.Proofs.Grammar.WellFormed

/-!
# Reordered rules

Rules in another order, or with the alternatives of a nonterminal in another order, make a
grammar that has the same productions under other numbers.  Loading joins the rules of one
nonterminal and drops alternatives that it has already, so the productions are, each of them
once, the augmented one and what the alternatives spell.
Main statements: `Grammar.mem_productions_of_ofRules` and `Reordered.exists_renumbers`.
-/

namespace ShiftReduce

/-! ## Numbers of permuted lists -/

/-- Numbers that are renumbered behind a first one, which keeps its place. -/
def shiftedNumbers (numbers : Equiv.Perm Nat) : Equiv.Perm Nat where
  toFun
    | 0 => 0
    | number + 1 => numbers number + 1
  invFun
    | 0 => 0
    | number + 1 => numbers.symm number + 1
  left_inv := by rintro (_ | number) <;> simp
  right_inv := by rintro (_ | number) <;> simp

/-- A permuted list has its elements at other places. -/
theorem exists_numbers_of_perm {α : Type} {first second : List α}
    (permutation : first.Perm second) :
    ∃ numbers : Equiv.Perm Nat, ∀ index, second[numbers index]? = first[index]? := by
  induction permutation with
  | nil => exact ⟨.refl Nat, fun _ => rfl⟩
  | cons element _ ih =>
      obtain ⟨numbers, same⟩ := ih
      refine ⟨shiftedNumbers numbers, ?_⟩
      rintro (_ | index)
      · rfl
      · exact same index
  | swap left right rest =>
      refine ⟨Equiv.swap 0 1, ?_⟩
      rintro (_ | _ | index)
      · rfl
      · rfl
      · rw [Equiv.swap_apply_of_ne_of_ne (by omega) (by omega)]
        rfl
  | trans _ _ firstIH secondIH =>
      obtain ⟨firstNumbers, firstSame⟩ := firstIH
      obtain ⟨secondNumbers, secondSame⟩ := secondIH
      exact ⟨firstNumbers.trans secondNumbers,
        fun index => (secondSame _).trans (firstSame index)⟩

/-! ## What a table of rules collects -/

namespace RuleTable

variable {table : RuleTable} {left : Symbol} {right : List Symbol}

/-- Setting alternatives replaces those of one nonterminal. -/
theorem alternativesOf_setAlternatives (table : RuleTable) (left other : Symbol)
    (alternatives : List (List Symbol)) :
    (table.setAlternatives left alternatives).alternativesOf other =
      if other = left then alternatives else table.alternativesOf other := by
  simp only [setAlternatives, alternativesOf]
  split
  next defined =>
    have same : ((·.1 == other) ∘ fun entry : Symbol × List (List Symbol) =>
        if entry.1 = left then (left, alternatives) else entry) = (·.1 == other) := by
      funext entry
      by_cases named : entry.1 = left <;> simp [named]
    rw [List.find?_map, same]
    cases found : table.entries.find? (·.1 == other) with
    | none =>
        have different : other ≠ left := by
          rintro rfl
          obtain ⟨entry, member, named⟩ := List.any_eq_true.mp defined
          exact List.find?_eq_none.mp found entry member named
        simp [different]
    | some entry =>
        have named : entry.1 = other := by simpa using List.find?_some found
        by_cases equal : other = left <;> simp [named, equal]
  next undefined =>
    rw [List.find?_append]
    by_cases equal : other = left
    · subst equal
      have absent : table.entries.find? (·.1 == other) = none := by
        rw [List.find?_eq_none]
        intro entry member named
        exact undefined (List.any_eq_true.mpr ⟨entry, member, named⟩)
      simp [absent]
    · simp [equal, Ne.symm equal]

/-- Adding an alternative adds nothing else, whether or not it is a duplicate. -/
theorem mem_alternativesOf_addAlternative {line : Nat} {defined : Symbol}
    {alternative : List Symbol} :
    right ∈ (addAlternative line defined table alternative).alternativesOf left ↔
      right ∈ table.alternativesOf left ∨ left = defined ∧ right = alternative := by
  unfold addAlternative
  dsimp only
  split
  next present =>
    refine ⟨.inl, ?_⟩
    rintro (member | ⟨rfl, rfl⟩)
    · exact member
    · exact List.contains_iff_mem.mp present
  next new =>
    rw [alternativesOf_setAlternatives]
    by_cases equal : left = defined
    · simp [equal]
    · simp [equal]

theorem mem_alternativesOf_foldl {line : Nat} {defined : Symbol}
    (alternatives : List (List Symbol)) :
    right ∈ (alternatives.foldl (addAlternative line defined) table).alternativesOf left ↔
      right ∈ table.alternativesOf left ∨ left = defined ∧ right ∈ alternatives := by
  induction alternatives generalizing table with
  | nil => simp
  | cons alternative alternatives ih =>
      rw [List.foldl_cons, ih, mem_alternativesOf_addAlternative, List.mem_cons, and_or_left,
        or_assoc]

/-- Adding a rule adds what its alternatives spell. -/
theorem mem_alternativesOf_add {added : RuleTable} {rule : Rule}
    (result : table.add rule = .ok added) :
    right ∈ added.alternativesOf left ↔ right ∈ table.alternativesOf left ∨
      left = rule.left ∧ ∃ alternative ∈ rule.alternatives,
        table.dialect.readAlternative rule.line alternative = .ok right := by
  simp only [add] at result
  split at result
  · cases result
  next alternatives read =>
  cases result
  simp only [Dialect.readRule] at read
  split at read
  · cases read
  rw [mem_alternativesOf_foldl, alternativesOf_setAlternatives, Dialect.mem_of_mapM read]
  split
  next equal => rw [equal]
  next => exact Iff.rfl

/-- A table holds what the rules added to it spell. -/
theorem WellFormed.mem_alternativesOf_addAll (wellFormed : table.WellFormed) {final : RuleTable}
    (rules : List (Except Error Rule)) (result : table.addAll rules = (final, none)) :
    right ∈ final.alternativesOf left ↔ right ∈ table.alternativesOf left ∨
      ∃ rule, .ok rule ∈ rules ∧ left = rule.left ∧ ∃ alternative ∈ rule.alternatives,
        table.dialect.readAlternative rule.line alternative = .ok right := by
  induction rules generalizing table with
  | nil =>
      cases result
      simp
  | cons rule rules ih =>
      cases rule with
      | error error => simp [RuleTable.addAll] at result
      | ok rule =>
          rw [RuleTable.addAll] at result
          split at result
          · simp at result
          next added addition =>
            obtain ⟨addedWellFormed, sameDialect⟩ := wellFormed.add addition
            rw [ih addedWellFormed result, mem_alternativesOf_add addition, sameDialect, or_assoc]
            simp [or_and_right, exists_or]

/-- Entries of distinct nonterminals are found by their nonterminals. -/
theorem alternativesOf_of_mem (nodup : (table.entries.map (·.1)).Nodup)
    {entry : Symbol × List (List Symbol)} (member : entry ∈ table.entries) :
    table.alternativesOf entry.1 = entry.2 := by
  cases found : table.entries.find? (·.1 == entry.1) with
  | none =>
      have different := List.find?_eq_none.mp found entry member
      simp at different
  | some first =>
      have named : first.1 = entry.1 := by simpa using List.find?_some found
      have same := List.inj_on_of_nodup_map nodup (List.mem_of_find?_eq_some found) member named
      rw [alternativesOf, found, same]
      rfl

/-- What is collected for a nonterminal are its productions. -/
theorem WellFormed.mem_productions_iff (wellFormed : table.WellFormed) {production : Production} :
    production ∈ table.productions ↔ production.right ∈ table.alternativesOf production.left := by
  rw [mem_productions]
  constructor
  · rintro ⟨alternatives, entry, member⟩
    rw [alternativesOf_of_mem wellFormed.nodup entry]
    exact member
  · intro member
    exact ⟨_, alternativesOf_mem (List.ne_nil_of_mem member), member⟩

/-- Entries of distinct nonterminals with distinct alternatives have distinct productions. -/
theorem nodup_productions {entries : List (Symbol × List (List Symbol))}
    (nodup : (entries.map (·.1)).Nodup) (distinct : ∀ entry ∈ entries, entry.2.Nodup) :
    (entries.flatMap fun (left, alternatives) => alternatives.map (Production.mk left)).Nodup := by
  rw [List.nodup_flatMap]
  constructor
  · intro entry member
    exact (distinct entry member).map fun _ _ equal => (Production.mk.inj equal).2
  · apply (List.pairwise_map.mp nodup).imp
    intro entry other different production member otherMember
    obtain ⟨_, _, rfl⟩ := List.mem_map.mp member
    obtain ⟨_, _, equal⟩ := List.mem_map.mp otherMember
    exact different (Production.mk.inj equal).1.symm

end RuleTable

/-! ## Productions of rules that are given as data -/

/-- The alternatives of all rules for a nonterminal. -/
def alternativesFor (left : Symbol) (rules : List (Symbol × List (List Symbol))) :
    List (List Symbol) :=
  (rules.filter (·.1 == left)).flatMap (·.2)

theorem alternativesFor_cons (left : Symbol) (rule : Symbol × List (List Symbol))
    (rules : List (Symbol × List (List Symbol))) :
    alternativesFor left (rule :: rules) =
      (if rule.1 = left then rule.2 else []) ++ alternativesFor left rules := by
  by_cases named : rule.1 = left <;> simp [alternativesFor, named]

theorem mem_alternativesFor {left : Symbol} {rules : List (Symbol × List (List Symbol))}
    {alternative : List Symbol} :
    alternative ∈ alternativesFor left rules ↔
      ∃ alternatives, (left, alternatives) ∈ rules ∧ alternative ∈ alternatives := by
  simp only [alternativesFor, List.mem_flatMap, List.mem_filter, beq_iff_eq]
  constructor
  · rintro ⟨rule, ⟨member, rfl⟩, listed⟩
    exact ⟨rule.2, member, listed⟩
  · rintro ⟨alternatives, member, listed⟩
    exact ⟨_, ⟨member, rfl⟩, listed⟩

/-- The sequence of symbols that an alternative spells which is given as data, where no
symbols at all also spell the empty sequence. -/
def Dialect.Spells (dialect : Dialect) (alternative right : List Symbol) : Prop :=
  dialect.readAlternative 0 (if alternative.isEmpty then [Symbol.empty] else alternative) =
    .ok right

namespace Grammar

variable {dialect : Dialect} {rules : List (Symbol × List (List Symbol))} {grammar : Grammar}

/-- The table that rules are collected in, and what it holds. -/
theorem exists_table_of_ofRules (made : ofRules dialect rules = .ok grammar) :
    ∃ table : RuleTable, table.WellFormed ∧ table.dialect = dialect ∧ table.Makes grammar ∧
      ∀ left right, right ∈ table.alternativesOf left ↔
        ∃ alternative ∈ alternativesFor left rules, dialect.Spells alternative right := by
  obtain ⟨empty, table, ready, collected, finished⟩ := exists_table_of_collect made
  obtain ⟨emptyWellFormed, _, _, dialectEqual⟩ := RuleTable.ofDialect_wellFormed ready
  obtain ⟨wellFormed, sameDialect⟩ := emptyWellFormed.addAll _ collected
  refine ⟨table, wellFormed, sameDialect.trans dialectEqual,
    RuleTable.makes_of_toGrammar finished, ?_⟩
  intro left right
  have nothing : right ∉ empty.alternativesOf left := by
    rw [RuleTable.alternativesOf, RuleTable.entries_of_ofDialect ready]
    exact List.not_mem_nil
  rw [emptyWellFormed.mem_alternativesOf_addAll _ collected, dialectEqual]
  constructor
  · rintro (member | ⟨rule, listed, rfl, alternative, member, read⟩)
    · exact absurd member nothing
    · obtain ⟨⟨given, alternatives⟩, givenMember, equal⟩ := List.mem_map.mp listed
      cases equal
      obtain ⟨raw, rawMember, rfl⟩ := List.mem_map.mp member
      exact ⟨raw, mem_alternativesFor.mpr ⟨alternatives, givenMember, rawMember⟩, read⟩
  · rintro ⟨raw, member, read⟩
    obtain ⟨alternatives, givenMember, rawMember⟩ := mem_alternativesFor.mp member
    exact .inr ⟨_, List.mem_map.mpr ⟨_, givenMember, rfl⟩, rfl, _,
      List.mem_map_of_mem rawMember, read⟩

theorem dialect_of_ofRules (made : ofRules dialect rules = .ok grammar) :
    grammar.dialect = dialect := by
  obtain ⟨table, _, rfl, makes, _⟩ := exists_table_of_ofRules made
  exact makes.dialect

/-- The productions of rules that are given as data are the augmented one and what the
alternatives of each nonterminal spell. -/
theorem mem_productions_of_ofRules (made : ofRules dialect rules = .ok grammar)
    (production : Production) :
    production ∈ grammar.productions.toList ↔
      production = ⟨dialect.augmentedStart, [grammar.start]⟩ ∨
        ∃ alternative ∈ alternativesFor production.left rules,
          dialect.Spells alternative production.right := by
  obtain ⟨table, wellFormed, rfl, makes, collected⟩ := exists_table_of_ofRules made
  rw [makes.productions, List.mem_cons, wellFormed.mem_productions_iff, collected]

/-- None of them is listed twice. -/
theorem nodup_productions_of_ofRules (made : ofRules dialect rules = .ok grammar) :
    grammar.productions.toList.Nodup := by
  obtain ⟨table, wellFormed, rfl, makes, collected⟩ := exists_table_of_ofRules made
  rw [makes.productions, List.nodup_cons]
  refine ⟨fun member => ?_, RuleTable.nodup_productions wellFormed.nodup wellFormed.distinct⟩
  obtain ⟨position, found⟩ := List.getElem?_of_mem member
  exact RuleTable.Makes.ne_augmentedStart wellFormed
    (RuleTable.Makes.left_defined wellFormed found).2 rfl

end Grammar

/-! ## Reordered rules -/

/-- Rules that differ only in the order of the rules and in the order of the alternatives of
each nonterminal, which may stand in several rules. -/
structure Reordered (rules others : List (Symbol × List (List Symbol))) : Prop where
  lefts : ∀ left, left ∈ rules.map (·.1) ↔ left ∈ others.map (·.1)
  alternatives : ∀ left, (alternativesFor left rules).Perm (alternativesFor left others)

namespace Reordered

variable {rules others : List (Symbol × List (List Symbol))}

/-- Rules may be permuted. -/
theorem of_perm (permutation : rules.Perm others) : Reordered rules others where
  lefts _ := (permutation.map _).mem_iff
  alternatives _ := (permutation.filter _).flatMap_right _

/-- The alternatives of every rule may be permuted. -/
theorem of_forall₂ (permuted : List.Forall₂
    (fun rule other => rule.1 = other.1 ∧ rule.2.Perm other.2) rules others) :
    Reordered rules others := by
  induction permuted with
  | nil => exact ⟨fun _ => Iff.rfl, fun _ => .refl _⟩
  | cons same _ ih =>
      obtain ⟨named, permutation⟩ := same
      constructor
      · intro left
        rw [List.map_cons, List.map_cons, List.mem_cons, List.mem_cons, named, ih.lefts]
      · intro left
        rw [alternativesFor_cons, alternativesFor_cons, named]
        refine List.Perm.append ?_ (ih.alternatives left)
        split
        · exact permutation
        · exact .refl _

theorem trans {further : List (Symbol × List (List Symbol))} (reordered : Reordered rules others)
    (next : Reordered others further) : Reordered rules further where
  lefts left := (reordered.lefts left).trans (next.lefts left)
  alternatives left := (reordered.alternatives left).trans (next.alternatives left)

end Reordered

namespace Grammar

/-- Two grammars that agree up to the numbers of their productions. -/
structure Renumbers (productions : Equiv.Perm Nat) (first second : Grammar) : Prop where
  dialect : second.dialect = first.dialect
  start : second.start = first.start
  augmented : productions augmentedProduction = augmentedProduction
  production? : ∀ id, second.production? (productions id) = first.production? id

end Grammar

/-- The grammars of reordered rules that have the same start symbol agree up to the numbers of
their productions. -/
theorem Reordered.exists_renumbers {rules others : List (Symbol × List (List Symbol))}
    (reordered : Reordered rules others) {dialect : Dialect} {first second : Grammar}
    (firstMade : Grammar.ofRules dialect rules = .ok first)
    (secondMade : Grammar.ofRules dialect others = .ok second)
    (sameStart : second.start = first.start) :
    ∃ productions, Grammar.Renumbers productions first second := by
  have permutation : first.productions.toList.Perm second.productions.toList := by
    rw [List.perm_ext_iff_of_nodup (Grammar.nodup_productions_of_ofRules firstMade)
      (Grammar.nodup_productions_of_ofRules secondMade)]
    intro production
    rw [Grammar.mem_productions_of_ofRules firstMade, Grammar.mem_productions_of_ofRules secondMade,
      sameStart]
    simp only [(reordered.alternatives production.left).mem_iff]
  obtain ⟨productions, numbered⟩ := exists_numbers_of_perm permutation
  have same : ∀ id, second.production? (productions id) = first.production? id := by
    intro id
    simpa [Grammar.production?] using numbered id
  have sameDialect : second.dialect = first.dialect := by
    rw [Grammar.dialect_of_ofRules firstMade, Grammar.dialect_of_ofRules secondMade]
  refine ⟨productions, sameDialect, sameStart, ?_, same⟩
  -- The augmented production is the only one for the augmented start.
  by_contra moved
  have found := (same _).trans (Grammar.Loaded.rules firstMade).wellFormed.augmented
  apply (Grammar.Loaded.rules secondMade).wellFormed.left_ne found moved
  rw [Grammar.augmentedStart, Grammar.augmentedStart, sameDialect]

end ShiftReduce
