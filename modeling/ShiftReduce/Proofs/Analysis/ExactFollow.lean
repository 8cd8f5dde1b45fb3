import Mathlib.Order.Bounds.Defs
import ShiftReduce.Proofs.Analysis.ExactFirst
import ShiftReduce.Proofs.Analysis.Follow

/-!
# Exactness of FOLLOW sets

The FOLLOW sets are the least family of sets that satisfies what the productions say with
respect to given FIRST sets, whatever these are.  With the FIRST sets of the grammar itself,
what can be seen behind the nonterminals of derived forms is such a family; it bounds the
FOLLOW sets from above, and their completeness bounds them from below.
Main statements: `FollowSets.Satisfies.absorbRight` and `Grammar.followSets_exact`.
-/

namespace ShiftReduce

variable {grammar : Grammar}

/-- A table as a family of sets. -/
def SymbolTable.family (table : SymbolTable) : Symbol → Set Symbol :=
  fun key => {symbol | symbol ∈ table.get key}

namespace FollowSets

variable {first : FirstSets} {table : SymbolTable} {family : Symbol → Set Symbol}

/-- The end marker is in the sets of the start symbol and the augmented start, and the set of
a nonterminal on a right-hand side holds what the rest of that side can begin with and, if the
rest is nullable, the set of the left-hand side. -/
structure Satisfies (grammar : Grammar) (first : FirstSets) (family : Symbol → Set Symbol) :
    Prop where
  start : Symbol.endMarker ∈ family grammar.start
  augmentedStart : Symbol.endMarker ∈ family grammar.augmentedStart
  rest : ∀ {id left before key after},
    grammar.production? id = some ⟨left, before ++ key :: after⟩ → key.isNonterminal = true →
      ∀ symbol ∈ (first.ofSequence after).1, symbol ∈ family key
  left : ∀ {id left before key after},
    grammar.production? id = some ⟨left, before ++ key :: after⟩ → key.isNonterminal = true →
      (first.ofSequence after).2 = true → ∀ symbol ∈ family left, symbol ∈ family key

theorem Closed.satisfies (closed : Closed grammar first table) :
    Satisfies grammar first table.family where
  start := closed.start
  augmentedStart := closed.augmentedStart
  rest := closed.rest
  left := closed.left

/-- A table stays below a family that satisfies the productions. The induction is on what is
left of a right-hand side, and `before` is what was passed. -/
theorem Satisfies.absorbRight (satisfies : Satisfies grammar first family) {id : Nat}
    {left : Symbol} {rest : List Symbol} (before : List Symbol)
    (found : grammar.production? id = some ⟨left, before ++ rest⟩) (below : table.family ≤ family) :
    SymbolTable.family (absorbRight first left table rest) ≤ family := by
  induction rest generalizing before table with
  | nil => exact below
  | cons key rest ih =>
      have later : grammar.production? id = some ⟨left, (before ++ [key]) ++ rest⟩ := by
        rw [found, List.append_assoc]
        rfl
      by_cases nonterminal : key.isNonterminal = true
      · rw [absorbRight_cons nonterminal]
        apply ih _ later
        intro other symbol member
        rcases SymbolTable.mem_of_mem_get_extend member with known | ⟨rfl, added⟩
        · exact below other known
        · rcases mem_following.mp added with begins | ⟨nullable, follows⟩
          · exact satisfies.rest found nonterminal symbol begins
          · exact satisfies.left found nonterminal nullable symbol (below left follows)
      · rw [FollowSets.absorbRight, if_neg nonterminal]
        exact ih _ later below

end FollowSets

namespace Grammar

open FollowSets (Satisfies)

/-- The FOLLOW sets are below every family that satisfies the productions. -/
theorem followSets_le {first : FirstSets} {family : Symbol → Set Symbol}
    (satisfies : Satisfies grammar first family) :
    (grammar.followSets first).family ≤ family := by
  have kept : ∀ table : SymbolTable, table.family ≤ family →
      SymbolTable.family ((FollowSets.pass grammar first).run table) ≤ family := by
    intro table
    apply FollowSets.pass_keeps (SymbolTable.family · ≤ family)
    intro table production member below
    obtain ⟨id, found⟩ := Array.getElem?_of_mem (Array.mem_toList_iff.mp member)
    exact satisfies.absorbRight [] found below
  apply (FollowSets.pass grammar first).saturate_induction kept
  intro key symbol member
  rcases SymbolTable.mem_of_mem_get_extend member with earlier | ⟨rfl, marker⟩
  · rcases SymbolTable.mem_of_mem_get_extend earlier with none | ⟨rfl, marker⟩
    · rw [SymbolTable.get_ofKeys] at none
      exact absurd none (SymbolSet.not_mem_empty symbol)
    · rw [SymbolSet.mem_singleton.mp marker]
      exact satisfies.augmentedStart
  · rw [SymbolSet.mem_singleton.mp marker]
    exact satisfies.start

theorem WellFormed.followSets_isLeast (wellFormed : grammar.WellFormed) (first : FirstSets) :
    IsLeast {family | Satisfies grammar first family} (grammar.followSets first).family :=
  ⟨(wellFormed.followSets_closed first).satisfies, fun _ => followSets_le⟩

/-- What can be seen behind a nonterminal: a terminal in what some nonterminal derives, or the
end of what the augmented start derives. -/
inductive Follows (grammar : Grammar) (key : Symbol) : Symbol → Prop where
  | inside {left symbol : Symbol} {before after : List Symbol} :
      left ∈ grammar.nonterminals → symbol.isTerminal = true → symbol ≠ Symbol.endMarker →
      grammar.Derives [left] (before ++ key :: symbol :: after) → Follows grammar key symbol
  | atEnd (before : List Symbol) :
      grammar.Derives [grammar.augmentedStart] (before ++ [key]) →
      Follows grammar key Symbol.endMarker

/-- A production puts a symbol in the place of its left-hand side, with something behind it
that the rest of the right-hand side derives. -/
theorem derives_of_production {id : Nat} {left key : Symbol} {before after next : List Symbol}
    (found : grammar.production? id = some ⟨left, before ++ key :: after⟩)
    (behind : grammar.Derives after next) (front back : List Symbol) :
    grammar.Derives (front ++ left :: back) ((front ++ before) ++ key :: (next ++ back)) := by
  have expanded := (behind.append_right back).append_left (front ++ before ++ [key])
  refine .head (.intro front back found) ?_
  change grammar.Derives _ _
  simpa only [List.append_assoc, List.cons_append, List.nil_append] using expanded

/-- What can be seen behind nonterminals satisfies the productions. -/
theorem WellFormed.satisfies_follows (wellFormed : grammar.WellFormed) :
    Satisfies grammar grammar.firstSets fun key => {symbol | grammar.Follows key symbol} where
  start := .atEnd [] (.single (.intro [] [] wellFormed.augmented))
  augmentedStart := .atEnd [] .refl
  rest := by
    intro id left before key after found _ symbol member
    have whole : grammar.Form after := (wellFormed.form_right found).append_right.tail
    obtain ⟨listed, rest, derives⟩ := ((wellFormed.firstSets_ofSequence whole).1 symbol).mp member
    have unmarked : ∀ other ∈ after, other ≠ Symbol.endMarker := by
      intro other otherMember
      exact wellFormed.ne_endMarker found
        (List.mem_append_right _ (List.mem_cons_of_mem _ otherMember))
    have different := derives.forall_symbol
      (fun found symbol member => wellFormed.ne_endMarker found member) unmarked
    have form := derives_of_production found derives [] []
    rw [List.append_nil] at form
    exact .inside (wellFormed.left_mem found) (wellFormed.isTerminal_of_mem listed)
      (different symbol List.mem_cons_self) form
  left := by
    intro id left before key after found _ nullable symbol follows
    have whole : grammar.Form after := (wellFormed.form_right found).append_right.tail
    have vanishes := (wellFormed.firstSets_ofSequence whole).2.mp nullable
    cases follows with
    | inside defined terminal different derives =>
        exact .inside defined terminal different
          (derives.trans (derives_of_production found vanishes _ _))
    | atEnd _ derives =>
        exact .atEnd _ (derives.trans (derives_of_production found vanishes _ []))

/-- The FOLLOW set of a nonterminal is what can be seen behind it. -/
theorem WellFormed.mem_followSets_iff (wellFormed : grammar.WellFormed) {key symbol : Symbol}
    (nonterminal : key.isNonterminal = true) :
    symbol ∈ (grammar.followSets grammar.firstSets).get key ↔ grammar.Follows key symbol := by
  constructor
  · exact fun member => followSets_le wellFormed.satisfies_follows key member
  · have closed := wellFormed.followSets_closed grammar.firstSets
    intro follows
    cases follows with
    | @inside left _ before after _ terminal _ derives =>
        have covered := closed.covers_of_derives wellFormed.firstSets_closed wellFormed
          (FollowSets.covers_singleton left) derives
        exact covered before key (symbol :: after) rfl nonterminal symbol
          (FirstSets.mem_ofSequence_of_isTerminal terminal after)
    | atEnd before derives =>
        have covered := closed.covers_of_derives wellFormed.firstSets_closed wellFormed
          (FollowSets.covers_marked closed.augmentedStart)
          (derives.append_right [Symbol.endMarker])
        exact covered before key [Symbol.endMarker] (by simp) nonterminal _
          (FirstSets.mem_ofSequence_of_isTerminal (by decide) [])

theorem Follows.mem_terminals {key symbol : Symbol} (follows : grammar.Follows key symbol)
    (wellFormed : grammar.WellFormed) : symbol ∈ grammar.terminals := by
  cases follows with
  | inside defined terminal _ derives =>
      have whole := (form_of_mem defined).of_derives wellFormed derives
      exact whole.append_right.tail.mem_terminals wellFormed List.mem_cons_self terminal
  | atEnd _ _ => exact (wellFormed.mem_terminals _).mpr (.inl rfl)

/-- The FOLLOW sets are those of the nonterminals, in their order, and with respect to any FIRST
sets they are the least family that satisfies the productions. With the grammar's own FIRST sets
they are exact: they hold terminals only, a terminal other than the end marker just if some
nonterminal derives a form where it stands directly behind the nonterminal in question, and the
end marker just if the augmented start derives a form that ends with that nonterminal. -/
theorem followSets_exact (loaded : grammar.Loaded) :
    (∀ first : FirstSets,
      (grammar.followSets first).map (·.1) = grammar.nonterminals ∧
      IsLeast {family | Satisfies grammar first family} (grammar.followSets first).family) ∧
    ∀ key ∈ grammar.nonterminals,
      (∀ symbol ∈ (grammar.followSets grammar.firstSets).get key,
        symbol ∈ grammar.terminals) ∧
      (∀ symbol, symbol.isTerminal = true → symbol ≠ Symbol.endMarker →
        (symbol ∈ (grammar.followSets grammar.firstSets).get key ↔
          ∃ left ∈ grammar.nonterminals, ∃ before after,
            grammar.Derives [left] (before ++ key :: symbol :: after))) ∧
      (Symbol.endMarker ∈ (grammar.followSets grammar.firstSets).get key ↔
        ∃ before, grammar.Derives [grammar.augmentedStart] (before ++ [key])) := by
  have wellFormed := loaded.wellFormed
  refine ⟨fun first => ⟨map_fst_followSets grammar first, wellFormed.followSets_isLeast first⟩, ?_⟩
  intro key defined
  have follows : ∀ symbol, symbol ∈ (grammar.followSets grammar.firstSets).get key ↔
      grammar.Follows key symbol :=
    fun _ => wellFormed.mem_followSets_iff (wellFormed.nonterminal key defined)
  simp only [follows]
  refine ⟨fun symbol seen => seen.mem_terminals wellFormed, ?_, ?_⟩
  · intro symbol terminal different
    constructor
    · intro seen
      cases seen with
      | inside leftDefined _ _ derives => exact ⟨_, leftDefined, _, _, derives⟩
      | atEnd _ _ => exact absurd rfl different
    · rintro ⟨left, leftDefined, before, after, derives⟩
      exact .inside leftDefined terminal different derives
  · constructor
    · intro seen
      cases seen with
      | inside _ _ different _ => exact absurd rfl different
      | atEnd before derives => exact ⟨before, derives⟩
    · rintro ⟨before, derives⟩
      exact .atEnd before derives

theorem followSets_optional :
    optional.followSets optional.firstSets = [(.ofChar 'Y', ⟨[.endMarker], by decide⟩),
      (.ofChar 'S', ⟨[.endMarker], by decide⟩), (.ofChar 'A', ⟨[.ofChar 'a'], by decide⟩),
      (.ofChar 'B', .empty), (.ofChar 'U', ⟨[.endMarker, .ofChar 'b'], by decide⟩)] := by
  rw [firstSets_optional]
  exact ((FollowSets.pass optional _).saturate_eq_iterate 2 (by decide +kernel)).trans
    (by decide +kernel)

/-- Where nothing is known to be nullable, the FOLLOW sets are still the least ones for that.
What never ends can be followed by `b` and by the end of the input, and an optional letter by
another one, but nothing can be seen behind two of them, and they end no form. -/
theorem followSets_exact_optional :
    ((optional.followSets .empty).map (·.1) =
        [.ofChar 'Y', .ofChar 'S', .ofChar 'A', .ofChar 'B', .ofChar 'U'] ∧
      IsLeast {family | Satisfies optional .empty family}
        (optional.followSets .empty).family) ∧
      (∃ left ∈ optional.nonterminals, ∃ before after, optional.Derives [left]
        (before ++ .ofChar 'A' :: .ofChar 'a' :: after)) ∧
      (∃ before, optional.Derives [.ofChar 'Y'] (before ++ [.ofChar 'U'])) ∧
      (¬∃ left ∈ optional.nonterminals, ∃ before after, optional.Derives [left]
        (before ++ .ofChar 'B' :: .ofChar 'b' :: after)) ∧
      ¬∃ before, optional.Derives [.ofChar 'Y'] (before ++ [.ofChar 'B']) := by
  obtain ⟨least, exact⟩ := followSets_exact optional_loaded
  rw [followSets_optional] at exact
  obtain ⟨_, letter, _⟩ := exact (.ofChar 'A') (by decide)
  obtain ⟨_, two, end_two⟩ := exact (.ofChar 'B') (by decide)
  obtain ⟨_, _, endless⟩ := exact (.ofChar 'U') (by decide)
  refine ⟨least .empty, (letter (.ofChar 'a') (by decide) (by decide)).mp (by decide),
    endless.mp (by decide), ?_, ?_⟩
  · rw [← two (.ofChar 'b') (by decide) (by decide)]
    decide
  · intro ends
    have member := end_two.mpr ends
    revert member
    decide

end Grammar

end ShiftReduce
