import ShiftReduce.Proofs.Analysis.First
import ShiftReduce.Proofs.Grammar.Forms

/-!
# Exactness of FIRST sets

While FIRST sets grow, everything in them is justified by a derivation: a production adds to
the set of its left-hand side what the sets say of its right-hand side, and they say it of the
first symbol that stays when the symbols before it derive nothing.  Together with their
completeness this makes the sets exact, of single nonterminals and of all sequences.
Main statements: `FirstSets.Justified.ofSequence` and `Grammar.firstSets_exact`.
-/

namespace ShiftReduce

variable {grammar : Grammar}

namespace FirstSets

variable {sets : FirstSets} {form : List Symbol} {symbol left : Symbol}

/-- There is a derivation for everything in the sets. -/
structure Justified (grammar : Grammar) (sets : FirstSets) : Prop where
  first : ∀ {left symbol}, symbol ∈ sets.first.get left →
    symbol.isTerminal = true ∧ ∃ rest, grammar.Derives [left] (symbol :: rest)
  nullable : ∀ {left}, left ∈ sets.nullable → grammar.Derives [left] []

namespace Justified

theorem ofSymbol (justified : Justified grammar sets) (whole : grammar.Form [left])
    (wellFormed : grammar.WellFormed) (member : symbol ∈ sets.ofSymbol left) :
    symbol.isTerminal = true ∧ ∃ rest, grammar.Derives [left] (symbol :: rest) := by
  rcases whole.isTerminal_or_isNonterminal wellFormed List.mem_cons_self with
    terminal | nonterminal
  · rw [ofSymbol_of_isTerminal terminal, SymbolSet.mem_singleton] at member
    subst member
    exact ⟨terminal, [], .refl⟩
  · rw [FirstSets.ofSymbol, if_pos nonterminal] at member
    exact justified.first member

theorem isNullable (justified : Justified grammar sets) (whole : grammar.Form [left])
    (wellFormed : grammar.WellFormed) (nullable : sets.isNullable left = true) :
    grammar.Derives [left] [] := by
  simp only [FirstSets.isNullable, Bool.or_eq_true, decide_eq_true_eq] at nullable
  rcases nullable with empty | member
  · rw [eq_of_beq empty] at whole
    rcases whole.isTerminal_or_isNonterminal wellFormed List.mem_cons_self with kind | kind <;>
      exact absurd kind (by decide)
  · exact justified.nullable member

/-- What the sets say of a sequence is justified if what they hold is. The induction is on
the sequence: its first symbol derives what is said, or it derives nothing and is dropped. -/
theorem ofSequence (justified : Justified grammar sets) (whole : grammar.Form form)
    (wellFormed : grammar.WellFormed) :
    (∀ symbol ∈ (sets.ofSequence form).1,
      symbol.isTerminal = true ∧ ∃ rest, grammar.Derives form (symbol :: rest)) ∧
      ((sets.ofSequence form).2 = true → grammar.Derives form []) := by
  induction form with
  | nil => exact ⟨fun symbol member => absurd member (SymbolSet.not_mem_empty symbol),
      fun _ => .refl⟩
  | cons first others ih =>
      obtain ⟨othersFirst, othersNullable⟩ := ih whole.tail
      have drop : sets.isNullable first = true → grammar.Derives (first :: others) others :=
        fun nullable =>
          (justified.isNullable whole.head wellFormed nullable).append_right others
      constructor
      · intro symbol member
        rcases mem_ofSequence_cons.mp member with member | ⟨nullable, member⟩
        · obtain ⟨terminal, rest, derives⟩ := justified.ofSymbol whole.head wellFormed member
          exact ⟨terminal, rest ++ others, derives.append_right others⟩
        · obtain ⟨terminal, rest, derives⟩ := othersFirst symbol member
          exact ⟨terminal, rest, (drop nullable).trans derives⟩
      · rw [ofSequence_cons_snd, Bool.and_eq_true]
        rintro ⟨nullable, othersVanish⟩
        exact (drop nullable).trans (othersNullable othersVanish)

/-- A production of the grammar adds what is justified by it. -/
theorem absorb (justified : Justified grammar sets) (wellFormed : grammar.WellFormed) {id : Nat}
    {production : Production} (found : grammar.production? id = some production) :
    Justified grammar (sets.absorb production) := by
  have step : grammar.Derives [production.left] production.right := by
    have rewrites := Grammar.Rewrites.intro [] [] found
    rw [List.nil_append, List.append_nil] at rewrites
    exact .single rewrites
  obtain ⟨rightFirst, rightNullable⟩ :=
    justified.ofSequence (wellFormed.form_right found) wellFormed
  have extended : ∀ {left symbol},
      symbol ∈ (sets.first.extend production.left (sets.ofSequence production.right).1).get left →
        symbol.isTerminal = true ∧ ∃ rest, grammar.Derives [left] (symbol :: rest) := by
    intro left symbol member
    rcases SymbolTable.mem_of_mem_get_extend member with known | ⟨rfl, added⟩
    · exact justified.first known
    · obtain ⟨terminal, rest, derives⟩ := rightFirst symbol added
      exact ⟨terminal, rest, step.trans derives⟩
  simp only [FirstSets.absorb]
  split
  next nullable =>
    refine ⟨extended, ?_⟩
    intro left member
    rcases SymbolSet.mem_insert.mp member with rfl | member
    · exact step.trans (rightNullable nullable)
    · exact justified.nullable member
  · exact ⟨extended, justified.nullable⟩

end Justified

end FirstSets

namespace Grammar

theorem WellFormed.firstSets_justified (wellFormed : grammar.WellFormed) :
    FirstSets.Justified grammar grammar.firstSets := by
  apply (FirstSets.pass grammar).saturate_induction
  · intro sets
    apply FirstSets.pass_keeps
    intro sets production member justified
    obtain ⟨id, found⟩ := Array.getElem?_of_mem (Array.mem_toList_iff.mp member)
    exact justified.absorb wellFormed found
  · constructor
    · intro left symbol member
      rw [SymbolTable.get_ofKeys] at member
      exact absurd member (SymbolSet.not_mem_empty symbol)
    · intro left member
      exact absurd member (SymbolSet.not_mem_empty left)

/-- What a form of the grammar can begin with, and whether it can vanish. -/
theorem WellFormed.firstSets_ofSequence (wellFormed : grammar.WellFormed) {form : List Symbol}
    (whole : grammar.Form form) :
    (∀ symbol, symbol ∈ (grammar.firstSets.ofSequence form).1 ↔
      symbol ∈ grammar.terminals ∧ ∃ rest, grammar.Derives form (symbol :: rest)) ∧
      ((grammar.firstSets.ofSequence form).2 = true ↔ grammar.Derives form []) := by
  have closed : FirstSets.Closed grammar grammar.firstSets := wellFormed.firstSets_closed
  obtain ⟨firstJustified, nullableJustified⟩ :=
    wellFormed.firstSets_justified.ofSequence whole wellFormed
  refine ⟨fun symbol => ⟨?_, ?_⟩, nullableJustified, closed.nullable_of_derives wellFormed⟩
  · intro member
    obtain ⟨terminal, rest, derives⟩ := firstJustified symbol member
    have derived := whole.of_derives wellFormed derives
    exact ⟨derived.mem_terminals wellFormed List.mem_cons_self terminal, rest, derives⟩
  · rintro ⟨listed, rest, derives⟩
    exact closed.mem_of_derives wellFormed derives symbol
      (FirstSets.mem_ofSequence_of_isTerminal (wellFormed.isTerminal_of_mem listed) rest)

/-- The FIRST sets of a grammar are exact. A sequence of its terminals and nonterminals begins
with just those terminals that are in front of something it derives, and it is nullable just if
it derives the empty sequence. The same is true of each nonterminal by itself, and the augmented
start is one of them. -/
theorem firstSets_exact (loaded : grammar.Loaded) :
    (∀ form, grammar.Form form →
      (∀ symbol, symbol ∈ (grammar.firstSets.ofSequence form).1 ↔
        symbol ∈ grammar.terminals ∧ ∃ rest, grammar.Derives form (symbol :: rest)) ∧
      ((grammar.firstSets.ofSequence form).2 = true ↔ grammar.Derives form [])) ∧
    grammar.augmentedStart ∈ grammar.nonterminals ∧
    ∀ left ∈ grammar.nonterminals,
      (∀ symbol, symbol ∈ grammar.firstSets.ofSymbol left ↔
        symbol ∈ grammar.terminals ∧ ∃ rest, grammar.Derives [left] (symbol :: rest)) ∧
      (grammar.firstSets.isNullable left = true ↔ grammar.Derives [left] []) := by
  have wellFormed := loaded.wellFormed
  refine ⟨fun form => wellFormed.firstSets_ofSequence, wellFormed.left_mem wellFormed.augmented, ?_⟩
  intro left member
  obtain ⟨first, nullable⟩ := wellFormed.firstSets_ofSequence (form_of_mem member)
  rw [FirstSets.ofSequence_singleton_snd] at nullable
  refine ⟨fun symbol => ?_, nullable⟩
  rw [← first symbol, FirstSets.mem_ofSequence_singleton]

/-- Optional letters before something that never ends, `S -> ABU | c` with `A -> a` or nothing,
`B -> AA` and `U -> Ub`. -/
def optional : Grammar where
  dialect := .standard
  start := .ofChar 'S'
  productions := #[⟨.ofChar 'Y', [.ofChar 'S']⟩,
    ⟨.ofChar 'S', [.ofChar 'A', .ofChar 'B', .ofChar 'U']⟩, ⟨.ofChar 'S', [.ofChar 'c']⟩,
    ⟨.ofChar 'A', [.ofChar 'a']⟩, ⟨.ofChar 'A', []⟩, ⟨.ofChar 'B', [.ofChar 'A', .ofChar 'A']⟩,
    ⟨.ofChar 'U', [.ofChar 'U', .ofChar 'b']⟩]
  alternatives := [(.ofChar 'Y', [0]), (.ofChar 'S', [1, 2]), (.ofChar 'A', [3, 4]),
    (.ofChar 'B', [5]), (.ofChar 'U', [6])]
  terminals := [.ofChar 'c', .ofChar 'a', .ofChar 'b', .endMarker]

theorem optional_loaded : Loaded optional := by
  have loads : ofRules .standard
      [(.ofChar 'S', [[.ofChar 'A', .ofChar 'B', .ofChar 'U'], [.ofChar 'c']]),
        (.ofChar 'A', [[.ofChar 'a'], [.empty]]), (.ofChar 'B', [[.ofChar 'A', .ofChar 'A']]),
        (.ofChar 'U', [[.ofChar 'U', .ofChar 'b']])] = .ok optional := rfl
  exact .rules loads

theorem firstSets_optional :
    optional.firstSets = ⟨[(.ofChar 'Y', ⟨[.ofChar 'a', .ofChar 'c'], by decide⟩),
      (.ofChar 'S', ⟨[.ofChar 'a', .ofChar 'c'], by decide⟩),
      (.ofChar 'A', ⟨[.ofChar 'a'], by decide⟩), (.ofChar 'B', ⟨[.ofChar 'a'], by decide⟩),
      (.ofChar 'U', .empty)], ⟨[.ofChar 'A', .ofChar 'B'], by decide⟩⟩ :=
  ((FirstSets.pass optional).saturate_eq_iterate 3 (by decide +kernel)).trans (by decide +kernel)

/-- Two optional letters can vanish, so they can be followed by what is behind them at once.
What never ends begins with no terminal, although it derives only forms that hold one. -/
theorem firstSets_exact_optional :
    (∃ rest, optional.Derives [.ofChar 'B', .ofChar 'b'] (.ofChar 'b' :: rest)) ∧
      ¬optional.Derives [.ofChar 'B', .ofChar 'b'] [] ∧ optional.Derives [.ofChar 'B'] [] ∧
      (∃ rest, optional.Derives [.ofChar 'Y'] (.ofChar 'a' :: rest)) ∧
      ¬∃ rest, optional.Derives [.ofChar 'U'] (.ofChar 'b' :: rest) := by
  have whole : optional.Form [.ofChar 'B', .ofChar 'b'] := by decide
  obtain ⟨sequences, _, nonterminals⟩ := firstSets_exact optional_loaded
  obtain ⟨first, nullable⟩ := sequences _ whole
  rw [firstSets_optional] at first nullable nonterminals
  refine ⟨((first _).mp (by decide)).2, ?_, ?_, ?_, ?_⟩
  · rw [← nullable]
    decide
  · exact (nonterminals (.ofChar 'B') (by decide)).2.mp (by decide)
  · exact ((nonterminals (.ofChar 'Y') (by decide)).1 _ |>.mp (by decide)).2
  · intro derives
    have listed : Symbol.ofChar 'b' ∈ optional.terminals := by decide
    have member := ((nonterminals (.ofChar 'U') (by decide)).1 _).mpr ⟨listed, derives⟩
    revert member
    decide

end Grammar

end ShiftReduce
