import ShiftReduce.Analysis.Follow
import ShiftReduce.Proofs.Analysis.First

/-!
# Completeness of FOLLOW sets

FOLLOW sets to which no production adds anything cover every form that can be derived from
a covered one: behind each nonterminal of such a form can stand only what is in its FOLLOW
set.  A production puts its right-hand side in the place of a nonterminal, and what stood
behind that nonterminal is then behind the symbols whose own rest is nullable.  The end of
a form is marked by the end marker, which is a symbol like any other here.
Main statement: `Grammar.WellFormed.mem_followSets_of_derives`.
-/

namespace ShiftReduce

namespace FollowSets

variable {grammar : Grammar} {first : FirstSets} {table : SymbolTable} {left : Symbol}

theorem map_fst_absorbRight (first : FirstSets) (left : Symbol) (table : SymbolTable)
    (symbols : List Symbol) :
    (absorbRight first left table symbols).map (·.1) = table.map (·.1) := by
  induction symbols generalizing table with
  | nil => rfl
  | cons symbol rest ih =>
      rw [absorbRight]
      split
      · exact (ih _).trans (table.map_fst_extend _ _)
      · exact ih table

theorem mem_get_absorbRight {key symbol : Symbol} (symbols : List Symbol)
    (member : symbol ∈ table.get key) :
    symbol ∈ (absorbRight first left table symbols).get key := by
  induction symbols generalizing table with
  | nil => exact member
  | cons head rest ih =>
      rw [absorbRight]
      split
      · exact ih (SymbolTable.mem_get_extend_of_mem member)
      · exact ih member

/-- What a right-hand side says about a nonterminal that this rest of it stands behind. -/
def following (first : FirstSets) (left : Symbol) (table : SymbolTable) (rest : List Symbol) :
    SymbolSet :=
  if (first.ofSequence rest).2 then (first.ofSequence rest).1.union (table.get left)
  else (first.ofSequence rest).1

theorem mem_following {symbol : Symbol} {rest : List Symbol} :
    symbol ∈ following first left table rest ↔
      symbol ∈ (first.ofSequence rest).1 ∨
        (first.ofSequence rest).2 = true ∧ symbol ∈ table.get left := by
  unfold following
  split
  next nullable => simp [nullable]
  next notNullable => simp [notNullable]

theorem absorbRight_cons {key : Symbol} (nonterminal : key.isNonterminal = true)
    (rest : List Symbol) :
    absorbRight first left table (key :: rest) =
      absorbRight first left (table.extend key (following first left table rest)) rest := by
  rw [absorbRight, if_pos nonterminal]
  rfl

/-- If a right-hand side adds nothing, neither does one of its nonterminals. -/
theorem extend_eq_of_absorbRight_eq {key : Symbol} (nonterminal : key.isNonterminal = true)
    {rest : List Symbol} (fixed : absorbRight first left table (key :: rest) = table) :
    table.extend key (following first left table rest) = table := by
  rw [absorbRight_cons nonterminal] at fixed
  have back := shrinks_absorbRight first left
    (table.extend key (following first left table rest)) rest
  rw [fixed] at back
  exact (table.shrinks_extend _ _).antisymm back

/-- If a right-hand side adds nothing, the table holds what it says about each of its
nonterminals. -/
theorem following_subset_of_absorbRight_eq {symbols : List Symbol}
    (listed : ∀ symbol ∈ symbols, symbol.isNonterminal = true → symbol ∈ table.map (·.1))
    (fixed : absorbRight first left table symbols = table) {before after : List Symbol}
    {key : Symbol} (split : symbols = before ++ key :: after)
    (nonterminal : key.isNonterminal = true) :
    ∀ symbol ∈ following first left table after, symbol ∈ table.get key := by
  subst split
  induction before with
  | nil =>
      intro symbol
      exact SymbolTable.mem_get_of_extend_eq (listed key List.mem_cons_self nonterminal)
        (extend_eq_of_absorbRight_eq nonterminal fixed)
  | cons head before ih =>
      apply ih fun symbol member => listed symbol (List.mem_cons_of_mem _ member)
      by_cases headNonterminal : head.isNonterminal = true
      · rw [List.cons_append] at fixed
        have headFixed := extend_eq_of_absorbRight_eq headNonterminal fixed
        rw [absorbRight_cons headNonterminal, headFixed] at fixed
        exact fixed
      · rw [List.cons_append, absorbRight, if_neg headNonterminal] at fixed
        exact fixed

/-- The sets hold what all productions say, and the end marker follows what the whole
input is derived from. -/
structure Closed (grammar : Grammar) (first : FirstSets) (table : SymbolTable) : Prop where
  start : Symbol.endMarker ∈ table.get grammar.start
  augmentedStart : Symbol.endMarker ∈ table.get grammar.augmentedStart
  rest : ∀ {id left before key after},
    grammar.production? id = some ⟨left, before ++ key :: after⟩ → key.isNonterminal = true →
      ∀ symbol ∈ (first.ofSequence after).1, symbol ∈ table.get key
  left : ∀ {id left before key after},
    grammar.production? id = some ⟨left, before ++ key :: after⟩ → key.isNonterminal = true →
      (first.ofSequence after).2 = true → ∀ symbol ∈ table.get left, symbol ∈ table.get key

/-- Behind every nonterminal of a form stands only what is in the set of that nonterminal. -/
def Covers (first : FirstSets) (table : SymbolTable) (form : List Symbol) : Prop :=
  ∀ before key after, form = before ++ key :: after → key.isNonterminal = true →
    ∀ symbol ∈ (first.ofSequence after).1, symbol ∈ table.get key

/-- A nonterminal at the end of the input is covered if the end marker is in its set. -/
theorem covers_marked {last : Symbol} (atEnd : Symbol.endMarker ∈ table.get last) :
    Covers first table [last, Symbol.endMarker] := by
  intro before key after split nonterminal symbol member
  rcases List.cons_eq_append_iff.mp split with ⟨rfl, equal⟩ | ⟨rest, rfl, equal⟩
  · cases equal
    have isTerminal : Symbol.endMarker.isTerminal = true := by decide
    rw [FirstSets.mem_ofSequence_singleton, FirstSets.ofSymbol_of_isTerminal isTerminal] at member
    rw [SymbolSet.mem_singleton.mp member]
    exact atEnd
  · have marker : key ∈ [Symbol.endMarker] := equal ▸ List.mem_append_right rest List.mem_cons_self
    rw [List.mem_singleton.mp marker] at nonterminal
    cases nonterminal

/-- Nothing stands behind a nonterminal by itself. -/
theorem covers_singleton (only : Symbol) : Covers first table [only] := by
  intro before key after split nonterminal symbol member
  rcases List.cons_eq_append_iff.mp split with ⟨rfl, equal⟩ | ⟨rest, rfl, equal⟩
  · cases equal
    exact absurd member (SymbolSet.not_mem_empty symbol)
  · simp at equal

variable {form next : List Symbol}

/-- What is derived from a covered form is covered. The nonterminal in question stands before
the place of the production, on its right-hand side, or behind it. -/
theorem Closed.covers_of_rewrites (closed : Closed grammar first table)
    (firstClosed : FirstSets.Closed grammar first) (wellFormed : grammar.WellFormed)
    (covers : Covers first table form) (rewrites : grammar.Rewrites form next) :
    Covers first table next := by
  cases rewrites with
  | @intro id production front back found =>
      obtain ⟨left, right⟩ := production
      intro before key after split nonterminal symbol member
      rw [List.append_assoc] at split
      rcases split_append split with ⟨rest, rfl, rfl⟩ | ⟨rest, rfl, inRest⟩
      · have undone := firstClosed.of_rewrites wellFormed (.intro rest back found)
        apply covers before key (rest ++ left :: back) (by simp) nonterminal
        exact undone.1 symbol (by simpa using member)
      rcases split_append inRest with ⟨inside, rfl, rfl⟩ | ⟨inside, rfl, rfl⟩
      · rcases FirstSets.mem_ofSequence_append.mp member with member | ⟨nullable, member⟩
        · exact closed.rest found nonterminal symbol member
        · exact closed.left found nonterminal nullable symbol
            (covers front left back rfl (wellFormed.left_nonterminal found) symbol member)
      · exact covers (front ++ left :: inside) key after (by simp) nonterminal symbol member

theorem Closed.covers_of_derives (closed : Closed grammar first table)
    (firstClosed : FirstSets.Closed grammar first) (wellFormed : grammar.WellFormed)
    (covers : Covers first table form) (derives : grammar.Derives form next) :
    Covers first table next := by
  induction derives with
  | refl => exact covers
  | tail _ rewrites ih => exact closed.covers_of_rewrites firstClosed wellFormed ih rewrites

/-- A pass keeps what every production of the grammar keeps. -/
theorem pass_keeps (property : SymbolTable → Prop)
    (kept : ∀ table production, production ∈ grammar.productions.toList → property table →
      property (absorb first table production))
    (holds : property table) : property ((pass grammar first).run table) :=
  List.foldlRecOn _ _ holds fun table holds production member =>
    kept table production member holds

end FollowSets

namespace Grammar

variable {grammar : Grammar}

/-- The FOLLOW sets are those of the nonterminals, in their order. -/
theorem map_fst_followSets (grammar : Grammar) (first : FirstSets) :
    (grammar.followSets first).map (·.1) = grammar.nonterminals := by
  have kept : ∀ table : SymbolTable, table.map (·.1) = grammar.nonterminals →
      ((FollowSets.pass grammar first).run table).map (·.1) = grammar.nonterminals :=
    fun _ => FollowSets.pass_keeps (·.map (·.1) = grammar.nonterminals)
      fun _ _ _ keys => (FollowSets.map_fst_absorbRight _ _ _ _).trans keys
  apply (FollowSets.pass grammar first).saturate_induction kept
  rw [SymbolTable.map_fst_extend, SymbolTable.map_fst_extend, SymbolTable.map_fst_ofKeys]

/-- What is in the FOLLOW sets before the first pass stays in them. -/
theorem mem_followSets (first : FirstSets) {key symbol : Symbol}
    (member : symbol ∈ (((SymbolTable.ofKeys grammar.nonterminals).extend grammar.augmentedStart
      (.singleton Symbol.endMarker)).extend grammar.start (.singleton Symbol.endMarker)).get key) :
    symbol ∈ (grammar.followSets first).get key := by
  have kept : ∀ table : SymbolTable, symbol ∈ table.get key →
      symbol ∈ ((FollowSets.pass grammar first).run table).get key :=
    fun _ => FollowSets.pass_keeps (symbol ∈ ·.get key)
      fun _ _ _ => FollowSets.mem_get_absorbRight _
  exact (FollowSets.pass grammar first).saturate_induction kept member

/-- The FOLLOW sets of a grammar are closed under its productions, whatever FIRST sets they
are computed with. -/
theorem WellFormed.followSets_closed (wellFormed : grammar.WellFormed) (first : FirstSets) :
    FollowSets.Closed grammar first (grammar.followSets first) := by
  have fixed : (FollowSets.pass grammar first).run (grammar.followSets first) =
      grammar.followSets first := (FollowSets.pass grammar first).run_saturate _
  have absorbs := Shrinks.eq_of_foldl_eq (FollowSets.shrinks_absorb first) fixed
  have holds : ∀ {id left before key after},
      grammar.production? id = some ⟨left, before ++ key :: after⟩ → key.isNonterminal = true →
      ∀ symbol ∈ FollowSets.following first left (grammar.followSets first) after,
        symbol ∈ (grammar.followSets first).get key := by
    intro id left before key after found nonterminal
    have member := Array.mem_toList_iff.mpr (Array.mem_of_getElem? found)
    refine FollowSets.following_subset_of_absorbRight_eq ?_ (absorbs _ member) rfl nonterminal
    intro symbol symbolMember isNonterminal
    rw [map_fst_followSets]
    exact wellFormed.nonterminal_mem found symbolMember isNonterminal
  constructor
  · apply mem_followSets
    apply SymbolTable.mem_get_extend
    · rw [SymbolTable.map_fst_extend, SymbolTable.map_fst_ofKeys]
      exact wellFormed.start_mem
    · exact SymbolSet.mem_singleton.mpr rfl
  · apply mem_followSets
    apply SymbolTable.mem_get_extend_of_mem
    apply SymbolTable.mem_get_extend
    · rw [SymbolTable.map_fst_ofKeys]
      exact wellFormed.left_mem wellFormed.augmented
    · exact SymbolSet.mem_singleton.mpr rfl
  · intro id left before key after found nonterminal symbol member
    exact holds found nonterminal symbol (FollowSets.mem_following.mpr (.inl member))
  · intro id left before key after found nonterminal nullable symbol member
    exact holds found nonterminal symbol (FollowSets.mem_following.mpr (.inr ⟨nullable, member⟩))

/-- What a form that the start symbol derives can go on with behind a nonterminal, up to and
with the end of the input, is in the FOLLOW set of that nonterminal. -/
theorem WellFormed.mem_followSets_of_derives (wellFormed : grammar.WellFormed)
    {before after : List Symbol} {key symbol : Symbol}
    (derives : grammar.Derives [grammar.start] (before ++ key :: after))
    (nonterminal : key.isNonterminal = true)
    (member : symbol ∈ (grammar.firstSets.ofSequence (after ++ [Symbol.endMarker])).1) :
    symbol ∈ (grammar.followSets grammar.firstSets).get key := by
  have closed := wellFormed.followSets_closed grammar.firstSets
  have covered := closed.covers_of_derives wellFormed.firstSets_closed wellFormed
    (FollowSets.covers_marked closed.start) (Derives.append_right derives [Symbol.endMarker])
  exact covered before key (after ++ [Symbol.endMarker]) (by simp) nonterminal symbol member

end Grammar

end ShiftReduce
