import ShiftReduce.Proofs.Automaton.Canonical
import ShiftReduce.Proofs.Grammar.Reordering

/-!
# Renamed automata

The automata of two grammars that agree up to the numbers of their productions agree up to
the numbers of their states.  The order in which states are found is of no account: a state
is its set of items, which are the valid ones of any sequence of symbols that leads to it,
and validity knows nothing of numbers.
Main statement: `Grammar.Renumbers.exists_renames`.
-/

namespace ShiftReduce

variable {first second : Grammar} {productions : Equiv.Perm Nat}

/-! ## Items -/

/-- The item with its production under another number. -/
def Item.rename (productions : Equiv.Perm Nat) (item : Item) : Item :=
  { item with production := productions item.production }

namespace Item

@[simp] theorem rename_symm_rename (productions : Equiv.Perm Nat) (item : Item) :
    (item.rename productions.symm).rename productions = item := by
  simp [rename]

@[simp] theorem rename_rename_symm (productions : Equiv.Perm Nat) (item : Item) :
    (item.rename productions).rename productions.symm = item := by
  simp [rename]

theorem rename_surjective (productions : Equiv.Perm Nat) :
    Function.Surjective (Item.rename productions) :=
  fun item => ⟨item.rename productions.symm, item.rename_symm_rename productions⟩

end Item

namespace Grammar.Renumbers

theorem symm (renumbers : Renumbers productions first second) :
    Renumbers productions.symm second first where
  dialect := renumbers.dialect.symm
  start := renumbers.start.symm
  augmented := by rw [Equiv.symm_apply_eq, renumbers.augmented]
  production? id := by rw [← renumbers.production?, Equiv.apply_symm_apply]

theorem augmentedStart (renumbers : Renumbers productions first second) :
    second.augmentedStart = first.augmentedStart :=
  congrArg Dialect.augmentedStart renumbers.dialect

theorem right (renumbers : Renumbers productions first second) (id : Nat) :
    second.right (productions id) = first.right id := by
  rw [Grammar.right, renumbers.production?, Grammar.right]

theorem symbolAtDot (renumbers : Renumbers productions first second) (item : Item) :
    (item.rename productions).symbolAtDot second = item.symbolAtDot first :=
  congrArg (·[item.dot]?) (renumbers.right item.production)

theorem isComplete (renumbers : Renumbers productions first second) (item : Item) :
    (item.rename productions).isComplete second = item.isComplete first := by
  rw [Bool.eq_iff_iff, isComplete_iff, isComplete_iff]
  simp only [Item.rename, renumbers.production?]

theorem rename_start (renumbers : Renumbers productions first second) :
    (Item.start first).rename productions = Item.start second := by
  rw [Item.start, Item.start, Item.rename, renumbers.augmentedStart, renumbers.augmented]

theorem validItem (renumbers : Renumbers productions first second) {stack : List Symbol}
    {item : Item} (valid : first.ValidItem stack item) :
    second.ValidItem stack (item.rename productions) := by
  induction valid with
  | start => exact renumbers.rename_start ▸ .start
  | @advance stack item symbol _ behindDot ih =>
      exact .advance ih ((renumbers.symbolAtDot item).trans behindDot)
  | @expand stack item left id right _ behindDot found ih =>
      exact .expand ih ((renumbers.symbolAtDot item).trans behindDot)
        ((renumbers.production? id).trans found)

/-- The same items are valid, up to the numbers of their productions. -/
theorem validItem_iff (renumbers : Renumbers productions first second) {stack : List Symbol}
    {item : Item} :
    second.ValidItem stack (item.rename productions) ↔ first.ValidItem stack item := by
  refine ⟨fun valid => ?_, renumbers.validItem⟩
  have back := renumbers.symm.validItem valid
  rw [Item.rename_rename_symm] at back
  exact back

end Grammar.Renumbers

/-! ## States -/

namespace Automaton

/-- Two automata that agree up to the numbers of their productions and states. Item sets are
compared as sets, and transitions by what they lead to. -/
structure Renames (productions states : Equiv.Perm Nat) (first second : Automaton) : Prop where
  grammar : Grammar.Renumbers productions first.grammar second.grammar
  lt_size_iff : ∀ id, states id < second.size ↔ id < first.size
  initial : states 0 = 0
  goto : ∀ id symbol, second.goto (states id) symbol = (first.goto id symbol).map states
  holds_iff : ∀ id item,
    second.Holds (states id) (item.rename productions) ↔ first.Holds id item

theorem Holds.lt_size {automaton : Automaton} {id : Nat} {item : Item}
    (holds : automaton.Holds id item) : id < automaton.size := by
  obtain ⟨_, found, _⟩ := holds
  exact (List.getElem?_eq_some_iff.mp found).1

theorem goto_eq_none {automaton : Automaton} {id : Nat} (beyond : automaton.size ≤ id)
    (symbol : Symbol) : automaton.goto id symbol = none := by
  rw [Automaton.goto, state?, List.getElem?_eq_none beyond, Option.bind_none]

/-- States that hold the same items are one. -/
theorem eq_of_holds_iff {grammar : Grammar} {id other : Nat} (bound : id < (build grammar).size)
    (otherBound : other < (build grammar).size)
    (same : ∀ item, (build grammar).Holds id item ↔ (build grammar).Holds other item) :
    id = other := by
  have found : (build grammar).state? id = some _ := List.getElem?_eq_getElem bound
  have otherFound : (build grammar).state? other = some _ := List.getElem?_eq_getElem otherBound
  apply eq_of_sameElements found otherFound
  rw [OrderedSet.sameElements_iff]
  intro item
  rw [← holds_iff_of_state? found, ← holds_iff_of_state? otherFound]
  exact same item

/-- The sets of items that the states hold, one after the other, where items are read from
others. -/
def heldSets (automaton : Automaton) (read : Item → Item) : List (Set Item) :=
  (List.range automaton.size).map fun id => {item | automaton.Holds id (read item)}

theorem mem_heldSets {automaton : Automaton} {read : Item → Item} {items : Set Item} :
    items ∈ automaton.heldSets read ↔
      ∃ id < automaton.size, {item | automaton.Holds id (read item)} = items := by
  simp only [heldSets, List.mem_map, List.mem_range]

theorem getElem?_heldSets {automaton : Automaton} {id : Nat} (bound : id < automaton.size)
    (read : Item → Item) :
    (automaton.heldSets read)[id]? = some {item | automaton.Holds id (read item)} := by
  rw [heldSets, List.getElem?_map, List.getElem?_range bound, Option.map_some]

/-- No two states hold the same items, if all items are read. -/
theorem nodup_heldSets (grammar : Grammar) {read : Item → Item}
    (surjective : Function.Surjective read) : ((build grammar).heldSets read).Nodup := by
  apply List.nodup_range.map_on
  intro id member other otherMember same
  apply eq_of_holds_iff (List.mem_range.mp member) (List.mem_range.mp otherMember)
  intro item
  obtain ⟨original, rfl⟩ := surjective item
  exact Set.ext_iff.mp same original

end Automaton

namespace Grammar.Renumbers

open Automaton (build)

/-- Whatever symbols lead to a state of one automaton lead to its counterpart in the other. -/
theorem exists_path (renumbers : Renumbers productions first second)
    (firstWellFormed : first.WellFormed) (secondWellFormed : second.WellFormed)
    {symbols : List Symbol} {top : Nat} {below : List Nat}
    (path : (build first).Path symbols (top :: below)) :
    ∃ renamed renamedBelow, (build second).Path symbols (renamed :: renamedBelow) ∧
      ∀ item, (build second).Holds renamed (item.rename productions) ↔
        (build first).Holds top item := by
  obtain ⟨item, valid⟩ := (Automaton.exists_path_iff firstWellFormed).mp ⟨_, path⟩
  obtain ⟨states, other⟩ :=
    (Automaton.exists_path_iff secondWellFormed).mpr ⟨_, renumbers.validItem valid⟩
  obtain ⟨renamed, renamedBelow, rfl⟩ := other.exists_top
  refine ⟨renamed, renamedBelow, other, ?_⟩
  intro item
  rw [other.holds_iff secondWellFormed, renumbers.validItem_iff, path.holds_iff firstWellFormed]

theorem exists_renamed (renumbers : Renumbers productions first second)
    (firstWellFormed : first.WellFormed) (secondWellFormed : second.WellFormed)
    {id : Nat} (bound : id < (build first).size) :
    ∃ renamed < (build second).size, ∀ item,
      (build second).Holds renamed (item.rename productions) ↔ (build first).Holds id item := by
  obtain ⟨symbols, reached⟩ := Automaton.exists_follow bound
  obtain ⟨below, path⟩ := Automaton.follow_eq_some_iff.mp reached
  obtain ⟨renamed, renamedBelow, other, holds⟩ :=
    renumbers.exists_path firstWellFormed secondWellFormed path
  exact ⟨renamed, other.lt_size renamed List.mem_cons_self, holds⟩

/-- States correspond one to one. The sets of items of all states, brought to the numbers of
one grammar, are the same in both automata, each of them once. -/
theorem exists_states (renumbers : Renumbers productions first second)
    (firstWellFormed : first.WellFormed) (secondWellFormed : second.WellFormed) :
    ∃ states : Equiv.Perm Nat,
      (∀ id, states id < (build second).size ↔ id < (build first).size) ∧
        ∀ id item, (build second).Holds (states id) (item.rename productions) ↔
          (build first).Holds id item := by
  have permutation : ((build first).heldSets id).Perm
      ((build second).heldSets (Item.rename productions)) := by
    rw [List.perm_ext_iff_of_nodup (Automaton.nodup_heldSets first Function.surjective_id)
      (Automaton.nodup_heldSets second (Item.rename_surjective productions))]
    intro items
    rw [Automaton.mem_heldSets, Automaton.mem_heldSets]
    constructor
    · rintro ⟨id, bound, rfl⟩
      obtain ⟨renamed, renamedBound, holds⟩ :=
        renumbers.exists_renamed firstWellFormed secondWellFormed bound
      exact ⟨renamed, renamedBound, Set.ext holds⟩
    · rintro ⟨id, bound, rfl⟩
      obtain ⟨renamed, renamedBound, holds⟩ :=
        renumbers.symm.exists_renamed secondWellFormed firstWellFormed bound
      refine ⟨renamed, renamedBound, Set.ext fun item => ?_⟩
      have same := holds (item.rename productions)
      rw [Item.rename_rename_symm] at same
      exact same
  obtain ⟨states, same⟩ := exists_numbers_of_perm permutation
  have lt_size_iff : ∀ id, states id < (build second).size ↔ id < (build first).size := by
    intro id
    have absent := congrArg (· = none) (same id)
    simp only [Automaton.heldSets, List.getElem?_eq_none_iff, List.length_map, List.length_range,
      eq_iff_iff] at absent
    omega
  refine ⟨states, lt_size_iff, ?_⟩
  intro id item
  by_cases bound : id < (build first).size
  · have sets := same id
    rw [Automaton.getElem?_heldSets ((lt_size_iff id).mpr bound),
      Automaton.getElem?_heldSets bound, Option.some.injEq] at sets
    exact Set.ext_iff.mp sets item
  · exact iff_of_false (fun holds => bound ((lt_size_iff id).mp holds.lt_size))
      (fun holds => bound holds.lt_size)

/-- What follows symbols in one automaton follows them in the other, state by state. -/
theorem follow_eq (renumbers : Renumbers productions first second)
    (firstWellFormed : first.WellFormed) (secondWellFormed : second.WellFormed)
    {states : Equiv.Perm Nat}
    (lt_size_iff : ∀ id, states id < (build second).size ↔ id < (build first).size)
    (holds_iff : ∀ id item, (build second).Holds (states id) (item.rename productions) ↔
      (build first).Holds id item) (symbols : List Symbol) :
    (build second).follow symbols = ((build first).follow symbols).map states := by
  cases reached : (build first).follow symbols with
  | none =>
      rw [Option.map_none, Option.eq_none_iff_forall_ne_some]
      intro id other
      obtain ⟨below, path⟩ := Automaton.follow_eq_some_iff.mp other
      obtain ⟨_, _, back, _⟩ := renumbers.symm.exists_path secondWellFormed firstWellFormed path
      rw [Automaton.follow_eq_some_iff.mpr ⟨_, back⟩] at reached
      cases reached
  | some id =>
      obtain ⟨below, path⟩ := Automaton.follow_eq_some_iff.mp reached
      obtain ⟨renamed, renamedBelow, other, holds⟩ :=
        renumbers.exists_path firstWellFormed secondWellFormed path
      rw [Automaton.follow_eq_some_iff.mpr ⟨_, other⟩, Option.map_some, Option.some.injEq]
      apply Automaton.eq_of_holds_iff (other.lt_size renamed List.mem_cons_self)
        ((lt_size_iff id).mpr (path.lt_size id List.mem_cons_self))
      intro item
      have renamedHolds := holds (item.rename productions.symm)
      rw [← holds_iff, Item.rename_symm_rename] at renamedHolds
      exact renamedHolds

/-- The automata of grammars that agree up to the numbers of their productions agree up to the
numbers of their states. -/
theorem exists_renames (renumbers : Renumbers productions first second)
    (firstWellFormed : first.WellFormed) (secondWellFormed : second.WellFormed) :
    ∃ states, Automaton.Renames productions states (build first) (build second) := by
  obtain ⟨states, lt_size_iff, holds_iff⟩ :=
    renumbers.exists_states firstWellFormed secondWellFormed
  have follows := renumbers.follow_eq firstWellFormed secondWellFormed lt_size_iff holds_iff
  refine ⟨states, renumbers, lt_size_iff, ?_, ?_, holds_iff⟩
  · have empty := follows []
    rw [Automaton.follow_nil, Automaton.follow_nil, Option.map_some, Option.some.injEq] at empty
    exact empty.symm
  · intro id symbol
    by_cases bound : id < (build first).size
    · obtain ⟨symbols, reached⟩ := Automaton.exists_follow bound
      have longer := follows (symbols ++ [symbol])
      rw [Automaton.follow_concat, Automaton.follow_concat, follows, reached] at longer
      exact longer
    · have renamedBound := mt (lt_size_iff id).mp bound
      rw [Automaton.goto_eq_none (Nat.le_of_not_lt bound),
        Automaton.goto_eq_none (Nat.le_of_not_lt renamedBound)]
      rfl

end Grammar.Renumbers

end ShiftReduce
