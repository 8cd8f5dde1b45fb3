import Mathlib.Data.List.Nodup
import ShiftReduce.Grammar.Items
import ShiftReduce.Proofs.Grammar.WellFormed

/-!
# What closures hold

The closure of an item set holds the items that its kernel predicts, that is, the least
set with the kernel that contains the initial items of every nonterminal behind a dot.
While the expansion runs, every item found is still pending or needs no expansion, and
every entry that is used up has its initial items among those found.  Main statement:
`ItemSet.mem_closure_iff`.
-/

namespace ShiftReduce

/-- The items that a kernel leads to by expanding nonterminals behind dots. -/
inductive Grammar.Predicted (grammar : Grammar) (kernel : Item → Prop) : Item → Prop where
  | kernel {item : Item} : kernel item → Predicted grammar kernel item
  | expand {item : Item} {left : Symbol} {id : Nat} {right : List Symbol} :
      Predicted grammar kernel item → item.symbolAtDot grammar = some left →
      grammar.production? id = some ⟨left, right⟩ →
      Predicted grammar kernel ⟨id, 0, left⟩

namespace ItemSet

variable {grammar : Grammar} {unexpanded : List (Symbol × List Nat)} {found : ItemSet}
  {pending : List Item}

theorem expansion?_eq_some {item : Item} {entry : Symbol × List Nat}
    (expansion : expansion? grammar unexpanded item = some entry) :
    item.symbolAtDot grammar = some entry.1 ∧ entry ∈ unexpanded := by
  refine ⟨?_, expansion?_mem expansion⟩
  simp only [expansion?] at expansion
  split at expansion
  next symbol behindDot =>
    have named := List.find?_some expansion
    rw [behindDot, eq_of_beq named]
  · cases expansion

theorem expansion?_eq_none {item : Item} {left : Symbol} {ids : List Nat}
    (expansion : expansion? grammar unexpanded item = none)
    (behindDot : item.symbolAtDot grammar = some left) : (left, ids) ∉ unexpanded := by
  intro member
  simp only [expansion?, behindDot] at expansion
  have different := List.find?_eq_none.mp expansion _ member
  exact different (by simp)

/-- An item needs no expansion once its entry is used up, if there is one entry for
each nonterminal. -/
theorem expansion?_erase (nodup : (unexpanded.map (·.1)).Nodup) {item other : Item}
    {entry : Symbol × List Nat} (expansion : expansion? grammar unexpanded item = some entry)
    (unaffected : other = item ∨ expansion? grammar unexpanded other = none) :
    expansion? grammar (unexpanded.erase entry) other = none := by
  cases again : expansion? grammar (unexpanded.erase entry) other with
  | none => rfl
  | some second =>
      obtain ⟨behindDot, member⟩ := expansion?_eq_some again
      rcases unaffected with rfl | none
      · obtain ⟨behindDotFirst, firstMember⟩ := expansion?_eq_some expansion
        have same : second.1 = entry.1 :=
          Option.some.inj (behindDot.symm.trans behindDotFirst)
        have entries : unexpanded.Nodup := List.Nodup.of_map _ nodup
        have different := (List.Nodup.mem_erase_iff entries).mp member
        exact absurd (List.inj_on_of_nodup_map nodup different.2 firstMember same) different.1
      · exact absurd (List.mem_of_mem_erase member) (expansion?_eq_none none behindDot)

/-- How far an expansion has come. -/
structure Scanned (grammar : Grammar) (unexpanded : List (Symbol × List Nat))
    (found : ItemSet) (pending : List Item) : Prop where
  nodup : (unexpanded.map (·.1)).Nodup
  scanned : ∀ item ∈ found, item ∈ pending ∨ expansion? grammar unexpanded item = none
  expanded : ∀ entry ∈ grammar.alternatives, entry ∈ unexpanded ∨
    ∀ item ∈ initialItems entry.1 entry.2, item ∈ found

/-- Every nonterminal behind a dot has its initial items in the set. -/
def Closed (grammar : Grammar) (items : ItemSet) : Prop :=
  ∀ item ∈ items, ∀ left, item.symbolAtDot grammar = some left →
    ∀ ids, (left, ids) ∈ grammar.alternatives →
      ∀ initial ∈ initialItems left ids, initial ∈ items

theorem expand_closed (scanned : Scanned grammar unexpanded found pending) :
    Closed grammar (expand grammar unexpanded found pending) := by
  fun_induction expand grammar unexpanded found pending with
  | case1 unexpanded found =>
      intro item member left behindDot ids entry
      rcases scanned.scanned item member with waiting | none
      · cases waiting
      · rcases scanned.expanded _ entry with left | done
        · exact absurd left (expansion?_eq_none none behindDot)
        · exact done
  | case2 unexpanded found item pending none ih =>
      apply ih
      refine ⟨scanned.nodup, ?_, scanned.expanded⟩
      intro other member
      rcases scanned.scanned other member with waiting | otherNone
      · rcases List.mem_cons.mp waiting with rfl | waiting
        · exact .inr none
        · exact .inl waiting
      · exact .inr otherNone
  | case3 unexpanded found item pending entry expansion initial shorter ih =>
      apply ih
      constructor
      · exact List.Nodup.sublist (List.Sublist.map _ List.erase_sublist) scanned.nodup
      · intro other member
        rcases OrderedSet.mem_insertAll.mp member with member | member
        · rcases scanned.scanned other member with waiting | none
          · rcases List.mem_cons.mp waiting with rfl | waiting
            · exact .inr (expansion?_erase scanned.nodup expansion (.inl rfl))
            · exact .inl (List.mem_append_left _ waiting)
          · exact .inr (expansion?_erase scanned.nodup expansion (.inr none))
        · exact .inl (List.mem_append_right _ member)
      · intro other member
        by_cases same : other = entry
        · subst same
          exact .inr fun first firstMember =>
            OrderedSet.mem_insertAll.mpr (.inr firstMember)
        · rcases scanned.expanded other member with waiting | done
          · exact .inl ((List.mem_erase_of_ne same).mpr waiting)
          · exact .inr fun first firstMember =>
              OrderedSet.mem_insertAll.mpr (.inl (done first firstMember))

theorem prefix_expand :
    found.toList <+: (expand grammar unexpanded found pending).toList := by
  fun_induction expand grammar unexpanded found pending with
  | case1 => exact List.prefix_rfl
  | case2 unexpanded found item pending none ih => exact ih
  | case3 unexpanded found item pending entry expansion initial shorter ih =>
      exact (List.prefix_append _ _).trans ih

/-- A closure lists its kernel first, in the kernel's order. -/
theorem prefix_closure (grammar : Grammar) (kernel : ItemSet) :
    kernel.toList <+: (closure grammar kernel).toList :=
  prefix_expand

theorem mem_initialItems_iff_production? (wellFormed : grammar.WellFormed) {left : Symbol}
    {ids : List Nat} (entry : (left, ids) ∈ grammar.alternatives) {item : Item} :
    item ∈ initialItems left ids ↔
      ∃ id right, item = ⟨id, 0, left⟩ ∧ grammar.production? id = some ⟨left, right⟩ := by
  rw [mem_initialItems, wellFormed.mem_ids entry]
  constructor
  · intro given
    rcases given with ⟨⟨right, found⟩, dot, origin⟩
    refine ⟨item.production, right, ?_, found⟩
    cases item
    cases dot
    cases origin
    rfl
  · intro given
    rcases given with ⟨id, right, rfl, found⟩
    exact ⟨⟨right, found⟩, rfl, rfl⟩

theorem predicted_of_mem_expand (wellFormed : grammar.WellFormed) {kernel : Item → Prop}
    (listed : ∀ entry ∈ unexpanded, entry ∈ grammar.alternatives)
    (waiting : ∀ item ∈ pending, grammar.Predicted kernel item)
    (predicted : ∀ item ∈ found, grammar.Predicted kernel item) {item : Item}
    (member : item ∈ expand grammar unexpanded found pending) :
    grammar.Predicted kernel item := by
  fun_induction expand grammar unexpanded found pending with
  | case1 => exact predicted item member
  | case2 unexpanded found first pending none ih =>
      exact ih listed (fun other other_mem => waiting other (List.mem_cons_of_mem _ other_mem))
        predicted member
  | case3 unexpanded found first pending entry expansion initial shorter ih =>
      obtain ⟨behindDot, entryMember⟩ := expansion?_eq_some expansion
      have initialPredicted : ∀ other ∈ initial, grammar.Predicted kernel other := by
        intro other otherMember
        obtain ⟨id, right, rfl, production⟩ :=
          (mem_initialItems_iff_production? wellFormed (listed entry entryMember)).mp otherMember
        exact .expand (waiting first List.mem_cons_self) behindDot production
      apply ih _ _ _ member
      · intro other otherMember
        exact listed other (List.mem_of_mem_erase otherMember)
      · intro other otherMember
        rcases List.mem_append.mp otherMember with otherMember | otherMember
        · exact waiting other (List.mem_cons_of_mem _ otherMember)
        · exact initialPredicted other otherMember
      · intro other otherMember
        rcases OrderedSet.mem_insertAll.mp otherMember with otherMember | otherMember
        · exact predicted other otherMember
        · exact initialPredicted other otherMember

theorem closure_closed (wellFormed : grammar.WellFormed) (kernel : ItemSet) :
    Closed grammar (closure grammar kernel) := by
  apply expand_closed
  exact ⟨wellFormed.nodup, fun _ member => .inl member, fun _ member => .inl member⟩

/-- A closure holds exactly the items that its kernel predicts. -/
theorem mem_closure_iff (wellFormed : grammar.WellFormed) {kernel : ItemSet} {item : Item} :
    item ∈ closure grammar kernel ↔ grammar.Predicted (· ∈ kernel) item := by
  constructor
  · intro member
    have known : ∀ other ∈ kernel, grammar.Predicted (· ∈ kernel) other :=
      fun _ otherMember => .kernel otherMember
    exact predicted_of_mem_expand wellFormed (fun _ entry => entry) known known member
  · intro predicted
    induction predicted with
    | kernel member => exact (prefix_closure grammar kernel).subset member
    | @expand item left id right _ behindDot production ih =>
        obtain ⟨entry, entryMember, named⟩ := List.mem_map.mp (wellFormed.left_mem production)
        cases named
        apply closure_closed wellFormed kernel item ih _ behindDot entry.2 entryMember
        exact (mem_initialItems_iff_production? wellFormed entryMember).mpr
          ⟨id, right, rfl, production⟩

/-- The items reached over a symbol are those predicted by the items that move over it. -/
theorem mem_goto_iff (wellFormed : grammar.WellFormed) {items : ItemSet} {symbol : Symbol}
    {item : Item} :
    item ∈ goto grammar items symbol ↔ grammar.Predicted (fun moved => ∃ previous ∈ items,
      previous.symbolAtDot grammar = some symbol ∧ moved = previous.advance) item := by
  have kernels : (fun moved => moved ∈ advanceOver grammar items symbol) =
      fun moved => ∃ previous ∈ items,
        previous.symbolAtDot grammar = some symbol ∧ moved = previous.advance := by
    funext moved
    simp only [advanceOver, OrderedSet.mem_ofList, List.mem_map, List.mem_filter, beq_iff_eq,
      OrderedSet.mem_toList, eq_iff_iff]
    constructor
    · intro given
      rcases given with ⟨previous, ⟨member, behindDot⟩, rfl⟩
      exact ⟨previous, member, behindDot, rfl⟩
    · intro given
      rcases given with ⟨previous, member, behindDot, rfl⟩
      exact ⟨previous, ⟨member, behindDot⟩, rfl⟩
  rw [goto, mem_closure_iff wellFormed, kernels]

end ItemSet

end ShiftReduce
