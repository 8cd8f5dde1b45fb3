import ShiftReduce.Parser.Progress
import ShiftReduce.Proofs.Automaton.Collection
import ShiftReduce.Proofs.OrderedSet

/-!
# The numbers of states

States get their numbers in the order in which they are found.  Read in order, the
targets of all transitions therefore name every number for the first time when all
smaller ones have been named.  One symbol that is followed names a known number or the
next one; one state, and then all states, chain such steps.  Main statements:
`Automaton.build_numbers` and `Automaton.exists_source`.
-/

namespace ShiftReduce

variable {grammar : Grammar}

/-! ## Numbers in order of first occurrence -/

/-- Numbers that follow upon those below `known` name no number before all smaller ones,
and in the end all numbers below `total` are named. -/
def Numbers (known : Nat) (targets : List Nat) (total : Nat) : Prop :=
  OrderedSet.ofList (List.range known ++ targets) = OrderedSet.ofList (List.range total)

namespace Numbers

variable {known middle total target : Nat} {targets others : List Nat}

theorem nil : Numbers known [] known := by
  rw [Numbers, List.append_nil]

theorem append (numbers : Numbers known targets middle) (rest : Numbers middle others total) :
    Numbers known (targets ++ others) total := by
  rw [Numbers, OrderedSet.ofList_append] at numbers rest ⊢
  rw [List.foldl_append, numbers, rest]

/-- A known number may be named again. -/
theorem again (lower : target < known) : Numbers known [target] known := by
  rw [Numbers, OrderedSet.ofList_append]
  exact OrderedSet.insert_of_mem (OrderedSet.mem_ofList.mpr (List.mem_range.mpr lower))

/-- The next number may be named for the first time. -/
theorem next : Numbers known [known] (known + 1) := by
  rw [Numbers, List.range_succ]

theorem mem_iff (numbers : Numbers known targets total) :
    target < total ↔ target < known ∨ target ∈ targets := by
  rw [← List.mem_range, ← OrderedSet.mem_ofList, ← numbers, OrderedSet.mem_ofList,
    List.mem_append, List.mem_range]

/-- With repetitions erased, the numbers are in order. -/
theorem eraseDups_eq (numbers : Numbers known targets total) :
    (List.range known ++ targets).eraseDups = List.range total := by
  have ordered : ∀ bound, (OrderedSet.ofList (List.range bound)).toList = List.range bound := by
    intro bound
    induction bound with
    | zero => rfl
    | succ bound ih =>
        have new : bound ∉ OrderedSet.ofList (List.range bound) :=
          mt OrderedSet.mem_ofList.mp List.not_mem_range_self
        rw [List.range_succ, OrderedSet.ofList_append, List.foldl_cons, List.foldl_nil,
          OrderedSet.toList_insert_of_not_mem new, ih]
  rw [← OrderedSet.toList_ofList, numbers, ordered]

end Numbers

/-! ## Following and exploring -/

namespace Discovery

variable {discovery : Discovery} {keys : List (List Item)} {items : ItemSet}

/-- A recorded transition leads to a known key or to the next number. -/
theorem record_numbers (known : Nat) (symbol : Symbol) (target : ItemSet)
    (numbers : Numbers known (discovery.transitions.map (·.2)) discovery.keys.length) :
    Numbers known ((discovery.record symbol target).transitions.map (·.2))
      (discovery.record symbol target).keys.length := by
  simp only [record]
  split
  next id found =>
    obtain ⟨bound, _, _⟩ := List.idxOf?_eq_some_iff.mp found
    rw [List.map_append]
    exact numbers.append (.again bound)
  next =>
    rw [List.map_append, List.length_append]
    exact numbers.append .next

theorem foldl_numbers (known : Nat) (symbols : List Symbol)
    (numbers : Numbers known (discovery.transitions.map (·.2)) discovery.keys.length) :
    Numbers known ((symbols.foldl (follow grammar items) discovery).transitions.map (·.2))
      (symbols.foldl (follow grammar items) discovery).keys.length := by
  induction symbols generalizing discovery with
  | nil => exact numbers
  | cons symbol symbols ih => exact ih (record_numbers known symbol _ numbers)

/-- What one state names are known numbers and the next ones in order. -/
theorem ofItems_numbers :
    Numbers keys.length ((ofItems grammar keys items).transitions.map (·.2))
      (ofItems grammar keys items).keys.length :=
  foldl_numbers keys.length _ Numbers.nil

/-- If there is a key for every state before the given number and for every waiting one,
there is one again when the first waiting state was followed. -/
theorem ofItems_count (nodup : keys.Nodup) {id : Nat} {rest : List ItemSet}
    (count : keys.length = id + (items :: rest).length) :
    (ofItems grammar keys items).keys.length =
      id + 1 + (rest ++ (ofItems grammar keys items).fresh).length := by
  have follows : Follows grammar keys items (items.outgoing grammar) _ := ofItems_follows nodup
  rw [follows.keys_eq, List.length_append, List.length_map, count, List.length_append,
    List.length_cons]
  omega

end Discovery

namespace Automaton

variable {keys : List (List Item)} {id : Nat} {waiting : List ItemSet}

/-- What exploring from waiting item sets names, if there is a key for every state that
was explored before and for every waiting one. -/
theorem explore_numbers (within : ∀ items ∈ waiting, items.Within grammar) (nodup : keys.Nodup)
    (count : keys.length = id + waiting.length) :
    Numbers keys.length
      ((explore grammar keys id waiting within).flatMap fun state => state.transitions.map (·.2))
      (id + (explore grammar keys id waiting within).length) := by
  fun_induction explore grammar keys id waiting within with
  | case1 keys id within =>
      rw [count]
      exact .nil
  | case2 keys id items rest within found bounded _ ih =>
      have foundNodup : found.keys.Nodup := (Discovery.ofItems_follows nodup).nodup
      have foundCount : found.keys.length = id + 1 + (rest ++ found.fresh).length :=
        Discovery.ofItems_count nodup count
      have named : Numbers keys.length (found.transitions.map (·.2)) found.keys.length :=
        Discovery.ofItems_numbers
      have all := named.append (ih foundNodup foundCount)
      rw [List.flatMap_cons, List.length_cons]
      rw [Nat.add_assoc, Nat.add_comm 1] at all
      exact all

/-- Every number that exploring names for the first time is named by a state with a
smaller one. -/
theorem explore_sources (within : ∀ items ∈ waiting, items.Within grammar) (nodup : keys.Nodup)
    (count : keys.length = id + waiting.length) {target : Nat} (new : keys.length ≤ target)
    (bound : target < id + (explore grammar keys id waiting within).length) :
    ∃ state ∈ explore grammar keys id waiting within,
      state.id < target ∧ target ∈ state.transitions.map (·.2) := by
  fun_induction explore grammar keys id waiting within with
  | case1 keys id within =>
      rw [count] at new
      exact absurd bound (Nat.not_lt.mpr new)
  | case2 keys id items rest within found bounded _ ih =>
      have foundNodup : found.keys.Nodup := (Discovery.ofItems_follows nodup).nodup
      have foundCount : found.keys.length = id + 1 + (rest ++ found.fresh).length :=
        Discovery.ofItems_count nodup count
      have named : Numbers keys.length (found.transitions.map (·.2)) found.keys.length :=
        Discovery.ofItems_numbers
      rw [List.length_cons] at count bound
      rcases Nat.lt_or_ge target found.keys.length with here | later
      · refine ⟨_, List.mem_cons_self, ?_, (named.mem_iff.mp here).resolve_left (by omega)⟩
        change id < target
        omega
      · obtain ⟨state, member, lower, names⟩ := ih foundNodup foundCount later (by omega)
        exact ⟨state, List.mem_cons_of_mem _ member, lower, names⟩

theorem explore_within (within : ∀ items ∈ waiting, items.Within grammar) :
    ∀ state ∈ explore grammar keys id waiting within, state.items.Within grammar := by
  fun_induction explore grammar keys id waiting within with
  | case1 keys id within =>
      intro state member
      cases member
  | case2 keys id items rest within found bounded _ ih =>
      intro state member
      rcases List.mem_cons.mp member with rfl | member
      · exact within items List.mem_cons_self
      · exact ih state member

/-! ## The automaton of a grammar -/

/-- Beginning with zero, the targets of all transitions name the states in the order of
their numbers. -/
theorem build_numbers (grammar : Grammar) :
    (build grammar).targets.eraseDups = List.range (build grammar).size := by
  have numbers : Numbers 1
      ((build grammar).states.flatMap fun state => state.transitions.map (·.2))
      (0 + (build grammar).size) :=
    explore_numbers _ (List.nodup_singleton (initialItems grammar).key) rfl
  rw [Nat.zero_add] at numbers
  exact numbers.eraseDups_eq

/-- Every state but the first is reached from a state with a smaller number. -/
theorem exists_source {target : Nat} (positive : 0 < target)
    (bound : target < (build grammar).size) :
    ∃ state ∈ (build grammar).states, state.id < target ∧ target ∈ state.transitions.map (·.2) := by
  rw [← Nat.zero_add (build grammar).size] at bound
  exact explore_sources _ (List.nodup_singleton (initialItems grammar).key) rfl positive bound

theorem build_within : ∀ state ∈ (build grammar).states, state.items.Within grammar :=
  explore_within _

end Automaton

end ShiftReduce
