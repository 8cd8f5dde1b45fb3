/-!
# Finite enumerations

The selections from a list and the short words over an alphabet are finitely
many.  A search that never visits the same one twice therefore ends: main
statement `countUnvisited_lt`, by which each visit lowers the number of those that
are left.
-/

namespace ShiftReduce

/-- All selections from a list that keep its order. -/
def selections {α : Type} : List α → List (List α)
  | [] => [[]]
  | element :: rest => (selections rest).map (element :: ·) ++ selections rest

theorem filter_mem_selections {α : Type} (test : α → Bool) (elements : List α) :
    elements.filter test ∈ selections elements := by
  induction elements with
  | nil => simp [selections]
  | cons element rest ih =>
      simp only [selections, List.mem_append, List.mem_map, List.filter_cons]
      split
      · exact .inl ⟨_, ih, rfl⟩
      · exact .inr ih

/-- How many elements of an enumeration have not been visited. -/
def countUnvisited {α : Type} [DecidableEq α] (enumeration visited : List α) : Nat :=
  enumeration.countP fun element => element ∉ visited

/-- Visiting one more element of an enumeration leaves fewer of them. -/
theorem countUnvisited_lt {α : Type} [DecidableEq α] {enumeration visited extended : List α}
    {element : α} (enumerated : element ∈ enumeration) (new : element ∉ visited)
    (kept : visited ⊆ extended) (added : element ∈ extended) :
    countUnvisited enumeration extended < countUnvisited enumeration visited := by
  unfold countUnvisited
  induction enumeration with
  | nil => cases enumerated
  | cons head tail ih =>
      have tailLe : tail.countP (fun element => decide (element ∉ extended)) ≤
          tail.countP (fun element => decide (element ∉ visited)) := by
        apply List.countP_mono_left
        intro other _ absent
        simp only [decide_eq_true_eq] at absent ⊢
        exact fun member => absent (kept member)
      by_cases headNew : head ∈ visited
      · have headKept := kept headNew
        rcases List.mem_cons.mp enumerated with rfl | enumerated
        · exact absurd headNew new
        · simpa [headNew, headKept] using ih enumerated
      · rcases List.mem_cons.mp enumerated with rfl | enumerated
        · simp only [List.countP_cons, added, headNew, not_true_eq_false, not_false_eq_true,
            decide_true, decide_false, Bool.false_eq_true, if_true, if_false]
          omega
        · have tailLt := ih enumerated
          simp only [List.countP_cons, headNew, not_false_eq_true, decide_true, if_true]
          split <;> omega

/-- All lists of at most a given length over an alphabet. -/
def wordsUpTo {α : Type} (alphabet : List α) : Nat → List (List α)
  | 0 => [[]]
  | bound + 1 =>
      [] :: alphabet.flatMap fun letter => (wordsUpTo alphabet bound).map (letter :: ·)

theorem mem_wordsUpTo {α : Type} {alphabet : List α} {bound : Nat} {word : List α}
    (letters : ∀ letter ∈ word, letter ∈ alphabet) (short : word.length ≤ bound) :
    word ∈ wordsUpTo alphabet bound := by
  induction bound generalizing word with
  | zero =>
      rw [List.length_eq_zero_iff.mp (Nat.le_zero.mp short)]
      exact List.mem_singleton.mpr rfl
  | succ bound ih =>
      cases word with
      | nil => exact List.mem_cons_self
      | cons letter rest =>
          refine List.mem_cons_of_mem _ (List.mem_flatMap.mpr ⟨letter, ?_, ?_⟩)
          · exact letters letter List.mem_cons_self
          · refine List.mem_map.mpr ⟨rest, ih ?_ (Nat.le_of_succ_le_succ short), rfl⟩
            exact fun other member => letters other (List.mem_cons_of_mem _ member)

end ShiftReduce
