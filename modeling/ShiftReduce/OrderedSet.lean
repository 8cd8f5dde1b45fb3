/-!
# Ordered sets

A finite set that remembers the order in which its elements were first inserted.
Membership is what a set means; the order is what a listing shows.  Two ordered
sets can therefore be the same as sets without being equal.
-/

namespace ShiftReduce

/-- Distinct elements in order of insertion. -/
structure OrderedSet (α : Type) where
  toList : List α
  nodup : toList.Nodup
  deriving DecidableEq, Repr

namespace OrderedSet

variable {α : Type}

instance : Membership α (OrderedSet α) := ⟨fun set element => element ∈ set.toList⟩

@[simp] theorem mem_toList (set : OrderedSet α) (element : α) :
    element ∈ set.toList ↔ element ∈ set := Iff.rfl

theorem eq_of_toList_eq {left right : OrderedSet α}
    (equal : left.toList = right.toList) : left = right := by
  cases left; cases right; cases equal; rfl

def empty : OrderedSet α := ⟨[], List.nodup_nil⟩

def size (set : OrderedSet α) : Nat := set.toList.length

/-- The elements that pass a test, in their order. -/
def filter (test : α → Bool) (set : OrderedSet α) : OrderedSet α :=
  ⟨set.toList.filter test, set.nodup.filter test⟩

@[simp] theorem mem_filter {test : α → Bool} {set : OrderedSet α} {element : α} :
    element ∈ set.filter test ↔ element ∈ set ∧ test element = true := by
  rw [← mem_toList, filter, List.mem_filter, mem_toList]

/-- Sets with the same elements list them in orders that are permutations of
one another, because neither listing repeats an element. -/
theorem perm_of_mem_iff {left right : OrderedSet α}
    (same : ∀ element, element ∈ left ↔ element ∈ right) :
    left.toList.Perm right.toList :=
  (List.perm_ext_iff_of_nodup left.nodup right.nodup).mpr same

variable [DecidableEq α]

instance (set : OrderedSet α) (element : α) : Decidable (element ∈ set) :=
  inferInstanceAs (Decidable (element ∈ set.toList))

/-- Add an element at the end, unless it is present. -/
def insert (set : OrderedSet α) (element : α) : OrderedSet α :=
  if present : element ∈ set.toList then set
  else
    ⟨set.toList ++ [element], by
      refine List.nodup_append.mpr ⟨set.nodup, by simp, ?_⟩
      intro left leftMember right rightMember equal
      rw [List.mem_singleton.mp rightMember] at equal
      exact present (equal ▸ leftMember)⟩

/-- The distinct elements of a list, in order of first occurrence. -/
def ofList (elements : List α) : OrderedSet α := elements.foldl insert empty

/-- Whether two sets have equally many elements and each contains the other. -/
def sameElements (left right : OrderedSet α) : Bool :=
  left.size == right.size && left.toList.all (· ∈ right) && right.toList.all (· ∈ left)

theorem mem_insert {set : OrderedSet α} {added element : α} :
    element ∈ set.insert added ↔ element ∈ set ∨ element = added := by
  rw [← mem_toList, ← mem_toList]
  unfold insert
  split
  · next present =>
      refine ⟨Or.inl, ?_⟩
      rintro (member | rfl)
      · exact member
      · exact present
  · simp

private theorem mem_foldl_insert {set : OrderedSet α} {elements : List α} {element : α} :
    element ∈ elements.foldl insert set ↔ element ∈ set ∨ element ∈ elements := by
  induction elements generalizing set with
  | nil => simp
  | cons head tail ih => simp [ih, mem_insert, or_assoc]

@[simp] theorem mem_ofList {elements : List α} {element : α} :
    element ∈ ofList elements ↔ element ∈ elements := by
  rw [ofList, mem_foldl_insert]
  exact ⟨fun member => member.resolve_left List.not_mem_nil, Or.inr⟩

/-- Add elements at the end, in order of first occurrence and without those that
are present. -/
def insertAll (set : OrderedSet α) (elements : List α) : OrderedSet α :=
  let fresh := ofList (elements.filter (· ∉ set))
  ⟨set.toList ++ fresh.toList, by
    refine List.nodup_append.mpr ⟨set.nodup, fresh.nodup, ?_⟩
    intro left leftMember right rightMember equal
    have absent := (List.mem_filter.mp (mem_ofList.mp rightMember)).2
    exact of_decide_eq_true absent (equal ▸ leftMember)⟩

theorem mem_insertAll {set : OrderedSet α} {elements : List α} {element : α} :
    element ∈ set.insertAll elements ↔ element ∈ set ∨ element ∈ elements := by
  rw [← mem_toList, insertAll, List.mem_append, mem_toList, mem_toList, mem_ofList,
    List.mem_filter, decide_eq_true_eq]
  by_cases present : element ∈ set <;> simp [present]

theorem sameElements_iff {left right : OrderedSet α} :
    left.sameElements right = true ↔ ∀ element, element ∈ left ↔ element ∈ right := by
  constructor
  · intro same element
    simp only [sameElements, Bool.and_eq_true, List.all_eq_true, decide_eq_true_eq] at same
    exact ⟨same.1.2 element, same.2 element⟩
  · intro same
    simp only [sameElements, Bool.and_eq_true, List.all_eq_true, decide_eq_true_eq,
      beq_iff_eq]
    exact ⟨⟨(perm_of_mem_iff same).length_eq, fun element member => (same element).mp member⟩,
      fun element member => (same element).mpr member⟩

end OrderedSet

end ShiftReduce
