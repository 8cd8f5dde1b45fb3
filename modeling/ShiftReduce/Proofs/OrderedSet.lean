import Mathlib.Data.List.Induction
import ShiftReduce.OrderedSet

/-!
# First occurrences

The distinct elements of a list in order of first occurrence, as an ordered set and as a list
without repetitions.  What is inserted later stands behind what was there.
Main statements: `OrderedSet.prefix_foldl_insert` and `OrderedSet.toList_ofList`.
-/

namespace ShiftReduce

/-- One more element comes last, unless it has occurred. -/
theorem eraseDups_concat {α : Type} [BEq α] [LawfulBEq α] (elements : List α) (element : α) :
    (elements ++ [element]).eraseDups =
      if element ∈ elements then elements.eraseDups else elements.eraseDups ++ [element] := by
  rw [List.eraseDups_append]
  by_cases member : element ∈ elements
  · simp [List.removeAll, member]
  · simp [List.removeAll, member, List.eraseDups_cons]

namespace OrderedSet

variable {α : Type} [DecidableEq α]

theorem insert_of_mem {set : OrderedSet α} {element : α} (member : element ∈ set) :
    set.insert element = set :=
  dif_pos member

theorem toList_insert_of_not_mem {set : OrderedSet α} {element : α} (new : element ∉ set) :
    (set.insert element).toList = set.toList ++ [element] := by
  have new : ¬element ∈ set.toList := new
  rw [insert, dif_neg new]

/-- Nothing is added if everything is present. -/
theorem insertAll_eq_self {set : OrderedSet α} {elements : List α}
    (present : ∀ element ∈ elements, element ∈ set) : set.insertAll elements = set := by
  have none : elements.filter (· ∉ set) = [] := by
    rw [List.filter_eq_nil_iff]
    intro element member
    simpa using present element member
  apply eq_of_toList_eq
  simp only [insertAll, none]
  exact List.append_nil _

theorem prefix_insert (set : OrderedSet α) (element : α) :
    set.toList <+: (set.insert element).toList := by
  simp only [insert]
  split
  · exact List.prefix_rfl
  · exact List.prefix_append _ _

theorem prefix_foldl_insert (set : OrderedSet α) (elements : List α) :
    set.toList <+: (elements.foldl insert set).toList := by
  induction elements generalizing set with
  | nil => exact List.prefix_rfl
  | cons element elements ih => exact (set.prefix_insert element).trans (ih _)

/-- The first element of a list is the first one of its set. -/
theorem head?_ofList (element : α) (elements : List α) :
    (ofList (element :: elements)).toList.head? = some element := by
  obtain ⟨others, equal⟩ := (empty.insert element).prefix_foldl_insert elements
  rw [ofList, List.foldl_cons, ← equal]
  rfl

theorem ofList_append (front back : List α) :
    ofList (front ++ back) = back.foldl insert (ofList front) :=
  List.foldl_append

/-- The elements of a list in order of first occurrence are what is left of the list
when repetitions are erased. -/
theorem toList_ofList (elements : List α) : (ofList elements).toList = elements.eraseDups := by
  induction elements using List.reverseRecOn with
  | nil => rfl
  | append_singleton elements element ih =>
      rw [ofList_append, List.foldl_cons, List.foldl_nil, eraseDups_concat]
      split
      next member => rw [insert_of_mem (mem_ofList.mpr member), ih]
      next new => rw [toList_insert_of_not_mem (mt mem_ofList.mp new), ih]

end OrderedSet

variable {α : Type} [BEq α] [LawfulBEq α]

theorem nodup_eraseDups (elements : List α) : elements.eraseDups.Nodup := by
  induction elements using List.reverseRecOn with
  | nil => exact List.nodup_nil
  | append_singleton elements element ih =>
      rw [eraseDups_concat]
      split
      next => exact ih
      next new =>
        rw [List.nodup_append]
        refine ⟨ih, by simp, ?_⟩
        intro left leftMember right rightMember equal
        rw [List.mem_singleton.mp rightMember] at equal
        exact new (List.mem_eraseDups.mp (equal ▸ leftMember))

/-- A list without repetitions keeps all its elements. -/
theorem eraseDups_eq_self {elements : List α} (nodup : elements.Nodup) :
    elements.eraseDups = elements := by
  induction elements using List.reverseRecOn with
  | nil => rfl
  | append_singleton elements element ih =>
      obtain ⟨frontNodup, _, apart⟩ := List.nodup_append.mp nodup
      have new : element ∉ elements :=
        fun member => apart element member element (List.mem_singleton_self element) rfl
      rw [eraseDups_concat, if_neg new, ih frontNodup]

end ShiftReduce
