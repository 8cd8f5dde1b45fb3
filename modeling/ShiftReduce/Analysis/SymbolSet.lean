import ShiftReduce.Analysis.Fixpoint
import ShiftReduce.Symbol

/-!
# Sets of symbols

A set of symbols is listed in ascending order of the bytes, so two sets with the
same members are equal.  There are only as many symbols as bytes: main statement
`SymbolSet.shrinks_insert`, by which every new member leaves less room in a set.
-/

namespace ShiftReduce

/-- Symbols in strictly ascending order. -/
structure SymbolSet where
  toList : List Symbol
  ascending : toList.Pairwise fun left right => left.byte < right.byte
  deriving DecidableEq, Repr

namespace SymbolSet

instance : Membership Symbol SymbolSet := ⟨fun set symbol => symbol ∈ set.toList⟩

instance (symbol : Symbol) (set : SymbolSet) : Decidable (symbol ∈ set) :=
  inferInstanceAs (Decidable (symbol ∈ set.toList))

@[simp] theorem mem_toList (set : SymbolSet) (symbol : Symbol) :
    symbol ∈ set.toList ↔ symbol ∈ set := Iff.rfl

def empty : SymbolSet := ⟨[], List.Pairwise.nil⟩

def singleton (symbol : Symbol) : SymbolSet := ⟨[symbol], List.pairwise_singleton _ _⟩

/-- Put a symbol into its place in an ascending list. -/
def place (symbol : Symbol) : List Symbol → List Symbol
  | [] => [symbol]
  | first :: rest =>
    if symbol.byte < first.byte then symbol :: first :: rest
    else if symbol = first then first :: rest
    else first :: place symbol rest

theorem mem_place {placed symbol : Symbol} {symbols : List Symbol} :
    symbol ∈ place placed symbols ↔ symbol = placed ∨ symbol ∈ symbols := by
  induction symbols with
  | nil => simp [place]
  | cons first rest ih =>
      unfold place
      split
      · simp
      · split
        · next equal => simp [equal]
        · simp only [List.mem_cons, ih]
          exact or_left_comm

private theorem byte_lt_of_not {left right : Symbol} (notLower : ¬left.byte < right.byte)
    (different : left ≠ right) : right.byte < left.byte := by
  rw [UInt8.lt_iff_toNat_lt] at notLower ⊢
  have : left.byte.toNat ≠ right.byte.toNat := by
    intro equal
    apply different
    cases left; cases right
    exact congrArg Symbol.mk (UInt8.toNat_inj.mp equal)
  omega

theorem ascending_place {placed : Symbol} {symbols : List Symbol}
    (ascending : symbols.Pairwise fun left right => left.byte < right.byte) :
    (place placed symbols).Pairwise fun left right => left.byte < right.byte := by
  induction symbols with
  | nil => exact List.pairwise_singleton _ _
  | cons first rest ih =>
      obtain ⟨lower, restAscending⟩ := List.pairwise_cons.mp ascending
      unfold place
      split
      · next placedLower =>
          refine List.pairwise_cons.mpr ⟨?_, ascending⟩
          intro symbol member
          rcases List.mem_cons.mp member with rfl | member
          · exact placedLower
          · exact UInt8.lt_trans placedLower (lower symbol member)
      · next placedNotLower =>
          split
          · exact ascending
          · next different =>
              refine List.pairwise_cons.mpr ⟨?_, ih restAscending⟩
              intro symbol member
              rcases mem_place.mp member with rfl | member
              · exact byte_lt_of_not placedNotLower different
              · exact lower symbol member

def insert (set : SymbolSet) (symbol : Symbol) : SymbolSet :=
  ⟨place symbol set.toList, ascending_place set.ascending⟩

def union (left right : SymbolSet) : SymbolSet := right.toList.foldl insert left

@[simp] theorem mem_insert {set : SymbolSet} {inserted symbol : Symbol} :
    symbol ∈ set.insert inserted ↔ symbol = inserted ∨ symbol ∈ set := mem_place

theorem eq_of_toList_eq {left right : SymbolSet} (equal : left.toList = right.toList) :
    left = right := by
  cases left; cases right; cases equal; rfl

theorem mem_foldl_insert {set : SymbolSet} {symbols : List Symbol} {symbol : Symbol} :
    symbol ∈ symbols.foldl insert set ↔ symbol ∈ set ∨ symbol ∈ symbols := by
  induction symbols generalizing set with
  | nil => simp
  | cons head tail ih =>
      simp only [List.foldl_cons, ih, mem_insert, List.mem_cons]
      rw [or_comm (a := symbol = head), or_assoc]

@[simp] theorem mem_union {left right : SymbolSet} {symbol : Symbol} :
    symbol ∈ left.union right ↔ symbol ∈ left ∨ symbol ∈ right := mem_foldl_insert

theorem nodup (set : SymbolSet) : set.toList.Nodup := by
  refine set.ascending.imp ?_
  rintro left right lower rfl
  exact UInt8.lt_irrefl _ lower

/-- Every symbol there is. -/
def allSymbols : List Symbol := (List.range 256).map fun code => ⟨UInt8.ofNat code⟩

theorem mem_allSymbols (symbol : Symbol) : symbol ∈ allSymbols :=
  List.mem_map.mpr ⟨symbol.byte.toNat, List.mem_range.mpr symbol.byte.toNat_lt, by simp⟩

/-- How many symbols are not in a set. -/
def room (set : SymbolSet) : Nat := 256 - set.toList.length

theorem length_le (set : SymbolSet) : set.toList.length ≤ 256 := by
  have short : set.toList.length ≤ allSymbols.length :=
    set.nodup.length_le_of_subset fun symbol _ => mem_allSymbols symbol
  simpa [allSymbols] using short

theorem place_eq_self {placed : Symbol} {symbols : List Symbol} (member : placed ∈ symbols)
    (ascending : symbols.Pairwise fun left right => left.byte < right.byte) :
    place placed symbols = symbols := by
  induction symbols with
  | nil => cases member
  | cons first rest ih =>
      obtain ⟨lower, restAscending⟩ := List.pairwise_cons.mp ascending
      unfold place
      rcases List.mem_cons.mp member with rfl | member
      · simp
      · have firstLower := lower placed member
        rw [if_neg (UInt8.lt_asymm firstLower), if_neg, ih member restAscending]
        intro equal
        exact UInt8.lt_irrefl _ (equal ▸ firstLower)

theorem length_place_of_not_mem {placed : Symbol} {symbols : List Symbol}
    (absent : placed ∉ symbols) : (place placed symbols).length = symbols.length + 1 := by
  induction symbols with
  | nil => rfl
  | cons first rest ih =>
      rw [List.mem_cons, not_or] at absent
      unfold place
      split
      · rfl
      · rw [if_neg absent.1, List.length_cons, ih absent.2, List.length_cons]

theorem insert_eq_self {set : SymbolSet} {symbol : Symbol} (member : symbol ∈ set) :
    set.insert symbol = set :=
  eq_of_toList_eq (place_eq_self member set.ascending)

/-- Inserting a symbol leaves less room, unless the symbol is a member. -/
theorem shrinks_insert (set : SymbolSet) (symbol : Symbol) :
    Shrinks room set (set.insert symbol) := by
  by_cases member : symbol ∈ set
  · exact .inl (insert_eq_self member)
  · have longer : (set.insert symbol).toList.length = set.toList.length + 1 :=
      length_place_of_not_mem member
    have short := (set.insert symbol).length_le
    unfold Shrinks room
    omega

theorem shrinks_union (left right : SymbolSet) : Shrinks room left (left.union right) :=
  Shrinks.foldl shrinks_insert right.toList left

end SymbolSet

end ShiftReduce
