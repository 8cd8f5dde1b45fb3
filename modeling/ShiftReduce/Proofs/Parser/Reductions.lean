import Mathlib.Data.List.Duplicate
import Mathlib.Data.List.Perm.Subperm
import Mathlib.Logic.Relation
import ShiftReduce.Proofs.Parser.Moves

/-!
# Reductions on stacks of states

Between two shifts the stack of states alone decides what a machine does, and a
reduction looks at nothing below the state that it pushes on.  What reductions do above
a state can therefore be repeated on that state wherever it lies.  A stack that has
outgrown its beginning by more than the number of states holds some state twice among
the new entries, and what led from the lower one to the upper one happens again and
again.  Main statements: `Reduces.split` and `Reduces.endless_of_growth`.
-/

namespace ShiftReduce

open Relation (ReflTransGen TransGen)

/-! ## Relations without an end -/

section Endless

variable {Place : Type} {related : Place → Place → Prop}

/-- Wherever one gets from a place, one can go on. -/
def Endless (related : Place → Place → Prop) (place : Place) : Prop :=
  ∀ later, ReflTransGen related place later → ∃ next, related later next

theorem Endless.of_reaches {place later : Place} (endless : Endless related place)
    (reaches : ReflTransGen related place later) : Endless related later :=
  fun _ further => endless _ (reaches.trans further)

/-- Going on from a place without an end is going on from the place before it, if there
is only one way to go. -/
theorem Endless.before (unique : Relator.RightUnique related) {place next : Place}
    (goes : related place next) (endless : Endless related next) : Endless related place := by
  intro later reaches
  rcases reaches.cases_head with rfl | ⟨other, first, rest⟩
  · exact ⟨next, goes⟩
  · rw [unique first goes] at rest
    exact endless later rest

/-- There is no end if places of some kind lead to places of this kind again. -/
theorem Endless.of_recurs (unique : Relator.RightUnique related) {recurs : Place → Prop}
    (again : ∀ place, recurs place → ∃ later, recurs later ∧ TransGen related place later)
    {place : Place} (here : recurs place) : Endless related place := by
  intro later reaches
  have ahead : ∃ target, recurs target ∧ TransGen related later target := by
    induction reaches with
    | refl => exact again place here
    | tail _ goes ih =>
        obtain ⟨target, recurring, leads⟩ := ih
        obtain ⟨next, first, rest⟩ := Relation.TransGen.head'_iff.mp leads
        rw [unique first goes] at rest
        rcases Relation.reflTransGen_iff_eq_or_transGen.mp rest with rfl | further
        · exact again _ recurring
        · exact ⟨target, recurring, further⟩
  obtain ⟨target, _, leads⟩ := ahead
  obtain ⟨next, first, _⟩ := Relation.TransGen.head'_iff.mp leads
  exact ⟨next, first⟩

end Endless

/-- More numbers than there are below a bound repeat one of them. -/
theorem exists_repetition {bound : Nat} {numbers : List Nat} (long : bound < numbers.length)
    (bounded : ∀ number ∈ numbers, number < bound) :
    ∃ front number middle back,
      numbers = front ++ number :: (middle ++ number :: back) := by
  have repeated : ¬numbers.Nodup := by
    intro nodup
    have subset : numbers ⊆ List.range bound := by
      intro number member
      exact List.mem_range.mpr (bounded number member)
    have short := (nodup.subperm subset).length_le
    rw [List.length_range] at short
    omega
  obtain ⟨number, duplicate⟩ := List.exists_duplicate_iff_not_nodup.mpr repeated
  obtain ⟨left, right, rfl, leftMember, rightSublist⟩ :=
    List.cons_sublist_iff.mp (List.duplicate_iff_sublist.mp duplicate)
  obtain ⟨front, leftRest, rfl⟩ := List.append_of_mem leftMember
  obtain ⟨rightFront, back, rfl⟩ := List.append_of_mem (List.singleton_sublist.mp rightSublist)
  exact ⟨front, number, leftRest ++ rightFront, back, by simp⟩

/-! ## Reductions -/

/-- In a state, with this input left, a machine reduces by an item. -/
structure Automaton.Chooses (automaton : Automaton) (remaining : List Symbol) (top : Nat)
    (item : Item) : Prop where
  idle : automaton.Idle top remaining
  completes : automaton.Completes top item
  proper : item.production ≠ Grammar.augmentedProduction

/-- A reduction, as far as the stack of states shows it. -/
inductive Reduces (automaton : Automaton) (remaining : List Symbol) :
    List Nat → List Nat → Prop where
  | intro {popped : List Nat} {base target : Nat} {item : Item} (below : List Nat) :
      automaton.Chooses remaining ((popped ++ [base]).headD 0) item →
      popped.length = (automaton.grammar.right item.production).length →
      automaton.goto base item.origin = some target →
      Reduces automaton remaining (popped ++ base :: below) (target :: base :: below)

namespace Reduces

variable {automaton : Automaton} {remaining : List Symbol}

theorem headD_eq (popped below : List Nat) (base : Nat) :
    (popped ++ base :: below).headD 0 = (popped ++ [base]).headD 0 := by
  cases popped <;> rfl

/-- The stack of states determines the reduction. -/
theorem unique : Relator.RightUnique (Reduces automaton remaining) := by
  intro states first second reduces other
  cases reduces with
  | @intro popped base target item below chooses count moves =>
  generalize whole : popped ++ base :: below = states at other
  cases other with
  | @intro otherPopped otherBase otherTarget otherItem otherBelow otherChooses otherCount
      otherMoves =>
      have tops := congrArg (·.headD 0) whole
      simp only [headD_eq] at tops
      rw [← tops] at otherChooses
      have sameItem := chooses.completes.unique otherChooses.completes
      subst sameItem
      obtain ⟨_, rest⟩ := List.append_inj whole (count.trans otherCount.symm)
      obtain ⟨rfl, rfl⟩ := List.cons.inj rest
      rw [moves, Option.some.injEq] at otherMoves
      rw [otherMoves]

/-- What lies below the popped states plays no part. -/
theorem append {states next : List Nat} (reduces : Reduces automaton remaining states next)
    (below : List Nat) : Reduces automaton remaining (states ++ below) (next ++ below) := by
  cases reduces with
  | intro rest chooses count moves =>
      rw [List.append_assoc]
      exact .intro (rest ++ below) chooses count moves

/-- A state that lies deeper than the beginning has been on top, and what was put above
it since then can be put above it anywhere. The induction is on the reductions; what
the last one popped has been above the state as well. -/
theorem split {origin above below : List Nat} {state : Nat}
    (reaches : ReflTransGen (Reduces automaton remaining) origin (above ++ state :: below))
    (deep : origin.length ≤ below.length) :
    ReflTransGen (Reduces automaton remaining) origin (state :: below) ∧
      ReflTransGen (Reduces automaton remaining) [state] (above ++ [state]) := by
  generalize whole : above ++ state :: below = states at reaches
  induction reaches generalizing above with
  | refl =>
      have lengths := congrArg List.length whole
      rw [List.length_append, List.length_cons] at lengths
      omega
  | tail reaches last ih =>
      cases last with
      | @intro popped base target item rest chooses count moves =>
        cases above with
        | nil =>
            rw [List.nil_append] at whole ⊢
            rw [whole]
            exact ⟨reaches.tail (.intro rest chooses count moves), .refl⟩
        | cons first above =>
            obtain ⟨rfl, restEqual⟩ := List.cons.inj whole
            have before : popped ++ above ++ state :: below = popped ++ base :: rest := by
              rw [List.append_assoc]
              exact congrArg (popped ++ ·) restEqual
            obtain ⟨reachesState, reachesAbove⟩ := ih before
            refine ⟨reachesState, reachesAbove.tail ?_⟩
            -- the base of the last reduction is the state itself or lies above it
            rw [List.append_assoc]
            cases above with
            | nil =>
                obtain ⟨rfl, rfl⟩ := List.cons.inj restEqual
                exact .intro [] chooses count moves
            | cons second above =>
                obtain ⟨rfl, rfl⟩ := List.cons.inj restEqual
                exact .intro (above ++ [state]) chooses count moves

/-- A state that comes to lie above itself does so again and again. -/
theorem endless_of_repetition {state : Nat} {middle : List Nat} (below : List Nat)
    (reaches : ReflTransGen (Reduces automaton remaining) [state]
      (state :: (middle ++ [state]))) :
    Endless (Reduces automaton remaining) (state :: below) := by
  have longer : TransGen (Reduces automaton remaining) [state]
      (state :: (middle ++ [state])) := by
    rcases Relation.reflTransGen_iff_eq_or_transGen.mp reaches with equal | leads
    · simp at equal
    · exact leads
  have again : ∀ states, (∃ below, states = state :: below) →
      ∃ later, (∃ below, later = state :: below) ∧
        TransGen (Reduces automaton remaining) states later := by
    rintro _ ⟨below, rfl⟩
    refine ⟨_, ⟨middle ++ [state] ++ below, rfl⟩, ?_⟩
    exact longer.lift (· ++ below) fun _ _ reduces => reduces.append below
  exact Endless.of_recurs unique again ⟨below, rfl⟩

/-- Reductions that let a stack outgrow its beginning by more than the number of states
have no end. -/
theorem endless_of_growth {origin states : List Nat}
    (reaches : ReflTransGen (Reduces automaton remaining) origin states)
    (grown : origin.length + automaton.size < states.length)
    (within : ∀ state ∈ states, state < automaton.size) :
    Endless (Reduces automaton remaining) states := by
  have long : automaton.size < (states.take (states.length - origin.length)).length := by
    rw [List.length_take]
    omega
  obtain ⟨front, state, middle, back, equal⟩ := exists_repetition long fun state member =>
    within state (List.mem_of_mem_take member)
  have count := List.length_drop (i := states.length - origin.length) (l := states)
  rw [← List.take_append_drop (states.length - origin.length) states, equal] at reaches ⊢
  generalize states.drop (states.length - origin.length) = rest at reaches count ⊢
  have whole : front ++ state :: (middle ++ state :: back) ++ rest =
      (front ++ state :: middle) ++ state :: (back ++ rest) := by
    simp
  rw [whole] at reaches ⊢
  have deep : origin.length ≤ (back ++ rest).length := by
    rw [List.length_append]
    omega
  obtain ⟨_, reachesWhole⟩ := split reaches deep
  have twice : front ++ state :: middle ++ [state] = front ++ state :: (middle ++ [state]) := by
    simp
  have above : ReflTransGen (Reduces automaton remaining) [state]
      (front ++ state :: (middle ++ [state])) := twice ▸ reachesWhole
  obtain ⟨reachesUpper, _⟩ := split above (by simp)
  apply (endless_of_repetition (back ++ rest) reachesUpper).of_reaches
  have lifted : ReflTransGen (Reduces automaton remaining) ([state] ++ (back ++ rest))
      (front ++ state :: middle ++ [state] ++ (back ++ rest)) :=
    reachesWhole.lift (· ++ (back ++ rest)) fun _ _ reduces => reduces.append (back ++ rest)
  simpa using lifted

end Reduces

end ShiftReduce
