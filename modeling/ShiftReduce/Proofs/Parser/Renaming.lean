import Mathlib.Data.Finset.Card
import ShiftReduce.Proofs.Automaton.Renaming
import ShiftReduce.Proofs.Parser.Soundness

/-!
# Parses with reordered rules

The order of rules and of alternatives shows in a parse only as other numbers of productions
and states, provided that no state leaves open which item to reduce by.  Then every step of
the renamed machine is the renamed step: shifts and reductions are looked up under renamed
states, the guard counts equally many states and meets the same stacks, and there is only
one completed item for the order of the items to choose.
Main statement: `Automaton.parse_reordered`.
-/

namespace ShiftReduce

/-! ## Renamed places and answers -/

section Rename

variable (productions states : Equiv.Perm Nat)

def Step.rename : Step → Step
  | .shift symbol state => .shift symbol (states state)
  | .reduce production state => .reduce (productions production) (states state)
  | .accept => .accept

def Refusal.rename (refusal : Refusal) : Refusal :=
  { refusal with state := states refusal.state }

def renameAnswer : Except Refusal Step → Except Refusal Step
  | .ok step => .ok (step.rename productions states)
  | .error refusal => .error (refusal.rename states)

def Machine.rename (machine : Machine) : Machine :=
  { machine with states := machine.states.map states }

def MetStack.rename (met : MetStack) : MetStack :=
  { met with states := met.states.map states }

def Configuration.rename (configuration : Configuration) : Configuration where
  machine := configuration.machine.rename states
  anchor := configuration.anchor.map states
  seen := configuration.seen.map (MetStack.rename states)
  done := configuration.done.map (Step.rename productions states)
  statistics := configuration.statistics

/-- The trace with its productions and states under other numbers. -/
def Trace.rename (trace : Trace) : Trace :=
  ⟨trace.steps.map (Step.rename productions states), trace.statistics⟩

/-- What a parse yields, with productions and states under other numbers. -/
def renameOutcome : Except Error Trace → Except Error Trace
  | .ok trace => .ok (trace.rename productions states)
  | .error (.rejected symbol state) => .error (.rejected symbol (states state))
  | .error error => .error error

end Rename

variable {productions states : Equiv.Perm Nat} {first second : Automaton}

namespace Automaton

/-- No state holds two completed items. -/
def CompletesUniquely (automaton : Automaton) : Prop :=
  ∀ state ∈ automaton.states, (state.items.completed automaton.grammar).length ≤ 1

instance (automaton : Automaton) : Decidable automaton.CompletesUniquely :=
  inferInstanceAs (Decidable (∀ state ∈ automaton.states, _))

theorem CompletesUniquely.eq {automaton : Automaton} (unique : automaton.CompletesUniquely)
    {state : State} (member : state ∈ automaton.states) {item other : Item}
    (itemMember : item ∈ state.items) (complete : item.isComplete automaton.grammar = true)
    (otherMember : other ∈ state.items)
    (otherComplete : other.isComplete automaton.grammar = true) : item = other := by
  have listed : item ∈ state.items.completed automaton.grammar :=
    List.mem_filter.mpr ⟨itemMember, complete⟩
  have otherListed : other ∈ state.items.completed automaton.grammar :=
    List.mem_filter.mpr ⟨otherMember, otherComplete⟩
  have short := unique state member
  generalize state.items.completed automaton.grammar = completed at listed otherListed short
  match completed, short with
  | [], _ => cases listed
  | [only], _ => rw [List.mem_singleton.mp listed, List.mem_singleton.mp otherListed]

namespace Renames

variable (renames : Renames productions states first second)

include renames

theorem size_eq : second.size = first.size := by
  have image : (Finset.range first.size).map states.toEmbedding = Finset.range second.size := by
    ext id
    rw [Finset.mem_map_equiv, Finset.mem_range, Finset.mem_range, ← renames.lt_size_iff,
      Equiv.apply_symm_apply]
  have count := congrArg Finset.card image
  rw [Finset.card_map, Finset.card_range, Finset.card_range] at count
  exact count.symm

theorem state?_eq_none_iff (id : Nat) :
    second.state? (states id) = none ↔ first.state? id = none := by
  rw [state?, state?, List.getElem?_eq_none_iff, List.getElem?_eq_none_iff, ← not_lt, ← not_lt]
  exact not_congr (renames.lt_size_iff id)

theorem exists_state? {id : Nat} {state : State} (found : first.state? id = some state) :
    ∃ renamed, second.state? (states id) = some renamed := by
  rw [← Option.ne_none_iff_exists', ne_eq, renames.state?_eq_none_iff, found]
  exact Option.some_ne_none state

theorem transition {id : Nat} {state renamed : State} (found : first.state? id = some state)
    (renamedFound : second.state? (states id) = some renamed) (symbol : Symbol) :
    renamed.transition symbol = (state.transition symbol).map states := by
  have goto := renames.goto id symbol
  rwa [Automaton.goto_of_state? found, Automaton.goto_of_state? renamedFound] at goto

theorem mem_items {id : Nat} {state renamed : State} (found : first.state? id = some state)
    (renamedFound : second.state? (states id) = some renamed) (item : Item) :
    item.rename productions ∈ renamed.items ↔ item ∈ state.items := by
  rw [← holds_iff_of_state? found, ← holds_iff_of_state? renamedFound]
  exact renames.holds_iff id item

/-- There is one completed item at most, so its place among the items does not matter. -/
theorem reduceItem? (unique : first.CompletesUniquely) {id : Nat} {state renamed : State}
    (found : first.state? id = some state)
    (renamedFound : second.state? (states id) = some renamed) :
    renamed.items.reduceItem? second.grammar =
      (state.items.reduceItem? first.grammar).map (Item.rename productions) := by
  have mem_items := renames.mem_items found renamedFound
  have isComplete := renames.grammar.isComplete
  cases complete : state.items.reduceItem? first.grammar with
  | none =>
      rw [Option.map_none, ItemSet.reduceItem?, List.find?_eq_none]
      intro item member
      rw [← Item.rename_symm_rename productions item] at member ⊢
      rw [isComplete]
      exact List.find?_eq_none.mp complete _ ((mem_items _).mp member)
  | some item =>
      have member : item ∈ state.items := List.mem_of_find?_eq_some complete
      have itemComplete : item.isComplete first.grammar = true := List.find?_some complete
      have someComplete : (renamed.items.reduceItem? second.grammar).isSome = true := by
        rw [ItemSet.reduceItem?, List.find?_isSome]
        exact ⟨_, (mem_items item).mpr member, (isComplete item).trans itemComplete⟩
      obtain ⟨other, otherFound⟩ := Option.isSome_iff_exists.mp someComplete
      have otherMember : other ∈ renamed.items := List.mem_of_find?_eq_some otherFound
      have otherComplete : other.isComplete second.grammar = true := List.find?_some otherFound
      rw [← Item.rename_symm_rename productions other] at otherMember otherComplete
      have same := unique.eq (List.mem_of_getElem? found) member itemComplete
        ((mem_items _).mp otherMember) ((isComplete _).symm.trans otherComplete)
      rw [otherFound, Option.map_some, same, Item.rename_symm_rename]

end Renames

end Automaton

namespace Machine

open Automaton (Renames)

variable (machine : Machine)

theorem top_rename (initial : states 0 = 0) :
    (machine.rename states).top = states machine.top := by
  change (machine.states.map states).headD 0 = states (machine.states.headD 0)
  cases machine.states with
  | nil => exact initial.symm
  | cons state below => rfl

theorem refuse_rename (initial : states 0 = 0) (cause : RefusalCause) :
    (machine.rename states).refuse cause = (machine.refuse cause).rename states := by
  rw [refuse, top_rename machine initial]
  rfl

theorem pop_rename (count : Nat) :
    (machine.rename states).pop count = (machine.pop count).rename states := by
  simp [pop, rename, List.map_drop]

theorem shiftTarget?_rename (renames : Renames productions states first second) {top : Nat}
    {state renamed : State} (found : first.state? top = some state)
    (renamedFound : second.state? (states top) = some renamed) (next : Symbol) :
    shiftTarget? second.grammar.dialect renamed next =
      (shiftTarget? first.grammar.dialect state next).map (Prod.map id states) := by
  have literal : (if next.isInput = true then (state.transition next).map states else none) =
      (if next.isInput = true then state.transition next else none).map states := by
    split <;> rfl
  simp only [shiftTarget?, renames.grammar.dialect, renames.transition found renamedFound, literal]
  cases (if next.isInput = true then state.transition next else none) with
  | some target => rfl
  | none =>
      simp only [Option.map_none]
      split
      · rw [Option.map_map, Option.map_map]
        rfl
      · rfl

theorem shift?_rename (renames : Renames productions states first second) {top : Nat}
    {state renamed : State} (found : first.state? top = some state)
    (renamedFound : second.state? (states top) = some renamed) :
    (machine.rename states).shift? second renamed =
      (machine.shift? first state).map (Prod.map id states) := by
  simp only [shift?, rename]
  cases machine.remaining with
  | nil => rfl
  | cons next rest => exact shiftTarget?_rename renames found renamedFound next

theorem accept_rename (renames : Renames productions states first second) (item : Item) :
    (machine.rename states).accept second (item.rename productions) =
      Prod.map (rename states) (renameAnswer productions states) (machine.accept first item) := by
  have right : second.grammar.right (item.rename productions).production =
      first.grammar.right item.production := renames.grammar.right item.production
  have remaining : (machine.rename states).remaining = machine.remaining := rfl
  rw [accept, accept, right, remaining, pop_rename, refuse_rename machine renames.initial]
  cases machine.remaining <;> rfl

theorem reduce_rename (renames : Renames productions states first second) (item : Item) :
    (machine.rename states).reduce second (item.rename productions) =
      Prod.map (rename states) (renameAnswer productions states) (machine.reduce first item) := by
  have right : second.grammar.right (item.rename productions).production =
      first.grammar.right item.production := renames.grammar.right item.production
  have origin : (item.rename productions).origin = item.origin := rfl
  simp only [reduce, right, pop_rename, top_rename _ renames.initial, origin, renames.goto]
  cases first.goto (machine.pop (first.grammar.right item.production).length).top item.origin with
  | none => rfl
  | some target => rfl

/-- A step of a renamed machine is the renamed step. -/
theorem step_rename (renames : Renames productions states first second)
    (unique : first.CompletesUniquely) :
    (machine.rename states).step second =
      Prod.map (rename states) (renameAnswer productions states) (machine.step first) := by
  have accepted : (machine.rename states).accepted = machine.accepted := rfl
  simp only [step, accepted, top_rename machine renames.initial,
    refuse_rename machine renames.initial]
  cases machine.accepted with
  | true => rfl
  | false =>
  simp only [Bool.false_eq_true, if_false]
  cases found : first.state? machine.top with
  | none =>
      rw [(renames.state?_eq_none_iff _).mpr found]
      rfl
  | some state =>
  obtain ⟨renamed, renamedFound⟩ := renames.exists_state? found
  simp only [renamedFound, shift?_rename machine renames found renamedFound,
    renames.reduceItem? unique found renamedFound]
  cases machine.shift? first state with
  | some shifted => rfl
  | none =>
  cases state.items.reduceItem? first.grammar with
  | none => rfl
  | some item =>
      have augmented : (item.rename productions).production = Grammar.augmentedProduction ↔
          item.production = Grammar.augmentedProduction :=
        productions.injective.eq_iff' renames.grammar.augmented
      simp only [Option.map_none, Option.map_some, augmented]
      split
      · exact accept_rename machine renames item
      · exact reduce_rename machine renames item

end Machine

theorem MetStack.ofStates_map (states : Equiv.Perm Nat) (met : List Nat) :
    ofStates (met.map states) = (ofStates met).rename states := by
  simp [ofStates, rename]

theorem MetStack.rename_injective (states : Equiv.Perm Nat) :
    Function.Injective (MetStack.rename states) := by
  intro met other same
  obtain ⟨depth, metStates⟩ := met
  obtain ⟨otherDepth, otherStates⟩ := other
  obtain ⟨rfl, equal⟩ := MetStack.mk.inj same
  exact congrArg (MetStack.mk depth) (List.map_injective_iff.mpr states.injective equal)

namespace Configuration

open Automaton (Renames)

variable (configuration : Configuration)

/-- The guard refuses the same stacks of states, as it counts states and compares stacks. -/
theorem refuses_rename (renames : Renames productions states first second) (met : List Nat) :
    (configuration.rename productions states).refuses second (met.map states) =
      configuration.refuses first met := by
  have base : (configuration.rename productions states).base = configuration.base :=
    List.length_map states
  have seen : MetStack.ofStates (met.map states) ∈ (configuration.rename productions states).seen ↔
      MetStack.ofStates met ∈ configuration.seen := by
    rw [MetStack.ofStates_map]
    exact List.mem_map_of_injective (MetStack.rename_injective states)
  simp only [refuses, base, renames.size_eq, List.length_map, seen]

theorem afterReduction_rename (machine : Machine) (step : Step) :
    (configuration.rename productions states).afterReduction (machine.rename states)
        (step.rename productions states) =
      (configuration.afterReduction machine step).rename productions states := by
  simp only [afterReduction, rename, List.map_cons, ← MetStack.ofStates_map]
  rfl

theorem trace_rename :
    (configuration.rename productions states).trace =
      configuration.trace.rename productions states :=
  congrArg (Trace.mk · configuration.statistics) List.map_reverse.symm

/-- A guarded step of a renamed configuration is the renamed step. -/
theorem step_rename (renames : Renames productions states first second)
    (unique : first.CompletesUniquely) :
    (configuration.rename productions states).step second =
      Prod.map (rename productions states) (renameAnswer productions states)
        (configuration.step first) := by
  have accepted : (configuration.machine.rename states).accepted =
      configuration.machine.accepted := rfl
  have machine : (configuration.rename productions states).machine =
      configuration.machine.rename states := rfl
  simp only [step, machine, accepted, Machine.step_rename _ renames unique]
  cases configuration.machine.accepted with
  | true => rfl
  | false =>
  simp only [Bool.false_eq_true, if_false]
  cases configuration.machine.step first with
  | mk next answer =>
  cases answer with
  | error refusal => rfl
  | ok done =>
  cases done with
  | shift symbol state => rfl
  | accept => rfl
  | reduce production state =>
      have refuses : (configuration.rename productions states).refuses second
          (next.rename states).states = configuration.refuses first next.states :=
        refuses_rename configuration renames next.states
      simp only [Prod.map_apply, renameAnswer, Step.rename, refuses,
        configuration.machine.refuse_rename renames.initial]
      split
      · rfl
      · exact Prod.ext (afterReduction_rename configuration next (.reduce production state)) rfl

end Configuration

/-! ## Renamed runs -/

theorem mapsAnswers_rename (productions states : Equiv.Perm Nat) :
    MapsAnswers (renameAnswer productions states) (Step.rename productions states)
      (Refusal.rename states) where
  ok _ := rfl
  error _ := rfl
  accept_iff done := by cases done <;> simp [Step.rename]

namespace Automaton

theorem runInput_rename (renames : Renames productions states first second)
    (unique : first.CompletesUniquely) (input : List Symbol) :
    second.runInput input =
      Prod.map (Configuration.rename productions states) (Option.map (Refusal.rename states))
        (first.runInput input) := by
  apply runInput_map (mapsAnswers_rename productions states)
  · intro configuration
    exact configuration.step_rename renames unique
  · simp [Configuration.rename, Configuration.start, Machine.rename, Machine.start,
      renames.initial]

/-- A parse with a renamed automaton yields what the parse yields, renamed. -/
theorem Renames.parse_eq (renames : Renames productions states first second)
    (unique : first.CompletesUniquely) (input : List Symbol) :
    second.parse input = renameOutcome productions states (first.parse input) := by
  have fault : second.inputFault? input = first.inputFault? input := by
    rw [inputFault?, inputFault?, renames.grammar.dialect]
  rw [parse, parse, fault, runInput_rename renames unique]
  cases reported : first.inputFault? input with
  | some error =>
      obtain ⟨symbol, _, rfl⟩ := Option.map_eq_some_iff.mp reported
      rfl
  | none =>
  cases first.runInput input with
  | mk final outcome =>
  cases outcome with
  | some refusal => rfl
  | none => exact congrArg Except.ok final.trace_rename

/-- Rules that are loaded in another order, or with alternatives in another order, but with the
same start symbol, make the same automaton under other numbers of productions and states; the
initial state keeps its number. If no state holds two completed items, every parse yields the
same under these numbers: the same trace with the same statistics, the same unknown symbol, or
the same symbol rejected in the same state. -/
theorem parse_reordered {dialect : Dialect} {rules others : List (Symbol × List (List Symbol))}
    (reordered : Reordered rules others) {first second : Grammar}
    (firstMade : Grammar.ofRules dialect rules = .ok first)
    (secondMade : Grammar.ofRules dialect others = .ok second)
    (sameStart : second.start = first.start) :
    ∃ productions states, Renames productions states (build first) (build second) ∧
      ((build first).CompletesUniquely → ∀ input,
        (build second).parse input =
          renameOutcome productions states ((build first).parse input)) := by
  obtain ⟨productions, renumbers⟩ := reordered.exists_renumbers firstMade secondMade sameStart
  obtain ⟨states, renames⟩ := renumbers.exists_renames (Grammar.Loaded.rules firstMade).wellFormed
    (Grammar.Loaded.rules secondMade).wellFormed
  exact ⟨productions, states, renames, renames.parse_eq⟩

end Automaton

/-- A letter and a choice of two others, `S -> AB` with `A -> a` and `B -> b | c`. -/
def Grammar.choosing : Grammar where
  dialect := .standard
  start := .ofChar 'S'
  productions := #[⟨.ofChar 'Y', [.ofChar 'S']⟩, ⟨.ofChar 'S', [.ofChar 'A', .ofChar 'B']⟩,
    ⟨.ofChar 'A', [.ofChar 'a']⟩, ⟨.ofChar 'B', [.ofChar 'b']⟩, ⟨.ofChar 'B', [.ofChar 'c']⟩]
  alternatives := [(.ofChar 'Y', [0]), (.ofChar 'S', [1]), (.ofChar 'A', [2]),
    (.ofChar 'B', [3, 4])]
  terminals := [.ofChar 'a', .ofChar 'b', .ofChar 'c', .endMarker]

/-- The same with the choice before the letter, and in the order `B -> c | b`. -/
def Grammar.choosingReordered : Grammar where
  dialect := .standard
  start := .ofChar 'S'
  productions := #[⟨.ofChar 'Y', [.ofChar 'S']⟩, ⟨.ofChar 'S', [.ofChar 'A', .ofChar 'B']⟩,
    ⟨.ofChar 'B', [.ofChar 'c']⟩, ⟨.ofChar 'B', [.ofChar 'b']⟩, ⟨.ofChar 'A', [.ofChar 'a']⟩]
  alternatives := [(.ofChar 'Y', [0]), (.ofChar 'S', [1]), (.ofChar 'B', [2, 3]),
    (.ofChar 'A', [4])]
  terminals := [.ofChar 'c', .ofChar 'b', .ofChar 'a', .endMarker]

/-- The letter is reduced by a production of another number, and the first of the choices leads
to a state of another number. -/
theorem Automaton.parse_reordered_choosing :
    ∃ productions states,
      Renames productions states (build .choosing) (build .choosingReordered) ∧
        productions 2 = 4 ∧ productions 3 = 3 ∧ states 5 = 6 ∧
          ∀ input, (build .choosingReordered).parse input =
            renameOutcome productions states ((build .choosing).parse input) := by
  have rulesPermuted : Reordered
      [(.ofChar 'S', [[.ofChar 'A', .ofChar 'B']]), (.ofChar 'A', [[.ofChar 'a']]),
        (.ofChar 'B', [[.ofChar 'b'], [.ofChar 'c']])]
      [(.ofChar 'S', [[.ofChar 'A', .ofChar 'B']]), (.ofChar 'B', [[.ofChar 'b'], [.ofChar 'c']]),
        (.ofChar 'A', [[.ofChar 'a']])] :=
    .of_perm (.cons _ (.swap _ _ _))
  have alternativesPermuted : Reordered
      [(.ofChar 'S', [[.ofChar 'A', .ofChar 'B']]), (.ofChar 'B', [[.ofChar 'b'], [.ofChar 'c']]),
        (.ofChar 'A', [[.ofChar 'a']])]
      [(.ofChar 'S', [[.ofChar 'A', .ofChar 'B']]), (.ofChar 'B', [[.ofChar 'c'], [.ofChar 'b']]),
        (.ofChar 'A', [[.ofChar 'a']])] :=
    .of_forall₂ (.cons ⟨rfl, .refl _⟩ (.cons ⟨rfl, .swap _ _ _⟩ (.cons ⟨rfl, .refl _⟩ .nil)))
  have firstMade : Grammar.ofRules .standard
      [(.ofChar 'S', [[.ofChar 'A', .ofChar 'B']]), (.ofChar 'A', [[.ofChar 'a']]),
        (.ofChar 'B', [[.ofChar 'b'], [.ofChar 'c']])] = .ok .choosing := rfl
  have secondMade : Grammar.ofRules .standard
      [(.ofChar 'S', [[.ofChar 'A', .ofChar 'B']]), (.ofChar 'B', [[.ofChar 'c'], [.ofChar 'b']]),
        (.ofChar 'A', [[.ofChar 'a']])] = .ok .choosingReordered := rfl
  obtain ⟨productions, states, renames, parses⟩ :=
    parse_reordered (rulesPermuted.trans alternativesPermuted) firstMade secondMade rfl
  have unique : decide (build .choosing).CompletesUniquely = true := by
    cbv
  have parse := parses (of_decide_eq_true unique)
  have first : (build .choosing).parse [.ofChar 'a', .ofChar 'b'] =
      .ok ⟨[.shift (.ofChar 'a') 3, .reduce 2 2, .shift (.ofChar 'b') 5, .reduce 3 4, .reduce 1 1,
        .accept], ⟨2, 2, 3⟩⟩ := by
    cbv
  have second : (build .choosingReordered).parse [.ofChar 'a', .ofChar 'b'] =
      .ok ⟨[.shift (.ofChar 'a') 3, .reduce 4 2, .shift (.ofChar 'b') 6, .reduce 3 4, .reduce 1 1,
        .accept], ⟨2, 2, 3⟩⟩ := by
    cbv
  have same := parse [.ofChar 'a', .ofChar 'b']
  rw [first, second] at same
  simp only [renameOutcome, Trace.rename, Step.rename, List.map_cons, List.map_nil,
    Except.ok.injEq, Trace.mk.injEq, List.cons.injEq, Step.shift.injEq, Step.reduce.injEq] at same
  obtain ⟨⟨_, ⟨letter, _⟩, ⟨_, behind⟩, ⟨choice, _⟩, _⟩, _⟩ := same
  exact ⟨productions, states, renames, letter.symm, choice.symm, behind.symm, parse⟩

end ShiftReduce
