import ShiftReduce.Proofs.Automaton.AccessingSymbols
import ShiftReduce.Proofs.Parser.Stacks

/-!
# Stacks of states determine machines

All transitions into a state are on its accessing symbol, so the stack of states of a
machine that has not accepted determines its stack of symbols, whatever was refused
before.  The guard remembers stacks of states only.  Since a configuration remembers none
from before its last shift, a stack of states met again means that the whole machine is
the one that it was then.
Main statements: `Configuration.remembers_of_reached` and
`Automaton.states_determine_symbols`.
-/

namespace ShiftReduce

variable {grammar : Grammar} {input : List Symbol}

namespace Machine

variable {machine other : Machine} {stack : List Symbol}

/-- Two machines over stacks of symbols with the same states have the same symbols. -/
theorem Spells.symbols_unique (wellFormed : grammar.WellFormed)
    (spells : machine.Spells (.build grammar) stack) {another : List Symbol}
    (otherSpells : other.Spells (.build grammar) another) (states : machine.states = other.states) :
    machine.symbols = other.symbols := by
  have path := spells.path
  rw [states] at path
  rw [spells.symbols_eq, otherSpells.symbols_eq,
    Automaton.Path.symbols_unique wellFormed path otherSpells.path]

/-- What is left of an input says at which place in it a machine is. -/
theorem Reads.position_unique (reads : machine.Reads input) (otherReads : other.Reads input)
    (remaining : machine.remaining = other.remaining) : machine.position = other.position := by
  have lengths := congrArg List.length remaining
  rw [reads.remaining_eq, otherReads.remaining_eq, List.length_drop, List.length_drop] at lengths
  have bound := reads.position_le
  have otherBound := otherReads.position_le
  omega

/-- The states and the remaining input make up the whole of a machine. -/
theorem Spells.unique (wellFormed : grammar.WellFormed)
    (spells : machine.Spells (.build grammar) stack) {another : List Symbol}
    (otherSpells : other.Spells (.build grammar) another) (reads : machine.Reads input)
    (otherReads : other.Reads input) (states : machine.states = other.states)
    (remaining : machine.remaining = other.remaining) : machine = other := by
  have symbols := spells.symbols_unique wellFormed otherSpells states
  have position := reads.position_unique otherReads remaining
  have accepted := spells.running.trans otherSpells.running.symm
  cases machine
  cases other
  cases symbols
  cases states
  cases remaining
  cases position
  cases accepted
  rfl

end Machine

namespace Configuration

variable {configuration next : Configuration}

/-- Steps have led from the start through a stack of states, and no input was used since. -/
def Recalls (grammar : Grammar) (input : List Symbol) (configuration : Configuration)
    (met : MetStack) : Prop :=
  ∃ earlier, Reached (Configuration.step (.build grammar)) (.start input) earlier ∧
    Reached (Configuration.step (.build grammar)) earlier configuration ∧
      earlier.machine.accepted = false ∧ met = .ofStates earlier.machine.states ∧
        earlier.machine.remaining = configuration.machine.remaining

/-- The stacks that a configuration remembers are those of earlier configurations. -/
def Remembers (grammar : Grammar) (input : List Symbol) (configuration : Configuration) : Prop :=
  ∀ met ∈ configuration.seen, configuration.Recalls grammar input met

/-- A step that uses no input. -/
theorem Recalls.tail {met : MetStack} (recalls : configuration.Recalls grammar input met)
    {answer : Except Refusal Step} (stepped : configuration.step (.build grammar) = (next, answer))
    (remaining : next.machine.remaining = configuration.machine.remaining) :
    next.Recalls grammar input met := by
  obtain ⟨earlier, reached, later, running, equal, sameInput⟩ := recalls
  have leads := later.tail
  rw [stepped] at leads
  exact ⟨earlier, reached, leads, running, equal, sameInput.trans remaining.symm⟩

/-- Every step keeps what is remembered true. A shift forgets all of it, and a reduction that
is let pass adds the stack that it has led to. -/
theorem Remembers.step (wellFormed : grammar.WellFormed)
    (coherent : Coherent grammar input configuration)
    (reached : Reached (Configuration.step (.build grammar)) (.start input) configuration)
    (remembers : Remembers grammar input configuration) :
    Remembers grammar input (configuration.step (.build grammar)).1 := by
  cases accepted : configuration.machine.accepted with
  | true =>
      rw [Configuration.step, if_pos accepted]
      exact remembers
  | false =>
      obtain ⟨stack, spells⟩ := coherent.exists_spells accepted
      have next := reached.tail
      cases stepped : configuration.step (.build grammar) with
      | mk after answer =>
          rw [stepped] at next
          intro met member
          cases step_move accepted stepped with
          | refused machineStepped =>
              obtain ⟨rfl, _⟩ := (spells.step_move wellFormed machineStepped).refusal_eq
              exact (remembers met member).tail stepped rfl
          | cycle machineStepped _ =>
              obtain ⟨_, sameInput, _⟩ := spells.reduces wellFormed machineStepped
              exact (remembers met member).tail stepped sameInput
          | shift _ => exact absurd member List.not_mem_nil
          | reduce machineStepped _ =>
              obtain ⟨_, sameInput, _, nextSpells⟩ := spells.reduces wellFormed machineStepped
              cases List.mem_cons.mp member with
              | inl recorded =>
                  -- the stack that is added is the one that this step has led to
                  exact ⟨_, next, .refl, nextSpells.running, recorded, rfl⟩
              | inr before => exact (remembers met before).tail stepped sameInput
          | accept machineStepped =>
              cases spells.step_move wellFormed machineStepped with
              | accept _ _ _ => exact (remembers met member).tail stepped rfl

theorem remembers_of_reached (wellFormed : grammar.WellFormed)
    (reached : Reached (Configuration.step (.build grammar)) (.start input) configuration) :
    Remembers grammar input configuration := by
  induction reached with
  | refl => exact fun met member => absurd member List.not_mem_nil
  | tail before ih => exact ih.step wellFormed (coherent_of_reached wellFormed before) before

/-- A reduction that the guard refuses has let the stacks outgrow the automaton, or it has led
the machine back to what it was before an earlier step. -/
theorem recurs_of_cycle (wellFormed : grammar.WellFormed)
    (reached : Reached (Configuration.step (.build grammar)) (.start input) configuration)
    {refusal : Refusal} (stepped : configuration.step (.build grammar) = (next, .error refusal))
    (cause : refusal.cause = .epsilonCycle) :
    configuration.base + (Automaton.build grammar).size < next.machine.states.length ∨
      ∃ earlier, Reached (Configuration.step (.build grammar)) (.start input) earlier ∧
        Reached (Configuration.step (.build grammar)) earlier configuration ∧
          earlier.machine = next.machine := by
  have coherent := coherent_of_reached wellFormed reached
  cases accepted : configuration.machine.accepted with
  | true =>
      rw [Configuration.step, if_pos accepted] at stepped
      cases stepped
  | false =>
      obtain ⟨stack, spells⟩ := coherent.exists_spells accepted
      cases step_move accepted stepped with
      | refused machineStepped =>
          exact absurd cause (spells.cause_ne_epsilonCycle wellFormed machineStepped)
      | @cycle machine production target machineStepped refused =>
          simp only [refuses, Bool.or_eq_true, decide_eq_true_eq] at refused
          cases refused with
          | inl grown => exact .inl grown
          | inr seen =>
              -- the stack was met earlier, with the same input left, and both stacks of states
              -- are paths, so the symbols are the same too
              obtain ⟨earlier, earlierReached, later, running, equal, remaining⟩ :=
                remembers_of_reached wellFormed reached _ seen
              obtain ⟨_, sameInput, _, nextSpells⟩ := spells.reduces wellFormed machineStepped
              have earlierCoherent := coherent_of_reached wellFormed earlierReached
              obtain ⟨_, earlierSpells⟩ := earlierCoherent.exists_spells running
              have nextReads :=
                ((spells.step_move wellFormed machineStepped).reads coherent.reads).1
              have states : earlier.machine.states = machine.states :=
                (congrArg MetStack.states equal).symm
              exact .inr ⟨earlier, earlierReached, later,
                earlierSpells.unique wellFormed nextSpells earlierCoherent.reads nextReads states
                  (remaining.trans sameInput.symm)⟩

end Configuration

namespace Automaton

/-- All transitions into a state are on one symbol. Some item has moved into the state, and
those that have stand before all items that its closure added, in the first state the start
item, so a completed one is preferred to one that derives nothing. Hence wherever stepping
leads, whatever was refused, the states determine the symbols until a step accepts; and where
the guard refuses a reduction that has led back to a stack of states, it has led back to all
of an earlier machine. -/
theorem states_determine_symbols (loaded : grammar.Loaded) :
    (∀ source symbol other another target,
      (build grammar).goto source symbol = some target →
        (build grammar).goto other another = some target → symbol = another) ∧
      (∀ source symbol target, (build grammar).goto source symbol = some target →
        (∃ item, (build grammar).Holds target item ∧ 0 < item.dot) ∧
          ∀ item, (build grammar).Holds target item → 0 < item.dot →
            item.symbolBeforeDot grammar = some symbol) ∧
      (build grammar).Holds 0 (.start grammar) ∧
      (∀ state ∈ (build grammar).states,
        (∃ kernel added, state.items.toList = kernel ++ added ∧
          (∀ item ∈ kernel, state.Kernel grammar item) ∧
            ∀ item ∈ added, ¬state.Kernel grammar item) ∧
          ∀ item ∈ state.items, 0 < item.dot → item.isComplete grammar = true →
            ∃ first, state.items.reduceItem? grammar = some first ∧ 0 < first.dot) ∧
      ∀ input configuration,
        Reached (Configuration.step (build grammar)) (.start input) configuration →
          configuration.machine.accepted = false →
            (∀ other another,
              Reached (Configuration.step (build grammar)) (.start other) another →
                another.machine.accepted = false →
                  another.machine.states = configuration.machine.states →
                    another.machine.symbols = configuration.machine.symbols) ∧
              ∀ next refusal, configuration.step (build grammar) = (next, .error refusal) →
                refusal.cause = .epsilonCycle →
                  configuration.base + (build grammar).size < next.machine.states.length ∨
                    ∃ earlier,
                      Reached (Configuration.step (build grammar)) (.start input) earlier ∧
                        Reached (Configuration.step (build grammar)) earlier configuration ∧
                          earlier.machine = next.machine := by
  have wellFormed := loaded.wellFormed
  refine ⟨?_, ?_, ?_, ?_, ?_⟩
  · intro source symbol other another target moves otherMoves
    exact goto_symbol_unique wellFormed moves otherMoves
  · intro source symbol target moves
    refine ⟨exists_moved wellFormed moves, ?_⟩
    intro item holds moved
    exact symbolBeforeDot_of_holds wellFormed moves holds moved
  · exact (holds_zero_iff wellFormed _).mpr (.kernel rfl)
  · intro state member
    refine ⟨exists_kernel wellFormed member, ?_⟩
    intro item listed moved complete
    exact reduceItem?_of_moved wellFormed member listed moved complete
  · intro input configuration reached running
    obtain ⟨stack, spells⟩ :=
      (Configuration.coherent_of_reached wellFormed reached).exists_spells running
    constructor
    · intro other another otherReached otherRunning states
      obtain ⟨otherStack, otherSpells⟩ :=
        (Configuration.coherent_of_reached wellFormed otherReached).exists_spells otherRunning
      exact otherSpells.symbols_unique wellFormed spells states
    · intro next refusal stepped cause
      exact Configuration.recurs_of_cycle wellFormed reached stepped cause

end Automaton

/-- A grammar whose machine can come back to itself, `S -> AS | b` and `A -> A` with the empty
sequence for `A`. -/
def Grammar.circling : Grammar where
  dialect := .standard
  start := .ofChar 'S'
  productions := #[⟨.ofChar 'Y', [.ofChar 'S']⟩, ⟨.ofChar 'S', [.ofChar 'A', .ofChar 'S']⟩,
    ⟨.ofChar 'S', [.ofChar 'b']⟩, ⟨.ofChar 'A', [.ofChar 'A']⟩, ⟨.ofChar 'A', []⟩]
  alternatives := [(.ofChar 'Y', [0]), (.ofChar 'S', [1, 2]), (.ofChar 'A', [3, 4])]
  terminals := [.ofChar 'b', .endMarker]

theorem Grammar.circling_loaded : Loaded circling := by
  have loads : ofRules .standard [(.ofChar 'S', [[.ofChar 'A', .ofChar 'S'], [.ofChar 'b']]),
      (.ofChar 'A', [[.ofChar 'A'], [.empty]])] = .ok circling := rfl
  exact .rules loads

namespace Automaton

/-- Two states of that grammar have their transitions on `A` to one state, which completes
`A -> A` and the empty sequence and prefers the first. Without input its machine reduces by
the empty sequence and then back to where it was, which the guard refuses; and whatever the
input, over the states that it has then there is just the symbol `A`. -/
theorem states_determine_symbols_circling :
    (build .circling).goto 0 (.ofChar 'A') = some 2 ∧
      (build .circling).goto 2 (.ofChar 'A') = some 2 ∧
        (∀ source symbol, (build .circling).goto source symbol = some 2 → symbol = .ofChar 'A') ∧
      (∃ state ∈ (build .circling).states, state.id = 2 ∧ ⟨4, 0, .ofChar 'A'⟩ ∈ state.items ∧
        ∃ first, state.items.reduceItem? .circling = some first ∧ 0 < first.dot) ∧
      ∃ configuration, Reached (Configuration.step (build .circling)) (.start []) configuration ∧
        configuration.machine.states = [2, 0] ∧
          (∀ input other,
            Reached (Configuration.step (build .circling)) (.start input) other →
              other.machine.accepted = false → other.machine.states = [2, 0] →
                other.machine.symbols = [.ofChar 'A', .endMarker]) ∧
            ∃ next refusal, configuration.step (build .circling) = (next, .error refusal) ∧
              ∃ earlier, Reached (Configuration.step (build .circling)) (.start []) earlier ∧
                earlier.machine = next.machine := by
  have first : (build .circling).goto 0 (.ofChar 'A') = some 2 := by
    cbv
  have second : (build .circling).goto 2 (.ofChar 'A') = some 2 := by
    cbv
  have listed : (build .circling).states.any (fun state => decide (state.id = 2 ∧
      ⟨4, 0, .ofChar 'A'⟩ ∈ state.items ∧ ⟨3, 1, .ofChar 'A'⟩ ∈ state.items)) = true := by
    cbv
  obtain ⟨state, member, checked⟩ := List.any_eq_true.mp listed
  obtain ⟨id, empty, moved⟩ := of_decide_eq_true checked
  have reached : Reached (Configuration.step (build .circling)) (.start [])
      ((Configuration.start []).step (build .circling)).1 := Reached.refl.tail
  have states :
      ((Configuration.start []).step (build .circling)).1.machine.states = [2, 0] := by
    cbv
  have running : ((Configuration.start []).step (build .circling)).1.machine.accepted = false := by
    cbv
  have symbols : ((Configuration.start []).step (build .circling)).1.machine.symbols =
      [.ofChar 'A', .endMarker] := by
    cbv
  have refused : (((Configuration.start []).step (build .circling)).1.step (build .circling)).2 =
      .error ⟨.epsilonCycle, .endMarker, 2⟩ := by
    cbv
  have small : ¬((Configuration.start []).step (build .circling)).1.base + (build .circling).size <
      (((Configuration.start []).step
        (build .circling)).1.step (build .circling)).1.machine.states.length := by
    cbv
  have accessing := states_determine_symbols Grammar.circling_loaded
  have alike := accessing.2.2.2.2 [] _ reached running
  have stepped : ((Configuration.start []).step (build .circling)).1.step (build .circling) =
      (_, .error _) := Prod.ext rfl refused
  refine ⟨first, second, ?_, ?_, _, reached, states, ?_, _, _, stepped, ?_⟩
  · intro source symbol moves
    exact accessing.1 source symbol 0 _ 2 moves first
  · exact ⟨state, member, id, empty,
      (accessing.2.2.2.1 state member).2 _ moved Nat.zero_lt_one (by decide)⟩
  · intro input other otherReached otherRunning otherStates
    rw [← symbols]
    exact alike.1 input other otherReached otherRunning (otherStates.trans states.symm)
  · obtain ⟨earlier, earlierReached, _, same⟩ := (alike.2 _ _ stepped rfl).resolve_left small
    exact ⟨earlier, earlierReached, same⟩

end Automaton

end ShiftReduce
