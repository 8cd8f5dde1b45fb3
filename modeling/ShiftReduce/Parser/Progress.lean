import ShiftReduce.Enumeration
import ShiftReduce.Parser.Configuration

/-!
# Progress of a parse

Every step that is neither refused nor the last makes progress.  A shift uses a
symbol of the input.  A reduction leads to a stack of states that was not met
since the last shift, and the stacks that the guard admits are finitely many.
Main statement: `Configuration.step_progress`.
-/

namespace ShiftReduce

namespace Automaton

/-- The initial state and all states that a transition leads to. -/
def targets (automaton : Automaton) : List Nat :=
  0 :: automaton.states.flatMap fun state => state.transitions.map (·.2)

theorem transition_mem_targets {automaton : Automaton} {source : Nat} {state : State}
    {symbol : Symbol} {target : Nat} (found : automaton.state? source = some state)
    (moves : state.transition symbol = some target) : target ∈ automaton.targets := by
  obtain ⟨entry, entryFound, rfl⟩ := Option.map_eq_some_iff.mp moves
  refine List.mem_cons_of_mem _ (List.mem_flatMap.mpr ⟨state, List.mem_of_getElem? found, ?_⟩)
  exact List.mem_map.mpr ⟨entry, List.mem_of_find?_eq_some entryFound, rfl⟩

theorem goto_mem_targets {automaton : Automaton} {source : Nat} {symbol : Symbol} {target : Nat}
    (moves : automaton.goto source symbol = some target) : target ∈ automaton.targets := by
  obtain ⟨state, found, moves⟩ := Option.bind_eq_some_iff.mp moves
  exact transition_mem_targets found moves

end Automaton

namespace Machine

/-- All states on the stack are states that a transition leads to. -/
def Within (automaton : Automaton) (machine : Machine) : Prop :=
  ∀ state ∈ machine.states, state ∈ automaton.targets

theorem start_within (automaton : Automaton) (input : List Symbol) :
    (start input).Within automaton := by
  intro state member
  rw [List.mem_singleton.mp member]
  exact List.mem_cons_self

theorem pop_within {automaton : Automaton} {machine : Machine} (count : Nat)
    (within : machine.Within automaton) : (machine.pop count).Within automaton :=
  fun state member => within state (List.mem_of_mem_drop member)

theorem push_within {automaton : Automaton} {machine : Machine} (symbol : Symbol) {target : Nat}
    (targetMember : target ∈ automaton.targets) (within : machine.Within automaton) :
    (machine.push symbol target).Within automaton := by
  intro state member
  rcases List.mem_cons.mp member with rfl | member
  · exact targetMember
  · exact within state member

theorem shiftTarget?_mem_targets {automaton : Automaton} {dialect : Dialect} {source : Nat}
    {state : State} {next symbol : Symbol} {target : Nat}
    (found : automaton.state? source = some state)
    (shifts : shiftTarget? dialect state next = some (symbol, target)) :
    target ∈ automaton.targets := by
  unfold shiftTarget? at shifts
  dsimp only at shifts
  split at shifts
  · next literal moves =>
      obtain ⟨_, rfl⟩ := Prod.mk.inj (Option.some.inj shifts)
      split at moves
      · exact Automaton.transition_mem_targets found moves
      · cases moves
  · split at shifts
    · obtain ⟨_, moves, equal⟩ := Option.map_eq_some_iff.mp shifts
      obtain ⟨_, rfl⟩ := Prod.mk.inj equal
      exact Automaton.transition_mem_targets found moves
    · cases shifts

/-- What a step of the machine preserves and uses: its states remain states of the
automaton, a shift takes one symbol from the input, and a reduction takes none. -/
theorem step_effect {automaton : Automaton} {machine next : Machine}
    {answer : Except Refusal Step} (within : machine.Within automaton)
    (stepped : machine.step automaton = (next, answer)) :
    next.Within automaton ∧
      match answer with
      | .ok (.shift _ _) => next.remaining.length < machine.remaining.length
      | .ok (.reduce _ _) => next.remaining = machine.remaining
      | _ => True := by
  unfold step at stepped
  split at stepped
  · cases stepped; exact ⟨within, trivial⟩
  split at stepped
  · cases stepped; exact ⟨within, trivial⟩
  next state found =>
  split at stepped
  · next symbol target shifts =>
      cases stepped
      unfold shift? at shifts
      split at shifts
      · cases shifts
      · next first rest input =>
          refine ⟨push_within _ (shiftTarget?_mem_targets found shifts) within, ?_⟩
          simp [push, consume, input]
  split at stepped
  · cases stepped; exact ⟨within, trivial⟩
  next item _ =>
  split at stepped
  · unfold accept at stepped
    split at stepped
    · cases stepped; exact ⟨within, trivial⟩
    · cases stepped; exact ⟨pop_within _ within, trivial⟩
  · unfold reduce at stepped
    dsimp only at stepped
    split at stepped
    · next target moves =>
        cases stepped
        exact ⟨push_within _ (Automaton.goto_mem_targets moves) (pop_within _ within), rfl⟩
    · cases stepped; exact ⟨pop_within _ within, trivial⟩

end Machine

namespace Configuration

/-- The stacks that the guard admits and that were not met since the last shift. -/
def unseen (automaton : Automaton) (configuration : Configuration) : Nat :=
  countUnvisited
    ((wordsUpTo automaton.targets (configuration.base + automaton.size)).map MetStack.ofStates)
    configuration.seen

/-- A step that is neither refused nor the last one uses input or leaves fewer
stacks unseen. -/
theorem step_progress {automaton : Automaton} {configuration next : Configuration} {step : Step}
    (within : configuration.machine.Within automaton)
    (stepped : configuration.step automaton = (next, .ok step)) (notLast : step ≠ .accept) :
    next.machine.Within automaton ∧
      Prod.Lex (· < ·) (· < ·)
        (next.machine.remaining.length, next.unseen automaton)
        (configuration.machine.remaining.length, configuration.unseen automaton) := by
  unfold Configuration.step at stepped
  split at stepped
  · cases stepped; exact absurd rfl notLast
  split at stepped
  · cases stepped
  · next machine symbol state moved =>
      have effect := Machine.step_effect within moved
      cases stepped
      exact ⟨effect.1, Prod.Lex.left _ _ effect.2⟩
  · next machine production state moved =>
      have effect := Machine.step_effect within moved
      split at stepped
      · cases stepped
      · next admitted =>
          cases stepped
          simp only [refuses, Bool.or_eq_true, decide_eq_true_eq, not_or, Nat.not_lt] at admitted
          refine ⟨effect.1, ?_⟩
          have sameInput : machine.remaining = configuration.machine.remaining := effect.2
          simp only [afterReduction, sameInput]
          apply Prod.Lex.right
          exact countUnvisited_lt (List.mem_map_of_mem (mem_wordsUpTo effect.1 admitted.1))
            admitted.2 (List.subset_cons_self _ _) List.mem_cons_self
  · cases stepped; exact absurd rfl notLast

end Configuration

end ShiftReduce
