import ShiftReduce.Proofs.Parser.CheckedStep
import ShiftReduce.Proofs.Parser.Guard

/-!
# The stacks of a parse

What holds of a configuration wherever stepping has led, after refusals and after
accepting too.  Until a step accepts, the states are a path over the symbols above the
end marker, and that is so even where the guard refuses a reduction that has moved the
stacks already; a step that accepts leaves only the augmented start on the end marker.
The record counts the shifts and the reductions that were not refused.  Main statements:
`Configuration.Coherent.step`, by which every step keeps this, and
`Automaton.stackInvariant_of_reached`.
-/

namespace ShiftReduce

variable {grammar : Grammar} {input : List Symbol}

namespace Machine

variable {machine next : Machine} {stack : List Symbol} {answer : Except Refusal Step}

/-- A machine that has accepted, with what is left on its stacks. -/
structure Accepted (automaton : Automaton) (machine : Machine) : Prop where
  accepted : machine.accepted = true
  symbols_eq : machine.symbols = [automaton.grammar.augmentedStart, Symbol.endMarker]
  states_eq : machine.states = [0]

/-- How many symbols of the input a step with a given answer has used. -/
def usedInput : Except Refusal Step → Nat
  | .ok (.shift _ _) => 1
  | _ => 0

namespace Move

/-- A move uses the symbol that it shifts and keeps its place in the input otherwise. -/
theorem reads {automaton : Automaton} (move : machine.Move automaton stack next answer)
    (reads : machine.Reads input) :
    next.Reads input ∧ next.position = machine.position + usedInput answer := by
  cases move with
  | shift remaining _ =>
      have consumed := reads.consume (remaining ▸ List.cons_ne_nil _ _)
      exact ⟨⟨consumed.position_le, consumed.remaining_eq⟩, rfl⟩
  | reduce _ _ _ _ _ _ => exact ⟨⟨reads.position_le, reads.remaining_eq⟩, rfl⟩
  | accept _ _ _ => exact ⟨⟨reads.position_le, reads.remaining_eq⟩, rfl⟩
  | inputLeft _ _ _ _ => exact ⟨reads, rfl⟩
  | noAction _ _ => exact ⟨reads, rfl⟩

/-- Where a move does not accept, the stacks remain a path. -/
theorem spells {automaton : Automaton} (move : machine.Move automaton stack next answer)
    (spells : machine.Spells automaton stack) (notLast : answer ≠ .ok .accept) :
    ∃ nextStack, next.Spells automaton nextStack := by
  cases move with
  | shift _ shifts => exact ⟨_, spells.shift shifts⟩
  | reduce _ _ _ _ whole moves => exact ⟨_, spells.reduce whole moves⟩
  | accept _ _ _ => exact absurd rfl notLast
  | inputLeft _ _ _ _ => exact ⟨stack, spells⟩
  | noAction _ _ => exact ⟨stack, spells⟩

/-- Where a move accepts, the start symbol was alone on the end marker and is replaced
by the augmented start. -/
theorem accepted {automaton : Automaton} (move : machine.Move automaton stack next (.ok .accept))
    (spells : machine.Spells automaton stack) : next.Accepted automaton := by
  cases move with
  | accept _ _ whole =>
      have single : stack = [automaton.grammar.start].reverse ++ [] := whole
      have popped := spells.pop single
      have bottom : ∀ states, automaton.Path [] states → states = [0] := by
        intro states path
        cases path
        rfl
      exact ⟨rfl, congrArg _ popped.symbols_eq, bottom _ popped.path⟩

/-- The state below a reduction always has a transition. -/
theorem cause_ne_noTransition {automaton : Automaton} {refusal : Refusal}
    (move : machine.Move automaton stack next (.error refusal)) :
    refusal.cause ≠ .noTransition := by
  cases move with
  | inputLeft _ _ _ _ => exact RefusalCause.noConfusion
  | noAction _ _ => exact RefusalCause.noConfusion

end Move

end Machine

namespace Configuration

variable {configuration next : Configuration} {answer : Except Refusal Step}

/-- The stacks, the place in the input and the record of a configuration agree. -/
structure Coherent (grammar : Grammar) (input : List Symbol) (configuration : Configuration) :
    Prop where
  phase : (∃ stack, configuration.machine.Spells (.build grammar) stack) ∧
      Step.accept ∉ configuration.done ∨
    configuration.machine.Accepted (.build grammar) ∧
      ∃ before, configuration.done = .accept :: before ∧ Step.accept ∉ before
  reads : configuration.machine.Reads input
  tokens : configuration.statistics.tokens = input.length
  position : configuration.machine.position = (Step.shifted configuration.done).length
  shifts : configuration.statistics.shifts = configuration.machine.position
  reductions : configuration.statistics.reductions = (Step.reduced configuration.done).length

theorem start_coherent (grammar : Grammar) (input : List Symbol) :
    Coherent grammar input (.start input) where
  phase := .inl ⟨⟨[], Machine.start_spells _ input⟩, List.not_mem_nil⟩
  reads := ⟨Nat.zero_le _, rfl⟩
  tokens := rfl
  position := rfl
  shifts := rfl
  reductions := rfl

/-- A refused step changes the machine only, even where it has moved the stacks. -/
theorem Coherent.of_refused (coherent : Coherent grammar input configuration) {machine : Machine}
    {stack : List Symbol} (spells : machine.Spells (.build grammar) stack)
    (unaccepted : Step.accept ∉ configuration.done) (reads : machine.Reads input)
    (position : machine.position = configuration.machine.position) :
    Coherent grammar input { configuration with machine } where
  phase := .inl ⟨⟨stack, spells⟩, unaccepted⟩
  reads := reads
  tokens := coherent.tokens
  position := position.trans coherent.position
  shifts := coherent.shifts.trans position.symm
  reductions := coherent.reductions

/-- Every step that does not follow an acceptance keeps a configuration coherent, even a
refused one. -/
theorem Coherent.of_move (wellFormed : grammar.WellFormed)
    (coherent : Coherent grammar input configuration) {stack : List Symbol}
    (spells : configuration.machine.Spells (.build grammar) stack)
    (unaccepted : Step.accept ∉ configuration.done)
    (move : configuration.Move (.build grammar) next answer) : Coherent grammar input next := by
  cases move with
  | refused stepped | cycle stepped _ =>
      have machineMove := spells.step_move wellFormed stepped
      obtain ⟨reads, position⟩ := machineMove.reads coherent.reads
      obtain ⟨nextStack, nextSpells⟩ := machineMove.spells spells (by simp)
      exact coherent.of_refused nextSpells unaccepted reads position
  | shift stepped =>
      have machineMove := spells.step_move wellFormed stepped
      obtain ⟨reads, position⟩ := machineMove.reads coherent.reads
      have nextSpells := machineMove.spells spells (by simp)
      refine ⟨.inl ⟨nextSpells, ?_⟩, reads, coherent.tokens, ?_, ?_, coherent.reductions⟩
      · simpa [afterShift] using unaccepted
      · exact position.trans (congrArg (· + 1) coherent.position)
      · exact (congrArg (· + 1) coherent.shifts).trans position.symm
  | reduce stepped _ =>
      have machineMove := spells.step_move wellFormed stepped
      obtain ⟨reads, position⟩ := machineMove.reads coherent.reads
      have nextSpells := machineMove.spells spells (by simp)
      refine ⟨.inl ⟨nextSpells, ?_⟩, reads, coherent.tokens, ?_, ?_, ?_⟩
      · simpa [afterReduction] using unaccepted
      · exact position.trans coherent.position
      · exact coherent.shifts.trans position.symm
      · exact congrArg (· + 1) coherent.reductions
  | accept stepped =>
      have machineMove := spells.step_move wellFormed stepped
      obtain ⟨reads, position⟩ := machineMove.reads coherent.reads
      exact ⟨.inr ⟨machineMove.accepted spells, _, rfl, unaccepted⟩, reads, coherent.tokens,
        position.trans coherent.position, coherent.shifts.trans position.symm,
        coherent.reductions⟩

/-- Every step keeps a configuration coherent. -/
theorem Coherent.step (wellFormed : grammar.WellFormed)
    (coherent : Coherent grammar input configuration) :
    Coherent grammar input (configuration.step (.build grammar)).1 := by
  rcases coherent.phase with ⟨⟨stack, spells⟩, unaccepted⟩ | ⟨accepted, _⟩
  · cases stepped : configuration.step (.build grammar) with
    | mk next answer =>
        exact coherent.of_move wellFormed spells unaccepted (step_move spells.running stepped)
  · rw [Configuration.step, if_pos accepted.accepted]
    exact coherent

theorem coherent_of_reached (wellFormed : grammar.WellFormed)
    (reached : Reached (Configuration.step (.build grammar)) (.start input) configuration) :
    Coherent grammar input configuration :=
  reached.preserves (Coherent grammar input) (fun _ coherent => coherent.step wellFormed)
    (start_coherent grammar input)

/-- What a parse relies on, whatever it has done. Stacks are counted from the bottom where
a place is named. -/
structure StackInvariant (grammar : Grammar) (input : List Symbol)
    (configuration : Configuration) : Prop where
  /-- Nothing is out of range in the next step. -/
  inRange : configuration.machine.step? (.build grammar) input =
    some (configuration.machine.step (.build grammar))
  /-- The next step finds the transition that it looks up. -/
  resolves : ∀ refusal, (configuration.step (.build grammar)).2 = .error refusal →
    refusal.cause ≠ .noTransition
  position_le : configuration.machine.position ≤ configuration.statistics.tokens
  tokens_eq : configuration.statistics.tokens = input.length
  bottomSymbol : configuration.machine.symbols.reverse[0]? = some Symbol.endMarker
  bottomState : configuration.machine.states.reverse[0]? = some 0
  depths : configuration.machine.accepted = false →
    configuration.machine.symbols.length = configuration.machine.states.length
  linked : configuration.machine.accepted = false → ∀ place source symbol target,
    configuration.machine.states.reverse[place]? = some source →
      configuration.machine.symbols.reverse[place + 1]? = some symbol →
        configuration.machine.states.reverse[place + 1]? = some target →
          (Automaton.build grammar).goto source symbol = some target
  accepted : configuration.machine.accepted = true →
    configuration.machine.symbols = [grammar.augmentedStart, Symbol.endMarker] ∧
      configuration.machine.states = [0]
  shifts_eq : configuration.statistics.shifts = configuration.machine.position
  position_eq : configuration.machine.position = (Step.shifted configuration.steps).length
  reductions_eq : configuration.statistics.reductions =
    (Step.reduced configuration.steps).length
  /-- Nothing is recorded after an acceptance, so it is recorded once at most. -/
  acceptsLast : ∀ before after, configuration.steps = before ++ .accept :: after → after = []

namespace Coherent

theorem inRange (wellFormed : grammar.WellFormed)
    (coherent : Coherent grammar input configuration) :
    configuration.machine.step? (.build grammar) input =
      some (configuration.machine.step (.build grammar)) := by
  rcases coherent.phase with ⟨⟨stack, spells⟩, _⟩ | ⟨accepted, _⟩
  · exact spells.step?_eq wellFormed coherent.reads
  · rw [Machine.step?, Machine.step, if_pos accepted.accepted, if_pos accepted.accepted]

theorem resolves (wellFormed : grammar.WellFormed)
    (coherent : Coherent grammar input configuration) {refusal : Refusal}
    (refused : (configuration.step (.build grammar)).2 = .error refusal) :
    refusal.cause ≠ .noTransition := by
  rcases coherent.phase with ⟨⟨stack, spells⟩, _⟩ | ⟨accepted, _⟩
  · cases stepped : configuration.step (.build grammar) with
    | mk next answer =>
        rw [stepped] at refused
        subst refused
        cases step_move spells.running stepped with
        | refused machineStepped =>
            exact (spells.step_move wellFormed machineStepped).cause_ne_noTransition
        | cycle _ _ => exact RefusalCause.noConfusion
  · rw [Configuration.step, if_pos accepted.accepted] at refused
    cases refused

theorem bottoms (coherent : Coherent grammar input configuration) :
    configuration.machine.symbols.reverse[0]? = some Symbol.endMarker ∧
      configuration.machine.states.reverse[0]? = some 0 := by
  rcases coherent.phase with ⟨⟨stack, spells⟩, _⟩ | ⟨accepted, _⟩
  · constructor
    · rw [spells.symbols_eq, List.reverse_append]
      rfl
    · rw [← List.head?_eq_getElem?, List.head?_reverse]
      exact spells.path.getLast?_eq
  · rw [accepted.symbols_eq, accepted.states_eq]
    exact ⟨rfl, rfl⟩

theorem exists_spells (coherent : Coherent grammar input configuration)
    (running : configuration.machine.accepted = false) :
    ∃ stack, configuration.machine.Spells (.build grammar) stack := by
  rcases coherent.phase with ⟨spells, _⟩ | ⟨accepted, _⟩
  · exact spells
  · cases running.symm.trans accepted.accepted

theorem linked (coherent : Coherent grammar input configuration)
    (running : configuration.machine.accepted = false) {place source target : Nat}
    {symbol : Symbol} (lower : configuration.machine.states.reverse[place]? = some source)
    (between : configuration.machine.symbols.reverse[place + 1]? = some symbol)
    (upper : configuration.machine.states.reverse[place + 1]? = some target) :
    (Automaton.build grammar).goto source symbol = some target := by
  obtain ⟨stack, spells⟩ := coherent.exists_spells running
  rw [spells.symbols_eq, List.reverse_append] at between
  exact spells.path.goto_getElem?_reverse lower between upper

theorem accepted (coherent : Coherent grammar input configuration)
    (accepted : configuration.machine.accepted = true) :
    configuration.machine.Accepted (.build grammar) := by
  rcases coherent.phase with ⟨⟨stack, spells⟩, _⟩ | ⟨isAccepted, _⟩
  · cases accepted.symm.trans spells.running
  · exact isAccepted

theorem acceptsLast (coherent : Coherent grammar input configuration) {before after : List Step}
    (recorded : configuration.steps = before ++ .accept :: after) : after = [] := by
  have reversed : configuration.done = after.reverse ++ .accept :: before.reverse := by
    rw [← List.reverse_reverse configuration.done]
    change configuration.steps.reverse = _
    rw [recorded]
    simp
  rcases coherent.phase with ⟨_, unaccepted⟩ | ⟨_, earlier, done, unaccepted⟩
  · exact absurd (reversed ▸ by simp) unaccepted
  · rw [done] at reversed
    cases last : after.reverse with
    | nil => exact List.reverse_eq_nil_iff.mp last
    | cons step others =>
        rw [last, List.cons_append, List.cons.injEq] at reversed
        exact absurd (reversed.2 ▸ by simp) unaccepted

end Coherent

end Configuration

namespace Automaton

/-- Wherever stepping leads over an input, whether or not steps were refused or accepted
on the way, the stacks, the place in the input and the record are in order, and nothing
that the next step looks up is missing. -/
theorem stackInvariant_of_reached (loaded : grammar.Loaded) {configuration : Configuration}
    (reached : Reached (Configuration.step (build grammar)) (.start input) configuration) :
    configuration.StackInvariant grammar input := by
  have wellFormed := loaded.wellFormed
  have coherent := Configuration.coherent_of_reached wellFormed reached
  constructor
  · exact coherent.inRange wellFormed
  · intro refusal refused
    exact coherent.resolves wellFormed refused
  · rw [coherent.tokens]
    exact coherent.reads.position_le
  · exact coherent.tokens
  · exact coherent.bottoms.1
  · exact coherent.bottoms.2
  · intro running
    obtain ⟨stack, spells⟩ := coherent.exists_spells running
    rw [spells.symbols_eq, spells.path.length_eq, List.length_append, List.length_singleton]
  · intro running place source symbol target lower between upper
    exact coherent.linked running lower between upper
  · intro accepted
    have ends := coherent.accepted accepted
    exact ⟨ends.symbols_eq, ends.states_eq⟩
  · exact coherent.shifts
  · rw [Configuration.steps, Step.shifted_reverse, List.length_reverse]
    exact coherent.position
  · rw [Configuration.steps, Step.reduced_reverse, List.length_reverse]
    exact coherent.reductions
  · intro before after recorded
    exact coherent.acceptsLast recorded

/-- Without input the growing machine is refused with seven states on its stack, and it
pushes one more when it is stepped on. -/
theorem stackInvariant_of_reached_growing :
    ∃ configuration, Reached (Configuration.step (.build .growing)) (.start []) configuration ∧
      configuration.machine.states = [2, 2, 2, 2, 2, 2, 2, 0] ∧
        configuration.statistics = ⟨0, 0, 5⟩ ∧
          configuration.StackInvariant .growing [] := by
  obtain ⟨steps, last, runs, ended⟩ :=
    Configuration.run_ends (.start []) (Machine.start_within (.build .growing) [])
  have refused := (Reached.refl.of_runs runs).tail
  rw [ended] at refused
  have states : (((build .growing).runInput []).1.step (.build .growing)).1.machine.states =
      [2, 2, 2, 2, 2, 2, 2, 0] := by
    cbv
  have statistics : (((build .growing).runInput []).1.step (.build .growing)).1.statistics =
      ⟨0, 0, 5⟩ := by
    cbv
  exact ⟨_, refused.tail, states, statistics,
    stackInvariant_of_reached Grammar.growing_loaded refused.tail⟩

end Automaton

end ShiftReduce
