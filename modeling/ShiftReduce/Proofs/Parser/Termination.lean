import ShiftReduce.Proofs.Parser.Guard

/-!
# Parses end

Stepping comes to an end from wherever it has led, after refusals too.  A reduction that
the guard lets pass leaves fewer of the stacks unseen that the guard admits, so their
number bounds the reductions that can follow one another; a shift moves the guard's base
and forgets what was seen, but it uses input.  Main statements:
`Configuration.length_le_unseen` and `Automaton.parse_terminates`.
-/

namespace ShiftReduce

namespace Configuration

variable {automaton : Automaton} {configuration next last : Configuration}

/-- Whatever a step answers, the states on the stack remain targets of transitions. -/
theorem step_within (within : configuration.machine.Within automaton) :
    (configuration.step automaton).1.machine.Within automaton := by
  cases stepped : configuration.step automaton with
  | mk next answer =>
      cases running : configuration.machine.accepted with
      | true =>
          rw [Configuration.step, if_pos running, Prod.mk.injEq] at stepped
          rw [← stepped.1]
          exact within
      | false =>
          cases step_move running stepped with
          | refused moved | shift moved | reduce moved _ | cycle moved _ | accept moved =>
              exact (Machine.step_effect within moved).1

theorem within_of_reached {input : List Symbol}
    (reached : Reached (Configuration.step automaton) (.start input) configuration) :
    configuration.machine.Within automaton :=
  reached.preserves (·.machine.Within automaton) (fun _ within => step_within within)
    (Machine.start_within automaton input)

/-- A reduction that the guard lets pass uses no input and leaves fewer stacks unseen. -/
theorem unseen_lt_of_reduce (within : configuration.machine.Within automaton)
    {production state : Nat}
    (stepped : configuration.step automaton = (next, .ok (.reduce production state))) :
    next.unseen automaton < configuration.unseen automaton := by
  have progress := (step_progress within stepped Step.noConfusion).2
  rw [Prod.lex_def] at progress
  have sameInput : next.machine.remaining = configuration.machine.remaining := by
    cases running : configuration.machine.accepted with
    | true =>
        rw [Configuration.step, if_pos running] at stepped
        cases stepped
    | false =>
        cases step_move running stepped with
        | reduce moved _ => exact (Machine.step_effect within moved).2
  rcases progress with shorter | ⟨_, fewer⟩
  · exact absurd (congrArg List.length sameInput) (Nat.ne_of_lt shorter)
  · exact fewer

/-- Reductions that follow one another are no more than the stacks that they leave seen. -/
theorem length_le_unseen (within : configuration.machine.Within automaton) {steps : List Step}
    (runs : Runs (Configuration.step automaton) configuration steps last)
    (reductions : ∀ done ∈ steps, ∃ production state, done = .reduce production state) :
    steps.length + last.unseen automaton ≤ configuration.unseen automaton := by
  induction runs with
  | nil => exact Nat.le_of_eq (Nat.zero_add _)
  | cons stepped notLast _ ih =>
      obtain ⟨production, state, rfl⟩ := reductions _ List.mem_cons_self
      have fewer := unseen_lt_of_reduce within stepped
      have rest := ih (step_progress within stepped notLast).1
        fun done member => reductions done (List.mem_cons_of_mem _ member)
      rw [List.length_cons]
      omega

end Configuration

namespace Automaton

/-- Every parse ends. The loop over an input, checked or not, makes finitely many steps
before one accepts or is refused, and so does stepping on from every configuration that
any number of steps has led to. From there no more reductions follow one another than
there are stacks that the guard admits and that were not seen since the last shift. -/
theorem parse_terminates (automaton : Automaton) (input : List Symbol) :
    (∃ steps last final outcome,
        Runs (Configuration.step automaton) (.start input) steps last ∧
          last.step automaton = (final, lastAnswer outcome) ∧
            automaton.runInput input = (final, outcome)) ∧
      ∀ configuration, Reached (Configuration.step automaton) (.start input) configuration →
        (∃ steps outcome, Ends (Configuration.step automaton) configuration steps outcome) ∧
          ∀ steps last, Runs (Configuration.step automaton) configuration steps last →
            (∀ done ∈ steps, ∃ production state, done = .reduce production state) →
              steps.length ≤ configuration.unseen automaton := by
  constructor
  · obtain ⟨steps, last, runs, ended⟩ :=
      Configuration.run_ends (.start input) (Machine.start_within automaton input)
    exact ⟨steps, last, _, _, runs, ended, runInput_eq runs ended⟩
  · intro configuration reached
    have within := Configuration.within_of_reached reached
    constructor
    · obtain ⟨steps, last, runs, ended⟩ := configuration.run_ends within
      exact ⟨steps, _, last, _, runs, ended⟩
    · intro steps last runs reductions
      have bounded := Configuration.length_le_unseen within runs reductions
      exact Nat.le_of_add_right_le bounded

/-- Without input the growing machine reduces five times before it is refused, and it
could not have been let pass more often than stacks are unseen at its beginning. -/
theorem parse_terminates_growing :
    ∃ steps last, Runs (Configuration.step (.build .growing)) (.start []) steps last ∧
      steps = List.replicate 5 (.reduce 3 2) ∧
        5 ≤ (Configuration.start []).unseen (.build .growing) := by
  have terminates := parse_terminates (.build .growing) []
  obtain ⟨steps, last, final, outcome, runs, ended, result⟩ := terminates.1
  have refused : ((build .growing).runInput []).2 = some ⟨.epsilonCycle, .endMarker, 2⟩ := by
    cbv
  have recorded : ((build .growing).runInput []).1.done = List.replicate 5 (.reduce 3 2) := by
    cbv
  rw [result] at refused recorded
  subst refused
  have repeated : steps = List.replicate 5 (.reduce 3 2) := by
    have unrecorded : final.done = last.done := Configuration.done_of_refused ended
    rw [← Configuration.steps_of_runs runs, Configuration.steps, ← unrecorded]
    change final.done = _ at recorded
    rw [recorded, List.reverse_replicate]
  have reductions : ∀ done ∈ steps, ∃ production state, done = .reduce production state := by
    intro done member
    rw [repeated] at member
    exact ⟨3, 2, List.eq_of_mem_replicate member⟩
  have bounded := (terminates.2 (.start []) .refl).2 steps last runs reductions
  rw [repeated, List.length_replicate] at bounded
  exact ⟨steps, last, runs, repeated, bounded⟩

end Automaton

end ShiftReduce
