import ShiftReduce.Parser.Run

/-!
# Runs

A run makes steps until, at the latest, one accepts or is refused.  Steps are
deterministic, so a run that has ended passes through every other run from the same
place.  One may also step on after the end of a run.  The notions apply to the bare
machine and to the guarded configuration alike.
Main statements: `Runs.passes`, `Runs.ends_eq` and `Automaton.runInput_eq`.
-/

namespace ShiftReduce

variable {Place : Type} {step : Place → Place × Except Refusal Step}

/-- From one place to another by successful steps that do not accept. -/
inductive Runs (step : Place → Place × Except Refusal Step) :
    Place → List Step → Place → Prop where
  | nil (place : Place) : Runs step place [] place
  | cons {first next last : Place} {done : Step} {steps : List Step} :
      step first = (next, .ok done) → done ≠ .accept → Runs step next steps last →
      Runs step first (done :: steps) last

/-- The answer to the last step of a run: it accepts unless it is refused. -/
def lastAnswer : Option Refusal → Except Refusal Step
  | none => .ok .accept
  | some refusal => .error refusal

/-- After these steps the next one accepts or is refused. -/
def Ends (step : Place → Place × Except Refusal Step) (first : Place) (steps : List Step)
    (outcome : Option Refusal) : Prop :=
  ∃ last final, Runs step first steps last ∧ step last = (final, lastAnswer outcome)

namespace Runs

variable {first middle last : Place} {steps others : List Step}

theorem trans (runs : Runs step first steps middle) (rest : Runs step middle others last) :
    Runs step first (steps ++ others) last := by
  induction runs with
  | nil => exact rest
  | cons stepped notLast _ ih => exact .cons stepped notLast (ih rest)

/-- A run of some steps and then others passes through a place between them. -/
theorem exists_middle (runs : Runs step first (steps ++ others) last) :
    ∃ middle, Runs step first steps middle ∧ Runs step middle others last := by
  induction steps generalizing first with
  | nil => exact ⟨first, .nil first, runs⟩
  | cons done steps ih =>
      cases runs with
      | cons stepped notLast rest =>
          obtain ⟨middle, front, back⟩ := ih rest
          exact ⟨middle, .cons stepped notLast front, back⟩

/-- A run that has ended passes through every other run from the same place. -/
theorem passes {final : Place} {outcome : Option Refusal}
    (runs : Runs step first steps last) (ends : step last = (final, lastAnswer outcome))
    (other : Runs step first others middle) :
    ∃ more, steps = others ++ more ∧ Runs step middle more last := by
  induction other generalizing steps with
  | nil => exact ⟨steps, rfl, runs⟩
  | cons stepped notLast _ ih =>
      cases runs with
      | nil =>
          rw [stepped] at ends
          cases outcome with
          | none =>
              cases ends
              exact absurd rfl notLast
          | some refusal => cases ends
      | cons sameStep _ rest =>
          rw [stepped] at sameStep
          cases sameStep
          obtain ⟨more, equal, passed⟩ := ih rest
          exact ⟨more, congrArg _ equal, passed⟩

/-- What every step preserves holds at the end of a run. -/
theorem preserves {holds : Place → Prop}
    (stepPreserves : ∀ {place next : Place} {done : Step}, holds place →
      step place = (next, .ok done) → done ≠ .accept → holds next)
    (runs : Runs step first steps last) (initially : holds first) : holds last := by
  induction runs with
  | nil => exact initially
  | cons stepped notLast _ ih => exact ih (stepPreserves initially stepped notLast)

end Runs

/-- Answers are replaced step by step and refusal by refusal, and nothing but an acceptance
becomes one. -/
structure MapsAnswers (answer : Except Refusal Step → Except Refusal Step)
    (rename : Step → Step) (refuse : Refusal → Refusal) : Prop where
  ok : ∀ done, answer (.ok done) = .ok (rename done)
  error : ∀ refusal, answer (.error refusal) = .error (refuse refusal)
  accept_iff : ∀ done, rename done = .accept ↔ done = .accept

section Map

variable {Other : Type} {other : Other → Other × Except Refusal Step} {place : Place → Other}
  {answer : Except Refusal Step → Except Refusal Step} {rename : Step → Step}
  {refuse : Refusal → Refusal}

theorem MapsAnswers.lastAnswer (maps : MapsAnswers answer rename refuse)
    (outcome : Option Refusal) :
    answer (lastAnswer outcome) = ShiftReduce.lastAnswer (outcome.map refuse) := by
  cases outcome with
  | none => exact (maps.ok .accept).trans (congrArg _ ((maps.accept_iff .accept).mpr rfl))
  | some refusal => exact maps.error refusal

/-- A run maps to a run where every step does. -/
theorem Runs.map (maps : MapsAnswers answer rename refuse)
    (commutes : ∀ start, other (place start) = Prod.map place answer (step start))
    {first last : Place} {steps : List Step} (runs : Runs step first steps last) :
    Runs other (place first) (steps.map rename) (place last) := by
  induction runs with
  | nil first => exact .nil _
  | @cons first next last done steps stepped notLast _ ih =>
      refine .cons ?_ (mt (maps.accept_iff done).mp notLast) ih
      rw [commutes, stepped, Prod.map_apply, maps.ok]

end Map

/-- A place to which steps can lead, whatever they answer: one may go on after a refusal
and after accepting. -/
inductive Reached (step : Place → Place × Except Refusal Step) (start : Place) :
    Place → Prop where
  | refl : Reached step start start
  | tail {place : Place} : Reached step start place → Reached step start (step place).1

namespace Reached

variable {start place : Place}

/-- What every step preserves, whatever it answers, holds wherever steps lead. -/
theorem preserves (holds : Place → Prop)
    (stepPreserves : ∀ place, holds place → holds (step place).1)
    (reached : Reached step start place) (initially : holds start) : holds place := by
  induction reached with
  | refl => exact initially
  | tail _ ih => exact stepPreserves _ ih

theorem trans {later : Place} (reached : Reached step start place)
    (further : Reached step place later) : Reached step start later := by
  induction further with
  | refl => exact reached
  | tail _ ih => exact ih.tail

theorem of_runs {first last : Place} {steps : List Step} (reached : Reached step start first)
    (runs : Runs step first steps last) : Reached step start last := by
  induction runs with
  | nil => exact reached
  | cons stepped _ _ ih =>
      apply ih
      have next := reached.tail
      rw [stepped] at next
      exact next

end Reached

theorem lastAnswer_injective {outcome other : Option Refusal}
    (equal : lastAnswer outcome = lastAnswer other) : outcome = other := by
  cases outcome <;> cases other <;> cases equal <;> rfl

/-- Where a run ends is determined by where it begins. -/
theorem Runs.ends_eq {first last otherLast final otherFinal : Place} {steps others : List Step}
    {outcome other : Option Refusal}
    (runs : Runs step first steps last) (ended : step last = (final, lastAnswer outcome))
    (otherRuns : Runs step first others otherLast)
    (otherEnded : step otherLast = (otherFinal, lastAnswer other)) :
    steps = others ∧ last = otherLast := by
  obtain ⟨more, equal, passed⟩ := runs.passes ended otherRuns
  obtain ⟨rest, otherEqual, _⟩ := otherRuns.passes otherEnded runs
  have none : more = [] := by
    rw [otherEqual, List.append_assoc, List.self_eq_append_right, List.append_eq_nil_iff] at equal
    exact equal.2
  subst none
  cases passed
  exact ⟨by rw [equal, List.append_nil], rfl⟩

namespace Step

/-- The symbols that were shifted, in the order of the steps. -/
def shifted (steps : List Step) : List Symbol :=
  steps.filterMap fun
    | .shift symbol _ => some symbol
    | _ => none

/-- The productions that were reduced, in the order of the steps. -/
def reduced (steps : List Step) : List Nat :=
  steps.filterMap fun
    | .reduce production _ => some production
    | _ => none

@[simp] theorem shifted_nil : shifted [] = [] := rfl

@[simp] theorem shifted_append (steps others : List Step) :
    shifted (steps ++ others) = shifted steps ++ shifted others :=
  List.filterMap_append

@[simp] theorem shifted_reverse (steps : List Step) :
    shifted steps.reverse = (shifted steps).reverse :=
  List.filterMap_reverse

@[simp] theorem shifted_shift (symbol : Symbol) (state : Nat) (steps : List Step) :
    shifted (.shift symbol state :: steps) = symbol :: shifted steps := rfl

@[simp] theorem shifted_reduce (production state : Nat) (steps : List Step) :
    shifted (.reduce production state :: steps) = shifted steps := rfl

@[simp] theorem shifted_accept (steps : List Step) :
    shifted (.accept :: steps) = shifted steps := rfl

@[simp] theorem reduced_nil : reduced [] = [] := rfl

@[simp] theorem reduced_append (steps others : List Step) :
    reduced (steps ++ others) = reduced steps ++ reduced others :=
  List.filterMap_append

@[simp] theorem reduced_reverse (steps : List Step) :
    reduced steps.reverse = (reduced steps).reverse :=
  List.filterMap_reverse

@[simp] theorem reduced_shift (symbol : Symbol) (state : Nat) (steps : List Step) :
    reduced (.shift symbol state :: steps) = reduced steps := rfl

@[simp] theorem reduced_reduce (production state : Nat) (steps : List Step) :
    reduced (.reduce production state :: steps) = production :: reduced steps := rfl

@[simp] theorem reduced_accept (steps : List Step) :
    reduced (.accept :: steps) = reduced steps := rfl

end Step

namespace Configuration

variable {automaton : Automaton}

/-- What one step does, as long as nothing was accepted. -/
inductive Move (automaton : Automaton) (configuration : Configuration) :
    Configuration → Except Refusal Step → Prop where
  | refused {machine : Machine} {refusal : Refusal} :
      configuration.machine.step automaton = (machine, .error refusal) →
      Move automaton configuration { configuration with machine } (.error refusal)
  | shift {machine : Machine} {symbol : Symbol} {state : Nat} :
      configuration.machine.step automaton = (machine, .ok (.shift symbol state)) →
      Move automaton configuration (configuration.afterShift machine (.shift symbol state))
        (.ok (.shift symbol state))
  | reduce {machine : Machine} {production state : Nat} :
      configuration.machine.step automaton = (machine, .ok (.reduce production state)) →
      configuration.refuses automaton machine.states = false →
      Move automaton configuration
        (configuration.afterReduction machine (.reduce production state))
        (.ok (.reduce production state))
  | cycle {machine : Machine} {production state : Nat} :
      configuration.machine.step automaton = (machine, .ok (.reduce production state)) →
      configuration.refuses automaton machine.states = true →
      Move automaton configuration { configuration with machine }
        (.error (configuration.machine.refuse .epsilonCycle))
  | accept {machine : Machine} :
      configuration.machine.step automaton = (machine, .ok .accept) →
      Move automaton configuration
        { configuration with machine, done := .accept :: configuration.done } (.ok .accept)

theorem step_move {configuration next : Configuration} {answer : Except Refusal Step}
    (running : configuration.machine.accepted = false)
    (stepped : configuration.step automaton = (next, answer)) :
    configuration.Move automaton next answer := by
  simp only [Configuration.step] at stepped
  rw [running, if_neg Bool.false_ne_true] at stepped
  split at stepped
  next moved =>
    cases stepped
    exact .refused moved
  next moved =>
    cases stepped
    exact .shift moved
  next moved =>
    split at stepped
    next refused =>
      cases stepped
      exact .cycle moved refused
    next admitted =>
      cases stepped
      exact .reduce moved (Bool.eq_false_iff.mpr admitted)
  next moved =>
    cases stepped
    exact .accept moved

/-- A step that accepts leaves a machine that has accepted. -/
theorem accepted_of_step {machine next : Machine}
    (stepped : machine.step automaton = (next, .ok .accept)) : next.accepted = true := by
  simp only [Machine.step] at stepped
  split at stepped
  next accepted =>
    cases stepped
    exact accepted
  split at stepped
  · cases stepped
  split at stepped
  · cases stepped
  split at stepped
  · cases stepped
  split at stepped
  · simp only [Machine.accept] at stepped
    split at stepped
    · cases stepped
    · cases stepped
      rfl
  · simp only [Machine.reduce] at stepped
    split at stepped <;> cases stepped

/-- What is kept by every step that does not accept, even by a refused one, holds wherever
steps lead until one accepts. -/
theorem accepted_or_of_reached {input : List Symbol} {configuration : Configuration}
    (holds : Configuration → Prop)
    (kept : ∀ {place next answer}, holds place → place.machine.accepted = false →
      place.step automaton = (next, answer) → answer ≠ .ok .accept → holds next)
    (reached : Reached (Configuration.step automaton) (.start input) configuration)
    (initially : holds (.start input)) :
    configuration.machine.accepted = true ∨ holds configuration := by
  apply reached.preserves (fun place => place.machine.accepted = true ∨ holds place) _
    (.inr initially)
  intro place given
  cases running : place.machine.accepted with
  | true =>
      left
      rw [Configuration.step, if_pos running]
      exact running
  | false =>
      have held := given.resolve_left (by simp [running])
      cases stepped : place.step automaton with
      | mk next answer =>
          by_cases last : answer = .ok .accept
          · subst last
            cases step_move running stepped with
            | accept machineStepped => exact .inl (accepted_of_step machineStepped)
          · exact .inr (kept held running stepped last)

/-- A step that is neither refused nor the last is recorded. -/
theorem done_of_step {configuration next : Configuration} {done : Step}
    (stepped : configuration.step automaton = (next, .ok done)) (notLast : done ≠ .accept) :
    next.done = done :: configuration.done := by
  cases running : configuration.machine.accepted with
  | true =>
      rw [Configuration.step, if_pos running, Prod.mk.injEq, Except.ok.injEq] at stepped
      exact absurd stepped.2.symm notLast
  | false =>
      cases step_move running stepped with
      | shift _ => rfl
      | reduce _ _ => rfl
      | accept _ => exact absurd rfl notLast

/-- A refused step is not recorded. -/
theorem done_of_refused {configuration next : Configuration} {refusal : Refusal}
    (stepped : configuration.step automaton = (next, .error refusal)) :
    next.done = configuration.done := by
  cases running : configuration.machine.accepted with
  | true =>
      rw [Configuration.step, if_pos running] at stepped
      cases stepped
  | false =>
      cases step_move running stepped with
      | refused _ => rfl
      | cycle _ _ => rfl

/-- The step that accepts is recorded as the last one. -/
theorem steps_of_accept {configuration next : Configuration}
    (running : configuration.machine.accepted = false)
    (stepped : configuration.step automaton = (next, .ok .accept)) :
    next.steps = configuration.steps ++ [.accept] := by
  cases step_move running stepped with
  | accept _ => exact List.reverse_cons

theorem done_of_runs {configuration last : Configuration} {steps : List Step}
    (runs : Runs (Configuration.step automaton) configuration steps last) :
    last.done = steps.reverse ++ configuration.done := by
  induction runs with
  | nil => rfl
  | cons stepped notLast _ ih =>
      rw [ih, done_of_step stepped notLast, List.reverse_cons, List.append_assoc]
      rfl

/-- A configuration has recorded the steps of the run that led to it. -/
theorem steps_of_runs {input : List Symbol} {steps : List Step} {last : Configuration}
    (runs : Runs (Configuration.step automaton) (.start input) steps last) :
    last.steps = steps := by
  rw [Configuration.steps, done_of_runs runs]
  simp [start]

/-- A parse runs to its end. -/
theorem run_ends (configuration : Configuration)
    (within : configuration.machine.Within automaton) :
    ∃ steps last, Runs (Configuration.step automaton) configuration steps last ∧
      last.step automaton = ((run automaton configuration within).1,
        lastAnswer (run automaton configuration within).2) := by
  fun_induction run automaton configuration within with
  | case1 configuration within next refusal stepped =>
      exact ⟨[], configuration, .nil configuration, stepped⟩
  | case2 configuration within next stepped =>
      exact ⟨[], configuration, .nil configuration, stepped⟩
  | case3 configuration within next step stepped notLast progress ih =>
      obtain ⟨steps, last, runs, ended⟩ := ih
      exact ⟨step :: steps, last, .cons stepped notLast runs, ended⟩

end Configuration

namespace Automaton

/-- What a parse of an input yields is how the run from its beginning ends. -/
theorem runInput_eq {automaton : Automaton} {input : List Symbol} {steps : List Step}
    {last final : Configuration} {outcome : Option Refusal}
    (runs : Runs (Configuration.step automaton) (.start input) steps last)
    (ended : last.step automaton = (final, lastAnswer outcome)) :
    automaton.runInput input = (final, outcome) := by
  obtain ⟨others, otherLast, otherRuns, otherEnded⟩ :=
    Configuration.run_ends (.start input) (Machine.start_within automaton input)
  obtain ⟨rfl, rfl⟩ := runs.ends_eq ended otherRuns otherEnded
  rw [ended, Prod.mk.injEq] at otherEnded
  exact Prod.ext otherEnded.1.symm (lastAnswer_injective otherEnded.2).symm

/-- The parse of an input maps to that of another one where its beginning and every step do. -/
theorem runInput_map {first second : Automaton} {input other : List Symbol}
    {place : Configuration → Configuration}
    {answer : Except Refusal Step → Except Refusal Step} {rename : Step → Step}
    {refuse : Refusal → Refusal} (maps : MapsAnswers answer rename refuse)
    (commutes : ∀ configuration : Configuration,
      (place configuration).step second = Prod.map place answer (configuration.step first))
    (starts : place (.start input) = .start other) :
    second.runInput other = Prod.map place (Option.map refuse) (first.runInput input) := by
  obtain ⟨steps, last, runs, ended⟩ :=
    Configuration.run_ends (.start input) (Machine.start_within first input)
  have mapped := runs.map maps commutes
  rw [starts] at mapped
  apply runInput_eq mapped
  rw [commutes, ended, Prod.map_apply, maps.lastAnswer]

/-- A parse of symbols that may stand in an input reports how its run ends. -/
theorem parse_of_runs {automaton : Automaton} {input : List Symbol}
    (admitted : ∀ symbol ∈ input, automaton.grammar.dialect.admits symbol = true)
    {steps : List Step} {last final : Configuration} {outcome : Option Refusal}
    (runs : Runs (Configuration.step automaton) (.start input) steps last)
    (ended : last.step automaton = (final, lastAnswer outcome)) :
    automaton.parse input =
      match outcome with
      | none => .ok final.trace
      | some refusal => .error refusal.error := by
  have faultless : automaton.inputFault? input = none := by
    rw [inputFault?, Option.map_eq_none_iff, List.find?_eq_none]
    intro symbol member
    simp [admitted symbol member]
  rw [parse, faultless, runInput_eq runs ended]
  cases outcome <;> rfl

/-- A parse that succeeds has run until a step accepted. -/
theorem exists_run_of_parse {automaton : Automaton} {input : List Symbol} {trace : Trace}
    (parsed : automaton.parse input = .ok trace) :
    ∃ steps last final, Runs (Configuration.step automaton) (.start input) steps last ∧
      last.step automaton = (final, .ok .accept) ∧ trace = final.trace := by
  obtain ⟨steps, last, runs, ended⟩ :=
    Configuration.run_ends (.start input) (Machine.start_within automaton input)
  simp only [parse] at parsed
  split at parsed
  · cases parsed
  split at parsed
  · cases parsed
  next final result =>
    cases parsed
    have equal := runInput_eq runs ended
    rw [result, Prod.mk.injEq] at equal
    rw [← equal.1, ← equal.2] at ended
    exact ⟨steps, last, final, runs, ended, rfl⟩

/-- A parse that rejects has run over symbols that may stand in an input until a step
was refused. -/
theorem exists_run_of_rejected {automaton : Automaton} {input : List Symbol} {symbol : Symbol}
    {state : Nat} (parsed : automaton.parse input = .error (.rejected symbol state)) :
    (∀ other ∈ input, automaton.grammar.dialect.admits other = true) ∧
      ∃ steps last final refusal,
        Runs (Configuration.step automaton) (.start input) steps last ∧
          last.step automaton = (final, .error refusal) ∧
            automaton.runInput input = (final, some refusal) ∧
              refusal.symbol = symbol ∧ refusal.state = state := by
  obtain ⟨steps, last, runs, ended⟩ :=
    Configuration.run_ends (.start input) (Machine.start_within automaton input)
  simp only [parse] at parsed
  split at parsed
  next error fault =>
    obtain ⟨_, _, equal⟩ := Option.map_eq_some_iff.mp fault
    rw [← equal] at parsed
    cases parsed
  next faultless =>
  constructor
  · intro other member
    rw [inputFault?, Option.map_eq_none_iff, List.find?_eq_none] at faultless
    simpa using faultless other member
  split at parsed
  next final refusal result =>
    cases parsed
    have equal := runInput_eq runs ended
    rw [result, Prod.mk.injEq] at equal
    rw [← equal.1, ← equal.2] at ended
    exact ⟨steps, last, final, refusal, runs, ended, result, rfl, rfl⟩
  · cases parsed

end Automaton

end ShiftReduce
