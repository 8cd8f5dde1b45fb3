import ShiftReduce.Proofs.Parser.Guard
import ShiftReduce.Proofs.Parser.Soundness

/-!
# Refusals are final

Nothing that was refused is accepted later, however often one steps on.  A refusal outside
the guard leaves everything as it was, so it is repeated.  A refusal by the guard has moved
the stacks, and later steps may even be let pass, but the machine reduces for ever from
there: it neither shifts nor accepts.  What a configuration remembers stays true of the
moved stacks, which is why the guard is right again wherever stepping on leads.
Main statements: `Configuration.Tracks.of_refused` and `Automaton.refusal_final`.
-/

namespace ShiftReduce

variable {grammar : Grammar} {input : List Symbol}

namespace Configuration

variable {configuration next : Configuration} {refusal : Refusal} {answer : Except Refusal Step}

/-- A refused step keeps what the configuration remembers true, since the stacks stay as
they are or are those that the refused reduction leads to. -/
theorem Tracks.of_refused (wellFormed : grammar.WellFormed) (tracks : Tracks grammar configuration)
    (stepped : configuration.step (.build grammar) = (next, .error refusal)) :
    Tracks grammar next := by
  obtain ⟨stack, spells⟩ := tracks.spells
  cases step_move tracks.running stepped with
  | refused machineStepped =>
      obtain ⟨rfl, _⟩ := (spells.step_move wellFormed machineStepped).refusal_eq
      exact tracks
  | @cycle machine _ _ machineStepped _ =>
      obtain ⟨reduces, sameInput, nextSpells⟩ := spells.reduces wellFormed machineStepped
      refine ⟨nextSpells, ?_, ?_⟩
      · change Relation.ReflTransGen (Reduces _ machine.remaining) configuration.anchor _
        rw [sameInput]
        exact tracks.anchored.tail reduces
      · intro met member
        change Relation.ReflTransGen (Reduces _ machine.remaining) met.states _
        rw [sameInput]
        exact (tracks.met met member).tail reduces

theorem accepted_or_tracks (wellFormed : grammar.WellFormed)
    (reached : Reached (Configuration.step (.build grammar)) (.start input) configuration) :
    configuration.machine.accepted = true ∨ Tracks grammar configuration := by
  apply accepted_or_of_reached (Tracks grammar) _ reached (start_tracks grammar input)
  intro place next answer tracks _ stepped notLast
  cases answer with
  | error refusal => exact tracks.of_refused wellFormed stepped
  | ok done =>
      apply (tracks.step wellFormed stepped _).2
      rintro rfl
      exact notLast rfl

/-- A configuration whose machine reduces for ever. -/
structure Doomed (grammar : Grammar) (configuration : Configuration) : Prop where
  tracks : Tracks grammar configuration
  forever : configuration.machine.ReducesForever (.build grammar)

/-- A doomed configuration reduces or is refused by its guard, and it stays doomed. It
neither shifts nor accepts. -/
theorem Doomed.step (wellFormed : grammar.WellFormed) (doomed : Doomed grammar configuration)
    (stepped : configuration.step (.build grammar) = (next, answer)) :
    Doomed grammar next ∧ next.machine.position = configuration.machine.position ∧
      next.statistics.shifts = configuration.statistics.shifts ∧
        answer ≠ .ok .accept ∧ ∀ symbol state, answer ≠ .ok (.shift symbol state) := by
  obtain ⟨stack, spells⟩ := doomed.tracks.spells
  have position : ∀ {machine production target}, configuration.machine.step (.build grammar) =
      (machine, .ok (.reduce production target)) →
        machine.position = configuration.machine.position := by
    intro machine production target reduced
    cases spells.step_move wellFormed reduced with
    | reduce _ _ _ _ _ _ => rfl
  cases step_move spells.running stepped with
  | refused machineStepped => exact absurd machineStepped (doomed.forever.not_ends (some _))
  | shift machineStepped =>
      obtain ⟨⟨_, _, equal⟩, _⟩ := doomed.forever.step machineStepped
      cases equal
  | accept machineStepped => exact absurd machineStepped (doomed.forever.not_ends none)
  | reduce machineStepped _ =>
      refine ⟨⟨(doomed.tracks.step wellFormed stepped Step.noConfusion).2,
        (doomed.forever.step machineStepped).2⟩, position machineStepped, rfl, ?_, ?_⟩ <;> simp
  | cycle machineStepped _ =>
      refine ⟨⟨doomed.tracks.of_refused wellFormed stepped,
        (doomed.forever.step machineStepped).2⟩, position machineStepped, rfl, ?_, ?_⟩ <;> simp

/-- Whatever steps lead to from a doomed configuration is doomed, at the same place in the
input. -/
theorem Doomed.of_reached (wellFormed : grammar.WellFormed) (doomed : Doomed grammar configuration)
    (reached : Reached (Configuration.step (.build grammar)) configuration next) :
    Doomed grammar next ∧ next.machine.position = configuration.machine.position ∧
      next.statistics.shifts = configuration.statistics.shifts := by
  apply reached.preserves (fun place => Doomed grammar place ∧
    place.machine.position = configuration.machine.position ∧
      place.statistics.shifts = configuration.statistics.shifts) _ ⟨doomed, rfl, rfl⟩
  rintro place ⟨placeDoomed, position, shifts⟩
  obtain ⟨nextDoomed, samePosition, sameShifts, _⟩ := placeDoomed.step wellFormed rfl
  exact ⟨nextDoomed, samePosition.trans position, sameShifts.trans shifts⟩

/-- A step that is refused outside the guard changes nothing. -/
theorem Tracks.eq_of_refused (wellFormed : grammar.WellFormed)
    (tracks : Tracks grammar configuration)
    (stepped : configuration.step (.build grammar) = (next, .error refusal))
    (unguarded : refusal.cause ≠ .epsilonCycle) : next = configuration := by
  obtain ⟨stack, spells⟩ := tracks.spells
  cases step_move tracks.running stepped with
  | refused machineStepped =>
      obtain ⟨rfl, _⟩ := (spells.step_move wellFormed machineStepped).refusal_eq
      rfl
  | cycle _ _ => exact absurd rfl unguarded

/-- A step that leads back to its place leads nowhere else, however often it is made. -/
theorem eq_of_reached {automaton : Automaton}
    (fixed : (configuration.step automaton).1 = configuration)
    (reached : Reached (Configuration.step automaton) configuration next) :
    next = configuration := by
  apply reached.preserves (· = configuration) _ rfl
  rintro place rfl
  exact fixed

end Configuration

/-- A refusal is final. Wherever one steps on to from a refused step, nothing is accepted,
the place in the input and the count of shifts are as they were, and the next step neither
shifts nor accepts. If it was not the guard that refused, stepping on changes nothing at all
and is refused for the same reason each time. -/
theorem Automaton.refusal_final (loaded : grammar.Loaded)
    {configuration next : Configuration} {refusal : Refusal}
    (reached : Reached (Configuration.step (build grammar)) (.start input) configuration)
    (refused : configuration.step (build grammar) = (next, .error refusal)) :
    (∀ later, Reached (Configuration.step (build grammar)) next later →
        later.machine.accepted = false ∧
          later.machine.position = configuration.machine.position ∧
            later.statistics.shifts = configuration.statistics.shifts ∧
              (later.step (build grammar)).2 ≠ .ok .accept ∧
                ∀ symbol state, (later.step (build grammar)).2 ≠ .ok (.shift symbol state)) ∧
      (refusal.cause ≠ .epsilonCycle →
        ∀ later, Reached (Configuration.step (build grammar)) next later →
          later = configuration ∧ later.step (build grammar) = (later, .error refusal)) := by
  have wellFormed := loaded.wellFormed
  have tracks : Configuration.Tracks grammar configuration := by
    rcases Configuration.accepted_or_tracks wellFormed reached with accepted | tracks
    · rw [Configuration.step, if_pos accepted] at refused
      cases refused
    · exact tracks
  have repeated : refusal.cause ≠ .epsilonCycle →
      ∀ later, Reached (Configuration.step (build grammar)) next later →
        later = configuration ∧ later.step (build grammar) = (later, .error refusal) := by
    intro unguarded later further
    have unmoved := tracks.eq_of_refused wellFormed refused unguarded
    subst unmoved
    have fixed : (next.step (build grammar)).1 = next := congrArg Prod.fst refused
    have same := Configuration.eq_of_reached fixed further
    subst same
    exact ⟨rfl, refused⟩
  refine ⟨?_, repeated⟩
  intro later further
  by_cases cause : refusal.cause = .epsilonCycle
  · -- already where the guard refuses, the machine reduces for ever
    have doomed : Configuration.Doomed grammar configuration :=
      ⟨tracks, (tracks.forever_of_cycle wellFormed refused cause).1⟩
    have first : Reached (Configuration.step (build grammar)) configuration next := by
      have moved : Reached (Configuration.step (build grammar)) configuration
          (configuration.step (build grammar)).1 := Reached.refl.tail
      rw [refused] at moved
      exact moved
    obtain ⟨laterDoomed, position, shifts⟩ := doomed.of_reached wellFormed (first.trans further)
    obtain ⟨_, _, _, notAccept, notShift⟩ := laterDoomed.step wellFormed rfl
    exact ⟨laterDoomed.tracks.running, position, shifts, notAccept, notShift⟩
  · obtain ⟨rfl, again⟩ := repeated cause later further
    rw [again]
    exact ⟨tracks.running, rfl, rfl, by simp, by simp⟩

/-- A grammar whose machine puts pairs on the stack and takes them off again without end,
`S -> CS | b` with `C -> AB` and the empty sequence for `A` and for `B`. -/
def Grammar.pairing : Grammar where
  dialect := .standard
  start := .ofChar 'S'
  productions := #[⟨.ofChar 'Y', [.ofChar 'S']⟩, ⟨.ofChar 'S', [.ofChar 'C', .ofChar 'S']⟩,
    ⟨.ofChar 'S', [.ofChar 'b']⟩, ⟨.ofChar 'C', [.ofChar 'A', .ofChar 'B']⟩, ⟨.ofChar 'A', []⟩,
    ⟨.ofChar 'B', []⟩]
  alternatives := [(.ofChar 'Y', [0]), (.ofChar 'S', [1, 2]), (.ofChar 'C', [3]),
    (.ofChar 'A', [4]), (.ofChar 'B', [5])]
  terminals := [.ofChar 'b', .endMarker]

theorem Grammar.pairing_loaded : Loaded pairing := by
  have loads : ofRules .standard [(.ofChar 'S', [[.ofChar 'C', .ofChar 'S'], [.ofChar 'b']]),
      (.ofChar 'C', [[.ofChar 'A', .ofChar 'B']]), (.ofChar 'A', [[]]), (.ofChar 'B', [[]])] =
        .ok pairing := rfl
  exact .rules loads

/-- Without input the pairing machine is refused when its stack has grown too far, and its
next step takes a pair off and is let pass; nothing is shifted or accepted from there. A
sum that begins with a plus sign is refused at once, and again each time. -/
theorem Automaton.refusal_final_pairing :
    (∃ configuration next refusal,
        Reached (Configuration.step (build .pairing)) (.start []) configuration ∧
          configuration.step (build .pairing) = (next, .error refusal) ∧
            (next.step (build .pairing)).2 = .ok (.reduce 3 2) ∧
              ∀ later, Reached (Configuration.step (build .pairing)) next later →
                later.machine.accepted = false ∧
                  later.machine.position = configuration.machine.position ∧
                    later.statistics.shifts = configuration.statistics.shifts ∧
                      (later.step (build .pairing)).2 ≠ .ok .accept ∧
                        ∀ symbol state,
                          (later.step (build .pairing)).2 ≠ .ok (.shift symbol state)) ∧
      (Configuration.start [.ofChar '+']).step (build .sums) =
          (.start [.ofChar '+'], .error ⟨.noAction, .ofChar '+', 0⟩) ∧
        ∀ later, Reached (Configuration.step (build .sums)) (.start [.ofChar '+']) later →
          later = .start [.ofChar '+'] ∧
            later.step (build .sums) = (later, .error ⟨.noAction, .ofChar '+', 0⟩) := by
  obtain ⟨steps, last, runs, ended⟩ :=
    Configuration.run_ends (.start []) (Machine.start_within (build .pairing) [])
  have outcome : ((build .pairing).runInput []).2 = some ⟨.epsilonCycle, .endMarker, 4⟩ := by
    cbv
  have again : (((build .pairing).runInput []).1.step (build .pairing)).2 =
      .ok (.reduce 3 2) := by
    cbv
  have refused : (Configuration.start [.ofChar '+']).step (build .sums) =
      (.start [.ofChar '+'], .error ⟨.noAction, .ofChar '+', 0⟩) := by
    cbv
  change last.step (build .pairing) = (_, lastAnswer ((build .pairing).runInput []).2) at ended
  rw [outcome] at ended
  have reached := Reached.refl.of_runs runs
  exact ⟨⟨last, _, _, reached, ended, again,
      (refusal_final Grammar.pairing_loaded reached ended).1⟩,
    refused, (refusal_final Grammar.sums_loaded .refl refused).2 RefusalCause.noConfusion⟩

end ShiftReduce
