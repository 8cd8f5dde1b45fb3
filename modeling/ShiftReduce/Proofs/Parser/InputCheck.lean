import ShiftReduce.Proofs.Parser.Completeness
import ShiftReduce.Proofs.Parser.Stacks
import ShiftReduce.Proofs.Parser.ValidPrefix

/-!
# The check of an input

A parse looks through its input before the first step and refuses it for a symbol that may
not stand there.  The steps themselves do not rely on this.  They shift no symbol that the
check would refuse, even where a state has a transition on it, as it has on nonterminals;
and they accept only when no input is left, which the end marker within an input does not
feign.  Stepping through an unchecked input thus stops before the first symbol that the
check refuses.  Main statements: `Machine.Move.vetted`, for one step, and
`Automaton.parse_unchecked`.
-/

namespace ShiftReduce

variable {grammar : Grammar} {input : List Symbol}

/-- What is shifted may stand in an input. -/
theorem Automaton.Shifts.admits {automaton : Automaton} {top target : Nat} {next symbol : Symbol}
    (shifts : automaton.Shifts top next symbol target) :
    automaton.grammar.dialect.admits next = true := by
  rw [Dialect.admits]
  cases shifts with
  | literal isInput _ => simp [isInput]
  | number _ number _ => simp [number, Dialect.isPrintable_of_isNumber number]

namespace Machine

variable {machine next : Machine} {stack : List Symbol} {answer : Except Refusal Step}

/-- The machine has passed only symbols that may stand in an input, and it has accepted
only at the end. -/
structure Vetted (dialect : Dialect) (input : List Symbol) (machine : Machine) : Prop where
  passed : ∀ symbol ∈ input.take machine.position, dialect.admits symbol = true
  finished : machine.accepted = true → machine.remaining = []

/-- A shift passes the next symbol of the input, and nothing else passes any. -/
theorem Move.vetted {automaton : Automaton} (move : machine.Move automaton stack next answer)
    (reads : machine.Reads input) (vetted : machine.Vetted automaton.grammar.dialect input)
    (running : machine.accepted = false) : next.Vetted automaton.grammar.dialect input := by
  cases move with
  | @shift first symbol rest target remaining shifts =>
      have nextInput : input[machine.position]? = some first := by
        rw [← List.head?_drop, ← reads.remaining_eq, remaining, List.head?_cons]
      constructor
      · intro other member
        change other ∈ input.take (machine.position + 1) at member
        simp only [List.take_add_one, nextInput, Option.toList_some, List.mem_append,
          List.mem_singleton] at member
        cases member with
        | inl earlier => exact vetted.passed other earlier
        | inr last => exact last ▸ shifts.admits
      · intro accepted
        cases running.symm.trans accepted
  | reduce _ _ _ _ _ _ => exact ⟨vetted.passed, vetted.finished⟩
  | accept remaining _ _ => exact ⟨vetted.passed, fun _ => remaining⟩
  | inputLeft _ _ _ _ => exact vetted
  | noAction _ _ => exact vetted

/-- A machine that has passed only what may stand in an input stands before every symbol
that may not, and has not accepted. -/
theorem Vetted.before_refused {dialect : Dialect} (vetted : machine.Vetted dialect input)
    (reads : machine.Reads input) {read rest : List Symbol} {refused : Symbol}
    (whole : input = read ++ refused :: rest) (refuses : dialect.admits refused = false) :
    machine.position ≤ read.length ∧ machine.accepted = false := by
  have before : machine.position ≤ read.length := by
    by_contra beyond
    have passed : refused ∈ input.take machine.position := by
      rw [whole, List.take_append]
      apply List.mem_append_right
      rw [← Nat.sub_add_cancel (Nat.sub_pos_of_lt (Nat.lt_of_not_le beyond)),
        List.take_succ_cons]
      exact List.mem_cons_self
    rw [vetted.passed refused passed] at refuses
    cases refuses
  refine ⟨before, ?_⟩
  cases accepted : machine.accepted with
  | false => rfl
  | true =>
      have ended := reads.remaining_eq.symm.trans (vetted.finished accepted)
      rw [List.drop_eq_nil_iff, whole, List.length_append, List.length_cons] at ended
      omega

end Machine

namespace Configuration

variable {configuration : Configuration}

/-- A guarded step leaves the machine as a step of the bare machine does, whether or not the
guard refuses it. -/
theorem machine_step (automaton : Automaton) (configuration : Configuration) :
    (configuration.step automaton).1.machine = (configuration.machine.step automaton).1 := by
  rw [Configuration.step]
  split
  next accepted => rw [Machine.step, if_pos accepted]
  next =>
    split
    next stepped => rw [stepped]
    next stepped => rw [stepped]; rfl
    next stepped =>
      rw [stepped]
      split <;> rfl
    next stepped => rw [stepped]

theorem accepted_of_accepts {automaton : Automaton} {next : Configuration}
    (stepped : configuration.step automaton = (next, .ok .accept)) :
    next.machine.accepted = true := by
  cases running : configuration.machine.accepted with
  | true =>
      rw [Configuration.step, if_pos running] at stepped
      cases stepped
      exact running
  | false =>
      cases step_move running stepped with
      | accept machineStepped => exact accepted_of_step machineStepped

/-- Wherever steps lead over an unchecked input, only symbols that may stand in an input
were passed. -/
theorem vetted_of_reached (wellFormed : grammar.WellFormed)
    (reached : Reached (Configuration.step (.build grammar)) (.start input) configuration) :
    configuration.machine.Vetted grammar.dialect input ∧ configuration.machine.Reads input := by
  have both : Coherent grammar input configuration ∧
      configuration.machine.Vetted grammar.dialect input := by
    apply reached.preserves fun place =>
      Coherent grammar input place ∧ place.machine.Vetted grammar.dialect input
    · intro place given
      refine ⟨given.1.step wellFormed, ?_⟩
      rw [machine_step]
      cases accepted : place.machine.accepted with
      | true =>
          rw [Machine.step, if_pos accepted]
          exact given.2
      | false =>
          obtain ⟨stack, spells⟩ := given.1.exists_spells accepted
          exact (spells.step_move wellFormed rfl).vetted given.1.reads given.2 accepted
    · refine ⟨start_coherent grammar input, ?_, Bool.noConfusion⟩
      intro symbol member
      cases member
  exact ⟨both.2, both.1.reads⟩

end Configuration

namespace Automaton

/-- Stepping accepts only an input that the check lets pass. -/
theorem admits_of_accepted (wellFormed : grammar.WellFormed) {configuration : Configuration}
    (reached : Reached (Configuration.step (build grammar)) (.start input) configuration)
    (accepted : configuration.machine.accepted = true) :
    ∀ symbol ∈ input, grammar.dialect.admits symbol = true := by
  have checked := Configuration.vetted_of_reached wellFormed reached
  intro symbol member
  cases refuses : grammar.dialect.admits symbol with
  | true => rfl
  | false =>
      obtain ⟨read, rest, whole⟩ := List.append_of_mem member
      have running := (checked.1.before_refused checked.2 whole refuses).2
      cases running.symm.trans accepted

/-- A parse reports the first symbol that may not stand in its input. -/
theorem parse_eq_unknown {automaton : Automaton} {read rest : List Symbol} {refused : Symbol}
    (admitted : ∀ symbol ∈ read, automaton.grammar.dialect.admits symbol = true)
    (refuses : automaton.grammar.dialect.admits refused = false) :
    automaton.parse (read ++ refused :: rest) = .error (.unknown refused) := by
  have none : read.find? (!automaton.grammar.dialect.admits ·) = none := by
    rw [List.find?_eq_none]
    intro symbol member
    simp [admitted symbol member]
  simp [parse, inputFault?, none, refuses]

/-- The check of an input never changes what is accepted. A parse succeeds just if stepping
through the unchecked input comes to an accepting step, and then with the trace recorded
there. Where an input holds a symbol that may not stand there, no number of steps passes it
or accepts, whatever was answered on the way, and the parse reports the first such symbol.
The end marker is one: within an input it is never taken for the end. -/
theorem parse_unchecked (loaded : grammar.Loaded) (input : List Symbol) :
    (∀ trace, (build grammar).parse input = .ok trace ↔
      ∃ steps last final, Runs (Configuration.step (build grammar)) (.start input) steps last ∧
        last.step (build grammar) = (final, .ok .accept) ∧ trace = final.trace) ∧
      (∀ read refused rest, input = read ++ refused :: rest →
        grammar.dialect.admits refused = false →
          ((∀ symbol ∈ read, grammar.dialect.admits symbol = true) →
            (build grammar).parse input = .error (.unknown refused)) ∧
          ∀ configuration,
            Reached (Configuration.step (build grammar)) (.start input) configuration →
              configuration.machine.position ≤ read.length ∧
                configuration.machine.accepted = false) ∧
      ∀ read rest, input = read ++ Symbol.endMarker :: rest → ∀ configuration,
        Reached (Configuration.step (build grammar)) (.start input) configuration →
          configuration.machine.position ≤ read.length ∧
            configuration.machine.accepted = false := by
  have wellFormed := loaded.wellFormed
  have held : ∀ read refused rest, input = read ++ refused :: rest →
      grammar.dialect.admits refused = false → ∀ configuration,
        Reached (Configuration.step (build grammar)) (.start input) configuration →
          configuration.machine.position ≤ read.length ∧
            configuration.machine.accepted = false := by
    intro read refused rest whole refuses configuration reached
    have checked := Configuration.vetted_of_reached wellFormed reached
    exact checked.1.before_refused checked.2 whole refuses
  refine ⟨?_, ?_, ?_⟩
  · intro trace
    constructor
    · exact exists_run_of_parse
    · rintro ⟨steps, last, final, runs, ended, rfl⟩
      have reached := (Reached.refl.of_runs runs).tail
      rw [ended] at reached
      have accepted := Configuration.accepted_of_accepts ended
      have admitted := admits_of_accepted wellFormed reached accepted
      have outcome : last.step (build grammar) = (final, lastAnswer none) := ended
      exact parse_of_runs admitted runs outcome
  · intro read refused rest whole refuses
    refine ⟨?_, held read refused rest whole refuses⟩
    intro admitted
    rw [whole]
    exact parse_eq_unknown admitted refuses
  · intro read rest whole
    exact held read .endMarker rest whole (Dialect.admits_endMarker grammar.dialect)

/-- Without the check, a sum with an end marker in it is not accepted where the marker
stands, although what comes before it is a sum; and the nonterminal `E` is not shifted,
although the initial state has a transition on it. A sum without such symbols is accepted
either way. -/
theorem parse_unchecked_sums :
    (∃ trace steps last final, (build .sums).parse [.ofChar '1'] = .ok trace ∧
      Runs (Configuration.step (build .sums)) (.start [.ofChar '1']) steps last ∧
        last.step (build .sums) = (final, .ok .accept) ∧ trace = final.trace) ∧
      ((build .sums).goto 0 (.ofChar 'E') = some 1 ∧
        (build .sums).parse [.ofChar 'E', .ofChar '+'] = .error (.unknown (.ofChar 'E')) ∧
          ∀ configuration, Reached (Configuration.step (build .sums))
              (.start [.ofChar 'E', .ofChar '+']) configuration →
            configuration.machine.position ≤ 0 ∧ configuration.machine.accepted = false) ∧
      ∀ configuration, Reached (Configuration.step (build .sums))
          (.start [.ofChar '1', .endMarker, .ofChar '2']) configuration →
        configuration.machine.position ≤ 1 ∧ configuration.machine.accepted = false := by
  have number : (build .sums).parse [.ofChar '1'] =
      .ok ⟨[.shift (.ofChar 'n') 2, .reduce 2 1, .accept], ⟨1, 1, 1⟩⟩ := by
    cbv
  have moves : (build .sums).goto 0 (.ofChar 'E') = some 1 := by
    cbv
  obtain ⟨steps, last, final, runs, ended, same⟩ :=
    ((parse_unchecked Grammar.sums_loaded _).1 _).mp number
  have nonterminal := (parse_unchecked Grammar.sums_loaded [.ofChar 'E', .ofChar '+']).2.1 []
    (.ofChar 'E') [.ofChar '+'] rfl (by decide)
  have marker := (parse_unchecked Grammar.sums_loaded
    [.ofChar '1', .endMarker, .ofChar '2']).2.2 [.ofChar '1'] [.ofChar '2'] rfl
  exact ⟨⟨_, steps, last, final, number, runs, ended, same⟩,
    ⟨moves, nonterminal.1 (by simp), nonterminal.2⟩, marker⟩

end Automaton

end ShiftReduce
