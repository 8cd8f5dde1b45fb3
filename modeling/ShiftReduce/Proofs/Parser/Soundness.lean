import Mathlib
import ShiftReduce.Proofs.Grammar.Derivation
import ShiftReduce.Proofs.Parser.Moves
import ShiftReduce.Proofs.Parser.Runs

/-!
# Soundness of parsing

What is accepted is a sentence.  At every moment of a parse the reductions done so far,
the last one first, derive the symbols shifted so far from the stack of symbols; a step
that accepts finds the start symbol alone on that stack.  Nothing is assumed about
conflicts: whatever the parser chooses, what it has done is a derivation.  The whole of
Mathlib is there for the example: to evaluate a parse unfolds functions on characters and
lists by equations that Lean would otherwise add in this module.
-/

namespace ShiftReduce

/-- An input symbol is read as itself, or as the number terminal for which it may stand. -/
inductive Dialect.Reads (dialect : Dialect) (read : Symbol) : Symbol → Prop where
  | itself : Reads dialect read read
  | number : dialect.isNumber read.toChar = true → Reads dialect read dialect.numberTerminal

theorem Automaton.Shifts.reads {automaton : Automaton} {top target : Nat}
    {next symbol : Symbol} (shifts : automaton.Shifts top next symbol target) :
    automaton.grammar.dialect.Reads next symbol := by
  cases shifts with
  | literal _ _ => exact .itself
  | number _ number _ => exact .number number

namespace Configuration

variable {grammar : Grammar} {input : List Symbol} {configuration next : Configuration}

/-- The steps recorded so far derive what was shifted from what is on the stack, and the
statistics count them. -/
structure Justified (grammar : Grammar) (input : List Symbol) (configuration : Configuration) :
    Prop where
  derivation : ∃ stack, configuration.machine.Spells (.build grammar) stack ∧
    grammar.RightmostDerivation stack.reverse (Step.reduced configuration.done)
      (Step.shifted configuration.done).reverse
  reads : ∃ read, input = read ++ configuration.machine.remaining ∧
    List.Forall₂ grammar.dialect.Reads read (Step.shifted configuration.done).reverse
  terminal : ∀ symbol ∈ Step.shifted configuration.done, symbol.isTerminal = true
  unaccepted : Step.accept ∉ configuration.done
  tokens : configuration.statistics.tokens = input.length
  shifts : configuration.statistics.shifts = (Step.shifted configuration.done).length
  reductions : configuration.statistics.reductions = (Step.reduced configuration.done).length

theorem start_justified (grammar : Grammar) (input : List Symbol) :
    Justified grammar input (.start input) where
  derivation := ⟨[], Machine.start_spells _ input, .nil []⟩
  reads := ⟨[], rfl, .nil⟩
  terminal := fun _ member => absurd member List.not_mem_nil
  unaccepted := List.not_mem_nil
  tokens := rfl
  shifts := rfl
  reductions := rfl

namespace Justified

/-- A shifted symbol is put behind the stack and behind the shifted word at once. -/
theorem shift (wellFormed : grammar.WellFormed) (justified : Justified grammar input configuration)
    {stack rest : List Symbol} {read symbol : Symbol} {target : Nat}
    (spells : configuration.machine.Spells (.build grammar) stack)
    (derivation : grammar.RightmostDerivation stack.reverse (Step.reduced configuration.done)
      (Step.shifted configuration.done).reverse)
    (remaining : configuration.machine.remaining = read :: rest)
    (shifts : (Automaton.build grammar).Shifts configuration.machine.top read symbol target) :
    Justified grammar input
      (configuration.afterShift (configuration.machine.consume.push symbol target)
        (.shift symbol target)) := by
  have terminal := Symbol.isTerminal_of_isInput (shifts.isInput wellFormed)
  constructor
  · refine ⟨symbol :: stack, spells.shift shifts, ?_⟩
    have ground : Symbol.Ground [symbol] := by
      intro other member
      rw [List.mem_singleton.mp member]
      exact Symbol.not_isNonterminal_of_isTerminal terminal
    have extended := derivation.append_ground ground
    simpa [afterShift] using extended
  · obtain ⟨before, whole, reads⟩ := justified.reads
    refine ⟨before ++ [read], ?_, ?_⟩
    · rw [whole, remaining, List.append_assoc]
      simp [afterShift, Machine.push, Machine.consume, remaining]
    · simpa [afterShift] using List.rel_append reads (.cons shifts.reads .nil)
  · intro other member
    rcases List.mem_cons.mp member with rfl | member
    · exact terminal
    · exact justified.terminal other member
  · intro member
    rcases List.mem_cons.mp member with equal | member
    · cases equal
    · exact justified.unaccepted member
  · exact justified.tokens
  · exact congrArg (· + 1) justified.shifts
  · exact justified.reductions

/-- A reduction puts its production before the derivation. -/
theorem reduce (justified : Justified grammar input configuration)
    {right below : List Symbol} {left : Symbol} {production target : Nat}
    (spells : configuration.machine.Spells (.build grammar) (right.reverse ++ below))
    (derivation : grammar.RightmostDerivation (right.reverse ++ below).reverse
      (Step.reduced configuration.done) (Step.shifted configuration.done).reverse)
    (found : grammar.production? production = some ⟨left, right⟩)
    (moves : (Automaton.build grammar).goto (configuration.machine.pop right.length).top left =
      some target) :
    Justified grammar input
      (configuration.afterReduction ((configuration.machine.pop right.length).push left target)
        (.reduce production target)) := by
  constructor
  · refine ⟨left :: below, spells.reduce rfl moves, ?_⟩
    have rewritten := Grammar.RewritesLast.intro below.reverse [] found Symbol.ground_nil
    rw [List.reverse_append, List.reverse_reverse] at derivation
    rw [List.append_nil] at rewritten
    simpa [afterReduction] using Grammar.RightmostDerivation.cons rewritten derivation
  · exact justified.reads
  · exact justified.terminal
  · intro member
    rcases List.mem_cons.mp member with equal | member
    · cases equal
    · exact justified.unaccepted member
  · exact justified.tokens
  · exact justified.shifts
  · exact congrArg (· + 1) justified.reductions

/-- Every step that does not accept keeps the record justified. -/
theorem step (wellFormed : grammar.WellFormed) {done : Step}
    (justified : Justified grammar input configuration)
    (stepped : configuration.step (.build grammar) = (next, .ok done))
    (notLast : done ≠ .accept) : Justified grammar input next := by
  obtain ⟨stack, spells, derivation⟩ := justified.derivation
  cases step_move spells.running stepped with
  | shift machineStepped =>
      cases spells.step_move wellFormed machineStepped with
      | shift remaining shifts =>
          exact justified.shift wellFormed spells derivation remaining shifts
  | reduce machineStepped _ =>
      cases spells.step_move wellFormed machineStepped with
      | reduce _ _ _ production whole moves =>
          subst whole
          exact justified.reduce spells derivation production moves
  | accept _ => exact absurd rfl notLast

/-- A step accepts when the input is used up and the stack is the start symbol. -/
theorem accept (wellFormed : grammar.WellFormed)
    (justified : Justified grammar input configuration)
    (stepped : configuration.step (.build grammar) = (next, .ok .accept)) :
    configuration.machine.remaining = [] ∧
      grammar.RightmostDerivation [grammar.start] (Step.reduced configuration.done)
        (Step.shifted configuration.done).reverse ∧
      next.steps = configuration.steps ++ [.accept] ∧
      next.statistics = configuration.statistics := by
  obtain ⟨stack, spells, derivation⟩ := justified.derivation
  cases step_move spells.running stepped with
  | accept machineStepped =>
      cases spells.step_move wellFormed machineStepped with
      | accept remaining _ whole =>
          subst whole
          exact ⟨remaining, derivation, List.reverse_cons, rfl⟩

end Justified

theorem justified_of_runs (wellFormed : grammar.WellFormed) {steps : List Step}
    (runs : Runs (Configuration.step (.build grammar)) (.start input) steps configuration) :
    Justified grammar input configuration :=
  runs.preserves (fun justified stepped notLast => justified.step wellFormed stepped notLast)
    (start_justified grammar input)

end Configuration

open Step in
/-- An accepted parse ends with its only accepting step. It has shifted one symbol for
each symbol of the input, as which that symbol may be read, and its reductions, the last
one first, are a rightmost derivation of the shifted word. -/
theorem Automaton.parse_sound {grammar : Grammar} (loaded : grammar.Loaded)
    {input : List Symbol} {trace : Trace}
    (parsed : (Automaton.build grammar).parse input = .ok trace) :
    (∃ before, trace.steps = before ++ [.accept] ∧ Step.accept ∉ before) ∧
      (shifted trace.steps).length = input.length ∧
      trace.statistics.tokens = input.length ∧ trace.statistics.shifts = input.length ∧
      List.Forall₂ grammar.dialect.Reads input (shifted trace.steps) ∧
      grammar.RightmostDerivation [grammar.start] (reduced trace.steps).reverse
        (shifted trace.steps) ∧
      (reduced trace.steps).length = trace.statistics.reductions ∧
      grammar.Sentence (shifted trace.steps) := by
  have wellFormed := loaded.wellFormed
  obtain ⟨steps, last, final, runs, accepted, rfl⟩ := exists_run_of_parse parsed
  have justified : Configuration.Justified grammar input last :=
    runs.preserves (fun justified stepped notLast => justified.step wellFormed stepped notLast)
      (Configuration.start_justified grammar input)
  obtain ⟨remaining, derivation, stepsEqual, statistics⟩ := justified.accept wellFormed accepted
  have word : shifted final.steps = (shifted last.done).reverse := by
    rw [stepsEqual, Configuration.steps]
    simp
  have productions : reduced final.steps = (reduced last.done).reverse := by
    rw [stepsEqual, Configuration.steps]
    simp
  obtain ⟨read, whole, reads⟩ := justified.reads
  rw [remaining, List.append_nil] at whole
  subst whole
  have count : (shifted last.done).length = input.length := by
    rw [← List.length_reverse, reads.length_eq]
  simp only [Configuration.trace, word, productions, statistics, List.reverse_reverse,
    List.length_reverse]
  refine ⟨⟨last.steps, stepsEqual, ?_⟩, count, justified.tokens, justified.shifts.trans count,
    reads, derivation, justified.reductions.symm, derivation.derives, ?_⟩
  · rw [Configuration.steps, List.mem_reverse]
    exact justified.unaccepted
  · intro symbol member
    exact justified.terminal symbol (List.mem_reverse.mp member)

namespace Grammar

/-- Sums of numbers, `E -> E+n | n`, as the standard dialect loads them. -/
def sums : Grammar where
  dialect := .standard
  start := .ofChar 'E'
  productions := #[⟨.ofChar 'Y', [.ofChar 'E']⟩,
    ⟨.ofChar 'E', [.ofChar 'E', .ofChar '+', .ofChar 'n']⟩, ⟨.ofChar 'E', [.ofChar 'n']⟩]
  alternatives := [(.ofChar 'Y', [0]), (.ofChar 'E', [1, 2])]
  terminals := [.ofChar '+', .ofChar 'n', .endMarker]

theorem sums_loaded : Loaded sums := by
  have loads : ofRules .standard
      [(.ofChar 'E', [[.ofChar 'E', .ofChar '+', .ofChar 'n'], [.ofChar 'n']])] = .ok sums := rfl
  exact .rules loads

end Grammar

/-- The parse of a sum of two digits, and the derivation that it proves. -/
theorem Automaton.parse_sound_sums :
    ∃ trace, (build .sums).parse [.ofChar '1', .ofChar '+', .ofChar '2'] = .ok trace ∧
      trace.statistics = ⟨3, 3, 2⟩ ∧
      Grammar.sums.RightmostDerivation [.ofChar 'E'] [1, 2]
        [.ofChar 'n', .ofChar '+', .ofChar 'n'] := by
  have parsed : (build .sums).parse [.ofChar '1', .ofChar '+', .ofChar '2'] =
      .ok ⟨[.shift (.ofChar 'n') 2, .reduce 2 1, .shift (.ofChar '+') 3, .shift (.ofChar 'n') 4,
        .reduce 1 1, .accept], ⟨3, 3, 2⟩⟩ := by
    cbv
  have sound := parse_sound Grammar.sums_loaded parsed
  exact ⟨_, parsed, rfl, sound.2.2.2.2.2.1⟩

end ShiftReduce
