import ShiftReduce.Proofs.Automaton.Canonical
import ShiftReduce.Proofs.Parser.Completeness
import ShiftReduce.Proofs.Parser.Stacks

/-!
# Numbers in inputs

A character of the number class stands for the number terminal unless it is a terminal of the
grammar itself.  States have transitions only on symbols of right-hand sides, so such a
character is never shifted as itself, whatever it looks like: a capital letter, the empty
symbol or a letter that the grammar does not know.  Steps thus do the same whether a number is
written out or as the number terminal, and only the symbol that a refusal reports tells one
from the other.  Main statement: `Automaton.parse_normalize`.
-/

namespace ShiftReduce

/-! ## Inputs with numbers written as the number terminal -/

/-- A character of the number class is written as the number terminal, except for the
terminals of the grammar. -/
def Grammar.normalize (grammar : Grammar) (symbol : Symbol) : Symbol :=
  if grammar.dialect.isNumber symbol.toChar = true ∧ symbol ∉ grammar.terminals then
    grammar.dialect.numberTerminal
  else symbol

section Normalize

variable (grammar : Grammar)

def Machine.normalize (machine : Machine) : Machine :=
  { machine with remaining := machine.remaining.map grammar.normalize }

def Configuration.normalize (configuration : Configuration) : Configuration :=
  { configuration with machine := configuration.machine.normalize grammar }

/-- A missing transition is reported with a left-hand side, which was not read. -/
def Refusal.normalize (refusal : Refusal) : Refusal :=
  match refusal.cause with
  | .noTransition => refusal
  | _ => { refusal with symbol := grammar.normalize refusal.symbol }

theorem Refusal.error_normalize (refusal : Refusal) (read : refusal.cause ≠ .noTransition) :
    (refusal.normalize grammar).error =
      .rejected (grammar.normalize refusal.symbol) refusal.state := by
  rw [normalize]
  split
  next missing => exact absurd missing read
  next => rfl

def normalizeAnswer : Except Refusal Step → Except Refusal Step
  | .ok step => .ok step
  | .error refusal => .error (refusal.normalize grammar)

end Normalize

variable {grammar : Grammar}

namespace Grammar

theorem normalize_endMarker : grammar.normalize Symbol.endMarker = Symbol.endMarker := by
  have number : grammar.dialect.isNumber Symbol.endMarker.toChar = false := by
    rw [Dialect.isNumber]
    cases grammar.dialect.numberClass <;> decide
  simp [normalize, number]

/-- What is written anew may stand in an input, and so may what it is written as. -/
theorem WellFormed.admits_normalize (wellFormed : grammar.WellFormed) (symbol : Symbol) :
    grammar.dialect.admits (grammar.normalize symbol) = grammar.dialect.admits symbol := by
  rw [normalize]
  split
  next given =>
    rw [Dialect.admits, Dialect.admits, wellFormed.numberTerminal_input, given.1,
      Dialect.isPrintable_of_isNumber given.1, Bool.true_or, Bool.and_self, Bool.or_true]
  next => rfl

/-- A symbol that may stand in no input is kept. -/
theorem normalize_of_admits_eq_false {symbol : Symbol}
    (refused : grammar.dialect.admits symbol = false) : grammar.normalize symbol = symbol := by
  rw [normalize, if_neg]
  intro given
  rw [Dialect.admits, given.1, Dialect.isPrintable_of_isNumber given.1, Bool.and_self,
    Bool.or_true] at refused
  cases refused

end Grammar

/-! ## Steps -/

namespace Automaton

/-- A transition on a symbol of inputs is a transition on a terminal of the grammar. -/
theorem mem_terminals_of_transition (wellFormed : grammar.WellFormed) {state : State}
    (member : state ∈ (build grammar).states) {symbol : Symbol} {target : Nat}
    (moves : state.transition symbol = some target) (input : symbol.isInput = true) :
    symbol ∈ grammar.terminals := by
  obtain ⟨item, _, behindDot⟩ := exists_expects member (transition_eq_some moves)
  obtain ⟨production, found, mentioned⟩ := Grammar.exists_production_of_symbolAtDot behindDot
  exact (wellFormed.mem_terminals symbol).mpr
    (.inr ⟨Symbol.isTerminal_of_isInput input, _, production, found, mentioned⟩)

end Automaton

namespace Machine

open Automaton (build)

variable (machine : Machine)

theorem next_normalize : (machine.normalize grammar).next = grammar.normalize machine.next := by
  simp only [next, normalize]
  cases machine.remaining with
  | nil => exact Grammar.normalize_endMarker.symm
  | cons symbol rest => rfl

/-- No cause but a missing transition is reported with another symbol than the next one. -/
theorem refuse_normalize (cause : RefusalCause) (read : cause ≠ .noTransition) :
    (machine.normalize grammar).refuse cause = (machine.refuse cause).normalize grammar := by
  rw [refuse, next_normalize]
  cases cause with
  | noTransition => exact absurd rfl read
  | noAction => rfl
  | inputLeft => rfl
  | epsilonCycle => rfl

/-- A number is shifted as the number terminal would be. -/
theorem shiftTarget?_normalize (wellFormed : grammar.WellFormed) {state : State}
    (member : state ∈ (build grammar).states) (next : Symbol) :
    shiftTarget? grammar.dialect state (grammar.normalize next) =
      shiftTarget? grammar.dialect state next := by
  rw [Grammar.normalize]
  split
  next given =>
    obtain ⟨number, foreign⟩ := given
    -- Even if it looks like a terminal, no state moves on what the grammar does not hold.
    have unmoved : (if next.isInput = true then state.transition next else none) = none := by
      split
      next input =>
        cases moves : state.transition next with
        | none => rfl
        | some target =>
            exact absurd
              (Automaton.mem_terminals_of_transition wellFormed member moves input) foreign
      next => rfl
    simp only [shiftTarget?, unmoved, number, wellFormed.numberTerminal_input, if_true]
    cases state.transition grammar.dialect.numberTerminal with
    | some target => rfl
    | none => simp
  next => rfl

theorem shift?_normalize (wellFormed : grammar.WellFormed) {state : State}
    (member : state ∈ (build grammar).states) :
    (machine.normalize grammar).shift? (build grammar) state =
      machine.shift? (build grammar) state := by
  simp only [shift?, normalize]
  cases machine.remaining with
  | nil => rfl
  | cons next rest => exact shiftTarget?_normalize wellFormed member next

theorem consume_normalize :
    (machine.normalize grammar).consume = machine.consume.normalize grammar := by
  simp [consume, normalize]

theorem accept_normalize (automaton : Automaton) (item : Item) :
    (machine.normalize grammar).accept automaton item =
      Prod.map (normalize grammar) (normalizeAnswer grammar) (machine.accept automaton item) := by
  have remaining : (machine.normalize grammar).remaining =
      machine.remaining.map grammar.normalize := rfl
  rw [accept, accept, remaining, refuse_normalize machine .inputLeft (by decide)]
  cases ended : machine.remaining with
  | cons next rest => rfl
  | nil => rfl

theorem reduce_normalize (automaton : Automaton) (item : Item) :
    (machine.normalize grammar).reduce automaton item =
      Prod.map (normalize grammar) (normalizeAnswer grammar) (machine.reduce automaton item) := by
  have popped : ∀ count,
      (machine.normalize grammar).pop count = (machine.pop count).normalize grammar :=
    fun _ => rfl
  have top : ∀ popped : Machine, (popped.normalize grammar).top = popped.top := fun _ => rfl
  simp only [reduce, popped, top]
  cases automaton.goto (machine.pop (automaton.grammar.right item.production).length).top
      item.origin with
  | none => rfl
  | some target => rfl

/-- A step is the same with numbers written as the number terminal. -/
theorem step_normalize (wellFormed : grammar.WellFormed) :
    (machine.normalize grammar).step (build grammar) =
      Prod.map (normalize grammar) (normalizeAnswer grammar) (machine.step (build grammar)) := by
  have accepted : (machine.normalize grammar).accepted = machine.accepted := rfl
  have top : (machine.normalize grammar).top = machine.top := rfl
  simp only [step, accepted, top, refuse_normalize machine .noAction (by decide)]
  cases machine.accepted with
  | true => rfl
  | false =>
  simp only [Bool.false_eq_true, if_false]
  cases found : (build grammar).state? machine.top with
  | none => rfl
  | some state =>
  have member : state ∈ (build grammar).states := List.mem_of_getElem? found
  simp only [shift?_normalize machine wellFormed member, consume_normalize]
  cases machine.shift? (build grammar) state with
  | some shifted => rfl
  | none =>
  cases state.items.reduceItem? (build grammar).grammar with
  | none => rfl
  | some item =>
      simp only
      split
      · exact accept_normalize machine (build grammar) item
      · exact reduce_normalize machine (build grammar) item

end Machine

namespace Configuration

open Automaton (build)

variable (configuration : Configuration)

/-- A guarded step is the same with numbers written as the number terminal, since the guard
looks at the states only. -/
theorem step_normalize (wellFormed : grammar.WellFormed) :
    (configuration.normalize grammar).step (build grammar) =
      Prod.map (normalize grammar) (normalizeAnswer grammar)
        (configuration.step (build grammar)) := by
  have accepted : (configuration.normalize grammar).machine.accepted =
      configuration.machine.accepted := rfl
  have machine : (configuration.normalize grammar).machine =
      configuration.machine.normalize grammar := rfl
  simp only [step, accepted]
  rw [machine, Machine.step_normalize _ wellFormed]
  cases configuration.machine.accepted with
  | true => rfl
  | false =>
  simp only [Bool.false_eq_true, if_false]
  cases configuration.machine.step (build grammar) with
  | mk next answer =>
  cases answer with
  | error refusal => rfl
  | ok done =>
  cases done with
  | shift symbol state => rfl
  | accept => rfl
  | reduce production state =>
      have refuses : (configuration.normalize grammar).refuses (build grammar)
          (next.normalize grammar).states =
            configuration.refuses (build grammar) next.states := rfl
      simp only [Prod.map_apply, normalizeAnswer, refuses,
        configuration.machine.refuse_normalize .epsilonCycle (by decide)]
      split <;> rfl

end Configuration

/-! ## Parses -/

theorem mapsAnswers_normalize (grammar : Grammar) :
    MapsAnswers (normalizeAnswer grammar) id (Refusal.normalize grammar) where
  ok _ := rfl
  error _ := rfl
  accept_iff _ := Iff.rfl

namespace Automaton

/-- The same symbol is the first that may not stand in the input. -/
theorem inputFault?_normalize (wellFormed : grammar.WellFormed) (input : List Symbol) :
    (build grammar).inputFault? (input.map grammar.normalize) =
      (build grammar).inputFault? input := by
  have faults : ∀ symbols, (build grammar).inputFault? symbols =
      (symbols.find? (!grammar.dialect.admits ·)).map Error.unknown := fun _ => rfl
  have admits : (!grammar.dialect.admits ·) ∘ grammar.normalize =
      (!grammar.dialect.admits ·) := by
    funext symbol
    rw [Function.comp_apply, wellFormed.admits_normalize]
  rw [faults, faults, List.find?_map, admits]
  cases found : input.find? (!grammar.dialect.admits ·) with
  | none => rfl
  | some symbol =>
      have refused : grammar.dialect.admits symbol = false := by
        simpa using List.find?_some found
      rw [Option.map_some, Grammar.normalize_of_admits_eq_false refused]

theorem runInput_normalize (wellFormed : grammar.WellFormed) (input : List Symbol) :
    (build grammar).runInput (input.map grammar.normalize) =
      Prod.map (Configuration.normalize grammar) (Option.map (Refusal.normalize grammar))
        ((build grammar).runInput input) := by
  apply runInput_map (mapsAnswers_normalize grammar)
  · intro configuration
    exact configuration.step_normalize wellFormed
  · simp [Configuration.normalize, Configuration.start, Machine.normalize, Machine.start]

/-- A parse never ends for want of a transition below a reduction. -/
theorem cause_ne_noTransition_of_runInput (wellFormed : grammar.WellFormed) {input : List Symbol}
    {final : Configuration} {refusal : Refusal}
    (ended : (build grammar).runInput input = (final, some refusal)) :
    refusal.cause ≠ .noTransition := by
  obtain ⟨steps, last, runs, stepped⟩ :=
    Configuration.run_ends (.start input) (Machine.start_within (build grammar) input)
  have coherent := Configuration.coherent_of_reached wellFormed (Reached.refl.of_runs runs)
  apply coherent.resolves wellFormed
  rw [stepped]
  change lastAnswer ((build grammar).runInput input).2 = .error refusal
  rw [ended]
  rfl

/-- An input parses as it does once its numbers, save those that are terminals of the grammar,
are written as the number terminal: both parses yield the same trace, or report the same symbol
that may not stand in an input, or reject in the same state after the same steps, and then the
symbol that the one reports is that of the other in the same writing. -/
theorem parse_normalize (loaded : grammar.Loaded) (input : List Symbol) :
    (∃ trace, (build grammar).parse input = .ok trace ∧
      (build grammar).parse (input.map grammar.normalize) = .ok trace) ∨
    (∃ symbol, (build grammar).parse input = .error (.unknown symbol) ∧
      (build grammar).parse (input.map grammar.normalize) = .error (.unknown symbol)) ∨
    ∃ symbol state, (build grammar).parse input = .error (.rejected symbol state) ∧
      (build grammar).parse (input.map grammar.normalize) =
        .error (.rejected (grammar.normalize symbol) state) ∧
      ((build grammar).runInput (input.map grammar.normalize)).1.trace =
        ((build grammar).runInput input).1.trace := by
  have wellFormed := loaded.wellFormed
  rw [parse, parse, inputFault?_normalize wellFormed, runInput_normalize wellFormed]
  cases reported : (build grammar).inputFault? input with
  | some error =>
      obtain ⟨symbol, _, rfl⟩ := Option.map_eq_some_iff.mp reported
      exact .inr (.inl ⟨symbol, rfl, rfl⟩)
  | none =>
  cases ended : (build grammar).runInput input with
  | mk final outcome =>
  cases outcome with
  | none => exact .inl ⟨final.trace, rfl, rfl⟩
  | some refusal =>
      have rejected := refusal.error_normalize grammar
        (cause_ne_noTransition_of_runInput wellFormed ended)
      exact .inr (.inr ⟨refusal.symbol, refusal.state, rfl, congrArg Except.error rejected, rfl⟩)

end Automaton

/-- Sums of numbers and of the letter `x`, `E -> E+n | n | x`, where letters are numbers too. -/
def Grammar.operands : Grammar where
  dialect := { Dialect.standard with numberClass := .alphanumeric }
  start := .ofChar 'E'
  productions := #[⟨.ofChar 'Y', [.ofChar 'E']⟩,
    ⟨.ofChar 'E', [.ofChar 'E', .ofChar '+', .ofChar 'n']⟩, ⟨.ofChar 'E', [.ofChar 'n']⟩,
    ⟨.ofChar 'E', [.ofChar 'x']⟩]
  alternatives := [(.ofChar 'Y', [0]), (.ofChar 'E', [1, 2, 3])]
  terminals := [.ofChar '+', .ofChar 'n', .ofChar 'x', .endMarker]

theorem Grammar.operands_loaded : Loaded operands := by
  have loads : ofRules { Dialect.standard with numberClass := .alphanumeric }
      [(.ofChar 'E', [[.ofChar 'E', .ofChar '+', .ofChar 'n'], [.ofChar 'n'], [.ofChar 'x']])] =
        .ok operands := rfl
  exact .rules loads

/-- The letter `x` is shifted as itself, and the nonterminal `E` and the empty symbol as
numbers; behind a number the empty symbol is rejected, and after its replacement the number
terminal. A blank may stand in neither input. -/
theorem Automaton.parse_normalize_operands :
    (∃ trace, (build .operands).parse [.ofChar 'x', .ofChar '+', .ofChar 'E'] = .ok trace ∧
      (build .operands).parse [.ofChar 'x', .ofChar '+', .ofChar 'n'] = .ok trace) ∧
    ((build .operands).parse [.ofChar 'a', .ofChar 'e'] = .error (.rejected (.ofChar 'e') 1) ∧
      (build .operands).parse [.ofChar 'n', .ofChar 'n'] = .error (.rejected (.ofChar 'n') 1) ∧
      ((build .operands).runInput [.ofChar 'n', .ofChar 'n']).1.trace =
        ((build .operands).runInput [.ofChar 'a', .ofChar 'e']).1.trace) ∧
    ((build .operands).parse [.ofChar '1', .ofChar ' '] = .error (.unknown (.ofChar ' ')) ∧
      (build .operands).parse [.ofChar 'n', .ofChar ' '] = .error (.unknown (.ofChar ' '))) := by
  have accepted := parse_normalize Grammar.operands_loaded
    [.ofChar 'x', .ofChar '+', .ofChar 'E']
  have rejected := parse_normalize Grammar.operands_loaded [.ofChar 'a', .ofChar 'e']
  have unknown := parse_normalize Grammar.operands_loaded [.ofChar '1', .ofChar ' ']
  have sum : (build .operands).parse [.ofChar 'x', .ofChar '+', .ofChar 'E'] =
      .ok ⟨[.shift (.ofChar 'x') 3, .reduce 3 1, .shift (.ofChar '+') 4, .shift (.ofChar 'n') 5,
        .reduce 1 1, .accept], ⟨3, 3, 2⟩⟩ := by
    cbv
  have pair : (build .operands).parse [.ofChar 'a', .ofChar 'e'] =
      .error (.rejected (.ofChar 'e') 1) := by
    cbv
  have blank : (build .operands).parse [.ofChar '1', .ofChar ' '] =
      .error (.unknown (.ofChar ' ')) := by
    cbv
  have sumNormalized : [.ofChar 'x', .ofChar '+', .ofChar 'E'].map Grammar.operands.normalize =
      [.ofChar 'x', .ofChar '+', .ofChar 'n'] := by
    decide
  have pairNormalized : [.ofChar 'a', .ofChar 'e'].map Grammar.operands.normalize =
      [.ofChar 'n', .ofChar 'n'] := by
    decide
  have blankNormalized : [.ofChar '1', .ofChar ' '].map Grammar.operands.normalize =
      [.ofChar 'n', .ofChar ' '] := by
    decide
  have emptyNormalized : Grammar.operands.normalize (.ofChar 'e') = .ofChar 'n' := by
    decide
  rw [sum, sumNormalized] at accepted
  rw [pair, pairNormalized] at rejected
  rw [blank, blankNormalized] at unknown
  simp only [Except.ok.injEq, Except.error.injEq, Error.rejected.injEq, Error.unknown,
    Error.unknownSymbol.injEq, reduceCtorEq, false_and, exists_false, false_or, or_false]
    at accepted rejected unknown
  obtain ⟨_, rfl, sumSame⟩ := accepted
  obtain ⟨_, _, ⟨rfl, rfl⟩, pairSame, trace⟩ := rejected
  obtain ⟨_, character, blankSame⟩ := unknown
  rw [emptyNormalized] at pairSame
  rw [← character] at blankSame
  exact ⟨⟨_, sum, sumSame⟩, ⟨pair, pairSame, trace⟩, blank, blankSame⟩

end ShiftReduce
