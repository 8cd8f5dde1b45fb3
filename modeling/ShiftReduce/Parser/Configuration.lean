import ShiftReduce.Parser.Machine

/-!
# Parser configurations

A configuration is a machine with a guard and a record of what it did.  The guard
refuses a reduction that leads back to a stack of states met since the last
shift, and one that lets the stack grow, since the last shift, by more than the
number of states of the automaton.  Either of the two means that the machine
would reduce for ever without using input.
-/

namespace ShiftReduce

/-- How much a parse has done. -/
structure Statistics where
  tokens : Nat
  shifts : Nat
  reductions : Nat
  deriving DecidableEq, Repr

/-- A stack of states that was met, with its depth. Stacks of different depth are
told apart without a look at their states. -/
structure MetStack where
  depth : Nat
  states : List Nat
  deriving DecidableEq, Repr

def MetStack.ofStates (states : List Nat) : MetStack := ⟨states.length, states⟩

/-- A machine, its stack of states after the last shift, the stacks of states that
reductions have led to since then, and the steps done so far, the last one first. -/
structure Configuration where
  machine : Machine
  anchor : List Nat
  seen : List MetStack
  done : List Step
  statistics : Statistics
  deriving DecidableEq, Repr

namespace Configuration

/-- The depth of the stack of states after the last shift. -/
def base (configuration : Configuration) : Nat := configuration.anchor.length

/-- The steps done so far, in order. -/
def steps (configuration : Configuration) : List Step := configuration.done.reverse

/-- The beginning of a parse. The input is not checked: a symbol that cannot be
shifted is refused when it is reached. -/
def start (input : List Symbol) : Configuration where
  machine := .start input
  anchor := (Machine.start input).states
  seen := []
  done := []
  statistics := ⟨input.length, 0, 0⟩

/-- Whether the guard refuses a reduction that leads to these states. -/
def refuses (automaton : Automaton) (configuration : Configuration) (states : List Nat) : Bool :=
  configuration.base + automaton.size < states.length ||
    MetStack.ofStates states ∈ configuration.seen

/-- The configuration after a shift. -/
def afterShift (configuration : Configuration) (machine : Machine) (step : Step) :
    Configuration where
  machine
  anchor := machine.states
  seen := []
  done := step :: configuration.done
  statistics :=
    { configuration.statistics with shifts := configuration.statistics.shifts + 1 }

/-- The configuration after a reduction that the guard lets pass. -/
def afterReduction (configuration : Configuration) (machine : Machine) (step : Step) :
    Configuration where
  machine
  anchor := configuration.anchor
  seen := .ofStates machine.states :: configuration.seen
  done := step :: configuration.done
  statistics :=
    { configuration.statistics with reductions := configuration.statistics.reductions + 1 }

/-- One guarded step. A refused step is not recorded, but a refused reduction has
moved the stacks. -/
def step (automaton : Automaton) (configuration : Configuration) :
    Configuration × Except Refusal Step :=
  if configuration.machine.accepted then (configuration, .ok .accept)
  else
    match configuration.machine.step automaton with
    | (machine, .error refusal) => ({ configuration with machine }, .error refusal)
    | (machine, .ok (.shift symbol state)) =>
        (configuration.afterShift machine (.shift symbol state), .ok (.shift symbol state))
    | (machine, .ok (.reduce production state)) =>
        if configuration.refuses automaton machine.states then
          ({ configuration with machine },
            .error (configuration.machine.refuse .epsilonCycle))
        else
          (configuration.afterReduction machine (.reduce production state),
            .ok (.reduce production state))
    | (machine, .ok .accept) =>
        ({ configuration with machine, done := .accept :: configuration.done }, .ok .accept)

/-- The configurations before the next `count` steps, with what each step
answered and led to. -/
def history (automaton : Automaton) : Nat → Configuration →
    List (Configuration × Except Refusal Step × Configuration)
  | 0, _ => []
  | count + 1, configuration =>
      let (next, answer) := configuration.step automaton
      (configuration, answer, next) :: history automaton count next

end Configuration

end ShiftReduce
