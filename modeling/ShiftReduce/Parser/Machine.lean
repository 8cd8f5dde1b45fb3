import ShiftReduce.Automaton.Basic

/-!
# The shift-reduce machine

A machine follows an automaton over an input with a stack of symbols and a stack
of states.  It shifts if it can, else it reduces by the first completed item of
its state, and it accepts when the completed item is the augmented one and the
input is used up.  Nothing bounds the reductions of the bare machine between two
shifts.
-/

namespace ShiftReduce

/-- What one step of a parse did. -/
inductive Step where
  /-- A symbol was shifted, which led to a state. -/
  | shift (symbol : Symbol) (state : Nat)
  /-- A production was reduced, and its left-hand side led to a state. -/
  | reduce (production : Nat) (state : Nat)
  | accept
  deriving DecidableEq, Repr

/-- Why a step was refused. -/
inductive RefusalCause where
  /-- The state can neither shift the next symbol nor reduce. -/
  | noAction
  /-- The state accepts, but the input goes on. -/
  | inputLeft
  /-- The state below a reduction has no transition on its left-hand side. -/
  | noTransition
  /-- Reductions have begun to repeat without using input. -/
  | epsilonCycle
  deriving DecidableEq, Repr

/-- A refused step: the symbol that could not be accepted, and in which state. -/
structure Refusal where
  cause : RefusalCause
  symbol : Symbol
  state : Nat
  deriving DecidableEq, Repr

/-- The stacks, whose top is their first element, and the input that is left. -/
structure Machine where
  symbols : List Symbol
  states : List Nat
  remaining : List Symbol
  position : Nat
  accepted : Bool
  deriving DecidableEq, Repr

namespace Machine

/-- A machine in the initial state, with the end marker at the bottom. -/
def start (input : List Symbol) : Machine where
  symbols := [Symbol.endMarker]
  states := [0]
  remaining := input
  position := 0
  accepted := false

/-- The state on top of the stack. -/
def top (machine : Machine) : Nat := machine.states.headD 0

/-- The next symbol of the input, which the end marker closes. -/
def next (machine : Machine) : Symbol := machine.remaining.headD Symbol.endMarker

/-- A refusal of the next symbol in the present state. -/
def refuse (machine : Machine) (cause : RefusalCause) : Refusal :=
  ⟨cause, machine.next, machine.top⟩

/-- As which symbol, and to which state, the next input symbol is shifted. A
terminal is shifted as itself if the state has a transition on it; otherwise a
character of the number class is shifted as the number terminal. -/
def shiftTarget? (dialect : Dialect) (state : State) (next : Symbol) : Option (Symbol × Nat) :=
  let literal := if next.isInput then state.transition next else none
  match literal with
  | some target => some (next, target)
  | none =>
      if dialect.isNumber next.toChar then
        (state.transition dialect.numberTerminal).map (dialect.numberTerminal, ·)
      else none

/-- Remove the topmost entries of both stacks. -/
def pop (machine : Machine) (count : Nat) : Machine :=
  { machine with
    symbols := machine.symbols.drop count
    states := machine.states.drop count }

/-- Put a symbol and the state that it leads to on the stacks. -/
def push (machine : Machine) (symbol : Symbol) (target : Nat) : Machine :=
  { machine with
    symbols := symbol :: machine.symbols
    states := target :: machine.states }

/-- Put a symbol on its stack that leads to no state. -/
def pushSymbol (machine : Machine) (symbol : Symbol) : Machine :=
  { machine with symbols := symbol :: machine.symbols }

/-- Move on from the first symbol of the remaining input. -/
def consume (machine : Machine) : Machine :=
  { machine with remaining := machine.remaining.tail, position := machine.position + 1 }

/-- Accept by the augmented production, unless input is left. The augmented start
is put on the stack of symbols and leads to no state. -/
def accept (automaton : Automaton) (machine : Machine) (item : Item) :
    Machine × Except Refusal Step :=
  match machine.remaining with
  | _ :: _ => (machine, .error (machine.refuse .inputLeft))
  | [] =>
      let popped := machine.pop (automaton.grammar.right item.production).length
      ({ popped.pushSymbol item.origin with accepted := true }, .ok .accept)

/-- Reduce by a completed item: take its right-hand side off the stacks and move
on its origin. -/
def reduce (automaton : Automaton) (machine : Machine) (item : Item) :
    Machine × Except Refusal Step :=
  let popped := machine.pop (automaton.grammar.right item.production).length
  match automaton.goto popped.top item.origin with
  | some target => (popped.push item.origin target, .ok (.reduce item.production target))
  | none => (popped.pushSymbol item.origin, .error ⟨.noTransition, item.origin, popped.top⟩)

/-- How the next symbol is shifted in the present state, unless the input is used up. -/
def shift? (automaton : Automaton) (machine : Machine) (state : State) : Option (Symbol × Nat) :=
  match machine.remaining with
  | [] => none
  | next :: _ => shiftTarget? automaton.grammar.dialect state next

/-- One step of the machine. A machine that has accepted stays as it is. -/
def step (automaton : Automaton) (machine : Machine) : Machine × Except Refusal Step :=
  if machine.accepted then (machine, .ok .accept)
  else
    match automaton.state? machine.top with
    | none => (machine, .error (machine.refuse .noAction))
    | some state =>
      match machine.shift? automaton state with
      | some (symbol, target) => (machine.consume.push symbol target, .ok (.shift symbol target))
      | none =>
        match state.items.reduceItem? automaton.grammar with
        | none => (machine, .error (machine.refuse .noAction))
        | some item =>
          if item.production = Grammar.augmentedProduction then machine.accept automaton item
          else machine.reduce automaton item

/-- The texts of symbols with the states beside them. A symbol may have no state. -/
def entryTexts : List Symbol → List Nat → List String
  | [], _ => []
  | symbol :: symbols, [] => s!"<?> {symbol.text}  " :: entryTexts symbols []
  | symbol :: symbols, state :: states =>
      s!"<{state}> {symbol.text}  " :: entryTexts symbols states

/-- The stacks, from the bottom up, and the input that is left. -/
def text (machine : Machine) : String :=
  String.join (entryTexts machine.symbols.reverse machine.states.reverse) ++
    "<-  " ++ Symbol.textOf (machine.remaining ++ [Symbol.endMarker])

end Machine

end ShiftReduce
