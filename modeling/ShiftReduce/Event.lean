import ShiftReduce.Automaton.Build
import ShiftReduce.Automaton.Conflict
import ShiftReduce.Grammar.Source
import ShiftReduce.Parser.Run
import ShiftReduce.Recognizer

/-!
# Events

Loading a grammar, building its automaton and parsing can be followed as
sequences of events.  The events are read off the finished objects: the automaton
shows in which order its states were found, and a parse is retold from its
configurations.
-/

namespace ShiftReduce

/-- How much an event matters, the most severe level first. -/
inductive Level where
  | error
  | warn
  | debug
  | trace
  deriving DecidableEq, Repr

namespace Level

def severity : Level → Nat
  | .error => 0
  | .warn => 1
  | .debug => 2
  | .trace => 3

def name : Level → String
  | .error => "ERROR"
  | .warn => "WARN"
  | .debug => "DEBUG"
  | .trace => "TRACE"

end Level

/-- What can be reported while a grammar, an automaton or a parse comes about. -/
inductive Event where
  | grammarLoaded (productions nonterminals terminals : Nat) (start : Symbol)
  | duplicateDropped (line : Nat) (left : Symbol)
  | closureComputed (kernel items : Nat)
  | stateFound (state items : Nat)
  | transitionRecorded (source : Nat) (symbol : Symbol) (target : Nat)
  | conflictFound (state : Nat) (description : String)
  | automatonBuilt (states : Nat)
  | stacks (machine : Machine)
  | stepDone (step : Step)
  | accepted
  | rejected (error : Error)
  | cycleFound (position : Nat)
  | transitionMissing (symbol : Symbol) (state : Nat)
  deriving DecidableEq, Repr

/-- A step written as a record of its fields. -/
def Step.record : Step → String
  | .shift symbol state =>
      s!"Shift \x7b symbol: {Text.quoteChar symbol.toChar}, state: {state} \x7d"
  | .reduce production state => s!"Reduce \x7b production: {production}, state: {state} \x7d"
  | .accept => "Accept"

namespace Event

def level : Event → Level
  | .grammarLoaded .. => .debug
  | .duplicateDropped .. => .warn
  | .closureComputed .. => .trace
  | .stateFound .. => .debug
  | .transitionRecorded .. => .debug
  | .conflictFound .. => .warn
  | .automatonBuilt _ => .debug
  | .stacks _ => .trace
  | .stepDone _ => .trace
  | .accepted => .trace
  | .rejected _ => .debug
  | .cycleFound _ => .debug
  | .transitionMissing .. => .error

def message : Event → String
  | .grammarLoaded productions nonterminals terminals start =>
      s!"grammar: {productions} productions, {nonterminals} nonterminals, " ++
        s!"{terminals} terminals, start {start.text}"
  | .duplicateDropped line left => s!"line {line}: dropping duplicate alternative of {left.text}"
  | .closureComputed kernel items => s!"closure: {kernel} kernel items -> {items} items"
  | .stateFound state items => s!"state {state}: {items} items"
  | .transitionRecorded source symbol target => s!"transition {source} --{symbol.text}--> {target}"
  | .conflictFound state description => s!"state {state}: {description}"
  | .automatonBuilt states => s!"automaton: {states} states"
  | .stacks machine => machine.text
  | .stepDone step => step.record
  | .accepted => "Accept"
  | .rejected error => s!"rejected: {error.message}"
  | .cycleFound position => s!"epsilon cycle at position {position}"
  | .transitionMissing symbol state => s!"no transition on {symbol.text} from state {state}"

/-- An event as a line of a log. -/
def text (event : Event) : String := event.level.name ++ " " ++ event.message

/-- Whether a log of the given level shows the event. -/
def isShown (level : Level) (event : Event) : Bool := event.level.severity ≤ level.severity

end Event

/-- The duplicates that were dropped, and the grammar if there is one. -/
def Loading.events (loading : Loading) : List Event :=
  loading.duplicates.map (fun (line, left) => .duplicateDropped line left) ++
    match loading.result with
    | .ok grammar =>
        [.grammarLoaded grammar.productions.size grammar.alternatives.length
          grammar.terminals.length grammar.start]
    | .error _ => []

namespace ItemSet

/-- The event of closing an item set. -/
def closureEvent (grammar : Grammar) (kernel : ItemSet) : Event :=
  .closureComputed kernel.size (closure grammar kernel).size

/-- The event of following a symbol, if any item moves over it. -/
def gotoEvents (grammar : Grammar) (items : ItemSet) (symbol : Symbol) : List Event :=
  let moved := advanceOver grammar items symbol
  if moved.toList.isEmpty then [] else [closureEvent grammar moved]

end ItemSet

namespace Automaton

/-- The events of recording transitions from a state when `known` states have been
found. A target is new if its number is the number of the known states. -/
def transitionEvents (grammar : Grammar) (state : State) (sizeOf : Nat → Nat) :
    (known : Nat) → List (Symbol × Nat) → List Event
  | _, [] => []
  | known, (symbol, target) :: transitions =>
      let isNew := target == known
      ItemSet.gotoEvents grammar state.items symbol ++
        (if isNew then [.stateFound target (sizeOf target)] else []) ++
        .transitionRecorded state.id symbol target ::
          transitionEvents grammar state sizeOf (if isNew then known + 1 else known) transitions

/-- The number of states found when the transitions of a state are recorded. -/
def knownAfter (known : Nat) (state : State) : Nat :=
  state.transitions.foldl (fun known (_, target) => max known (target + 1)) known

/-- The events of following the states in order when `known` states have been found. -/
def stateEvents (automaton : Automaton) : (known : Nat) → List State → List Event
  | _, [] => []
  | known, state :: states =>
      transitionEvents automaton.grammar state
          (fun id => ((automaton.state? id).map (·.items.size)).getD 0) known
          state.transitions ++
        stateEvents automaton (knownAfter known state) states

/-- The events of building an automaton. -/
def buildEvents (automaton : Automaton) : List Event :=
  ItemSet.closureEvent automaton.grammar (OrderedSet.ofList [Item.start automaton.grammar]) ::
    stateEvents automaton 1 automaton.states ++
    automaton.conflicts.map (fun (state, conflict) =>
      .conflictFound state (conflict.text automaton.grammar)) ++
    [.automatonBuilt automaton.size]

end Automaton

/-- What a refused step reports of its cause. -/
def Refusal.events (position : Nat) (refusal : Refusal) : List Event :=
  match refusal.cause with
  | .epsilonCycle => [.cycleFound position]
  | .noTransition => [.transitionMissing refusal.symbol refusal.state]
  | .noAction | .inputLeft => []

namespace Configuration

/-- The stacks of a configuration as an event. -/
def stacksEvent (configuration : Configuration) : Event := .stacks configuration.machine

/-- The events of a step itself: a refused one reports its cause. -/
def answerEvents (configuration : Configuration) : Except Refusal Step → List Event
  | .error refusal => refusal.events configuration.machine.position
  | .ok _ => []

/-- The events of a step within a parse. -/
def stepEvents : Configuration × Except Refusal Step × Configuration → List Event
  | (before, answer, _) =>
      before.stacksEvent :: before.answerEvents answer ++
        [match answer with
          | .error refusal => .rejected refusal.error
          | .ok .accept => .accepted
          | .ok step => .stepDone step]

end Configuration

namespace Automaton

/-- The events of parsing a sequence of symbols. An input that is refused
unread has none. -/
def parseEvents (automaton : Automaton) (input : List Symbol) : List Event :=
  match automaton.inputFault? input with
  | some _ => []
  | none =>
      let (final, refusal?) := automaton.runInput input
      let count := final.steps.length + if refusal?.isSome then 1 else 0
      ((Configuration.start input).history automaton count).flatMap Configuration.stepEvents

/-- The events of parsing a text. -/
def parseTextEvents (automaton : Automaton) (text : List Char) : List Event :=
  match Symbol.readAll (Text.withoutBlanks text) with
  | .error _ => []
  | .ok input => automaton.parseEvents input

end Automaton

namespace Recognizer

/-- The events of building the automaton, of which there are none if it is there. -/
def buildEvents (recognizer : Recognizer) : List Event :=
  match recognizer.built? with
  | some _ => []
  | none => (Automaton.build recognizer.grammar).buildEvents

/-- The events of parsing a text. -/
def parseTextEvents (recognizer : Recognizer) (text : List Char) : List Event :=
  match recognizer.built? with
  | some automaton => automaton.parseTextEvents text
  | none => []

end Recognizer

end ShiftReduce
