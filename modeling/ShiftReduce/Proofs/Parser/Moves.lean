import ShiftReduce.Parser.Machine
import ShiftReduce.Proofs.Automaton.Path

/-!
# Moves of the machine

What one step of the machine can do.  The states of a machine that has not accepted are
always those of a path over its stack of symbols, so the items of the topmost state are
valid for that stack: a completed item has its right-hand side on top, and there is
always a transition on its origin.  Main statements: `Machine.Spells.step_move` and what
the moves preserve, `Machine.Spells.shift` and `Machine.Spells.reduce`.
-/

namespace ShiftReduce

variable {grammar : Grammar}

namespace Automaton

variable {automaton : Automaton}

/-- As which symbol, and to which state, the next symbol of the input is shifted. A
number is shifted as such only if it is not shifted as itself. -/
inductive Shifts (automaton : Automaton) (top : Nat) (next : Symbol) : Symbol → Nat → Prop where
  | literal {target : Nat} :
      next.isInput = true → automaton.goto top next = some target →
      Shifts automaton top next next target
  | number {target : Nat} :
      (next.isInput = true → automaton.goto top next = none) →
      automaton.grammar.dialect.isNumber next.toChar = true →
      automaton.goto top automaton.grammar.dialect.numberTerminal = some target →
      Shifts automaton top next automaton.grammar.dialect.numberTerminal target

/-- The next symbol of the input, if there is one, cannot be shifted. -/
def Idle (automaton : Automaton) (top : Nat) (remaining : List Symbol) : Prop :=
  ∀ next rest, remaining = next :: rest → ∀ symbol target,
    ¬automaton.Shifts top next symbol target

/-- The first completed item of a state. -/
def Completes (automaton : Automaton) (top : Nat) (item : Item) : Prop :=
  ∃ state, automaton.state? top = some state ∧
    state.items.reduceItem? automaton.grammar = some item

theorem shiftTarget?_eq_some_iff {top : Nat} {state : State}
    (found : automaton.state? top = some state) {next symbol : Symbol} {target : Nat} :
    Machine.shiftTarget? automaton.grammar.dialect state next = some (symbol, target) ↔
      automaton.Shifts top next symbol target := by
  have transition := goto_of_state? found
  constructor
  · intro shifted
    simp only [Machine.shiftTarget?] at shifted
    split at shifted
    next literal moves =>
      obtain ⟨rfl, rfl⟩ := Prod.mk.inj (Option.some.inj shifted)
      split at moves
      · next input => exact .literal input ((transition _).trans moves)
      · cases moves
    next unmoved =>
      split at shifted
      · next number =>
          obtain ⟨_, moves, equal⟩ := Option.map_eq_some_iff.mp shifted
          obtain ⟨rfl, rfl⟩ := Prod.mk.inj equal
          refine .number ?_ number ((transition _).trans moves)
          intro input
          rw [if_pos input] at unmoved
          exact (transition _).trans unmoved
      · cases shifted
  · intro shifts
    simp only [Machine.shiftTarget?]
    cases shifts with
    | literal input moves => rw [if_pos input, ← transition, moves]
    | number unmoved number moves =>
        have none : (if next.isInput = true then state.transition next else none) = none := by
          split
          · next input => exact (transition _).symm.trans (unmoved input)
          · rfl
        rw [none]
        simp only [number, if_true, ← transition, moves, Option.map_some]

theorem Shifts.isInput (wellFormed : automaton.grammar.WellFormed) {top target : Nat}
    {next symbol : Symbol} (shifts : automaton.Shifts top next symbol target) :
    symbol.isInput = true := by
  cases shifts with
  | literal input _ => exact input
  | number _ _ _ => exact wellFormed.numberTerminal_input

theorem Shifts.goto {top target : Nat} {next symbol : Symbol}
    (shifts : automaton.Shifts top next symbol target) :
    automaton.goto top symbol = some target := by
  cases shifts with
  | literal _ moves => exact moves
  | number _ _ moves => exact moves

namespace Completes

variable {top : Nat} {item : Item}

theorem unique {other : Item} (completes : automaton.Completes top item)
    (otherCompletes : automaton.Completes top other) : item = other := by
  obtain ⟨state, found, first⟩ := completes
  obtain ⟨otherState, otherFound, otherFirst⟩ := otherCompletes
  rw [found, Option.some.injEq] at otherFound
  subst otherFound
  exact Option.some.inj (first.symm.trans otherFirst)

theorem holds (completes : automaton.Completes top item) : automaton.Holds top item := by
  obtain ⟨state, found, first⟩ := completes
  exact ⟨state, found, List.mem_of_find?_eq_some first⟩

theorem isComplete (completes : automaton.Completes top item) :
    item.isComplete automaton.grammar = true := by
  obtain ⟨state, _, first⟩ := completes
  exact List.find?_some first

end Completes

end Automaton

namespace Machine

/-- A machine that has not accepted, with a stack of symbols above the end marker over
which its states are a path. -/
structure Spells (automaton : Automaton) (stack : List Symbol) (machine : Machine) : Prop where
  symbols_eq : machine.symbols = stack ++ [Symbol.endMarker]
  path : automaton.Path stack machine.states
  running : machine.accepted = false

/-- What one step does to a machine over a stack of symbols. -/
inductive Move (automaton : Automaton) (stack : List Symbol) (machine : Machine) :
    Machine → Except Refusal Step → Prop where
  | shift {next symbol : Symbol} {rest : List Symbol} {target : Nat} :
      machine.remaining = next :: rest → automaton.Shifts machine.top next symbol target →
      Move automaton stack machine (machine.consume.push symbol target)
        (.ok (.shift symbol target))
  | reduce {item : Item} {right below : List Symbol} {target : Nat} :
      automaton.Idle machine.top machine.remaining → automaton.Completes machine.top item →
      item.production ≠ Grammar.augmentedProduction →
      automaton.grammar.production? item.production = some ⟨item.origin, right⟩ →
      stack = right.reverse ++ below →
      automaton.goto (machine.pop right.length).top item.origin = some target →
      Move automaton stack machine ((machine.pop right.length).push item.origin target)
        (.ok (.reduce item.production target))
  | accept :
      machine.remaining = [] →
      automaton.Completes machine.top (Item.start automaton.grammar).advance →
      stack = [automaton.grammar.start] →
      Move automaton stack machine
        { (machine.pop 1).pushSymbol automaton.grammar.augmentedStart with accepted := true }
        (.ok .accept)
  | inputLeft :
      machine.remaining ≠ [] → automaton.Idle machine.top machine.remaining →
      automaton.Completes machine.top (Item.start automaton.grammar).advance →
      stack = [automaton.grammar.start] →
      Move automaton stack machine machine (.error (machine.refuse .inputLeft))
  | noAction :
      automaton.Idle machine.top machine.remaining →
      (∀ item, automaton.Holds machine.top item →
        item.isComplete automaton.grammar = false) →
      Move automaton stack machine machine (.error (machine.refuse .noAction))

/-- A machine refuses the next symbol in its topmost state and stays as it is. -/
theorem Move.refusal_eq {automaton : Automaton} {machine next : Machine} {stack : List Symbol}
    {refusal : Refusal}
    (move : machine.Move automaton stack next (.error refusal)) :
    next = machine ∧ refusal = machine.refuse refusal.cause := by
  cases move with
  | inputLeft _ _ _ _ => exact ⟨rfl, rfl⟩
  | noAction _ _ => exact ⟨rfl, rfl⟩

theorem start_spells (automaton : Automaton) (input : List Symbol) :
    Spells automaton [] (start input) :=
  ⟨rfl, .initial, rfl⟩

theorem idle_of_shift? {automaton : Automaton} {machine : Machine} {state : State}
    (found : automaton.state? machine.top = some state)
    (unshifted : machine.shift? automaton state = none) :
    automaton.Idle machine.top machine.remaining := by
  intro next rest remaining symbol target shifts
  have shifted := (Automaton.shiftTarget?_eq_some_iff found).mpr shifts
  simp only [shift?, remaining, shifted] at unshifted
  cases unshifted

namespace Spells

variable {stack below right : List Symbol} {machine : Machine}

theorem states_eq {automaton : Automaton} (spells : Spells automaton stack machine) :
    ∃ rest, machine.states = machine.top :: rest := by
  obtain ⟨top, rest, equal⟩ := spells.path.exists_top
  refine ⟨rest, ?_⟩
  rw [Machine.top, equal]
  rfl

theorem pop {automaton : Automaton} (spells : Spells automaton stack machine)
    (whole : stack = right.reverse ++ below) :
    Spells automaton below (machine.pop right.length) := by
  subst whole
  constructor
  · change machine.symbols.drop right.length = _
    rw [spells.symbols_eq, List.append_assoc,
      List.drop_left' (List.length_reverse)]
  · have path := spells.path.drop right.reverse
    rw [List.length_reverse] at path
    exact path
  · exact spells.running

theorem path_top {automaton : Automaton} (spells : Spells automaton stack machine) :
    ∃ rest, automaton.Path stack (machine.top :: rest) := by
  obtain ⟨rest, equal⟩ := spells.states_eq
  exact ⟨rest, equal ▸ spells.path⟩

/-- The topmost state holds the items that are valid for the stack of symbols. -/
theorem holds_iff (wellFormed : grammar.WellFormed)
    (spells : Spells (.build grammar) stack machine) (item : Item) :
    (Automaton.build grammar).Holds machine.top item ↔ grammar.ValidItem stack item := by
  obtain ⟨rest, path⟩ := spells.path_top
  exact path.holds_iff wellFormed item

theorem push {automaton : Automaton} (spells : Spells automaton stack machine) {symbol : Symbol}
    {target : Nat} (moves : automaton.goto machine.top symbol = some target) :
    Spells automaton (symbol :: stack) (machine.push symbol target) := by
  obtain ⟨rest, equal⟩ := spells.states_eq
  refine ⟨congrArg _ spells.symbols_eq, ?_, spells.running⟩
  change automaton.Path (symbol :: stack) (target :: machine.states)
  rw [equal]
  exact .follow (equal ▸ spells.path) moves

/-- What a shift leads to. -/
theorem shift {automaton : Automaton} (spells : Spells automaton stack machine)
    {next symbol : Symbol} {target : Nat}
    (shifts : automaton.Shifts machine.top next symbol target) :
    Spells automaton (symbol :: stack) (machine.consume.push symbol target) := by
  have consumed : Spells automaton stack machine.consume :=
    ⟨spells.symbols_eq, spells.path, spells.running⟩
  exact consumed.push shifts.goto

/-- What a reduction leads to. -/
theorem reduce {automaton : Automaton} (spells : Spells automaton stack machine) {left : Symbol}
    {target : Nat} (whole : stack = right.reverse ++ below)
    (moves : automaton.goto (machine.pop right.length).top left = some target) :
    Spells automaton (left :: below) ((machine.pop right.length).push left target) :=
  (spells.pop whole).push moves

/-- What a machine does that reduces by the augmented production. -/
theorem accept_move (wellFormed : grammar.WellFormed)
    (idle : (Automaton.build grammar).Idle machine.top machine.remaining)
    (completes : (Automaton.build grammar).Completes machine.top (Item.start grammar).advance)
    {next : Machine} {answer : Except Refusal Step}
    (stepped : machine.accept (.build grammar) (Item.start grammar).advance = (next, answer)) :
    machine.Move (.build grammar) [grammar.start] next answer := by
  rw [Machine.accept] at stepped
  split at stepped
  next first rest remaining =>
    cases stepped
    exact .inputLeft (by rw [remaining]; exact List.cons_ne_nil _ _) idle completes rfl
  next remaining =>
    have one : ((Automaton.build grammar).grammar.right
        (Item.start grammar).advance.production).length = 1 :=
      congrArg List.length wellFormed.right_augmented
    rw [one] at stepped
    cases stepped
    exact .accept remaining completes rfl

/-- What a machine does that reduces by another production. The state below the
right-hand side has a transition on the origin, since an item expects it there. -/
theorem reduce_move (wellFormed : grammar.WellFormed)
    (spells : Spells (.build grammar) (right.reverse ++ below) machine)
    (idle : (Automaton.build grammar).Idle machine.top machine.remaining) {item parent : Item}
    (completes : (Automaton.build grammar).Completes machine.top item)
    (proper : item.production ≠ Grammar.augmentedProduction)
    (found : grammar.production? item.production = some ⟨item.origin, right⟩)
    (parentValid : grammar.ValidItem below parent)
    (behindDot : parent.symbolAtDot grammar = some item.origin)
    {next : Machine} {answer : Except Refusal Step}
    (stepped : machine.reduce (.build grammar) item = (next, answer)) :
    machine.Move (.build grammar) (right.reverse ++ below) next answer := by
  have rightEqual : (Automaton.build grammar).grammar.right item.production = right :=
    Grammar.right_eq_of_production? found
  obtain ⟨rest, path⟩ := (spells.pop rfl).path_top
  obtain ⟨target, moves⟩ := path.exists_goto wellFormed parentValid behindDot
  rw [Machine.reduce, rightEqual] at stepped
  simp only [moves] at stepped
  cases stepped
  exact .reduce idle completes proper found rfl moves

/-- A step of a machine over a stack of symbols is one of its moves. No reduction fails,
since the items of the topmost state are valid for the stack. -/
theorem step_move (wellFormed : grammar.WellFormed)
    (spells : Spells (.build grammar) stack machine) {next : Machine}
    {answer : Except Refusal Step} (stepped : machine.step (.build grammar) = (next, answer)) :
    machine.Move (.build grammar) stack next answer := by
  simp only [Machine.step] at stepped
  rw [spells.running, if_neg Bool.false_ne_true] at stepped
  split at stepped
  next missing =>
    obtain ⟨item, valid⟩ := (Automaton.exists_path_iff wellFormed).mp ⟨_, spells.path⟩
    obtain ⟨state, found, _⟩ := (spells.holds_iff wellFormed item).mpr valid
    rw [missing] at found
    cases found
  next state found =>
  split at stepped
  next symbol target shifted =>
    simp only [shift?] at shifted
    split at shifted
    · cases shifted
    next next rest remaining =>
      cases stepped
      exact .shift remaining ((Automaton.shiftTarget?_eq_some_iff found).mp shifted)
  next unshifted =>
  have idle := idle_of_shift? found unshifted
  split at stepped
  next incomplete =>
    cases stepped
    refine .noAction idle ?_
    intro item holds
    rw [Automaton.holds_iff_of_state? found] at holds
    exact Bool.eq_false_iff.mpr (List.find?_eq_none.mp incomplete item holds)
  next item first =>
  have completes : (Automaton.build grammar).Completes machine.top item := ⟨state, found, first⟩
  have valid := (spells.holds_iff wellFormed item).mp completes.holds
  rcases valid.complete_cases wellFormed completes.isComplete with
    ⟨rfl, rfl⟩ | ⟨proper, right, below, parent, production, rfl, parentValid, behindDot⟩
  · have augmented : (Item.start grammar).advance.production = Grammar.augmentedProduction := rfl
    rw [if_pos augmented] at stepped
    exact accept_move wellFormed idle completes stepped
  · rw [if_neg proper] at stepped
    exact spells.reduce_move wellFormed idle completes proper production parentValid behindDot
      stepped

end Spells

end Machine

end ShiftReduce
