import ShiftReduce.Proofs.Parser.Moves

/-!
# Steps within range

The machine's step reads the tops of its stacks, the next symbol of the input, the tables
of the automaton and of the grammar, and takes entries off its stacks.  Here the same
step is written so that each of these may be out of range and then yields nothing.  A
shift and a reduction put their symbol on the stack first and look its state up
afterwards.  Main statement: `Machine.Spells.step?_eq`, by which nothing is out of range
as long as the states are a path over the symbols.
-/

namespace ShiftReduce

/-- The first completed item of a list, if the productions of all items before it are
in the grammar's table, and its own. -/
def Item.firstComplete? (grammar : Grammar) : List Item → Option (Option Item)
  | [] => some none
  | item :: items => do
      let production ← grammar.production? item.production
      if item.dot = production.right.length then some (some item)
      else firstComplete? grammar items

namespace Machine

/-- Cut both stacks down to the depth that is left when entries are taken off the stack
of symbols, if it has so many. -/
def pop? (machine : Machine) (count : Nat) : Option Machine :=
  if count ≤ machine.symbols.length then
    let kept := machine.symbols.length - count
    some { machine with
      symbols := machine.symbols.drop count
      states := machine.states.drop (machine.states.length - kept) }
  else none

/-- Put the state on its stack to which the topmost symbol leads from the topmost state,
if there are such. -/
def resolve? (automaton : Automaton) (machine : Machine) :
    Option (Machine × Except Refusal Nat) := do
  let top ← machine.states.head?
  let symbol ← machine.symbols.head?
  match automaton.goto top symbol with
  | some target => some ({ machine with states := target :: machine.states }, .ok target)
  | none => some (machine, .error ⟨.noTransition, symbol, top⟩)

/-- One step over an input, unless something is out of range. The input is read at the
machine's position and is closed by the end marker. -/
def step? (automaton : Automaton) (input : List Symbol) (machine : Machine) :
    Option (Machine × Except Refusal Step) :=
  if machine.accepted then some (machine, .ok .accept)
  else do
    let top ← machine.states.head?
    let state ← automaton.state? top
    let next ← (input ++ [Symbol.endMarker])[machine.position]?
    let atEnd := machine.position + 1 = (input ++ [Symbol.endMarker]).length
    let shifted := if atEnd then none
      else shiftTarget? automaton.grammar.dialect state next
    match shifted with
    | some (symbol, _) =>
        let (after, answer) ← (machine.consume.pushSymbol symbol).resolve? automaton
        some (after, answer.map (Step.shift symbol))
    | none =>
      match ← Item.firstComplete? automaton.grammar state.items.toList with
      | none => some (machine, .error ⟨.noAction, next, top⟩)
      | some item =>
          let production ← automaton.grammar.production? item.production
          if item.production = Grammar.augmentedProduction then
            if atEnd then
              let popped ← machine.pop? production.right.length
              some ({ popped.pushSymbol item.origin with accepted := true }, .ok .accept)
            else some (machine, .error ⟨.inputLeft, next, top⟩)
          else
            let popped ← machine.pop? production.right.length
            let (after, answer) ← (popped.pushSymbol item.origin).resolve? automaton
            some (after, answer.map (Step.reduce item.production))

end Machine

variable {grammar : Grammar} {automaton : Automaton} {machine : Machine}

/-- If all productions are in the table, the first completed item is that by which a
state reduces. -/
theorem ItemSet.firstComplete?_eq {items : ItemSet}
    (known : ∀ item ∈ items, ∃ production, grammar.production? item.production = some production) :
    Item.firstComplete? grammar items.toList = some (items.reduceItem? grammar) := by
  simp only [ItemSet.reduceItem?]
  obtain ⟨listing, nodup⟩ := items
  change ∀ item ∈ listing, _ at known
  dsimp only
  clear nodup
  induction listing with
  | nil => rfl
  | cons item listing ih =>
      obtain ⟨production, found⟩ := known item List.mem_cons_self
      have rest := ih fun other member => known other (List.mem_cons_of_mem _ member)
      simp only [Item.firstComplete?, found, Option.bind_eq_bind, Option.bind_some,
        List.find?_cons, Grammar.isComplete_eq_of_production? found]
      by_cases atEnd : item.dot = production.right.length
      · simp [atEnd]
      · rw [if_neg atEnd, beq_false_of_ne atEnd, rest]

theorem Automaton.Completes.reduceItem?_eq {top : Nat} {item : Item} {state : State}
    (completes : automaton.Completes top item) (found : automaton.state? top = some state) :
    state.items.reduceItem? automaton.grammar = some item := by
  obtain ⟨other, otherFound, first⟩ := completes
  rw [found, Option.some.injEq] at otherFound
  rw [otherFound]
  exact first

namespace Machine

/-- The state of a symbol that was put on its stack is found as the machine finds it. -/
theorem resolve?_pushSymbol {rest : List Nat} (states : machine.states = machine.top :: rest)
    (symbol : Symbol) :
    (machine.pushSymbol symbol).resolve? automaton =
      match automaton.goto machine.top symbol with
      | some target => some (machine.push symbol target, .ok target)
      | none => some (machine.pushSymbol symbol, .error ⟨.noTransition, symbol, machine.top⟩) := by
  have top : (machine.pushSymbol symbol).states.head? = some machine.top := by
    change machine.states.head? = some machine.top
    rw [states, List.head?_cons]
  have pushed : (machine.pushSymbol symbol).symbols.head? = some symbol := rfl
  simp only [resolve?, top, pushed, Option.bind_eq_bind, Option.bind_some]
  rfl

/-- The machine is at the place of an input that its position says. -/
structure Reads (input : List Symbol) (machine : Machine) : Prop where
  position_le : machine.position ≤ input.length
  remaining_eq : machine.remaining = input.drop machine.position

namespace Reads

variable {input : List Symbol}

/-- The next symbol is in range. -/
theorem getElem?_position (reads : machine.Reads input) :
    (input ++ [Symbol.endMarker])[machine.position]? = some machine.next := by
  rw [Machine.next, reads.remaining_eq, List.headD_eq_head?_getD, List.head?_drop]
  rcases Nat.lt_or_eq_of_le reads.position_le with inside | atEnd
  · rw [List.getElem?_append_left inside, List.getElem?_eq_getElem inside]
    rfl
  · rw [atEnd, List.getElem?_append_right (Nat.le_refl _)]
    simp

/-- The end marker is read when no input is left. -/
theorem atEnd_iff (reads : machine.Reads input) :
    machine.position + 1 = (input ++ [Symbol.endMarker]).length ↔ machine.remaining = [] := by
  have bound := reads.position_le
  rw [reads.remaining_eq, List.drop_eq_nil_iff, List.length_append, List.length_singleton]
  omega

theorem consume (reads : machine.Reads input) (unfinished : machine.remaining ≠ []) :
    machine.consume.Reads input := by
  have remaining := reads.remaining_eq
  constructor
  · change machine.position + 1 ≤ input.length
    by_contra outside
    exact unfinished (remaining.trans (List.drop_eq_nil_of_le (by omega)))
  · change machine.remaining.tail = input.drop (machine.position + 1)
    rw [remaining, List.tail_drop]

end Reads

/-- What is shifted is found among the transitions of the topmost state. -/
theorem shifted_of_shifts {state : State} (found : automaton.state? machine.top = some state)
    {next symbol : Symbol} {rest : List Symbol} {target : Nat}
    (remaining : machine.remaining = next :: rest)
    (shifts : automaton.Shifts machine.top next symbol target) :
    (if machine.remaining = [] then none
      else shiftTarget? automaton.grammar.dialect state machine.next) =
        some (symbol, target) := by
  have unfinished : machine.remaining ≠ [] := remaining ▸ List.cons_ne_nil next rest
  have next_eq : machine.next = next := by
    rw [Machine.next, remaining]
    rfl
  rw [if_neg unfinished, next_eq]
  exact (Automaton.shiftTarget?_eq_some_iff found).mpr shifts

/-- Where nothing can be shifted, nothing is found to be shifted. -/
theorem unshifted_of_idle {state : State} (found : automaton.state? machine.top = some state)
    (idle : automaton.Idle machine.top machine.remaining) :
    (if machine.remaining = [] then none
      else shiftTarget? automaton.grammar.dialect state machine.next) = none := by
  split
  · rfl
  · next unfinished =>
      obtain ⟨next, rest, remaining⟩ := List.exists_cons_of_ne_nil unfinished
      rw [Machine.next, remaining, List.headD_cons, Option.eq_none_iff_forall_ne_some]
      intro shifted equal
      exact idle next rest remaining shifted.1 shifted.2
        ((Automaton.shiftTarget?_eq_some_iff found).mp equal)

namespace Spells

variable {stack right below input : List Symbol}

/-- A right-hand side that is on top can be taken off, and both stacks are cut alike. -/
theorem pop?_eq (spells : machine.Spells automaton stack)
    (whole : stack = right.reverse ++ below) :
    machine.pop? right.length = some (machine.pop right.length) := by
  have depth : machine.symbols.length = right.length + below.length + 1 := by
    rw [spells.symbols_eq, whole]
    simp [Nat.add_assoc]
  have sameDepth : machine.states.length = machine.symbols.length := by
    rw [spells.path.length_eq, spells.symbols_eq, List.length_append]
    rfl
  have bound : right.length ≤ machine.symbols.length := by omega
  have kept : machine.symbols.length - (machine.symbols.length - right.length) =
      right.length := by omega
  simp only [pop?, if_pos bound, sameDepth, kept]
  rfl

/-- The topmost state is one of the automaton's, and the productions of its items are
in the grammar's table. -/
theorem exists_state (wellFormed : grammar.WellFormed)
    (spells : machine.Spells (.build grammar) stack) :
    ∃ state, (Automaton.build grammar).state? machine.top = some state ∧
      ∀ item ∈ state.items, ∃ production,
        grammar.production? item.production = some production := by
  obtain ⟨item, valid⟩ := (Automaton.exists_path_iff wellFormed).mp ⟨_, spells.path⟩
  obtain ⟨state, found, _⟩ := (spells.holds_iff wellFormed item).mpr valid
  refine ⟨state, found, ?_⟩
  intro other member
  have holds := (Automaton.holds_iff_of_state? found other).mpr member
  obtain ⟨right, production⟩ :=
    ((spells.holds_iff wellFormed other).mp holds).exists_production wellFormed
  exact ⟨_, production⟩

/-- A shifted symbol leads to the state that the machine shifts to. -/
theorem resolve?_shift (spells : machine.Spells automaton stack) {next symbol : Symbol} {target : Nat}
    (shifts : automaton.Shifts machine.top next symbol target) :
    (machine.consume.pushSymbol symbol).resolve? automaton =
      some (machine.consume.push symbol target, .ok target) := by
  obtain ⟨rest, states⟩ := spells.states_eq
  have consumed : machine.consume.states = machine.consume.top :: rest := states
  have moves : automaton.goto machine.consume.top symbol = some target := shifts.goto
  rw [resolve?_pushSymbol consumed, moves]

/-- A left-hand side leads to the state that the machine reduces to. -/
theorem resolve?_reduce (spells : machine.Spells automaton stack)
    (whole : stack = right.reverse ++ below) {left : Symbol} {target : Nat}
    (moves : automaton.goto (machine.pop right.length).top left = some target) :
    ((machine.pop right.length).pushSymbol left).resolve? automaton =
      some ((machine.pop right.length).push left target, .ok target) := by
  obtain ⟨rest, states⟩ := (spells.pop whole).states_eq
  rw [resolve?_pushSymbol states, moves]

/-- Nothing is out of range in a move. -/
theorem step?_of_move (wellFormed : grammar.WellFormed)
    (spells : machine.Spells (.build grammar) stack) (reads : machine.Reads input)
    {next : Machine} {answer : Except Refusal Step}
    (move : machine.Move (.build grammar) stack next answer) :
    machine.step? (.build grammar) input = some (next, answer) := by
  obtain ⟨rest, states⟩ := spells.states_eq
  obtain ⟨state, found, known⟩ := spells.exists_state wellFormed
  have top : machine.states.head? = some machine.top := by
    rw [states, List.head?_cons]
  have first : Item.firstComplete? (Automaton.build grammar).grammar state.items.toList =
      some (state.items.reduceItem? grammar) := ItemSet.firstComplete?_eq known
  have augmented : (Automaton.build grammar).grammar.production?
      (Item.start (Automaton.build grammar).grammar).advance.production = some _ :=
    wellFormed.augmented
  have isAugmented : (Item.start (Automaton.build grammar).grammar).advance.production =
      Grammar.augmentedProduction := rfl
  simp only [step?, spells.running, Bool.false_eq_true, if_false, top, found, first,
    reads.getElem?_position, reads.atEnd_iff, Option.bind_eq_bind, Option.bind_some]
  cases move with
  | shift remaining shifts =>
      rw [shifted_of_shifts found remaining shifts]
      simp only [spells.resolve?_shift shifts, Option.bind_some]
      rfl
  | reduce idle completes proper production whole moves =>
      have reduces : state.items.reduceItem? grammar = some _ := completes.reduceItem?_eq found
      have production : (Automaton.build grammar).grammar.production? _ = some _ := production
      rw [unshifted_of_idle found idle, reduces]
      simp only [production, Option.bind_some, if_neg proper, spells.pop?_eq whole,
        spells.resolve?_reduce whole moves]
      rfl
  | accept finished completes whole =>
      have accepts : state.items.reduceItem? grammar = some _ := completes.reduceItem?_eq found
      have single : stack = [grammar.start].reverse ++ [] := whole
      rw [if_pos finished, accepts]
      simp only [augmented, Option.bind_some, if_pos isAugmented, if_pos finished,
        spells.pop?_eq single]
      rfl
  | inputLeft unfinished idle completes _ =>
      have accepts : state.items.reduceItem? grammar = some _ := completes.reduceItem?_eq found
      rw [unshifted_of_idle found idle, accepts]
      simp only [augmented, Option.bind_some, if_pos isAugmented, if_neg unfinished]
      rfl
  | noAction idle incomplete =>
      have none : state.items.reduceItem? grammar = none := by
        rw [ItemSet.reduceItem?, List.find?_eq_none]
        intro item member
        exact Bool.eq_false_iff.mp
          (incomplete item ((Automaton.holds_iff_of_state? found item).mpr member))
      rw [unshifted_of_idle found idle, none]
      rfl

/-- Nothing is out of range in a step of a machine over a stack of symbols. -/
theorem step?_eq (wellFormed : grammar.WellFormed)
    (spells : machine.Spells (.build grammar) stack) (reads : machine.Reads input) :
    machine.step? (.build grammar) input = some (machine.step (.build grammar)) := by
  cases stepped : machine.step (.build grammar) with
  | mk next answer =>
      exact spells.step?_of_move wellFormed reads (spells.step_move wellFormed stepped)

end Spells

end Machine

end ShiftReduce
