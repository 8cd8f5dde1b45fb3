import ShiftReduce.Proofs.Automaton.Decisions
import ShiftReduce.Proofs.Grammar.Completion
import ShiftReduce.Proofs.Grammar.Forms
import ShiftReduce.Proofs.Parser.Guard
import ShiftReduce.Proofs.Parser.Soundness

/-!
# Completeness of parsing

If the states of an automaton leave no choice, its machine does what a completion of the
stack calls for: the items that the completion needs are valid, so the topmost state
holds them, and nothing else is possible there.  The machine can leave a completion in a
mixed state only, where it accepts or refuses the rest of the input.  Main statements:
`Grammar.Completion.drives`, `Grammar.Completion.finishes` and
`Automaton.parse_complete`.
-/

namespace ShiftReduce

variable {grammar : Grammar}

namespace Grammar

/-- An input symbol stands for a symbol of a sentence: for itself, or for the number
terminal, unless it is a terminal of the grammar in its own right. -/
inductive StandsFor (grammar : Grammar) (read : Symbol) : Symbol → Prop where
  | itself : StandsFor grammar read read
  | number : grammar.dialect.isNumber read.toChar = true → read ∉ grammar.terminals →
      StandsFor grammar read grammar.dialect.numberTerminal

end Grammar

namespace Automaton

variable {automaton : Automaton} {top target other : Nat} {read symbol second : Symbol}

/-- A symbol is shifted in one way only. -/
theorem Shifts.unique (shifts : automaton.Shifts top read symbol target)
    (otherShifts : automaton.Shifts top read second other) :
    symbol = second ∧ target = other := by
  have symbols : symbol = second := by
    cases shifts with
    | literal input moves =>
        cases otherShifts with
        | literal _ _ => rfl
        | number unmoved _ _ =>
            rw [unmoved input] at moves
            cases moves
    | number unmoved _ _ =>
        cases otherShifts with
        | literal input moves =>
            rw [unmoved input] at moves
            cases moves
        | number _ _ _ => rfl
  subst symbols
  exact ⟨rfl, Option.some.inj (shifts.goto.symm.trans otherShifts.goto)⟩

/-- The completed augmented item is the one by which its state reduces. -/
theorem completes_accept (wellFormed : grammar.WellFormed)
    (holds : (build grammar).Holds top (Item.start grammar).advance) :
    (build grammar).Completes top (Item.start grammar).advance := by
  obtain ⟨state, found, accept⟩ := holds
  refine ⟨state, found, ?_⟩
  obtain ⟨others, equal⟩ := List.head?_eq_some_iff.mp
    (head?_of_accept_mem wellFormed (List.mem_of_getElem? found) accept)
  rw [ItemSet.reduceItem?, equal]
  exact List.find?_cons_of_pos wellFormed.isComplete_accept

end Automaton

namespace Machine

namespace Spells

variable {machine next : Machine} {stack : List Symbol}

/-- What can be shifted is shifted. -/
theorem step_of_shifts (wellFormed : grammar.WellFormed)
    (spells : machine.Spells (.build grammar) stack) {read symbol : Symbol}
    {rest : List Symbol} {target : Nat} (remaining : machine.remaining = read :: rest)
    (shifts : (Automaton.build grammar).Shifts machine.top read symbol target) :
    machine.step (.build grammar) =
      (machine.consume.push symbol target, .ok (.shift symbol target)) := by
  cases stepped : machine.step (.build grammar) with
  | mk next answer =>
      cases spells.step_move wellFormed stepped with
      | shift otherRemaining otherShifts =>
          rw [remaining, List.cons.injEq] at otherRemaining
          obtain ⟨rfl, rfl⟩ := otherRemaining
          obtain ⟨rfl, rfl⟩ := shifts.unique otherShifts
          rfl
      | reduce idle _ _ _ _ _ => exact absurd shifts (idle _ _ remaining _ _)
      | accept finished _ _ =>
          rw [remaining] at finished
          cases finished
      | inputLeft _ idle _ _ => exact absurd shifts (idle _ _ remaining _ _)
      | noAction idle _ => exact absurd shifts (idle _ _ remaining _ _)

/-- A terminal that a valid item expects can be shifted when a symbol is next that stands
for it. -/
theorem exists_shifts (wellFormed : grammar.WellFormed)
    (spells : machine.Spells (.build grammar) stack) {item : Item} {read symbol : Symbol}
    (stands : grammar.StandsFor read symbol) (terminal : symbol.isNonterminal = false)
    (valid : grammar.ValidItem stack item)
    (behindDot : item.symbolAtDot grammar = some symbol) :
    ∃ target, (Automaton.build grammar).Shifts machine.top read symbol target := by
  obtain ⟨below, path⟩ := spells.path_top
  obtain ⟨target, moves⟩ := path.exists_goto wellFormed valid behindDot
  refine ⟨target, ?_⟩
  cases stands with
  | itself =>
      cases wellFormed.mentions_symbolAtDot behindDot with
      | terminal input => exact .literal input moves
      | nonterminal nonterminal _ _ =>
          rw [terminal] at nonterminal
          cases nonterminal
  | number number absent =>
      refine .number ?_ number moves
      intro input
      by_contra moved
      obtain ⟨other, found⟩ := Option.ne_none_iff_exists'.mp moved
      obtain ⟨expecting, _, expected⟩ := Automaton.exists_goto_iff.mp ⟨other, found⟩
      obtain ⟨production, production?, member⟩ :=
        Grammar.exists_production_of_symbolAtDot expected
      exact absent ((wellFormed.mem_terminals read).mpr
        (.inr ⟨Symbol.isTerminal_of_isInput input, _, production, production?, member⟩))

/-- A state that is settled by an item shifts nothing. -/
theorem idle_of_settles (wellFormed : grammar.WellFormed) {item : Item}
    (settles : (Automaton.build grammar).Settles machine.top item) :
    ∀ read symbol target, ¬(Automaton.build grammar).Shifts machine.top read symbol target := by
  intro read symbol target shifts
  obtain ⟨expecting, holds, behindDot⟩ := Automaton.exists_goto_iff.mp ⟨target, shifts.goto⟩
  have terminal := Symbol.isTerminal_of_isInput (shifts.isInput wellFormed)
  rw [settles.no_terminal expecting symbol holds behindDot] at terminal
  cases terminal

/-- A valid completed item is reduced where it settles the state, unless the state is
mixed. -/
theorem step_reduce (wellFormed : grammar.WellFormed)
    (decided : (Automaton.build grammar).Decided) {right below : List Symbol} {left : Symbol}
    {id : Nat} (spells : machine.Spells (.build grammar) (right.reverse ++ below))
    (found : grammar.production? id = some ⟨left, right⟩)
    (proper : id ≠ Grammar.augmentedProduction)
    (valid : grammar.ValidItem (right.reverse ++ below) ⟨id, right.length, left⟩) :
    (Automaton.build grammar).Mixed machine.top ∨
      ∃ target, machine.step (.build grammar) =
          ((machine.pop right.length).push left target, .ok (.reduce id target)) ∧
        (Automaton.build grammar).goto (machine.pop right.length).top left = some target := by
  have holds := (spells.holds_iff wellFormed _).mpr valid
  have complete := Grammar.isComplete_of_production? found left
  have settles := decided _ _ holds complete proper
  cases stepped : machine.step (.build grammar) with
  | mk next answer =>
      cases spells.step_move wellFormed stepped with
      | shift _ shifts => exact absurd shifts (idle_of_settles wellFormed settles _ _ _)
      | reduce _ completes otherProper otherFound _ moves =>
          obtain rfl := settles.unique _ completes.holds completes.isComplete otherProper
          change grammar.production? id = _ at otherFound
          rw [found, Option.some.injEq, Production.mk.injEq] at otherFound
          obtain ⟨_, rfl⟩ := otherFound
          exact .inr ⟨_, rfl, moves⟩
      | accept _ completes _ => exact .inl ⟨completes.holds, _, holds, complete, proper⟩
      | inputLeft _ _ completes _ => exact .inl ⟨completes.holds, _, holds, complete, proper⟩
      | noAction _ incomplete =>
          cases complete.symm.trans (incomplete _ holds)

/-- Where the completed augmented item is held and the input is used up, the machine
accepts. -/
theorem step_accept (wellFormed : grammar.WellFormed)
    (spells : machine.Spells (.build grammar) stack)
    (holds : (Automaton.build grammar).Holds machine.top (Item.start grammar).advance)
    (finished : machine.remaining = []) :
    ∃ final, machine.step (.build grammar) = (final, .ok .accept) := by
  have completes := Automaton.completes_accept wellFormed holds
  cases stepped : machine.step (.build grammar) with
  | mk next answer =>
      cases spells.step_move wellFormed stepped with
      | shift remaining _ =>
          rw [finished] at remaining
          cases remaining
      | reduce _ otherCompletes proper _ _ _ =>
          obtain rfl := completes.unique otherCompletes
          exact absurd rfl proper
      | accept _ _ _ => exact ⟨_, rfl⟩
      | inputLeft unfinished _ _ _ => exact absurd finished unfinished
      | noAction _ incomplete =>
          cases wellFormed.isComplete_accept.symm.trans (incomplete _ holds)

end Spells

end Machine

namespace Grammar

/-- A run has shifted the front of a completion's word and done the reductions up to
there, and no more. -/
structure Reached (grammar : Grammar) (ids : List Nat) (front back rest : List Symbol)
    (steps : List Step) (last : Machine) : Prop where
  remaining : last.remaining = rest
  shifted : Step.shifted steps = front
  completion : ∃ more stack, ids = Step.reduced steps ++ more ∧
    last.Spells (.build grammar) stack ∧ grammar.Completion more stack back
  ends : steps = [] ∨ ∃ before symbol state, steps = before ++ [.shift symbol state]

namespace Reached

variable {ids : List Nat} {front back rest : List Symbol} {steps : List Step} {last : Machine}

/-- What has already been reached without a step. -/
theorem nothing {stack : List Symbol} (spells : last.Spells (.build grammar) stack)
    (remaining : last.remaining = rest) (completion : grammar.Completion ids stack back) :
    grammar.Reached ids [] back rest [] last :=
  ⟨remaining, rfl, ⟨ids, stack, rfl, spells, completion⟩, .inl rfl⟩

theorem shift (reached : grammar.Reached ids front back rest steps last) (symbol : Symbol)
    (state : Nat) :
    grammar.Reached ids (symbol :: front) back rest (.shift symbol state :: steps) last := by
  refine ⟨reached.remaining, congrArg _ reached.shifted, reached.completion, .inr ?_⟩
  rcases reached.ends with rfl | ⟨before, other, target, rfl⟩
  · exact ⟨[], symbol, state, rfl⟩
  · exact ⟨_ :: before, other, target, rfl⟩

theorem reduce (reached : grammar.Reached ids front back rest steps last) (id state : Nat)
    (unfinished : front ≠ []) :
    grammar.Reached (id :: ids) front back rest (.reduce id state :: steps) last := by
  refine ⟨reached.remaining, reached.shifted, ?_, .inr ?_⟩
  · obtain ⟨more, stack, equal, spells, completion⟩ := reached.completion
    exact ⟨more, stack, congrArg (id :: ·) equal, spells, completion⟩
  · rcases reached.ends with rfl | ⟨before, other, target, rfl⟩
    · exact absurd reached.shifted.symm unfinished
    · exact ⟨_ :: before, other, target, rfl⟩

end Reached

namespace Completion

variable {ids : List Nat} {stack word : List Symbol} {machine : Machine}

/-- A production that a completion reduces is a proper one. -/
theorem proper (wellFormed : grammar.WellFormed) {id : Nat} {left : Symbol}
    {right : List Symbol} (found : grammar.production? id = some ⟨left, right⟩)
    (completion : grammar.Completion ids (left :: stack) word) :
    id ≠ augmentedProduction := by
  intro equal
  subst equal
  obtain ⟨item, valid⟩ := completion.exists_valid wellFormed
  obtain ⟨previous, _, behindDot⟩ := valid.exists_previous
  rw [wellFormed.augmented, Option.some.injEq, Production.mk.injEq] at found
  exact wellFormed.symbolAtDot_ne_augmentedStart behindDot found.1.symm

/-- Where a completion shifts, so does the machine, if the next symbol stands for the one
that is shifted. -/
theorem step_shift (wellFormed : grammar.WellFormed) {read symbol : Symbol}
    {rest : List Symbol} (completion : grammar.Completion ids (symbol :: stack) word)
    (terminal : symbol.isNonterminal = false) (spells : machine.Spells (.build grammar) stack)
    (remaining : machine.remaining = read :: rest) (stands : grammar.StandsFor read symbol) :
    ∃ target next, machine.step (.build grammar) = (next, .ok (.shift symbol target)) ∧
      next.Spells (.build grammar) (symbol :: stack) ∧ next.remaining = rest := by
  obtain ⟨item, valid⟩ := completion.exists_valid wellFormed
  obtain ⟨previous, previousValid, behindDot⟩ := valid.exists_previous
  obtain ⟨target, shifts⟩ :=
    spells.exists_shifts wellFormed stands terminal previousValid behindDot
  exact ⟨target, _, spells.step_of_shifts wellFormed remaining shifts, spells.shift shifts,
    congrArg List.tail remaining⟩

/-- Where a completion reduces, so does the machine, unless its state is mixed. -/
theorem step_reduce (wellFormed : grammar.WellFormed)
    (decided : (Automaton.build grammar).Decided) {id : Nat} {left : Symbol}
    {right below : List Symbol} (found : grammar.production? id = some ⟨left, right⟩)
    (completion : grammar.Completion ids (left :: below) word)
    (spells : machine.Spells (.build grammar) (right.reverse ++ below)) :
    (Automaton.build grammar).Mixed machine.top ∨ ∃ target next,
      machine.step (.build grammar) = (next, .ok (.reduce id target)) ∧
        next.Spells (.build grammar) (left :: below) ∧ next.remaining = machine.remaining := by
  obtain ⟨item, valid⟩ := completion.exists_valid wellFormed
  rcases spells.step_reduce wellFormed decided found (completion.proper wellFormed found)
      (valid.complete found) with mixed | ⟨target, stepped, moves⟩
  · exact .inl mixed
  · exact .inr ⟨target, _, stepped, spells.reduce rfl moves, rfl⟩

/-- While the input stands for the word of a completion, the machine follows it, unless
it comes to a mixed state. The induction is on the completion. -/
theorem drives (wellFormed : grammar.WellFormed) (decided : (Automaton.build grammar).Decided)
    (completion : grammar.Completion ids stack word) {front back read rest : List Symbol}
    (whole : word = front ++ back) (spells : machine.Spells (.build grammar) stack)
    (remaining : machine.remaining = read ++ rest)
    (stands : List.Forall₂ grammar.StandsFor read front) :
    ∃ steps last, Runs (Machine.step (.build grammar)) machine steps last ∧
      ((∃ lastStack, last.Spells (.build grammar) lastStack ∧
          (Automaton.build grammar).Mixed last.top) ∨
        grammar.Reached ids front back rest steps last) := by
  induction completion generalizing machine front read with
  | done =>
      obtain ⟨rfl, rfl⟩ := List.append_eq_nil_iff.mp whole.symm
      cases stands
      exact ⟨[], machine, .nil machine, .inr (.nothing spells remaining .done)⟩
  | @shift ids stack word symbol terminal completion ih =>
      cases stands with
      | nil =>
          subst whole
          exact ⟨[], machine, .nil machine,
            .inr (.nothing spells remaining (completion.shift terminal))⟩
      | cons firstStands stands =>
          obtain ⟨rfl, wordEqual⟩ := List.cons.inj whole
          obtain ⟨target, next, stepped, nextSpells, nextRemaining⟩ :=
            completion.step_shift wellFormed terminal spells remaining firstStands
          obtain ⟨steps, last, runs, outcome⟩ := ih wordEqual nextSpells nextRemaining stands
          refine ⟨_, last, .cons stepped (by simp) runs, ?_⟩
          exact outcome.imp_right fun reached => reached.shift symbol target
  | @reduce ids stack word id left right found completion ih =>
      cases stands with
      | nil =>
          subst whole
          exact ⟨[], machine, .nil machine,
            .inr (.nothing spells remaining (completion.reduce found))⟩
      | cons firstStands stands =>
          rcases completion.step_reduce wellFormed decided found spells with
            mixed | ⟨target, next, stepped, nextSpells, sameInput⟩
          · exact ⟨[], machine, .nil machine, .inl ⟨_, spells, mixed⟩⟩
          · obtain ⟨steps, last, runs, outcome⟩ := ih whole nextSpells
              (sameInput.trans remaining) (.cons firstStands stands)
            refine ⟨_, last, .cons stepped (by simp) runs, ?_⟩
            exact outcome.imp_right fun reached =>
              reached.reduce id target (List.cons_ne_nil _ _)

/-- When the input is used up, the machine finishes a completion of no word, unless it
comes to a mixed state. -/
theorem finishes (wellFormed : grammar.WellFormed) (decided : (Automaton.build grammar).Decided)
    (completion : grammar.Completion ids stack []) (spells : machine.Spells (.build grammar) stack)
    (finished : machine.remaining = []) :
    ∃ steps last, Runs (Machine.step (.build grammar)) machine steps last ∧
      ((∃ lastStack, last.Spells (.build grammar) lastStack ∧
          (Automaton.build grammar).Mixed last.top) ∨
        Step.shifted steps = [] ∧ Step.reduced steps = ids ∧
          ∃ final, last.step (.build grammar) = (final, .ok .accept)) := by
  generalize whole : ([] : List Symbol) = word at completion
  induction completion generalizing machine with
  | done =>
      have valid := ValidItem.start.advance wellFormed.symbolAtDot_start
      have holds := (spells.holds_iff wellFormed _).mpr valid
      exact ⟨[], machine, .nil machine,
        .inr ⟨rfl, rfl, spells.step_accept wellFormed holds finished⟩⟩
  | shift _ _ _ => cases whole
  | @reduce ids stack word id left right found completion ih =>
      rcases completion.step_reduce wellFormed decided found spells with
        mixed | ⟨target, next, stepped, nextSpells, sameInput⟩
      · exact ⟨[], machine, .nil machine, .inl ⟨_, spells, mixed⟩⟩
      · obtain ⟨steps, last, runs, outcome⟩ := ih nextSpells (sameInput.trans finished) whole
        refine ⟨_, last, .cons stepped (by simp) runs, ?_⟩
        refine outcome.imp_right ?_
        intro given
        rcases given with ⟨shifted, rfl, accepts⟩
        exact ⟨shifted, rfl, accepts⟩

end Completion

/-- On an input that stands for a word the machine does the reductions of every rightmost
derivation of the word and accepts, unless it comes to a mixed state. -/
theorem RightmostDerivation.drives (wellFormed : grammar.WellFormed)
    (decided : (Automaton.build grammar).Decided) {ids : List Nat} {word input : List Symbol}
    (derivation : grammar.RightmostDerivation [grammar.start] ids word)
    (ground : Symbol.Ground word) (stands : List.Forall₂ grammar.StandsFor input word) :
    ∃ steps last, Runs (Machine.step (.build grammar)) (.start input) steps last ∧
      ((∃ stack, last.Spells (.build grammar) stack ∧ (Automaton.build grammar).Mixed last.top) ∨
        Step.shifted steps = word ∧ Step.reduced steps = ids.reverse ∧
          ∃ final, last.step (.build grammar) = (final, .ok .accept)) := by
  have completion := Completion.of_sentence wellFormed derivation ground
  obtain ⟨steps, last, runs, mixed | reached⟩ := completion.drives wellFormed decided
    (List.append_nil word).symm (Machine.start_spells _ input) (List.append_nil input).symm stands
  · exact ⟨steps, last, runs, .inl mixed⟩
  obtain ⟨more, stack, idsEqual, spells, rest⟩ := reached.completion
  obtain ⟨others, final, otherRuns, outcome⟩ :=
    rest.finishes wellFormed decided spells reached.remaining
  refine ⟨steps ++ others, final, runs.trans otherRuns, outcome.imp_right ?_⟩
  intro given
  rcases given with ⟨shifted, rfl, accepts⟩
  rw [Step.shifted_append, Step.reduced_append, shifted, reached.shifted, List.append_nil]
  exact ⟨rfl, idsEqual.symm, accepts⟩

/-! ## Sentences as inputs -/

/-- Sentences consist of terminals that may stand in an input. -/
theorem Sentence.isInput (wellFormed : grammar.WellFormed) {word : List Symbol}
    (sentence : grammar.Sentence word) : ∀ symbol ∈ word, symbol.isInput = true := by
  have start : ∀ symbol ∈ [grammar.start], grammar.Mentions symbol := by
    intro symbol member
    rw [List.mem_singleton.mp member]
    exact .nonterminal wellFormed.start_nonterminal wellFormed.start_ne wellFormed.start_mem
  intro symbol member
  cases sentence.derives.mentions wellFormed start symbol member with
  | terminal input => exact input
  | nonterminal nonterminal _ _ =>
      rw [sentence.ground symbol member] at nonterminal
      cases nonterminal

end Grammar

/-- The characters of the number classes are printable. -/
theorem Dialect.isPrintable_of_isNumber {dialect : Dialect} {symbol : Symbol}
    (number : dialect.isNumber symbol.toChar = true) : symbol.isPrintable = true := by
  have code : symbol.toChar.val.toNat = symbol.byte.toNat := by
    simp [Symbol.toChar, Char.ofUInt8]
  have alphanumeric : symbol.toChar.isAlphanum = true := by
    rw [isNumber] at number
    cases kind : dialect.numberClass with
    | digits =>
        rw [kind, NumberClass.contains] at number
        rw [Char.isAlphanum, number, Bool.or_true]
    | alphanumeric =>
        rw [kind] at number
        exact number
  simp only [Char.isAlphanum, Char.isAlpha, Char.isUpper, Char.isLower, Char.isDigit,
    Bool.or_eq_true, Bool.and_eq_true, decide_eq_true_eq, ge_iff_le, UInt32.le_iff_toNat_le,
    code, Char.reduceVal, UInt32.reduceToNat] at alphanumeric
  simp only [Symbol.isPrintable, Bool.and_eq_true, decide_eq_true_eq, UInt8.le_iff_toNat_le,
    UInt8.reduceToNat]
  omega

/-- A symbol that stands for one of a sentence may stand in an input. -/
theorem Grammar.StandsFor.admits {read symbol : Symbol} (stands : grammar.StandsFor read symbol)
    (input : symbol.isInput = true) : grammar.dialect.admits read = true := by
  cases stands with
  | itself => rw [Dialect.admits, input, Bool.true_or]
  | number number _ =>
      rw [Dialect.admits, Dialect.isPrintable_of_isNumber number, number, Bool.and_self,
        Bool.or_true]

theorem Grammar.Sentence.admits (wellFormed : grammar.WellFormed) {word input : List Symbol}
    (sentence : grammar.Sentence word) (stands : List.Forall₂ grammar.StandsFor input word) :
    ∀ symbol ∈ input, grammar.dialect.admits symbol = true := by
  have inputs := sentence.isInput wellFormed
  clear sentence
  induction stands with
  | nil =>
      intro symbol member
      cases member
  | cons firstStands _ ih =>
      intro symbol member
      rcases List.mem_cons.mp member with rfl | member
      · exact firstStands.admits (inputs _ List.mem_cons_self)
      · exact ih (fun other otherMember => inputs other (List.mem_cons_of_mem _ otherMember))
          symbol member

namespace Automaton

open Step (shifted reduced)

/-- The parse of an input that stands for a sentence accepts after the reductions of any
rightmost derivation of it. -/
theorem Adequate.parse_of_derivation (wellFormed : grammar.WellFormed)
    (adequate : (build grammar).Adequate) {word input : List Symbol} {ids : List Nat}
    (sentence : grammar.Sentence word) (stands : List.Forall₂ grammar.StandsFor input word)
    (derivation : grammar.RightmostDerivation [grammar.start] ids word) :
    ∃ trace, (build grammar).parse input = .ok trace ∧ ids = (reduced trace.steps).reverse := by
  obtain ⟨steps, last, runs, ⟨_, _, mixed⟩ | ⟨_, reductions, final, accepts⟩⟩ :=
    derivation.drives wellFormed adequate.decided sentence.ground stands
  · exact absurd mixed (adequate.not_mixed wellFormed)
  obtain ⟨trace, parsed, recorded⟩ := parse_of_accepts wellFormed
    (sentence.admits wellFormed stands) ⟨last, final, runs, accepts⟩
  refine ⟨trace, parsed, ?_⟩
  rw [recorded, Step.reduced_append, reductions]
  simp

/-- The parser shifts the front of an input that stands for the front of a sentence. The
guard has not interfered by then, since it would be followed by reductions only. -/
theorem Adequate.exists_runs (wellFormed : grammar.WellFormed)
    (adequate : (build grammar).Adequate) {front back read : List Symbol} (rest : List Symbol)
    (sentence : grammar.Sentence (front ++ back))
    (stands : List.Forall₂ grammar.StandsFor read front) :
    ∃ steps last, Runs (Configuration.step (build grammar)) (.start (read ++ rest)) steps last ∧
      shifted steps = front ∧ last.machine.remaining = rest := by
  obtain ⟨ids, derivation⟩ := sentence.exists_rightmost
  have completion := Grammar.Completion.of_sentence wellFormed derivation sentence.ground
  obtain ⟨steps, last, runs, ⟨_, _, mixed⟩ | reached⟩ :=
    completion.drives wellFormed adequate.decided rfl
      (Machine.start_spells _ (read ++ rest)) rfl stands
  · exact absurd mixed (adequate.not_mixed wellFormed)
  have tracks := Configuration.start_tracks grammar (read ++ rest)
  rcases tracks.follows wellFormed runs with
    ⟨final, guardedRuns, rfl⟩ | ⟨_, before, production, state, reducing⟩
  · exact ⟨steps, final, guardedRuns, reached.shifted, reached.remaining⟩
  · rcases reached.ends with rfl | ⟨others, symbol, target, shifting⟩
    · simp at reducing
    · rw [shifting] at reducing
      cases (List.append_inj' reducing rfl).2

/-- An adequate automaton parses every input that stands for a sentence, and its
reductions, read backwards, are the only rightmost derivation of the sentence. If only
the front of an input stands for that of a sentence, the parser shifts all of it before
a step can fail. -/
theorem parse_complete (loaded : grammar.Loaded) (adequate : (build grammar).Adequate) :
    (∀ word input, grammar.Sentence word → List.Forall₂ grammar.StandsFor input word →
      ∃ trace, (build grammar).parse input = .ok trace ∧
        ∀ ids, grammar.RightmostDerivation [grammar.start] ids word ↔
          ids = (reduced trace.steps).reverse) ∧
      ∀ front back read rest, grammar.Sentence (front ++ back) →
        List.Forall₂ grammar.StandsFor read front →
          ∃ steps last,
            Runs (Configuration.step (build grammar)) (.start (read ++ rest)) steps last ∧
              shifted steps = front ∧ last.machine.remaining = rest ∧
              ∀ others outcome,
                Ends (Configuration.step (build grammar)) (.start (read ++ rest)) others
                  outcome → steps <+: others := by
  have wellFormed := loaded.wellFormed
  constructor
  · intro word input sentence stands
    obtain ⟨first, derivation⟩ := sentence.exists_rightmost
    obtain ⟨trace, parsed, firstEqual⟩ :=
      adequate.parse_of_derivation wellFormed sentence stands derivation
    refine ⟨trace, parsed, ?_⟩
    intro ids
    constructor
    · intro other
      obtain ⟨otherTrace, otherParsed, equal⟩ :=
        adequate.parse_of_derivation wellFormed sentence stands other
      rw [parsed, Except.ok.injEq] at otherParsed
      rw [equal, otherParsed]
    · intro equal
      subst equal
      exact firstEqual ▸ derivation
  · intro front back read rest sentence stands
    obtain ⟨steps, last, runs, shiftedFront, remaining⟩ :=
      adequate.exists_runs wellFormed rest sentence stands
    refine ⟨steps, last, runs, shiftedFront, remaining, ?_⟩
    rintro others outcome ⟨otherLast, final, otherRuns, ended⟩
    obtain ⟨more, equal, _⟩ := otherRuns.passes ended runs
    exact ⟨more, equal.symm⟩

end Automaton

theorem Grammar.sums_adequate : (Automaton.build sums).Adequate := by
  have decided : decide (Automaton.build sums).Adequate = true := by cbv
  exact of_decide_eq_true decided

theorem Grammar.sums_sentence :
    sums.Sentence [.ofChar 'n', .ofChar '+', .ofChar 'n'] := by
  have grows : sums.Rewrites [.ofChar 'E'] [.ofChar 'E', .ofChar '+', .ofChar 'n'] :=
    .intro [] [] (show sums.production? 1 = _ from rfl)
  have ends : sums.Rewrites [.ofChar 'E', .ofChar '+', .ofChar 'n']
      [.ofChar 'n', .ofChar '+', .ofChar 'n'] :=
    .intro [] [.ofChar '+', .ofChar 'n'] (show sums.production? 2 = _ from rfl)
  exact ⟨.tail (.single grows) ends, by decide⟩

/-- A sum of two digits is parsed, and the sum of two numbers has one derivation. -/
theorem Automaton.parse_complete_sums :
    ∃ trace, (build .sums).parse [.ofChar '1', .ofChar '+', .ofChar '2'] = .ok trace ∧
      ∀ ids, Grammar.sums.RightmostDerivation [.ofChar 'E'] ids
          [.ofChar 'n', .ofChar '+', .ofChar 'n'] ↔ ids = (Step.reduced trace.steps).reverse := by
  have stands : List.Forall₂ Grammar.sums.StandsFor [.ofChar '1', .ofChar '+', .ofChar '2']
      [.ofChar 'n', .ofChar '+', .ofChar 'n'] :=
    .cons (.number (by decide) (by decide))
      (.cons .itself (.cons (.number (by decide) (by decide)) .nil))
  exact (parse_complete Grammar.sums_loaded Grammar.sums_adequate).1 _ _ Grammar.sums_sentence
    stands

end ShiftReduce
