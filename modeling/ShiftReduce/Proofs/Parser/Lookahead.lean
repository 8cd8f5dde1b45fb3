import ShiftReduce.Proofs.Analysis.Follow
import ShiftReduce.Proofs.Parser.Soundness

/-!
# Lookahead

The parser reduces without a look at the next symbol.  FOLLOW sets nevertheless agree with
every parse that is accepted: behind each reduction comes a symbol of the FOLLOW set of
the nonterminal that was reduced to.  From the point of a reduction on, the remaining
steps derive the stack and what is still to be shifted from the start symbol, so the
nonterminal on top of the stack stands before the next symbol in a sentential form.
Main statement: `Automaton.reduce_followed`.
-/

namespace ShiftReduce

variable {grammar : Grammar}

namespace Configuration

/-- The start symbol derives the stack at any point of a run that accepts, followed by what
the run has yet to shift. The induction is on the rest of the run: a shift moves a symbol
from there to the stack, and a reduction is undone on the stack. -/
theorem derives_of_runs (wellFormed : grammar.WellFormed) {place last final : Configuration}
    {steps : List Step} {stack : List Symbol}
    (runs : Runs (Configuration.step (.build grammar)) place steps last)
    (accepted : last.step (.build grammar) = (final, .ok .accept))
    (spells : place.machine.Spells (.build grammar) stack) :
    grammar.Derives [grammar.start] (stack.reverse ++ Step.shifted steps) := by
  induction runs generalizing stack with
  | nil place =>
      cases step_move spells.running accepted with
      | accept stepped =>
          cases spells.step_move wellFormed stepped with
          | accept _ _ whole =>
              subst whole
              exact .refl
  | cons stepped notLast _ ih =>
      cases step_move spells.running stepped with
      | shift machineStepped =>
          cases spells.step_move wellFormed machineStepped with
          | shift _ shifts =>
              have derives := ih accepted (spells.shift shifts)
              rw [List.reverse_cons, List.append_assoc] at derives
              exact derives
      | reduce machineStepped _ =>
          cases spells.step_move wellFormed machineStepped with
          | reduce _ _ _ found whole moves =>
              have derives := ih accepted (spells.reduce whole moves)
              subst whole
              exact derives.tail (.unreduce found _ _)
      | accept _ => exact absurd rfl notLast

/-- What a reduction reduces to stands, in a form that the start symbol derives, before what
the run has yet to shift. -/
theorem exists_form_of_reduce (wellFormed : grammar.WellFormed)
    {place next last final : Configuration} {stack : List Symbol} {id state : Nat}
    {steps : List Step} (spells : place.machine.Spells (.build grammar) stack)
    (reduced : place.step (.build grammar) = (next, .ok (.reduce id state)))
    (runs : Runs (Configuration.step (.build grammar)) next steps last)
    (accepted : last.step (.build grammar) = (final, .ok .accept)) :
    ∃ production below, grammar.production? id = some production ∧
      grammar.Derives [grammar.start] (below ++ production.left :: Step.shifted steps) := by
  cases step_move spells.running reduced with
  | reduce machineStepped _ =>
      cases spells.step_move wellFormed machineStepped with
      | @reduce item right below _ _ _ _ found whole moves =>
          have derives := derives_of_runs wellFormed runs accepted (spells.reduce whole moves)
          rw [List.reverse_cons, List.append_assoc] at derives
          exact ⟨_, below.reverse, found, derives⟩

end Configuration

namespace Automaton

/-- In an accepted parse the symbol that is shifted next after a reduction, or the end marker
if none is, belongs to the FOLLOW set of the left-hand side of the production. -/
theorem reduce_followed (loaded : grammar.Loaded) {input : List Symbol} {trace : Trace}
    (parsed : (build grammar).parse input = .ok trace) (before after : List Step)
    {id state : Nat} (recorded : trace.steps = before ++ .reduce id state :: after) :
    ∃ production, grammar.production? id = some production ∧
      (Step.shifted after).headD Symbol.endMarker ∈
        (grammar.followSets grammar.firstSets).get production.left := by
  have wellFormed := loaded.wellFormed
  obtain ⟨steps, last, final, runs, accepted, rfl⟩ := exists_run_of_parse parsed
  have justified := Configuration.justified_of_runs wellFormed runs
  have stepsEqual := Configuration.steps_of_runs runs
  obtain ⟨_, lastSpells, _⟩ := justified.derivation
  have whole : steps ++ [.accept] = before ++ .reduce id state :: after := by
    rw [← stepsEqual, ← recorded]
    exact (Configuration.steps_of_accept lastSpells.running accepted).symm
  rcases split_append whole with ⟨rest, rfl, rfl⟩ | ⟨middle, _, absent⟩
  · obtain ⟨place, front, back⟩ := runs.exists_middle
    obtain ⟨_, spells, _⟩ := (Configuration.justified_of_runs wellFormed front).derivation
    have terminal : ∀ symbol ∈ Step.shifted rest, symbol.isTerminal = true := by
      intro symbol member
      apply justified.terminal
      rw [← List.mem_reverse, ← Step.shifted_reverse]
      change symbol ∈ Step.shifted last.steps
      rw [stepsEqual, Step.shifted_append]
      exact List.mem_append_right _ member
    cases back with
    | cons stepped _ back =>
        obtain ⟨production, below, found, form⟩ :=
          Configuration.exists_form_of_reduce wellFormed spells stepped back accepted
        refine ⟨production, found, ?_⟩
        rw [Step.shifted_append, Step.shifted_accept, Step.shifted_nil, List.append_nil]
        exact wellFormed.mem_followSets_of_derives form (wellFormed.left_nonterminal found)
          (FirstSets.headD_mem_ofSequence terminal)
  · have recorded : Step.reduce id state ∈ [Step.accept] :=
      absent ▸ List.mem_append_right middle List.mem_cons_self
    cases List.mem_singleton.mp recorded

/-- In the parse of a sum of two digits the number in front is reduced before a plus sign,
which follows a sum, and the sum at the end of the input, which the end marker follows. -/
theorem reduce_followed_sums :
    ∃ trace, (build .sums).parse [.ofChar '1', .ofChar '+', .ofChar '2'] = .ok trace ∧
      trace.steps = [.shift (.ofChar 'n') 2, .reduce 2 1, .shift (.ofChar '+') 3,
        .shift (.ofChar 'n') 4, .reduce 1 1, .accept] ∧
      (∃ production, Grammar.sums.production? 2 = some production ∧
        .ofChar '+' ∈ (Grammar.sums.followSets Grammar.sums.firstSets).get production.left) ∧
      ∃ production, Grammar.sums.production? 1 = some production ∧
        .endMarker ∈ (Grammar.sums.followSets Grammar.sums.firstSets).get production.left := by
  have parsed : (build .sums).parse [.ofChar '1', .ofChar '+', .ofChar '2'] =
      .ok ⟨[.shift (.ofChar 'n') 2, .reduce 2 1, .shift (.ofChar '+') 3, .shift (.ofChar 'n') 4,
        .reduce 1 1, .accept], ⟨3, 3, 2⟩⟩ := by
    cbv
  have number := reduce_followed Grammar.sums_loaded parsed [.shift (.ofChar 'n') 2]
    [.shift (.ofChar '+') 3, .shift (.ofChar 'n') 4, .reduce 1 1, .accept] rfl
  have sum := reduce_followed Grammar.sums_loaded parsed
    [.shift (.ofChar 'n') 2, .reduce 2 1, .shift (.ofChar '+') 3, .shift (.ofChar 'n') 4]
    [.accept] rfl
  exact ⟨_, parsed, rfl, number, sum⟩

end Automaton

end ShiftReduce
