import ShiftReduce.Proofs.Parser.Completeness

/-!
# What an empty report of conflicts means

The report leaves the augmented production out, so it is silent about a state in which
accepting and a reduction are both possible.  There the parser accepts or refuses and
never reduces.  Without conflicts this is the only way in which a sentence can be
rejected, and a grammar shows that it happens.  Main statement:
`Automaton.parse_of_conflicts_nil`.
-/

namespace ShiftReduce

variable {grammar : Grammar}

namespace Machine

namespace Spells

variable {machine : Machine} {stack : List Symbol}

/-- A run takes its symbols from the front of the input. -/
theorem remaining_suffix (wellFormed : grammar.WellFormed)
    (spells : machine.Spells (.build grammar) stack) {steps : List Step} {last : Machine}
    (runs : Runs (Machine.step (.build grammar)) machine steps last) :
    last.remaining <:+ machine.remaining := by
  induction runs generalizing stack with
  | nil => exact List.suffix_rfl
  | cons stepped notLast _ ih =>
      cases spells.step_move wellFormed stepped with
      | shift _ shifts => exact (ih (spells.shift shifts)).trans (List.tail_suffix _)
      | reduce _ _ _ _ whole moves => exact ih (spells.reduce whole moves)
      | accept _ _ _ => exact absurd rfl notLast

/-- In a mixed state the stack is the start symbol, and the machine accepts or refuses
the rest of the input. -/
theorem step_mixed (wellFormed : grammar.WellFormed)
    (decided : (Automaton.build grammar).Decided)
    (spells : machine.Spells (.build grammar) stack)
    (mixed : (Automaton.build grammar).Mixed machine.top) :
    stack = [grammar.start] ∧
      ((∃ final, machine.step (.build grammar) = (final, .ok .accept)) ∨
        machine.remaining ≠ [] ∧
          machine.step (.build grammar) = (machine, .error (machine.refuse .inputLeft))) := by
  obtain ⟨accept, item, holds, complete, proper⟩ := mixed
  have settles := decided _ item holds complete proper
  have completes := Automaton.completes_accept wellFormed accept
  cases stepped : machine.step (.build grammar) with
  | mk next answer =>
      cases spells.step_move wellFormed stepped with
      | shift _ shifts => exact absurd shifts (idle_of_settles wellFormed settles _ _ _)
      | reduce _ otherCompletes otherProper _ _ _ =>
          obtain rfl := completes.unique otherCompletes
          exact absurd rfl otherProper
      | accept _ _ whole => exact ⟨whole, .inl ⟨_, rfl⟩⟩
      | inputLeft unfinished _ _ whole => exact ⟨whole, .inr ⟨unfinished, rfl⟩⟩
      | noAction _ incomplete =>
          cases wellFormed.isComplete_accept.symm.trans (incomplete _ accept)

/-- The state over the start symbol alone is the one that it leads to from the first. -/
theorem goto_start {automaton : Automaton} {start : Symbol}
    (spells : machine.Spells automaton [start]) :
    automaton.goto 0 start = some machine.top := by
  obtain ⟨rest, path⟩ := spells.path_top
  cases path with
  | follow below moves =>
      cases below
      exact moves

end Spells

end Machine

namespace Automaton

/-- Without conflicts every sentence that is given literally is accepted, or it is
rejected at one of its symbols in the state over the start symbol, and only if this
state is mixed. -/
theorem parse_of_conflicts_nil (loaded : grammar.Loaded)
    (none : (build grammar).conflicts = []) {word : List Symbol}
    (sentence : grammar.Sentence word) :
    (∃ trace, (build grammar).parse word = .ok trace) ∨
      ∃ symbol ∈ word, ∃ state,
        (build grammar).parse word = .error (.rejected symbol state) ∧
          (build grammar).goto 0 grammar.start = some state ∧
            (build grammar).Mixed state := by
  have wellFormed := loaded.wellFormed
  have decided := decided_of_conflicts none
  have literal : List.Forall₂ grammar.StandsFor word word :=
    List.forall₂_same.mpr fun _ _ => .itself
  have admitted := sentence.admits wellFormed literal
  obtain ⟨ids, derivation⟩ := sentence.exists_rightmost
  obtain ⟨steps, last, runs, ⟨stack, spells, mixed⟩ | ⟨_, _, final, accepts⟩⟩ :=
    derivation.drives wellFormed decided sentence.ground literal
  · obtain ⟨rfl, ⟨final, accepts⟩ | ⟨unfinished, refused⟩⟩ :=
      spells.step_mixed wellFormed decided mixed
    · obtain ⟨trace, parsed, _⟩ :=
        parse_of_accepts wellFormed admitted ⟨last, final, runs, accepts⟩
      exact .inl ⟨trace, parsed⟩
    · right
      obtain ⟨symbol, rest, remaining⟩ := List.exists_cons_of_ne_nil unfinished
      have suffix := (Machine.start_spells _ word).remaining_suffix wellFormed runs
      have member : symbol ∈ last.remaining := remaining ▸ List.mem_cons_self
      have next : last.next = symbol := by
        rw [Machine.next, remaining]
        rfl
      refine ⟨symbol, suffix.subset member, last.top, ?_, spells.goto_start, mixed⟩
      rw [← next]
      exact parse_of_refuses wellFormed admitted ⟨last, last, runs, refused⟩
  · obtain ⟨trace, parsed, _⟩ :=
      parse_of_accepts wellFormed admitted ⟨last, final, runs, accepts⟩
    exact .inl ⟨trace, parsed⟩

end Automaton

/-- A grammar whose start symbol is wrapped by itself, `S -> Ab | a` with `A -> S`. -/
def Grammar.wrapped : Grammar where
  dialect := .standard
  start := .ofChar 'S'
  productions := #[⟨.ofChar 'Y', [.ofChar 'S']⟩, ⟨.ofChar 'S', [.ofChar 'A', .ofChar 'b']⟩,
    ⟨.ofChar 'S', [.ofChar 'a']⟩, ⟨.ofChar 'A', [.ofChar 'S']⟩]
  alternatives := [(.ofChar 'Y', [0]), (.ofChar 'S', [1, 2]), (.ofChar 'A', [3])]
  terminals := [.ofChar 'b', .ofChar 'a', .endMarker]

theorem Grammar.wrapped_loaded : Loaded wrapped := by
  have loads : ofRules .standard [(.ofChar 'S', [[.ofChar 'A', .ofChar 'b'], [.ofChar 'a']]),
      (.ofChar 'A', [[.ofChar 'S']])] = .ok wrapped := rfl
  exact .rules loads

theorem Grammar.wrapped_sentence : wrapped.Sentence [.ofChar 'a', .ofChar 'b'] := by
  have wraps : wrapped.Rewrites [.ofChar 'S'] [.ofChar 'A', .ofChar 'b'] :=
    .intro [] [] (show wrapped.production? 1 = _ from rfl)
  have unwraps : wrapped.Rewrites [.ofChar 'A', .ofChar 'b'] [.ofChar 'S', .ofChar 'b'] :=
    .intro [] [.ofChar 'b'] (show wrapped.production? 3 = _ from rfl)
  have ends : wrapped.Rewrites [.ofChar 'S', .ofChar 'b'] [.ofChar 'a', .ofChar 'b'] :=
    .intro [] [.ofChar 'b'] (show wrapped.production? 2 = _ from rfl)
  exact ⟨.tail (.tail (.single wraps) unwraps) ends, by decide⟩

theorem Grammar.wrapped_conflicts : (Automaton.build wrapped).conflicts = [] := by
  cbv

/-- An empty report does not certify the parser: the wrapped start symbol is a sentence,
but the parser wants to accept when it has only read the inner one. -/
theorem Automaton.conflicts_nil_rejects :
    Grammar.wrapped.Loaded ∧ (build .wrapped).conflicts = [] ∧
      Grammar.wrapped.Sentence [.ofChar 'a', .ofChar 'b'] ∧
        (build .wrapped).parse [.ofChar 'a', .ofChar 'b'] =
          .error (.rejected (.ofChar 'b') 1) := by
  have rejected : (build .wrapped).parse [.ofChar 'a', .ofChar 'b'] =
      .error (.rejected (.ofChar 'b') 1) := by
    cbv
  exact ⟨Grammar.wrapped_loaded, Grammar.wrapped_conflicts, Grammar.wrapped_sentence, rejected⟩

/-- The rejection of the wrapped start symbol is the one that the mixed state explains. -/
theorem Automaton.parse_of_conflicts_nil_wrapped :
    (∃ trace, (build .wrapped).parse [.ofChar 'a', .ofChar 'b'] = .ok trace) ∨
      ∃ symbol ∈ [Symbol.ofChar 'a', .ofChar 'b'], ∃ state,
        (build .wrapped).parse [.ofChar 'a', .ofChar 'b'] = .error (.rejected symbol state) ∧
          (build .wrapped).goto 0 (.ofChar 'S') = some state ∧ (build .wrapped).Mixed state :=
  parse_of_conflicts_nil Grammar.wrapped_loaded Grammar.wrapped_conflicts
    Grammar.wrapped_sentence

end ShiftReduce
