import ShiftReduce.Proofs.Parser.Guard
import ShiftReduce.Proofs.Parser.Soundness

/-!
# Valid prefixes

What a parse has read so far can always be continued to a sentential form.  The stack of
symbols derives what was shifted, since a reduction replaces a right-hand side by the
nonterminal that it came from, even where the guard then refuses it.  The items of the
topmost state are valid for the stack, and whatever stands behind the dots on the way to
such an item completes the stack to a form that the start symbol derives.  That form need
not lead to a sentence, because nonterminals may derive none.
Main statement: `Automaton.prefix_valid`.
-/

namespace ShiftReduce

variable {grammar : Grammar} {input : List Symbol}

namespace Grammar

/-! ## Forms that begin with a stack -/

/-- The augmented start derives what the start symbol derives. -/
theorem WellFormed.derives_of_start (wellFormed : grammar.WellFormed) {form : List Symbol}
    (derives : grammar.Derives [grammar.start] form) :
    grammar.Derives [grammar.augmentedStart] form :=
  .head (.intro [] [] wellFormed.augmented) derives

/-- If an item is valid for a stack, the start symbol derives a form that consists of the
stack, of what is behind the dot of the item, and of something more. -/
theorem ValidItem.exists_form (wellFormed : grammar.WellFormed) {stack : List Symbol} {item : Item}
    (valid : grammar.ValidItem stack item) :
    ∃ behind, grammar.Derives [grammar.start]
      (stack.reverse ++ ((grammar.right item.production).drop item.dot ++ behind)) := by
  induction valid with
  | start =>
      refine ⟨[], ?_⟩
      change grammar.Derives _ ((grammar.right augmentedProduction).drop 0 ++ [])
      rw [wellFormed.right_augmented]
      exact .refl
  | @advance stack item symbol _ behindDot ih =>
      obtain ⟨behind, derives⟩ := ih
      obtain ⟨bound, equal⟩ := List.getElem?_eq_some_iff.mp behindDot
      refine ⟨behind, ?_⟩
      rw [List.drop_eq_getElem_cons bound, equal] at derives
      rw [List.reverse_cons, List.append_assoc]
      exact derives
  | @expand stack item left id right _ behindDot found ih =>
      obtain ⟨behind, derives⟩ := ih
      obtain ⟨bound, equal⟩ := List.getElem?_eq_some_iff.mp behindDot
      refine ⟨(grammar.right item.production).drop (item.dot + 1) ++ behind, ?_⟩
      rw [List.drop_eq_getElem_cons bound, equal] at derives
      change grammar.Derives _ (stack.reverse ++ ((grammar.right id).drop 0 ++ _))
      rw [right_eq_of_production? found, List.drop_zero, ← List.append_assoc]
      exact derives.tail (.intro stack.reverse _ found)

end Grammar

namespace Machine

variable {machine next : Machine} {stack : List Symbol}

/-- A stack over which a machine spells its states begins a form that the start symbol
derives. -/
theorem Spells.exists_form (wellFormed : grammar.WellFormed)
    (spells : machine.Spells (.build grammar) stack) :
    ∃ behind, grammar.Derives [grammar.start] (stack.reverse ++ behind) := by
  obtain ⟨item, valid⟩ := (Automaton.exists_path_iff wellFormed).mp ⟨_, spells.path⟩
  obtain ⟨behind, derives⟩ := valid.exists_form wellFormed
  exact ⟨_, derives⟩

/-- A reduction goes from a stack to one that derives it. -/
theorem Move.derives_of_reduce {production target : Nat} {word : List Symbol}
    (move : machine.Move (.build grammar) stack next (.ok (.reduce production target)))
    (spells : machine.Spells (.build grammar) stack)
    (derives : grammar.Derives stack.reverse word) :
    ∃ nextStack, next.Spells (.build grammar) nextStack ∧
      grammar.Derives nextStack.reverse word := by
  cases move with
  | @reduce item right below target _ _ _ found whole moves =>
      subst whole
      refine ⟨_, spells.reduce rfl moves, .head ?_ derives⟩
      have rewrites := Grammar.Rewrites.unreduce found below []
      rw [List.append_nil, List.append_nil] at rewrites
      exact rewrites

end Machine

namespace Configuration

variable {configuration next : Configuration} {answer : Except Refusal Step}

/-- A refused step reports the next symbol and the topmost state, as they were before it. -/
theorem refusal_eq (wellFormed : grammar.WellFormed) {stack : List Symbol}
    (spells : configuration.machine.Spells (.build grammar) stack) {refusal : Refusal}
    (stepped : configuration.step (.build grammar) = (next, .error refusal)) :
    refusal = configuration.machine.refuse refusal.cause := by
  cases step_move spells.running stepped with
  | refused machineStepped => exact (spells.step_move wellFormed machineStepped).refusal_eq.2
  | cycle _ _ => rfl

/-- The stack of symbols derives what was shifted. -/
def Derives (grammar : Grammar) (configuration : Configuration) : Prop :=
  ∃ stack, configuration.machine.Spells (.build grammar) stack ∧
    grammar.Derives stack.reverse (Step.shifted configuration.done).reverse

/-- Every step that does not accept keeps this, whether or not it is refused. -/
theorem Derives.of_move (wellFormed : grammar.WellFormed) (derives : Derives grammar configuration)
    (move : configuration.Move (.build grammar) next answer) (notLast : answer ≠ .ok .accept) :
    Derives grammar next := by
  obtain ⟨stack, spells, derivation⟩ := derives
  cases move with
  | refused stepped =>
      obtain ⟨rfl, _⟩ := (spells.step_move wellFormed stepped).refusal_eq
      exact ⟨stack, spells, derivation⟩
  | shift stepped =>
      cases spells.step_move wellFormed stepped with
      | shift _ shifts =>
          refine ⟨_, spells.shift shifts, ?_⟩
          simpa [afterShift] using derivation.append_right [_]
  | reduce stepped _ | cycle stepped _ =>
      exact (spells.step_move wellFormed stepped).derives_of_reduce spells derivation
  | accept _ => exact absurd rfl notLast

theorem accepted_or_derives (wellFormed : grammar.WellFormed)
    (reached : Reached (Configuration.step (.build grammar)) (.start input) configuration) :
    configuration.machine.accepted = true ∨ Derives grammar configuration :=
  accepted_or_of_reached (Derives grammar)
    (fun derives running stepped notLast =>
      derives.of_move wellFormed (step_move running stepped) notLast)
    reached ⟨[], Machine.start_spells _ input, .refl⟩

end Configuration

namespace Dialect

/-- The end marker stands in no input. -/
theorem admits_endMarker (dialect : Dialect) : dialect.admits Symbol.endMarker = false := by
  rw [admits, isNumber]
  cases dialect.numberClass <;> decide

/-- In an input that may be parsed, the end marker is next only if nothing is left. -/
theorem headD_eq_endMarker_iff {dialect : Dialect} {rest : List Symbol}
    (admitted : ∀ symbol ∈ rest, dialect.admits symbol = true) :
    rest.headD Symbol.endMarker = Symbol.endMarker ↔ rest = [] := by
  cases rest with
  | nil => simp
  | cons first rest =>
      have firstAdmitted := admitted first List.mem_cons_self
      simp only [List.headD_cons, List.cons_ne_nil, iff_false]
      rintro rfl
      rw [admits_endMarker] at firstAdmitted
      cases firstAdmitted

end Dialect

namespace Automaton

/-- Until a step accepts, and whether or not steps were refused, the stack of symbols
derives what was shifted and begins a sentential form; as long as no step was refused, the
reductions done, the last one first, are a rightmost derivation of what was shifted. So a
parse that rejects has shifted all that stands before the symbol that it reports, which
is the end marker just if the input is used up, and what was shifted begins a form that
the start symbol derives. -/
theorem prefix_valid (loaded : grammar.Loaded) (input : List Symbol) :
    (∀ configuration, Reached (Configuration.step (build grammar)) (.start input) configuration →
      configuration.machine.accepted = false →
        ∃ stack, configuration.machine.symbols = stack ++ [Symbol.endMarker] ∧
          grammar.Derives stack.reverse (Step.shifted configuration.steps) ∧
            ∃ behind, grammar.Derives [grammar.augmentedStart] (stack.reverse ++ behind) ∧
              grammar.Derives [grammar.augmentedStart]
                (Step.shifted configuration.steps ++ behind)) ∧
      (∀ steps configuration,
        Runs (Configuration.step (build grammar)) (.start input) steps configuration →
          ∃ stack, configuration.machine.symbols = stack ++ [Symbol.endMarker] ∧
            grammar.RightmostDerivation stack.reverse (Step.reduced configuration.steps).reverse
              (Step.shifted configuration.steps)) ∧
      ∀ symbol state, (build grammar).parse input = .error (.rejected symbol state) →
        ∃ final refusal read rest, (build grammar).runInput input = (final, some refusal) ∧
          input = read ++ rest ∧
            List.Forall₂ grammar.dialect.Reads read (Step.shifted final.steps) ∧
              (∃ behind, grammar.Derives [grammar.start] (Step.shifted final.steps ++ behind)) ∧
                symbol = rest.headD Symbol.endMarker ∧
                  (symbol = Symbol.endMarker ↔ rest = []) := by
  have wellFormed := loaded.wellFormed
  refine ⟨?_, ?_, ?_⟩
  · intro configuration reached running
    obtain ⟨stack, spells, derives⟩ :=
      (Configuration.accepted_or_derives wellFormed reached).resolve_left (by simp [running])
    obtain ⟨behind, form⟩ := spells.exists_form wellFormed
    rw [← Step.shifted_reverse] at derives
    exact ⟨stack, spells.symbols_eq, derives, behind, wellFormed.derives_of_start form,
      wellFormed.derives_of_start (form.trans (derives.append_right behind))⟩
  · intro steps configuration runs
    obtain ⟨stack, spells, derivation⟩ :=
      (Configuration.justified_of_runs wellFormed runs).derivation
    refine ⟨stack, spells.symbols_eq, ?_⟩
    rw [Configuration.steps, Step.reduced_reverse, Step.shifted_reverse, List.reverse_reverse]
    exact derivation
  · intro symbol state parsed
    obtain ⟨admitted, steps, last, final, refusal, runs, stepped, result, rfl, rfl⟩ :=
      exists_run_of_rejected parsed
    have justified := Configuration.justified_of_runs wellFormed runs
    obtain ⟨stack, spells, derivation⟩ := justified.derivation
    obtain ⟨read, whole, reads⟩ := justified.reads
    have recorded : Step.shifted final.steps = (Step.shifted last.done).reverse := by
      rw [Configuration.steps, Configuration.done_of_refused stepped, Step.shifted_reverse]
    obtain ⟨behind, form⟩ := spells.exists_form wellFormed
    have reported : refusal.symbol = last.machine.remaining.headD Symbol.endMarker :=
      congrArg Refusal.symbol (Configuration.refusal_eq wellFormed spells stepped)
    refine ⟨final, refusal, read, last.machine.remaining, result, whole, recorded ▸ reads,
      ⟨behind, ?_⟩, reported, ?_⟩
    · rw [recorded]
      exact form.trans (derivation.derives.append_right behind)
    · rw [reported]
      apply Dialect.headD_eq_endMarker_iff
      intro other member
      exact admitted other (whole ▸ List.mem_append_right read member)

/-- A sum that ends with a plus sign is rejected at its end, when its first number and the
plus sign have been shifted, and these begin a sum. Without input the growing machine is
refused with six nonterminals on its stack, of which five are from recorded reductions;
they derive nothing and begin a form. -/
theorem prefix_valid_refused :
    (∃ final refusal read rest,
        (build .sums).runInput [.ofChar '1', .ofChar '+'] = (final, some refusal) ∧
          [.ofChar '1', .ofChar '+'] = read ++ rest ∧
            List.Forall₂ Grammar.sums.dialect.Reads read (Step.shifted final.steps) ∧
              (∃ behind, Grammar.sums.Derives [.ofChar 'E'] (Step.shifted final.steps ++ behind)) ∧
                Symbol.endMarker = rest.headD Symbol.endMarker ∧
                  (Symbol.endMarker = Symbol.endMarker ↔ rest = [])) ∧
      ∃ configuration, Reached (Configuration.step (build .growing)) (.start []) configuration ∧
        configuration.machine.symbols = List.replicate 6 (.ofChar 'B') ++ [.endMarker] ∧
          configuration.statistics = ⟨0, 0, 5⟩ ∧
            ∃ stack, configuration.machine.symbols = stack ++ [.endMarker] ∧
              Grammar.growing.Derives stack.reverse (Step.shifted configuration.steps) ∧
                ∃ behind, Grammar.growing.Derives [.ofChar 'Y'] (stack.reverse ++ behind) ∧
                  Grammar.growing.Derives [.ofChar 'Y']
                    (Step.shifted configuration.steps ++ behind) := by
  have rejected : (build .sums).parse [.ofChar '1', .ofChar '+'] =
      .error (.rejected .endMarker 3) := by
    cbv
  obtain ⟨steps, last, runs, ended⟩ :=
    Configuration.run_ends (.start []) (Machine.start_within (build .growing) [])
  have refused := (Reached.refl.of_runs runs).tail
  rw [ended] at refused
  have running : ((build .growing).runInput []).1.machine.accepted = false := by
    cbv
  have symbols : ((build .growing).runInput []).1.machine.symbols =
      List.replicate 6 (.ofChar 'B') ++ [.endMarker] := by
    cbv
  have statistics : ((build .growing).runInput []).1.statistics = ⟨0, 0, 5⟩ := by
    cbv
  exact ⟨(prefix_valid Grammar.sums_loaded _).2.2 _ _ rejected, _, refused, symbols, statistics,
    (prefix_valid Grammar.growing_loaded []).1 _ refused running⟩

end Automaton

end ShiftReduce
