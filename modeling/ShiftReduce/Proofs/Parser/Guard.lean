import Mathlib.Tactic
import ShiftReduce.Proofs.Parser.Reductions
import ShiftReduce.Proofs.Parser.Runs

/-!
# What the guard refuses

The guard of a configuration refuses a reduction exactly when the bare machine would
reduce for ever.  A configuration remembers stacks that reductions have led through
since the last shift, so a stack met again is a cycle, and a stack that has grown by
more than the number of states holds one.  Apart from that a configuration does what its
machine does.  Main statements: `Configuration.Tracks.follows`, which carries runs of
the machine over to the configuration, and `Automaton.guard_exact`.  `Mathlib.Tactic` is
there for the evaluation of the example's automaton.
-/

namespace ShiftReduce

open Relation (ReflTransGen TransGen)

variable {grammar : Grammar}

namespace Machine

variable {machine next : Machine} {stack : List Symbol}

/-- Wherever a machine gets to, its next step is a reduction. -/
def ReducesForever (automaton : Automaton) (machine : Machine) : Prop :=
  ∀ steps last, Runs (step automaton) machine steps last →
    ∃ production state next, last.step automaton = (next, .ok (.reduce production state))

namespace ReducesForever

variable {automaton : Automaton}

/-- A step of a machine that reduces for ever is a reduction and leads to another one. -/
theorem step (forever : machine.ReducesForever automaton) {done : Step}
    (stepped : machine.step automaton = (next, .ok done)) :
    (∃ production state, done = .reduce production state) ∧ next.ReducesForever automaton := by
  obtain ⟨production, state, after, reduced⟩ := forever [] machine (.nil machine)
  rw [stepped, Prod.mk.injEq, Except.ok.injEq] at reduced
  obtain ⟨_, rfl⟩ := reduced
  refine ⟨⟨production, state, rfl⟩, ?_⟩
  intro steps last runs
  exact forever _ last (.cons stepped (by simp) runs)

/-- A run of a machine that reduces for ever is empty or ends with a reduction. -/
theorem run (forever : machine.ReducesForever automaton) {steps : List Step} {last : Machine}
    (runs : Runs (Machine.step automaton) machine steps last) :
    last.ReducesForever automaton ∧
      (steps = [] ∨ ∃ before production state, steps = before ++ [.reduce production state]) := by
  induction runs with
  | nil => exact ⟨forever, .inl rfl⟩
  | cons stepped _ _ ih =>
      obtain ⟨⟨production, state, rfl⟩, nextForever⟩ := forever.step stepped
      obtain ⟨lastForever, rest⟩ := ih nextForever
      refine ⟨lastForever, .inr ?_⟩
      rcases rest with rfl | ⟨before, other, target, rfl⟩
      · exact ⟨[], production, state, rfl⟩
      · exact ⟨_ :: before, other, target, rfl⟩

/-- A machine that reduces for ever does not end. -/
theorem not_ends (forever : machine.ReducesForever automaton) (outcome : Option Refusal) :
    machine.step automaton ≠ (next, lastAnswer outcome) := by
  intro stepped
  obtain ⟨_, _, _, reduced⟩ := forever [] machine (.nil machine)
  rw [reduced] at stepped
  cases outcome <;> cases stepped

end ReducesForever

namespace Spells

/-- A reduction of the machine is one on its stack of states. -/
theorem reduces (wellFormed : grammar.WellFormed)
    (spells : machine.Spells (.build grammar) stack) {production target : Nat}
    (stepped : machine.step (.build grammar) = (next, .ok (.reduce production target))) :
    Reduces (.build grammar) machine.remaining machine.states next.states ∧
      next.remaining = machine.remaining ∧
      ∃ nextStack, next.Spells (.build grammar) nextStack := by
  cases spells.step_move wellFormed stepped with
  | @reduce item right below target idle completes proper found whole moves =>
      refine ⟨?_, rfl, _, spells.reduce whole moves⟩
      obtain ⟨rest, base⟩ := (spells.pop whole).states_eq
      have split : machine.states.take right.length ++
          (machine.pop right.length).top :: rest = machine.states := by
        rw [← base]
        exact List.take_append_drop right.length machine.states
      have deep : right.length < machine.states.length := by
        rw [spells.path.length_eq, whole, List.length_append, List.length_reverse]
        omega
      change Reduces _ _ _ (target :: machine.states.drop right.length)
      rw [show machine.states.drop right.length = _ from base, ← split]
      apply Reduces.intro rest _ _ moves
      · rw [← Reduces.headD_eq _ rest, split]
        exact ⟨idle, completes, proper⟩
      · rw [List.length_take_of_le (Nat.le_of_lt deep)]
        exact congrArg List.length (Grammar.right_eq_of_production? found).symm

/-- A reduction on the stack of states is one of the machine. -/
theorem step_of_reduces (wellFormed : grammar.WellFormed)
    (spells : machine.Spells (.build grammar) stack) {later : List Nat}
    (reduces : Reduces (.build grammar) machine.remaining machine.states later) :
    ∃ production target next,
      machine.step (.build grammar) = (next, .ok (.reduce production target)) ∧
        next.states = later := by
  have chosen : ∃ item, (Automaton.build grammar).Chooses machine.remaining machine.top item := by
    generalize equal : machine.states = states at reduces
    cases reduces with
    | intro below chooses _ _ =>
        rw [Machine.top, equal, Reduces.headD_eq]
        exact ⟨_, chooses⟩
  obtain ⟨item, chooses⟩ := chosen
  cases stepped : machine.step (.build grammar) with
  | mk next answer =>
      cases spells.step_move wellFormed stepped with
      | shift remaining shifts => exact absurd shifts (chooses.idle _ _ remaining _ _)
      | reduce _ _ _ _ _ _ =>
          refine ⟨_, _, _, rfl, ?_⟩
          exact Reduces.unique (spells.reduces wellFormed stepped).1 reduces
      | accept _ completes _ =>
          have equal := chooses.completes.unique completes
          exact absurd (congrArg Item.production equal) chooses.proper
      | inputLeft _ _ completes _ =>
          have equal := chooses.completes.unique completes
          exact absurd (congrArg Item.production equal) chooses.proper
      | noAction _ incomplete =>
          have complete := chooses.completes.isComplete
          rw [incomplete item chooses.completes.holds] at complete
          cases complete

/-- A machine whose stack of states can be reduced without end reduces for ever. -/
theorem reducesForever (wellFormed : grammar.WellFormed)
    (spells : machine.Spells (.build grammar) stack)
    (endless : Endless (Reduces (.build grammar) machine.remaining) machine.states) :
    machine.ReducesForever (.build grammar) := by
  intro steps last runs
  induction runs generalizing stack with
  | nil machine =>
      obtain ⟨later, reduces⟩ := endless _ .refl
      obtain ⟨production, target, next, stepped, _⟩ := spells.step_of_reduces wellFormed reduces
      exact ⟨production, target, next, stepped⟩
  | cons stepped _ _ ih =>
      obtain ⟨later, reduces⟩ := endless _ .refl
      obtain ⟨production, target, next, reduced, _⟩ := spells.step_of_reduces wellFormed reduces
      rw [stepped] at reduced
      cases reduced
      obtain ⟨first, sameInput, nextStack, nextSpells⟩ := spells.reduces wellFormed stepped
      apply ih nextSpells
      rw [sameInput]
      exact endless.of_reaches (.single first)

/-- The bare machine knows no guard. -/
theorem cause_ne_epsilonCycle (wellFormed : grammar.WellFormed)
    (spells : machine.Spells (.build grammar) stack) {refusal : Refusal}
    (stepped : machine.step (.build grammar) = (next, .error refusal)) :
    refusal.cause ≠ .epsilonCycle := by
  cases spells.step_move wellFormed stepped with
  | inputLeft _ _ _ _ => exact RefusalCause.noConfusion
  | noAction _ _ => exact RefusalCause.noConfusion

/-- A step that is neither refused nor the last leads to a machine over some stack. -/
theorem exists_next (wellFormed : grammar.WellFormed)
    (spells : machine.Spells (.build grammar) stack) {done : Step}
    (stepped : machine.step (.build grammar) = (next, .ok done)) (notLast : done ≠ .accept) :
    ∃ nextStack, next.Spells (.build grammar) nextStack := by
  cases spells.step_move wellFormed stepped with
  | shift _ shifts => exact ⟨_, spells.shift shifts⟩
  | reduce _ _ _ _ whole moves => exact ⟨_, spells.reduce whole moves⟩
  | accept _ _ _ => exact absurd rfl notLast

/-- A run leads to a machine over some stack. -/
theorem exists_last (wellFormed : grammar.WellFormed)
    (spells : machine.Spells (.build grammar) stack) {steps : List Step} {last : Machine}
    (runs : Runs (Machine.step (.build grammar)) machine steps last) :
    ∃ lastStack, last.Spells (.build grammar) lastStack := by
  induction runs generalizing stack with
  | nil => exact ⟨stack, spells⟩
  | cons stepped notLast _ ih =>
      obtain ⟨nextStack, nextSpells⟩ := spells.exists_next wellFormed stepped notLast
      exact ih nextSpells

end Spells

end Machine

namespace Configuration

variable {configuration next : Configuration} {machine : Machine}

section Steps

variable {automaton : Automaton}

theorem step_shift (running : configuration.machine.accepted = false) {symbol : Symbol}
    {state : Nat}
    (stepped : configuration.machine.step automaton = (machine, .ok (.shift symbol state))) :
    configuration.step automaton = (configuration.afterShift machine (.shift symbol state),
      .ok (.shift symbol state)) := by
  simp [Configuration.step, running, stepped]

theorem step_reduce (running : configuration.machine.accepted = false) {production state : Nat}
    (stepped : configuration.machine.step automaton = (machine, .ok (.reduce production state)))
    (admitted : configuration.refuses automaton machine.states = false) :
    configuration.step automaton =
      (configuration.afterReduction machine (.reduce production state),
        .ok (.reduce production state)) := by
  simp [Configuration.step, running, stepped, admitted]

/-- The last step of a machine is also that of a configuration. -/
theorem exists_step_of_ends (running : configuration.machine.accepted = false)
    {outcome : Option Refusal}
    (stepped : configuration.machine.step automaton = (machine, lastAnswer outcome)) :
    ∃ final, configuration.step automaton = (final, lastAnswer outcome) := by
  cases outcome <;> simp [Configuration.step, running, stepped, lastAnswer]

end Steps

/-- The stacks that a configuration remembers are those that reductions have led
through since the last shift. -/
structure Tracks (grammar : Grammar) (configuration : Configuration) : Prop where
  spells : ∃ stack, configuration.machine.Spells (.build grammar) stack
  anchored : ReflTransGen (Reduces (.build grammar) configuration.machine.remaining)
    configuration.anchor configuration.machine.states
  met : ∀ stack ∈ configuration.seen, ReflTransGen
    (Reduces (.build grammar) configuration.machine.remaining) stack.states
      configuration.machine.states

theorem start_tracks (grammar : Grammar) (input : List Symbol) :
    Tracks grammar (.start input) where
  spells := ⟨[], Machine.start_spells _ input⟩
  anchored := .refl
  met := fun _ member => absurd member List.not_mem_nil

namespace Tracks

theorem running (tracks : Tracks grammar configuration) :
    configuration.machine.accepted = false := by
  obtain ⟨stack, spells⟩ := tracks.spells
  exact spells.running

/-- The guard refuses only what would go on for ever: either the reduction closes a
cycle, or it outgrows the stack of the last shift by more than the number of states. -/
theorem cycle (wellFormed : grammar.WellFormed) (tracks : Tracks grammar configuration)
    {production target : Nat}
    (stepped : configuration.machine.step (.build grammar) =
      (machine, .ok (.reduce production target)))
    (refused : configuration.refuses (.build grammar) machine.states = true) :
    configuration.machine.ReducesForever (.build grammar) := by
  obtain ⟨stack, spells⟩ := tracks.spells
  obtain ⟨reduces, _, nextStack, nextSpells⟩ := spells.reduces wellFormed stepped
  apply spells.reducesForever wellFormed
  apply Endless.before Reduces.unique reduces
  simp only [refuses, Bool.or_eq_true, decide_eq_true_eq, base] at refused
  rcases refused with grown | seen
  · exact Reduces.endless_of_growth (tracks.anchored.tail reduces)
      (of_decide_eq_true grown) nextSpells.path.lt_size
  · have back := tracks.met _ seen
    have again : ∀ states, states = machine.states → ∃ later, later = machine.states ∧
        TransGen (Reduces (.build grammar) configuration.machine.remaining) states later := by
      rintro _ rfl
      exact ⟨_, rfl, .tail' back reduces⟩
    exact Endless.of_recurs Reduces.unique again rfl

/-- Every step that is neither refused nor the last is one of the machine, and the
configuration goes on tracking it. -/
theorem step (wellFormed : grammar.WellFormed) (tracks : Tracks grammar configuration)
    {done : Step} (stepped : configuration.step (.build grammar) = (next, .ok done))
    (notLast : done ≠ .accept) :
    configuration.machine.step (.build grammar) = (next.machine, .ok done) ∧
      Tracks grammar next := by
  obtain ⟨stack, spells⟩ := tracks.spells
  cases step_move tracks.running stepped with
  | accept _ => exact absurd rfl notLast
  | shift machineStepped =>
      refine ⟨machineStepped, ?_, .refl, fun _ member => absurd member List.not_mem_nil⟩
      cases spells.step_move wellFormed machineStepped with
      | shift _ shifts => exact ⟨_, spells.shift shifts⟩
  | @reduce machine production target machineStepped _ =>
      obtain ⟨reduces, sameInput, nextSpells⟩ := spells.reduces wellFormed machineStepped
      have nextInput : (configuration.afterReduction machine
          (.reduce production target)).machine.remaining = configuration.machine.remaining :=
        sameInput
      refine ⟨machineStepped, nextSpells, ?_, ?_⟩
      · rw [nextInput]
        exact tracks.anchored.tail reduces
      · rw [nextInput]
        intro met member
        rcases List.mem_cons.mp member with rfl | member
        · exact .refl
        · exact (tracks.met met member).tail reduces

/-- A run of a configuration is one of its machine. -/
theorem machine_runs (wellFormed : grammar.WellFormed) (tracks : Tracks grammar configuration)
    {steps : List Step} {last : Configuration}
    (runs : Runs (Configuration.step (.build grammar)) configuration steps last) :
    Runs (Machine.step (.build grammar)) configuration.machine steps last.machine ∧
      Tracks grammar last := by
  induction runs with
  | nil => exact ⟨.nil _, tracks⟩
  | cons stepped notLast _ ih =>
      obtain ⟨machineStepped, nextTracks⟩ := tracks.step wellFormed stepped notLast
      obtain ⟨rest, lastTracks⟩ := ih nextTracks
      exact ⟨.cons machineStepped notLast rest, lastTracks⟩

/-- A configuration follows its machine, unless the machine reduces for ever. The
induction is on the run of the machine; where the guard refuses, the rest of the run
consists of reductions. -/
theorem follows (wellFormed : grammar.WellFormed) (tracks : Tracks grammar configuration)
    {steps : List Step} {last : Machine}
    (runs : Runs (Machine.step (.build grammar)) configuration.machine steps last) :
    (∃ final, Runs (Configuration.step (.build grammar)) configuration steps final ∧
        final.machine = last) ∨
      last.ReducesForever (.build grammar) ∧
        ∃ before production state, steps = before ++ [.reduce production state] := by
  generalize begins : configuration.machine = first at runs
  induction runs generalizing configuration with
  | nil => exact .inl ⟨configuration, .nil configuration, begins⟩
  | @cons first second last done steps stepped notLast rest ih =>
      subst begins
      by_cases followed : ∃ next, configuration.step (.build grammar) = (next, .ok done)
      · obtain ⟨next, followed⟩ := followed
        obtain ⟨machineStepped, nextTracks⟩ := tracks.step wellFormed followed notLast
        have begins : next.machine = second :=
          congrArg Prod.fst (machineStepped.symm.trans stepped)
        rcases ih nextTracks begins with ⟨final, runs, equal⟩ | ⟨forever, before, _, _, equal⟩
        · exact .inl ⟨final, .cons followed notLast runs, equal⟩
        · exact .inr ⟨forever, done :: before, _, _, congrArg (done :: ·) equal⟩
      · have forever : configuration.machine.ReducesForever (.build grammar) := by
          cases done with
          | shift symbol state => exact absurd ⟨_, step_shift tracks.running stepped⟩ followed
          | accept => exact absurd rfl notLast
          | reduce production state =>
              apply tracks.cycle wellFormed stepped
              by_contra admitted
              rw [Bool.not_eq_true] at admitted
              exact followed ⟨_, step_reduce tracks.running stepped admitted⟩
        obtain ⟨lastForever, shape⟩ := forever.run (.cons stepped notLast rest)
        exact .inr ⟨lastForever, shape.resolve_left (List.cons_ne_nil _ _)⟩

/-- If its machine ends, a configuration ends in the same way. -/
theorem ends_of_machine (wellFormed : grammar.WellFormed) (tracks : Tracks grammar configuration)
    {steps : List Step} {outcome : Option Refusal}
    (ends : Ends (Machine.step (.build grammar)) configuration.machine steps outcome) :
    Ends (Configuration.step (.build grammar)) configuration steps outcome := by
  obtain ⟨last, final, runs, ended⟩ := ends
  rcases tracks.follows wellFormed runs with ⟨followed, followedRuns, rfl⟩ | ⟨forever, _⟩
  · have lastTracks := (tracks.machine_runs wellFormed followedRuns).2
    obtain ⟨followedFinal, followedEnds⟩ := exists_step_of_ends lastTracks.running ended
    exact ⟨followed, followedFinal, followedRuns, followedEnds⟩
  · exact absurd ended (forever.not_ends _)

/-- If a configuration ends otherwise than by its guard, its machine ends in the same way. -/
theorem machine_ends (wellFormed : grammar.WellFormed) (tracks : Tracks grammar configuration)
    {steps : List Step} {outcome : Option Refusal}
    (ends : Ends (Configuration.step (.build grammar)) configuration steps outcome)
    (unguarded : ∀ refusal, outcome = some refusal → refusal.cause ≠ .epsilonCycle) :
    Ends (Machine.step (.build grammar)) configuration.machine steps outcome := by
  obtain ⟨last, final, runs, ended⟩ := ends
  obtain ⟨machineRuns, lastTracks⟩ := tracks.machine_runs wellFormed runs
  cases outcome with
  | none =>
      cases step_move lastTracks.running ended with
      | accept machineStepped => exact ⟨_, _, machineRuns, machineStepped⟩
  | some refusal =>
      cases step_move lastTracks.running ended with
      | refused machineStepped => exact ⟨_, _, machineRuns, machineStepped⟩
      | cycle _ _ => exact absurd rfl (unguarded _ rfl)

/-- Where the guard refuses, the machine reduces for ever, whether or not the reduction
that the guard refuses is counted. -/
theorem forever_of_cycle (wellFormed : grammar.WellFormed)
    (tracks : Tracks grammar configuration) {refusal : Refusal}
    (stepped : configuration.step (.build grammar) = (next, .error refusal))
    (cause : refusal.cause = .epsilonCycle) :
    configuration.machine.ReducesForever (.build grammar) ∧
      next.machine.ReducesForever (.build grammar) := by
  cases step_move tracks.running stepped with
  | refused machineStepped =>
      obtain ⟨stack, spells⟩ := tracks.spells
      exact absurd cause (spells.cause_ne_epsilonCycle wellFormed machineStepped)
  | cycle machineStepped refused =>
      have forever := tracks.cycle wellFormed machineStepped refused
      exact ⟨forever, (forever.step machineStepped).2⟩

end Tracks

end Configuration

namespace Automaton

variable {input : List Symbol} {steps : List Step}

/-- If the bare machine accepts an input, its parse succeeds and has recorded the steps. -/
theorem parse_of_accepts (wellFormed : grammar.WellFormed)
    (admitted : ∀ symbol ∈ input, grammar.dialect.admits symbol = true)
    (ends : Ends (Machine.step (build grammar)) (.start input) steps none) :
    ∃ trace, (build grammar).parse input = .ok trace ∧ trace.steps = steps ++ [.accept] := by
  have tracks := Configuration.start_tracks grammar input
  obtain ⟨last, final, runs, ended⟩ := tracks.ends_of_machine wellFormed ends
  have lastTracks := (tracks.machine_runs wellFormed runs).2
  refine ⟨final.trace, parse_of_runs admitted runs ended, ?_⟩
  rw [← Configuration.steps_of_runs runs]
  exact Configuration.steps_of_accept lastTracks.running ended

/-- If the bare machine refuses an input, its parse reports the refusal. -/
theorem parse_of_refuses (wellFormed : grammar.WellFormed)
    (admitted : ∀ symbol ∈ input, grammar.dialect.admits symbol = true) {refusal : Refusal}
    (ends : Ends (Machine.step (build grammar)) (.start input) steps (some refusal)) :
    (build grammar).parse input = .error refusal.error := by
  have tracks := Configuration.start_tracks grammar input
  obtain ⟨last, final, runs, ended⟩ := tracks.ends_of_machine wellFormed ends
  exact parse_of_runs admitted runs ended

end Automaton

/-- The guard is exact. A guarded run accepts after the same steps as the bare machine,
and it is refused outside the guard after the same steps and for the same reason. Where
the guard refuses, the bare machine reduces for ever. -/
theorem Automaton.guard_exact {grammar : Grammar} (loaded : grammar.Loaded)
    (input : List Symbol) :
    (∀ steps,
        Ends (Configuration.step (.build grammar)) (.start input) steps none ↔
          Ends (Machine.step (.build grammar)) (.start input) steps none) ∧
      (∀ steps refusal,
        Ends (Configuration.step (.build grammar)) (.start input) steps (some refusal) ∧
            refusal.cause ≠ .epsilonCycle ↔
          Ends (Machine.step (.build grammar)) (.start input) steps (some refusal)) ∧
      ∀ steps last final refusal,
        Runs (Configuration.step (.build grammar)) (.start input) steps last →
          last.step (.build grammar) = (final, .error refusal) →
            refusal.cause = .epsilonCycle →
              Runs (Machine.step (.build grammar)) (.start input) steps last.machine ∧
                last.machine.ReducesForever (.build grammar) ∧
                  final.machine.ReducesForever (.build grammar) := by
  have wellFormed := loaded.wellFormed
  have tracks := Configuration.start_tracks grammar input
  refine ⟨?_, ?_, ?_⟩
  · intro steps
    constructor
    · intro ends
      exact tracks.machine_ends wellFormed ends fun _ none => by cases none
    · intro ends
      exact tracks.ends_of_machine wellFormed ends
  · intro steps refusal
    constructor
    · intro given
      rcases given with ⟨ends, unguarded⟩
      exact tracks.machine_ends wellFormed ends fun _ equal => by cases equal; exact unguarded
    · intro ends
      refine ⟨tracks.ends_of_machine wellFormed ends, ?_⟩
      obtain ⟨last, final, runs, ended⟩ := ends
      obtain ⟨stack, spells⟩ := (Machine.start_spells _ input).exists_last wellFormed runs
      exact spells.cause_ne_epsilonCycle wellFormed ended
  · intro steps last final refusal runs stepped cause
    obtain ⟨machineRuns, lastTracks⟩ := tracks.machine_runs wellFormed runs
    exact ⟨machineRuns, lastTracks.forever_of_cycle wellFormed stepped cause⟩

/-- A grammar whose machine can put ever more nonterminals on the stack, `S -> BS | b`
with the empty sequence for `B`. -/
def Grammar.growing : Grammar where
  dialect := .standard
  start := .ofChar 'S'
  productions := #[⟨.ofChar 'Y', [.ofChar 'S']⟩, ⟨.ofChar 'S', [.ofChar 'B', .ofChar 'S']⟩,
    ⟨.ofChar 'S', [.ofChar 'b']⟩, ⟨.ofChar 'B', []⟩]
  alternatives := [(.ofChar 'Y', [0]), (.ofChar 'S', [1, 2]), (.ofChar 'B', [3])]
  terminals := [.ofChar 'b', .endMarker]

theorem Grammar.growing_loaded : Loaded growing := by
  have loads : ofRules .standard [(.ofChar 'S', [[.ofChar 'B', .ofChar 'S'], [.ofChar 'b']]),
      (.ofChar 'B', [[.empty]])] = .ok growing := rfl
  exact .rules loads

/-- Without input the stack of that machine grows, and the guard refuses it. -/
theorem Automaton.guard_exact_growing :
    ∃ steps last final refusal,
      Runs (Configuration.step (.build .growing)) (.start []) steps last ∧
        last.step (.build .growing) = (final, .error refusal) ∧
          refusal.cause = .epsilonCycle ∧ last.machine.ReducesForever (.build .growing) := by
  obtain ⟨steps, last, runs, ended⟩ :=
    Configuration.run_ends (.start []) (Machine.start_within (.build .growing) [])
  have outcome : ((build .growing).runInput []).2 = some ⟨.epsilonCycle, .endMarker, 2⟩ := by
    cbv
  change last.step (.build .growing) = (_, lastAnswer ((build .growing).runInput []).2) at ended
  rw [outcome] at ended
  have forever := (guard_exact Grammar.growing_loaded []).2.2 steps last _ _ runs ended rfl
  exact ⟨steps, last, _, _, runs, ended, rfl, forever.2.1⟩

end ShiftReduce
