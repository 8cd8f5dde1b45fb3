import ShiftReduce.Proofs.Grammar.Derivation
import ShiftReduce.Proofs.Grammar.ValidItem

/-!
# Completions

A completion is a parse that may choose freely: from a stack it shifts the symbols of
a word and reduces by productions until only the start symbol is left.  Completions of
the empty stack are the rightmost derivations of the word, read backwards.  Main
statements: `Grammar.Completion.of_rightmost` and, for every stack that has a
completion, `Grammar.Completion.exists_valid`.
-/

namespace ShiftReduce

open ShiftReduce.Symbol (Ground ground_nil ground_append ground_cons split_of_nonterminal)

namespace Grammar

variable {grammar : Grammar}

/-- Shifting a word and reducing productions, in the order of their numbers, leads from
a stack to the start symbol alone. Stacks have their top first. -/
inductive Completion (grammar : Grammar) : List Nat → List Symbol → List Symbol → Prop where
  | done : Completion grammar [] [grammar.start] []
  | shift {ids : List Nat} {stack word : List Symbol} {symbol : Symbol} :
      symbol.isNonterminal = false → Completion grammar ids (symbol :: stack) word →
      Completion grammar ids stack (symbol :: word)
  | reduce {ids : List Nat} {stack word : List Symbol} {id : Nat} {left : Symbol}
      {right : List Symbol} :
      grammar.production? id = some ⟨left, right⟩ →
      Completion grammar ids (left :: stack) word →
      Completion grammar (id :: ids) (right.reverse ++ stack) word

namespace Completion

/-- A ground part on top of the stack could also have been part of the word. -/
theorem shifts {ids : List Nat} {stack word : List Symbol} (front : List Symbol)
    (ground : Ground front) (completion : grammar.Completion ids (front.reverse ++ stack) word) :
    grammar.Completion ids stack (front ++ word) := by
  induction front generalizing stack with
  | nil => exact completion
  | cons symbol front ih =>
      obtain ⟨terminal, frontGround⟩ := ground_cons.mp ground
      apply shift terminal
      apply ih frontGround
      simpa using completion

/-- A completion of a whole form, all of which is on the stack except for a ground rest,
is also one of the form cut further in front: behind a nonterminal or at the very
front. -/
theorem recut {ids : List Nat} {form rest stack word : List Symbol}
    (completion : grammar.Completion ids form.reverse rest)
    (whole : stack.reverse ++ word = form ++ rest) (restGround : Ground rest)
    (ground : Ground word)
    (cut : ∀ symbol below, stack = symbol :: below → symbol.isNonterminal = true) :
    grammar.Completion ids stack word := by
  cases stack with
  | nil =>
      rw [List.reverse_nil, List.nil_append] at whole
      subst whole
      apply shifts form (ground_append.mp ground).1
      rw [List.append_nil]
      exact completion
  | cons symbol below =>
      rw [List.reverse_cons, List.append_assoc, List.singleton_append] at whole
      obtain ⟨middle, rfl, front⟩ :=
        split_of_nonterminal whole.symm restGround (cut symbol below rfl)
      apply shifts middle (ground_append.mp ground).1
      rw [front, List.reverse_append, List.reverse_cons, List.reverse_reverse,
        List.append_assoc, List.singleton_append] at completion
      exact completion

/-- A rightmost derivation, read backwards, is a completion of any of its forms that is
cut behind a nonterminal or at the front. The induction is on the derivation from its
end: before the last production is reduced, the word gives up what lies before the
place of that production. -/
theorem of_rightmost (wellFormed : grammar.WellFormed) {ids : List Nat}
    {stack word : List Symbol}
    (derivation :
      grammar.RightmostDerivation [grammar.start] ids (stack.reverse ++ word))
    (ground : Ground word)
    (cut : ∀ symbol below, stack = symbol :: below → symbol.isNonterminal = true) :
    grammar.Completion ids.reverse stack word := by
  induction ids using List.reverseRecOn generalizing stack word with
  | nil =>
      generalize whole : stack.reverse ++ word = form at derivation
      cases derivation
      exact recut .done (whole.trans (List.append_nil _).symm) ground_nil ground cut
  | append_singleton ids id ih =>
      obtain ⟨previous, beginning, last⟩ := derivation.exists_last
      generalize whole : stack.reverse ++ word = form at last
      cases last with
      | @intro production before after found afterGround =>
          have completion : grammar.Completion ids.reverse (production.left :: before.reverse)
              after := by
            apply ih _ afterGround
            · intro symbol below equal
              rw [← (List.cons.inj equal).1]
              exact wellFormed.left_nonterminal found
            · simpa using beginning
          have reduced := completion.reduce found
          rw [← List.reverse_append] at reduced
          rw [List.reverse_append, List.reverse_singleton, List.singleton_append]
          exact reduced.recut whole afterGround ground cut

/-- A rightmost derivation of a sentence, read backwards, is a completion of the empty
stack. -/
theorem of_sentence (wellFormed : grammar.WellFormed) {ids : List Nat} {word : List Symbol}
    (derivation : grammar.RightmostDerivation [grammar.start] ids word)
    (ground : Ground word) : grammar.Completion ids.reverse [] word :=
  of_rightmost wellFormed derivation ground fun _ _ equal => by cases equal

/-- A stack that has a completion has a valid item. -/
theorem exists_valid (wellFormed : grammar.WellFormed) {ids : List Nat}
    {stack word : List Symbol} (completion : grammar.Completion ids stack word) :
    ∃ item, grammar.ValidItem stack item := by
  induction completion with
  | done => exact ⟨_, .advance .start wellFormed.symbolAtDot_start⟩
  | shift _ _ ih =>
      obtain ⟨item, valid⟩ := ih
      obtain ⟨previous, previousValid, _⟩ := valid.exists_previous
      exact ⟨previous, previousValid⟩
  | reduce found _ ih =>
      obtain ⟨item, valid⟩ := ih
      exact ⟨_, valid.complete found⟩

end Completion

end Grammar

end ShiftReduce
