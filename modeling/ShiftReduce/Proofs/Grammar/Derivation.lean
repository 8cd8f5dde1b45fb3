import Mathlib.Logic.Relation
import ShiftReduce.Grammar.Basic

/-!
# Derivations

How a grammar derives forms from forms, and its sentences.  A rightmost derivation
rewrites the last nonterminal of every form and is recorded by the numbers of its
productions.  Main statement: what is derived in any order and has no nonterminals
left also has a rightmost derivation (`Grammar.Derives.exists_rightmost`).
-/

namespace ShiftReduce

/-- An element of two lists in a row belongs to the first or to the second of them. -/
theorem split_append {α : Type} {left right before after : List α} {element : α}
    (split : left ++ right = before ++ element :: after) :
    (∃ rest, left = before ++ element :: rest ∧ after = rest ++ right) ∨
      ∃ middle, before = left ++ middle ∧ right = middle ++ element :: after := by
  rcases List.append_eq_append_iff.mp split with
    ⟨middle, beforeEqual, rightEqual⟩ | ⟨rest, leftEqual, afterEqual⟩
  · exact .inr ⟨middle, beforeEqual, rightEqual⟩
  · cases rest with
    | nil => exact .inr ⟨[], by simpa using leftEqual.symm, afterEqual.symm⟩
    | cons first rest =>
        rw [List.cons_append, List.cons.injEq] at afterEqual
        exact .inl ⟨rest, afterEqual.1 ▸ leftEqual, afterEqual.2⟩

/-- A ground form has no nonterminals. -/
def Symbol.Ground (form : List Symbol) : Prop := ∀ symbol ∈ form, symbol.isNonterminal = false

namespace Symbol

theorem ground_nil : Ground [] := by
  intro symbol member
  cases member

theorem ground_append {left right : List Symbol} :
    Ground (left ++ right) ↔ Ground left ∧ Ground right := by
  simp only [Ground, List.mem_append]
  constructor
  · intro ground
    exact ⟨fun symbol member => ground symbol (.inl member),
      fun symbol member => ground symbol (.inr member)⟩
  · rintro ⟨leftGround, rightGround⟩ symbol (member | member)
    · exact leftGround symbol member
    · exact rightGround symbol member

theorem ground_cons {symbol : Symbol} {form : List Symbol} :
    Ground (symbol :: form) ↔ symbol.isNonterminal = false ∧ Ground form := by
  simp [Ground]

/-- A symbol before a ground ending lies in the right part of a form, unless that part
is ground as well. -/
theorem split_of_not_ground {left right front back : List Symbol} {symbol : Symbol}
    (whole : left ++ right = front ++ symbol :: back) (ground : Ground back)
    (notGround : ¬Ground right) :
    ∃ extra, front = left ++ extra ∧ right = extra ++ symbol :: back := by
  rcases split_append whole with ⟨rest, _, backEqual⟩ | within
  · exact absurd (ground_append.mp (backEqual ▸ ground)).2 notGround
  · exact within

/-- A ground ending of a form lies behind every nonterminal of the form. -/
theorem split_of_nonterminal {left ending front back : List Symbol} {symbol : Symbol}
    (whole : left ++ ending = front ++ symbol :: back) (ground : Ground ending)
    (nonterminal : symbol.isNonterminal = true) :
    ∃ middle, back = middle ++ ending ∧ left = front ++ symbol :: middle := by
  rcases split_append whole with ⟨middle, leftEqual, backEqual⟩ | ⟨_, _, endingEqual⟩
  · exact ⟨middle, backEqual, leftEqual⟩
  · have terminal := ground symbol (endingEqual ▸ List.mem_append_right _ List.mem_cons_self)
    rw [nonterminal] at terminal
    cases terminal

end Symbol

open ShiftReduce.Symbol (Ground ground_append split_of_not_ground)

namespace Grammar

variable {grammar : Grammar}

/-- One form is rewritten to another by a production, at any place. -/
inductive Rewrites (grammar : Grammar) : List Symbol → List Symbol → Prop where
  | intro {id : Nat} {production : Production} (before after : List Symbol) :
      grammar.production? id = some production →
      Rewrites grammar (before ++ production.left :: after)
        (before ++ production.right ++ after)

/-- One form is rewritten to another by any number of productions, at any places. -/
def Derives (grammar : Grammar) : List Symbol → List Symbol → Prop :=
  Relation.ReflTransGen grammar.Rewrites

/-- The sentences of a grammar are the sequences of terminals that its start symbol
derives. -/
structure Sentence (grammar : Grammar) (word : List Symbol) : Prop where
  derives : grammar.Derives [grammar.start] word
  terminal : ∀ symbol ∈ word, symbol.isTerminal = true

/-- The last nonterminal of a form is rewritten by a production. -/
inductive RewritesLast (grammar : Grammar) (id : Nat) : List Symbol → List Symbol → Prop where
  | intro {production : Production} (before after : List Symbol) :
      grammar.production? id = some production → Ground after →
      RewritesLast grammar id (before ++ production.left :: after)
        (before ++ production.right ++ after)

/-- The productions of these numbers, each applied to the last nonterminal, lead
from one form to another. -/
inductive RightmostDerivation (grammar : Grammar) :
    List Symbol → List Nat → List Symbol → Prop where
  | nil (form : List Symbol) : RightmostDerivation grammar form [] form
  | cons {form next final : List Symbol} {id : Nat} {ids : List Nat} :
      grammar.RewritesLast id form next → RightmostDerivation grammar next ids final →
      RightmostDerivation grammar form (id :: ids) final

theorem Rewrites.append_right {form next : List Symbol} (rewrites : grammar.Rewrites form next)
    (behind : List Symbol) : grammar.Rewrites (form ++ behind) (next ++ behind) := by
  cases rewrites with
  | intro before after found =>
      simpa only [List.append_assoc, List.cons_append] using
        Rewrites.intro before (after ++ behind) found

theorem Rewrites.append_left {form next : List Symbol} (rewrites : grammar.Rewrites form next)
    (front : List Symbol) : grammar.Rewrites (front ++ form) (front ++ next) := by
  cases rewrites with
  | intro before after found =>
      simpa only [List.append_assoc] using Rewrites.intro (front ++ before) after found

theorem Derives.append_right {form next : List Symbol} (derives : grammar.Derives form next)
    (behind : List Symbol) : grammar.Derives (form ++ behind) (next ++ behind) :=
  derives.lift (· ++ behind) fun _ _ rewrites => rewrites.append_right behind

theorem Derives.append_left {form next : List Symbol} (derives : grammar.Derives form next)
    (front : List Symbol) : grammar.Derives (front ++ form) (front ++ next) :=
  derives.lift (front ++ ·) fun _ _ rewrites => rewrites.append_left front

/-- Where a nonterminal is on top of a stack, a production of it can be put there instead. -/
theorem Rewrites.unreduce {id : Nat} {left : Symbol} {right : List Symbol}
    (found : grammar.production? id = some ⟨left, right⟩) (below behind : List Symbol) :
    grammar.Rewrites ((left :: below).reverse ++ behind)
      ((right.reverse ++ below).reverse ++ behind) := by
  rw [List.reverse_cons, List.append_assoc, List.reverse_append, List.reverse_reverse]
  exact .intro below.reverse behind found

namespace RewritesLast

theorem rewrites {id : Nat} {form next : List Symbol}
    (step : grammar.RewritesLast id form next) : grammar.Rewrites form next := by
  cases step with
  | intro before after found _ => exact .intro before after found

theorem append_ground {id : Nat} {form next : List Symbol}
    (step : grammar.RewritesLast id form next) {suffix : List Symbol} (ground : Ground suffix) :
    grammar.RewritesLast id (form ++ suffix) (next ++ suffix) := by
  cases step with
  | @intro production before after found afterGround =>
      have extended := RewritesLast.intro before (after ++ suffix) found
        (ground_append.mpr ⟨afterGround, ground⟩)
      simpa only [List.append_assoc, List.cons_append] using extended

end RewritesLast

namespace RightmostDerivation

theorem derives {form final : List Symbol} {ids : List Nat}
    (derivation : grammar.RightmostDerivation form ids final) : grammar.Derives form final := by
  induction derivation with
  | nil form => exact .refl
  | cons step _ ih => exact .head step.rewrites ih

theorem append_ground {form final : List Symbol} {ids : List Nat}
    (derivation : grammar.RightmostDerivation form ids final) {suffix : List Symbol}
    (ground : Ground suffix) :
    grammar.RightmostDerivation (form ++ suffix) ids (final ++ suffix) := by
  induction derivation with
  | nil form => exact .nil _
  | cons step _ ih => exact .cons (step.append_ground ground) ih

/-- A derivation with at least one step has a last one. -/
theorem exists_last {form final : List Symbol} {ids : List Nat} {id : Nat}
    (derivation : grammar.RightmostDerivation form (ids ++ [id]) final) :
    ∃ previous, grammar.RightmostDerivation form ids previous ∧
      grammar.RewritesLast id previous final := by
  induction ids generalizing form with
  | nil =>
      cases derivation with
      | cons step rest =>
          cases rest
          exact ⟨form, .nil form, step⟩
  | cons first ids ih =>
      cases derivation with
      | cons step rest =>
          obtain ⟨previous, beginning, last⟩ := ih rest
          exact ⟨previous, .cons step beginning, last⟩

/-- If a rewriting is followed by a rightmost derivation, the rewriting can wait
until the nonterminals behind its place are gone. The induction is on the
derivation; a step of it is either behind that place or leaves none behind. -/
theorem of_rewrites {before after final : List Symbol} {id : Nat} {production : Production}
    {ids : List Nat} (found : grammar.production? id = some production)
    (derivation :
      grammar.RightmostDerivation (before ++ production.right ++ after) ids final)
    (ground : Ground final) :
    ∃ ids, grammar.RightmostDerivation (before ++ production.left :: after) ids final := by
  induction ids generalizing after with
  | nil =>
      have afterGround : Ground after := by
        cases derivation
        exact (ground_append.mp ground).2
      exact ⟨[id], .cons (.intro before after found afterGround) derivation⟩
  | cons first ids ih =>
      by_cases afterGround : Ground after
      · exact ⟨id :: first :: ids, .cons (.intro before after found afterGround) derivation⟩
      · generalize whole : before ++ production.right ++ after = form at derivation
        cases derivation with
        | cons step rest =>
          cases step with
          | @intro later front back laterFound backGround =>
              obtain ⟨extra, rfl, rfl⟩ := split_of_not_ground whole backGround afterGround
              rw [List.append_assoc, List.append_assoc] at rest
              obtain ⟨others, derived⟩ := ih rest
              have moved := RewritesLast.intro (before ++ production.left :: extra) back
                laterFound backGround
              refine ⟨first :: others, .cons ?_ derived⟩
              simpa only [List.append_assoc, List.cons_append] using moved

end RightmostDerivation

/-- What is derived in any order and is ground is also derived rightmost. -/
theorem Derives.exists_rightmost {form word : List Symbol} (derives : grammar.Derives form word)
    (ground : Ground word) : ∃ ids, grammar.RightmostDerivation form ids word := by
  induction derives using Relation.ReflTransGen.head_induction_on with
  | refl => exact ⟨[], .nil word⟩
  | head step _ ih =>
      obtain ⟨ids, derivation⟩ := ih
      cases step with
      | intro before after found => exact derivation.of_rewrites found ground

namespace Sentence

theorem ground {word : List Symbol} (sentence : grammar.Sentence word) : Ground word := by
  intro symbol member
  have terminal := sentence.terminal symbol member
  simp only [Symbol.isTerminal, Bool.not_eq_true', Bool.or_eq_false_iff] at terminal
  exact terminal.1

/-- Sentences have rightmost derivations. -/
theorem exists_rightmost {word : List Symbol} (sentence : grammar.Sentence word) :
    ∃ ids, grammar.RightmostDerivation [grammar.start] ids word :=
  sentence.derives.exists_rightmost sentence.ground

end Sentence

end Grammar

end ShiftReduce
