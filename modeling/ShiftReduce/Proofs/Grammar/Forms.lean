import ShiftReduce.Proofs.Grammar.Derivation
import ShiftReduce.Proofs.Grammar.WellFormed

/-!
# Forms

The symbols that occur in derivations.  A production brings in only what its right-hand side
holds, so what is true of the symbols of a form, and of all right-hand sides, is true of the
symbols of every form that is derived from it.  Main statement: `Grammar.Form.of_derives`.
-/

namespace ShiftReduce

namespace Grammar

variable {grammar : Grammar} {form next : List Symbol} {symbol : Symbol}

/-- What holds of the symbols of all right-hand sides is kept by derivations. -/
theorem Derives.forall_symbol {holds : Symbol → Prop}
    (rights : ∀ {id production}, grammar.production? id = some production →
      ∀ symbol ∈ production.right, holds symbol)
    (derives : grammar.Derives form next) (initially : ∀ symbol ∈ form, holds symbol) :
    ∀ symbol ∈ next, holds symbol := by
  simp only [Derives] at derives
  induction derives with
  | refl => exact initially
  | tail _ rewrites ih =>
      cases rewrites with
      | intro before after found =>
          intro symbol member
          rcases List.mem_append.mp member with member | member
          · rcases List.mem_append.mp member with member | member
            · exact ih symbol (List.mem_append_left _ member)
            · exact rights found symbol member
          · exact ih symbol (List.mem_append_right _ (List.mem_cons_of_mem _ member))

theorem Derives.mentions (wellFormed : grammar.WellFormed) (derives : grammar.Derives form next)
    (mentioned : ∀ symbol ∈ form, grammar.Mentions symbol) :
    ∀ symbol ∈ next, grammar.Mentions symbol :=
  derives.forall_symbol wellFormed.mentions mentioned

/-- A form of a grammar consists of its nonterminals and of its terminals, to which the end
marker belongs. -/
def Form (grammar : Grammar) (form : List Symbol) : Prop :=
  ∀ symbol ∈ form, symbol ∈ grammar.terminals ∨ symbol ∈ grammar.nonterminals

instance (grammar : Grammar) (form : List Symbol) : Decidable (grammar.Form form) :=
  inferInstanceAs (Decidable (∀ symbol ∈ form, _))

theorem WellFormed.isTerminal_of_mem (wellFormed : grammar.WellFormed)
    (member : symbol ∈ grammar.terminals) : symbol.isTerminal = true := by
  rcases (wellFormed.mem_terminals symbol).mp member with rfl | ⟨terminal, _⟩
  · decide
  · exact terminal

/-- Right-hand sides are forms of their grammar. -/
theorem WellFormed.form_right (wellFormed : grammar.WellFormed) {id : Nat}
    {production : Production} (found : grammar.production? id = some production) :
    grammar.Form production.right := by
  intro symbol member
  cases nonterminal : symbol.isNonterminal with
  | true => exact .inr (wellFormed.nonterminal_mem found member nonterminal)
  | false =>
      left
      cases wellFormed.mentions found symbol member with
      | terminal input =>
          exact (wellFormed.mem_terminals symbol).mpr
            (.inr ⟨Symbol.isTerminal_of_isInput input, id, production, found, member⟩)
      | nonterminal isNonterminal => cases nonterminal.symm.trans isNonterminal

theorem form_of_mem (member : symbol ∈ grammar.nonterminals) : grammar.Form [symbol] := by
  intro other otherMember
  rw [List.mem_singleton.mp otherMember]
  exact .inr member

namespace Form

theorem of_derives (whole : grammar.Form form) (wellFormed : grammar.WellFormed)
    (derives : grammar.Derives form next) : grammar.Form next :=
  derives.forall_symbol wellFormed.form_right whole

theorem head {first : Symbol} (whole : grammar.Form (first :: form)) : grammar.Form [first] := by
  intro symbol member
  rw [List.mem_singleton.mp member]
  exact whole first List.mem_cons_self

theorem tail {first : Symbol} (whole : grammar.Form (first :: form)) : grammar.Form form :=
  fun symbol member => whole symbol (List.mem_cons_of_mem first member)

theorem append_right {front back : List Symbol} (whole : grammar.Form (front ++ back)) :
    grammar.Form back :=
  fun symbol member => whole symbol (List.mem_append_right front member)

/-- The terminals in a form of a grammar are terminals of the grammar. -/
theorem mem_terminals (whole : grammar.Form form) (wellFormed : grammar.WellFormed)
    (member : symbol ∈ form) (terminal : symbol.isTerminal = true) :
    symbol ∈ grammar.terminals := by
  rcases whole symbol member with listed | defined
  · exact listed
  · have nonterminal := wellFormed.nonterminal symbol defined
    rw [Symbol.not_isNonterminal_of_isTerminal terminal] at nonterminal
    cases nonterminal

/-- The symbols of a form are terminals or nonterminals, but not the empty symbol. -/
theorem isTerminal_or_isNonterminal (whole : grammar.Form form) (wellFormed : grammar.WellFormed)
    (member : symbol ∈ form) : symbol.isTerminal = true ∨ symbol.isNonterminal = true :=
  (whole symbol member).imp wellFormed.isTerminal_of_mem (wellFormed.nonterminal symbol)

end Form

end Grammar

end ShiftReduce
