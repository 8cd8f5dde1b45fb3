import ShiftReduce.Automaton.Table
import ShiftReduce.Proofs.Automaton.Canonical
import ShiftReduce.Proofs.Grammar.Consistency
import ShiftReduce.Proofs.Grammar.Forms
import ShiftReduce.Proofs.Text.FixedWidth

/-!
# Reading a printed table

The transition table of an automaton is read back in places of fixed width.  The labels of its
header can have any length and can even break lines, so the rows are counted from the end.  Up
to a hundred thousand states every number fits into its places.  An item expects only symbols
that have a column, since terminals and defined nonterminals have one and nothing mentions the
augmented start; so the rows show all transitions.
Main statements: `TableRow.read?_text`, `Automaton.readTable?_table` and
`Automaton.table_faithful`.
-/

namespace ShiftReduce

/-! ## The lines of a text from its end -/

namespace Text

/-- The last lines of a text, in their order. -/
def lastLines (count : Nat) (text : List Char) : List (List Char) :=
  let all := lines '\n' '\r' text
  all.drop (all.length - count)

/-- Whatever is in front of them, lines that are ended by newlines are the last ones. -/
theorem lastLines_ofLines {rows : List (List Char)}
    (inline : ∀ row ∈ rows, ∀ character ∈ row, Inline character) (header : List Char) :
    lastLines rows.length (ofLines (header :: rows)) = rows := by
  have cut : lines '\n' '\r' (ofLines (header :: rows)) =
      lines '\n' '\r' (header ++ ['\n']) ++ rows := by
    rw [ofLines, List.flatMap_cons, List.append_assoc, List.singleton_append, ← ofLines,
      lines_append_lines, lines_ofLines inline]
  rw [lastLines, cut, List.length_append, Nat.add_sub_cancel, List.drop_left]

end Text

/-! ## Rows -/

/-- What a row of a table says: a state, whether it can reduce, and where it goes on the
symbols of the columns. -/
structure TableRow where
  id : Nat
  canReduce : Bool
  targets : List (Option Nat)
  deriving DecidableEq, Repr

namespace TableRow

/-- The content of a cell: blank or a target. -/
def cellText (target : Option Nat) : String := (target.map toString).getD ""

/-- What a cell of five places shows: nothing, or a number on the right. -/
def readCell? (cell : List Char) : Option (Option Nat) :=
  if cell.length = 5 then
    if cell.all (· == ' ') then some none else (Text.readNumber? cell).map some
  else none

/-- What so many cells show, if there is nothing behind them. -/
def readCells? : Nat → List Char → Option (List (Option Nat))
  | 0, [] => some []
  | 0, _ :: _ => none
  | columns + 1, cells => do
      let target ← readCell? (cells.take 5)
      let targets ← readCells? columns (cells.drop 5)
      some (target :: targets)

/-- What a space and six places show that hold `yes` or `no` on the right. -/
def readFlag? (field : List Char) : Option Bool :=
  if field = "    yes".toList then some true
  else if field = "     no".toList then some false
  else none

/-- What a line with so many columns shows: a state in six places, a flag behind a space, and
the cells. -/
def read? (columns : Nat) (line : List Char) : Option TableRow := do
  let id ← Text.readNumber? (line.take 6)
  let canReduce ← readFlag? ((line.drop 6).take 7)
  let targets ← readCells? columns (line.drop 13)
  some ⟨id, canReduce, targets⟩

/-- The row as it is printed. -/
def text (row : TableRow) : String :=
  Automaton.tableRow (toString row.id) (if row.canReduce then "yes" else "no")
    (row.targets.map cellText)

/-- All numbers of a row have their places. -/
structure Fits (row : TableRow) : Prop where
  id_lt : row.id < 10 ^ 6
  target_lt : ∀ target, some target ∈ row.targets → target < 10 ^ 5

variable {row : TableRow} {target : Option Nat} {targets : List (Option Nat)}

theorem length_cellText_le (below : ∀ number, target = some number → number < 10 ^ 5) :
    (cellText target).length ≤ 5 := by
  cases target with
  | none => exact Nat.zero_le 5
  | some number => exact length_toString_le (by decide) (below number rfl)

theorem readCell?_cellText (below : ∀ number, target = some number → number < 10 ^ 5) :
    readCell? (Text.padLeft 5 (cellText target)).toList = some target := by
  have width := Text.length_padLeft (length_cellText_le below)
  rw [readCell?, if_pos width]
  cases target with
  | none =>
      have blank : (Text.padLeft 5 (cellText none)).toList.all (· == ' ') = true := by
        decide
      rw [if_pos blank]
  | some number =>
      have shown : cellText (some number) = toString number := rfl
      rw [shown]
      have fits : (toString number).length ≤ 5 := length_toString_le (by decide) (below number rfl)
      rw [Text.not_blank_padLeft, if_neg Bool.false_ne_true, Text.readNumber?_padLeft fits,
        Option.map_some]

theorem readCells?_cellText (below : ∀ number, some number ∈ targets → number < 10 ^ 5) :
    readCells? targets.length
      (targets.flatMap fun target => (Text.padLeft 5 (cellText target)).toList) =
        some targets := by
  induction targets with
  | nil => rfl
  | cons target targets ih =>
      have first : ∀ number, target = some number → number < 10 ^ 5 := fun number same =>
        below number (same ▸ List.mem_cons_self)
      have rest := ih fun number member => below number (List.mem_cons_of_mem _ member)
      have width := Text.length_padLeft (length_cellText_le first)
      rw [List.length_cons, List.flatMap_cons, readCells?, List.take_left' width,
        List.drop_left' width, readCell?_cellText first, rest]
      rfl

/-- The flag of a row, with the space in front. -/
def flagText (canReduce : Bool) : List Char :=
  ' ' :: (Text.padLeft 6 (if canReduce then "yes" else "no")).toList

theorem readFlag?_flagText (canReduce : Bool) : readFlag? (flagText canReduce) = some canReduce := by
  cases canReduce <;> decide

theorem toList_text (row : TableRow) :
    row.text.toList = (Text.padLeft 6 (toString row.id)).toList ++ (flagText row.canReduce ++
      row.targets.flatMap fun target => (Text.padLeft 5 (cellText target)).toList) := by
  simp [text, Automaton.tableRow, flagText, String.toList_join, List.flatMap_map]

/-- A row is read as it was printed, if its numbers fit. -/
theorem read?_text (fits : row.Fits) :
    read? row.targets.length row.text.toList = some row := by
  have idFits : (toString row.id).length ≤ 6 := length_toString_le (by decide) fits.id_lt
  have idWidth := Text.length_padLeft idFits
  have flagWidth : (flagText row.canReduce).length = 7 := by
    cases row.canReduce <;> decide
  have cells : row.text.toList.drop 13 =
      row.targets.flatMap fun target => (Text.padLeft 5 (cellText target)).toList := by
    rw [toList_text, ← List.append_assoc, List.drop_left']
    rw [List.length_append, idWidth, flagWidth]
  rw [read?, cells, readCells?_cellText fits.target_lt, toList_text, List.take_left' idWidth,
    List.drop_left' idWidth, List.take_left' flagWidth, readFlag?_flagText,
    Text.readNumber?_padLeft idFits]
  rfl

/-- A row breaks no line. -/
theorem inline_text (row : TableRow) : ∀ character ∈ row.text.toList, Text.Inline character := by
  rw [toList_text, List.forall_mem_append, List.forall_mem_append, List.forall_mem_flatMap]
  refine ⟨Text.inline_padLeft fun character => inline_of_mem_toString, ?_, ?_⟩
  · rw [flagText, List.forall_mem_cons]
    refine ⟨by decide, Text.inline_padLeft ?_⟩
    cases row.canReduce <;> simp [Text.Inline]
  · intro target _
    apply Text.inline_padLeft
    cases target with
    | none => exact fun character member => absurd member List.not_mem_nil
    | some number => exact fun character => inline_of_mem_toString

end TableRow

/-! ## Tables -/

namespace Automaton

variable {grammar : Grammar}

/-- The rows in the last lines of a text, for so many columns and states. -/
def readTable? (columns count : Nat) (text : List Char) : Option (List TableRow) :=
  (Text.lastLines count text).mapM (TableRow.read? columns)

/-- What the row of a state has to say. -/
def rowOf (automaton : Automaton) (state : State) : TableRow where
  id := state.id
  canReduce := state.canReduce automaton.grammar
  targets := automaton.columns.map state.transition

theorem stateRow_eq (automaton : Automaton) (state : State) :
    automaton.stateRow state = (automaton.rowOf state).text := by
  rw [stateRow, TableRow.text, rowOf, List.map_map]
  rfl

/-- The last lines of a table are the rows of all states. -/
theorem lastLines_table (automaton : Automaton) :
    Text.lastLines automaton.size automaton.table.toList =
      automaton.states.map fun state => (automaton.rowOf state).text.toList := by
  have shown : automaton.table.toList = Text.ofLines
      ((tableRow "state" "reduce" (automaton.columns.map automaton.grammar.label)).toList ::
        automaton.states.map fun state => (automaton.rowOf state).text.toList) := by
    simp only [table, Text.toList_unlines, List.map_cons, List.map_map, stateRow_eq,
      Function.comp_def]
  have inline : ∀ row ∈ automaton.states.map fun state => (automaton.rowOf state).text.toList,
      ∀ character ∈ row, Text.Inline character := by
    rw [List.forall_mem_map]
    exact fun state _ => TableRow.inline_text _
  have cut := Text.lastLines_ofLines inline
    (tableRow "state" "reduce" (automaton.columns.map automaton.grammar.label)).toList
  rwa [List.length_map, ← shown] at cut

/-- If their numbers fit, the rows of all states are read from the table. -/
theorem readTable?_table (automaton : Automaton)
    (fits : ∀ state ∈ automaton.states, (automaton.rowOf state).Fits) :
    readTable? automaton.columns.length automaton.size automaton.table.toList =
      some (automaton.states.map automaton.rowOf) := by
  rw [readTable?, lastLines_table]
  apply mapM_map_eq_some
  intro state member
  have read := TableRow.read?_text (fits state member)
  rwa [rowOf, List.length_map] at read

/-- Where rows say that a state goes on a symbol, which is looked up among the columns. -/
def gotoIn (columns : List Symbol) (rows : List TableRow) (id : Nat) (symbol : Symbol) :
    Option Nat := do
  let row ← rows[id]?
  let column ← columns.idxOf? symbol
  let target ← row.targets[column]?
  target

/-! ## The tables of loaded grammars -/

/-- The numbers of at most a hundred thousand states fit. -/
theorem fits_rowOf (bounded : (build grammar).size ≤ 100000) {state : State}
    (member : state ∈ (build grammar).states) : ((build grammar).rowOf state).Fits := by
  constructor
  · have below : state.id < (build grammar).size :=
      (List.getElem?_eq_some_iff.mp (state?_of_mem member)).1
    change state.id < 10 ^ 6
    omega
  · intro target listed
    obtain ⟨symbol, _, moves⟩ := List.mem_map.mp listed
    obtain ⟨_, found, _⟩ := exists_leads member (transition_eq_some moves)
    have below : target < (build grammar).size := (List.getElem?_eq_some_iff.mp found).1
    omega

/-- What a state has a transition on has a column. -/
theorem mem_columns_of_goto (wellFormed : grammar.WellFormed) {id target : Nat} {symbol : Symbol}
    (moves : (build grammar).goto id symbol = some target) :
    symbol ∈ (build grammar).columns := by
  obtain ⟨item, _, behindDot⟩ := exists_goto_iff.mp ⟨target, moves⟩
  obtain ⟨production, found, member⟩ := Grammar.exists_production_of_symbolAtDot behindDot
  have different := wellFormed.symbolAtDot_ne_augmentedStart behindDot
  rw [columns, List.mem_append, List.mem_filter]
  exact (wellFormed.form_right found symbol member).imp_right fun defined =>
    ⟨defined, bne_iff_ne.mpr different⟩

/-- No symbol has two columns. -/
theorem nodup_columns (loaded : grammar.Loaded) : (build grammar).columns.Nodup := by
  have wellFormed := loaded.wellFormed
  rw [columns, List.nodup_append]
  refine ⟨loaded.nodup_terminals, wellFormed.nodup.filter _, ?_⟩
  -- a symbol of both parts would be a terminal and a nonterminal
  rintro terminal listed nonterminal defined rfl
  have isNonterminal := wellFormed.nonterminal _ (List.mem_filter.mp defined).1
  rw [Symbol.not_isNonterminal_of_isTerminal (wellFormed.isTerminal_of_mem listed)] at isNonterminal
  cases isNonterminal

/-- A state can reduce if it holds a complete item. -/
theorem canReduce_iff_of_state? {automaton : Automaton} {id : Nat} {state : State}
    (found : automaton.state? id = some state) :
    state.canReduce automaton.grammar = true ↔
      ∃ item, automaton.Holds id item ∧ item.isComplete automaton.grammar = true := by
  simp only [State.canReduce_iff, holds_iff_of_state? found]

/-- The rows of all states show every transition, since each has its column. -/
theorem gotoIn_rows (loaded : grammar.Loaded) (id : Nat) (symbol : Symbol) :
    gotoIn (build grammar).columns ((build grammar).states.map (build grammar).rowOf) id symbol =
      (build grammar).goto id symbol := by
  rw [gotoIn, List.getElem?_map]
  cases found : (build grammar).states[id]? with
  | none => rw [goto, state?, found]; rfl
  | some state =>
      have moves := goto_of_state? found symbol
      cases located : (build grammar).columns.idxOf? symbol with
      | none =>
          have absent := List.idxOf?_eq_none_iff.mp located
          cases target : (build grammar).goto id symbol with
          | none => rfl
          | some target => exact absurd (mem_columns_of_goto loaded.wellFormed target) absent
      | some column =>
          obtain ⟨bound, same, _⟩ := List.idxOf?_eq_some_iff.mp located
          have shown : ((build grammar).rowOf state).targets[column]? =
              some (state.transition symbol) := by
            rw [rowOf, List.getElem?_map, List.getElem?_eq_getElem bound, same, Option.map_some]
          simp only [Option.map_some, Option.bind_eq_bind, Option.bind_some, shown]
          exact moves.symm

/-- The table of a loaded grammar whose automaton has at most a hundred thousand states says
what the automaton is. Its last lines are rows, one for each state, and reading them in their
places gives these rows back: the number of the state, whether it holds a complete item, and
where it goes on the symbol of each column. No transition is lost, since its symbol has just
one column. -/
theorem table_faithful (loaded : grammar.Loaded) (bounded : (build grammar).size ≤ 100000) :
    ∃ rows : List TableRow,
      Text.lastLines (build grammar).size (build grammar).table.toList =
        rows.map (fun row => row.text.toList) ∧
      readTable? (build grammar).columns.length (build grammar).size
        (build grammar).table.toList = some rows ∧
      rows.length = (build grammar).size ∧
      (∀ id row, rows[id]? = some row →
        row.id = id ∧
          (row.canReduce = true ↔
            ∃ item, (build grammar).Holds id item ∧ item.isComplete grammar = true) ∧
          row.targets = (build grammar).columns.map ((build grammar).goto id)) ∧
      (∀ id symbol target, (build grammar).goto id symbol = some target →
        ∃! column : Nat, (build grammar).columns[column]? = some symbol) ∧
      ∀ id symbol, gotoIn (build grammar).columns rows id symbol = (build grammar).goto id symbol := by
  refine ⟨(build grammar).states.map (build grammar).rowOf, ?_, ?_, List.length_map _, ?_, ?_, ?_⟩
  · rw [lastLines_table, List.map_map]
    rfl
  · exact readTable?_table _ fun state member => fits_rowOf bounded member
  · intro id row listed
    rw [List.getElem?_map, Option.map_eq_some_iff] at listed
    obtain ⟨state, found, rfl⟩ := listed
    exact ⟨id_eq_of_state? found, canReduce_iff_of_state? found,
      List.map_congr_left fun symbol _ => (goto_of_state? found symbol).symm⟩
  · intro id symbol target moves
    obtain ⟨column, found⟩ :=
      List.getElem?_of_mem (mem_columns_of_goto loaded.wellFormed moves)
    have inside := (List.getElem?_eq_some_iff.mp found).1
    refine ⟨column, found, ?_⟩
    intro other otherFound
    exact ((List.getElem?_inj inside (nodup_columns loaded)).mp (found.trans otherFound.symm)).symm
  · exact gotoIn_rows loaded

end Automaton

/-- Nested pairs of brackets, whose nonterminal is shown by a label that breaks a line. -/
def Grammar.brokenLabel : Grammar :=
  { nested with dialect := Dialect.standard.withLabel "a\nb" (.ofChar 'S') }

theorem Grammar.brokenLabel_loaded : Loaded brokenLabel := by
  have loads : ofRules (Dialect.standard.withLabel "a\nb" (.ofChar 'S'))
      [(.ofChar 'S', [[.ofChar '(', .ofChar 'S', .ofChar ')'], [.empty]])] = .ok brokenLabel := rfl
  exact .rules loads

/-- Although a label of its header breaks a line, five rows are read from its table: the
transition over the nonterminal, and that the state where it leads cannot reduce. -/
theorem Automaton.table_faithful_brokenLabel :
    Grammar.brokenLabel.label (.ofChar 'S') = "a\nb" ∧
      ∃ rows, readTable? 4 5 (build .brokenLabel).table.toList = some rows ∧ rows.length = 5 ∧
        gotoIn (build .brokenLabel).columns rows 2 (.ofChar 'S') = some 3 ∧
          ∀ row, rows[3]? = some row → row.id = 3 ∧ row.canReduce = false := by
  have label : Grammar.brokenLabel.label (.ofChar 'S') = "a\nb" := rfl
  have size : (build .brokenLabel).size = 5 := by
    cbv
  have columns : (build .brokenLabel).columns.length = 4 := by
    cbv
  have moves : (build .brokenLabel).goto 2 (.ofChar 'S') = some 3 := by
    cbv
  have incomplete : ((build .brokenLabel).state? 3).map (·.canReduce .brokenLabel) =
      some false := by
    cbv
  obtain ⟨rows, _, read, length, meaning, _, targets⟩ :=
    table_faithful Grammar.brokenLabel_loaded (by rw [size]; decide)
  rw [size, columns] at read
  refine ⟨label, rows, read, length.trans size, (targets 2 _).trans moves, ?_⟩
  intro row listed
  obtain ⟨id, flag, _⟩ := meaning 3 row listed
  obtain ⟨state, found, unready⟩ := Option.map_eq_some_iff.mp incomplete
  refine ⟨id, Bool.eq_iff_iff.mpr ?_⟩
  rw [flag, ← unready]
  exact (canReduce_iff_of_state? found).symm

end ShiftReduce
