import ShiftReduce.Analysis.Follow
import ShiftReduce.Automaton.Conflict
import ShiftReduce.Automaton.Table
import ShiftReduce.CommandLine.Session
import ShiftReduce.Event
import ShiftReduce.Main
import ShiftReduce.Proofs.Analysis.ExactFollow
import ShiftReduce.Proofs.Automaton.AccessingSymbols
import ShiftReduce.Proofs.Automaton.Canonical
import ShiftReduce.Proofs.Automaton.LeastClosure
import ShiftReduce.Proofs.Automaton.PrintedTable
import ShiftReduce.Proofs.Automaton.Scanning
import ShiftReduce.Proofs.Grammar.Collecting
import ShiftReduce.Proofs.Grammar.Consistency
import ShiftReduce.Proofs.Grammar.Format
import ShiftReduce.Proofs.Grammar.Line
import ShiftReduce.Proofs.Grammar.Listing
import ShiftReduce.Proofs.Grammar.Reloading
import ShiftReduce.Proofs.Grammar.Rendering
import ShiftReduce.Proofs.Grammar.Spelling
import ShiftReduce.Proofs.Parser.Conflicts
import ShiftReduce.Proofs.Parser.Finality
import ShiftReduce.Proofs.Parser.InputCheck
import ShiftReduce.Proofs.Parser.Lookahead
import ShiftReduce.Proofs.Parser.Numbers
import ShiftReduce.Proofs.Parser.Renaming
import ShiftReduce.Proofs.Parser.Stacks
import ShiftReduce.Proofs.Parser.StateStacks
import ShiftReduce.Proofs.Parser.Termination
import ShiftReduce.Proofs.Parser.ValidPrefix
import ShiftReduce.Proofs.Text.Pieces
import ShiftReduce.Recognizer
