import ShiftReduce.Analysis.Follow
import ShiftReduce.Automaton.Build
import ShiftReduce.Automaton.Table
import ShiftReduce.CommandLine.Arguments
import ShiftReduce.Grammar.Source
import ShiftReduce.Parser.Run

/-!
# Carrying out a request

A request is carried out on the bytes of its grammar file and of the standard
input.  The result is what is printed and the exit code: zero if all went well,
one if a file or the grammar is at fault or a text was rejected, two if the
arguments were refused.
-/

namespace ShiftReduce.CommandLine

/-- Why the bytes of a file cannot be had, or are no text. -/
inductive FileFault where
  | missing
  | directory
  /-- The path leads through a file as if that were a directory. -/
  | notDirectory
  | notText
  /-- Any other reason, in the words of the system. -/
  | system (reason : String)
  deriving DecidableEq, Repr

def FileFault.message : FileFault → String
  | .missing => "No such file or directory (os error 2)"
  | .directory => "Is a directory (os error 21)"
  | .notDirectory => "Not a directory (os error 20)"
  | .notText => "stream did not contain valid UTF-8"
  | .system reason => reason

/-- What a run of the program leaves behind. -/
structure Outcome where
  exitCode : Nat
  output : String
  errors : String
  deriving DecidableEq, Repr

/-- A failure in a context, with the cause below it. -/
def failureText (context cause : String) : String :=
  s!"Error: {context}\n\nCaused by:\n    {cause}\n"

/-- The outcome of a failure after some output. -/
def Outcome.failure (output context cause : String) : Outcome :=
  ⟨1, output, failureText context cause⟩

/-- The text that bytes encode. -/
def decodeText (bytes : ByteArray) : Except FileFault String :=
  match String.fromUTF8? bytes with
  | some text => .ok text
  | none => .error .notText

/-- The grammar in a file. -/
def loadGrammar (settings : Settings) (file : Except FileFault ByteArray) :
    Except Outcome Grammar :=
  let path := Text.quote (settings.grammar.getD "")
  match file >>= decodeText with
  | .error fault => .error (.failure "" s!"can't read grammar {path}" fault.message)
  | .ok source =>
    match Grammar.parse settings.dialect source.toList with
    | .error error => .error (.failure "" s!"in grammar {path}" error.message)
    | .ok grammar => .ok grammar

/-- What is printed for one text, and whether it was accepted. -/
def reportText (automaton : Automaton) (trace : Bool) (text : String) : String × Bool :=
  match automaton.parseText text.toList with
  | .ok parsed =>
      let steps := if trace then parsed.text automaton.grammar else ""
      let statistics := parsed.statistics
      (steps ++ text ++
        s!": accepted ({statistics.shifts} shifts, {statistics.reductions} reductions)\n", true)
  | .error error => (s!"{text}: {error.message}\n", false)

/-- Report on texts in order. A fault among them ends the report. -/
def reportTexts (automaton : Automaton) (trace : Bool) :
    (output : String) → (rejected : Bool) → List (Except FileFault String) → Outcome
  | output, rejected, [] => ⟨if rejected then 1 else 0, output, ""⟩
  | output, _, .error fault :: _ => .failure output "can't read stdin" fault.message
  | output, rejected, .ok text :: texts =>
      let (report, accepted) := reportText automaton trace text
      reportTexts automaton trace (output ++ report) (rejected || !accepted) texts

/-- The lines of the standard input, without those that hold only blanks. -/
def inputTexts (input : ByteArray) : List (Except FileFault String) :=
  ((Text.lines 10 13 input.toList).map fun line => decodeText ⟨line.toArray⟩).filter fun line =>
    match line with
    | .ok text => !text.toList.all Text.isBlank
    | .error _ => true

namespace Request

/-- Whether the request reads its texts from the standard input. -/
def readsInput (request : Request) : Bool :=
  request.command == .parse && request.settings.texts.isEmpty

/-- Carry out a request. -/
def run (request : Request) (file : Except FileFault ByteArray) (input : ByteArray) : Outcome :=
  match loadGrammar request.settings file with
  | .error outcome => outcome
  | .ok grammar =>
      let automaton := Automaton.build grammar
      match request.command with
      | .table => ⟨0, automaton.table, ""⟩
      | .states => ⟨0, automaton.listing, ""⟩
      | .sets => ⟨0, grammar.listing ++ "\n" ++ grammar.setsListing, ""⟩
      | .parse =>
          reportTexts automaton request.settings.trace "" false <|
            if request.readsInput then inputTexts input
            else request.settings.texts.map .ok

end Request

/-- The name and version of the program. -/
def versionText : String := "lrzero-cli 0.1.0\n"

end ShiftReduce.CommandLine
