import ShiftReduce.Grammar.Rules
import ShiftReduce.Text.Blank

/-!
# Grammar sources

A grammar source has one rule on a line: a nonterminal, an arrow `->`, and
alternatives between bars.  Blanks mean nothing, lines of blanks are skipped, and
the labels of the dialect are written as their symbols before a line is read.
-/

namespace ShiftReduce

namespace Grammar

/-- Read a line without blanks, in which labels are written as symbols. -/
def readLine (line : Nat) (text : List Char) : Except Error Rule :=
  match Text.splitArrows text with
  | [left, right] =>
    match Symbol.readAll left with
    | .error error => .error error
    | .ok [left] => do
        let alternatives ← (Text.splitOn '|' right).mapM Symbol.readAll
        .ok { line, left, alternatives }
    | .ok _ => .error (.format line .leftLength)
  | _ => .error (.format line .arrowCount)

/-- The lines of a source that hold more than blanks, without their blanks and
with the numbers they have in the source. -/
def sourceLines (source : List Char) : List (Nat × List Char) :=
  ((Text.lines '\n' '\r' source).mapIdx fun index line =>
    (index + 1, Text.withoutBlanks line)).filter fun (_, line) => !line.isEmpty

/-- Load a grammar from a source. -/
def loadSource (dialect : Dialect) (source : List Char) : Loading :=
  collect dialect <| (sourceLines source).map fun (line, text) =>
    readLine line (dialect.substitute text)

/-- The grammar of a source. -/
def parse (dialect : Dialect) (source : List Char) : Except Error Grammar :=
  (loadSource dialect source).result

end Grammar

end ShiftReduce
