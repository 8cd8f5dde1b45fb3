/-!
# Cutting and replacing text

Lines, pieces between separators, and replacement of a pattern.  Each function
is one structural pass over the characters from left to right.
-/

namespace ShiftReduce.Text

/-- Put an element in front of the first piece. -/
def extendFirst {α : Type} (element : α) : List (List α) → List (List α)
  | [] => [[element]]
  | piece :: pieces => (element :: piece) :: pieces

/-- The lines of a text. A newline ends a line, and so does a carriage return
that is directly followed by a newline. The end of the text ends its last line
unless that line is empty. -/
def lines {α : Type} [DecidableEq α] (newline carriageReturn : α) : List α → List (List α)
  | [] => []
  | first :: rest =>
    if first = newline then
      [] :: lines newline carriageReturn rest
    else
      match rest with
      | [] => [[first]]
      | second :: others =>
        if first = carriageReturn ∧ second = newline then
          [] :: lines newline carriageReturn others
        else
          extendFirst first (lines newline carriageReturn (second :: others))

/-- The pieces of a text between the occurrences of one character. There is
always one piece more than there are separators. -/
def splitOn (separator : Char) : List Char → List (List Char)
  | [] => [[]]
  | first :: rest =>
    if first = separator then [] :: splitOn separator rest
    else extendFirst first (splitOn separator rest)

/-- The pieces of a text between its arrows `->`. -/
def splitArrows : List Char → List (List Char)
  | [] => [[]]
  | '-' :: '>' :: rest => [] :: splitArrows rest
  | first :: rest => extendFirst first (splitArrows rest)

/-- Drop `skip` characters, then replace every occurrence of a nonempty pattern.
The skipped characters are those of an occurrence that was just replaced, so
that occurrences never overlap. -/
def replaceFrom (pattern replacement : List Char) : Nat → List Char → List Char
  | _, [] => []
  | skip + 1, _ :: rest => replaceFrom pattern replacement skip rest
  | 0, first :: rest =>
    if pattern.isPrefixOf (first :: rest) then
      replacement ++ replaceFrom pattern replacement (pattern.length - 1) rest
    else
      first :: replaceFrom pattern replacement 0 rest

/-- Replace every occurrence of a pattern, from left to right. The empty pattern
occurs before every character and at the end. -/
def replaceAll (pattern replacement text : List Char) : List Char :=
  match pattern with
  | [] => text.flatMap (fun character => replacement ++ [character]) ++ replacement
  | _ :: _ => replaceFrom pattern replacement 0 text

/-- Pad a text with spaces on the left to a least width. -/
def padLeft (width : Nat) (text : String) : String :=
  String.ofList (List.replicate (width - text.length) ' ') ++ text

/-- Texts joined, each followed by a newline. -/
def unlines (texts : List String) : String :=
  String.join (texts.map (· ++ "\n"))

end ShiftReduce.Text
