/-!
# Control sequences

Control characters, and the sequences of characters that steer a terminal, have
no place in plain text.  A sequence begins with the escape character, and the
characters after it tell which kind of sequence it is and where it ends.  It need
not end: a new escape character begins another one.  A blank control interrupts a
sequence, unless it is part of a string for the terminal: from there on there is
text up to the next control character, where the sequence goes on.  A character
outside of ASCII in such a text ends the sequence.
-/

namespace ShiftReduce.Text

/-- Where in a control sequence a character stands. -/
inductive ControlState where
  /-- Outside of every sequence. -/
  | outside
  /-- Behind the escape character. -/
  | escape
  /-- Behind an intermediate character, in a sequence of no other kind. -/
  | intermediate
  /-- Among the parameters that a final character ends. -/
  | parameters
  /-- At the beginning of the header of a device control string. -/
  | header
  /-- Behind a parameter in such a header. -/
  | headerParameter
  /-- Behind an intermediate character in such a header. -/
  | headerIntermediate
  /-- In a string for the terminal. -/
  | string
  /-- In a command to the operating system, which the bell ends. -/
  | command
  deriving DecidableEq, Repr

namespace ControlState

/-- Whether the character with this code is a blank control: a tab, a line feed, a
form feed or a carriage return. -/
def isBlankControl (code : Nat) : Bool :=
  code = 0x09 || code = 0x0A || code = 0x0C || code = 0x0D

/-- Whether a blank control in this position is text. -/
def admitsBlank : ControlState → Bool
  | .outside | .escape | .intermediate | .parameters => true
  | .header | .headerParameter | .headerIntermediate | .string | .command => false

/-- Whether a character in this position is text. Within a sequence only a blank
control can begin a text, which goes on up to the next control character. -/
def isText (state : ControlState) (followsText : Bool) (character : Char) : Bool :=
  if isBlankControl character.toNat then state.admitsBlank
  else
    (followsText || state = .outside) && 0x20 ≤ character.toNat && character.toNat ≠ 0x7F

/-- The position behind a character of text. -/
def afterText (state : ControlState) (character : Char) : ControlState :=
  if character.toNat < 0x80 then state else .outside

/-- The position behind a visible ASCII character or a space, by its code. -/
def afterPrintable : ControlState → (code : Nat) → ControlState
  | .outside, _ => .outside
  | .escape, code =>
      if code < 0x30 then .intermediate
      else if code = 0x5B then .parameters
      else if code = 0x5D then .command
      else if code = 0x50 then .header
      else if code = 0x58 || code = 0x5E || code = 0x5F then .string
      else .outside
  | .intermediate, code => if code < 0x30 then .intermediate else .outside
  | .parameters, code => if code < 0x40 then .parameters else .outside
  | .header, code =>
      if code < 0x30 then .headerIntermediate
      else if code < 0x40 then .headerParameter
      else .string
  | .headerParameter, code =>
      if code < 0x30 then .headerIntermediate
      else if code < 0x3C then .headerParameter
      else .string
  | .headerIntermediate, code => if code < 0x30 then .headerIntermediate else .string
  | .string, _ => .string
  | .command, _ => .command

/-- The position behind a control character, by its code. -/
def afterControl (state : ControlState) (code : Nat) : ControlState :=
  if code = 0x1B then .escape
  else if code = 0x18 || code = 0x1A then .outside
  else if code = 0x07 && state = .command then .outside
  else state

/-- The position behind a character outside of ASCII. The byte that ends a string
for the terminal does so also as part of an encoded character. -/
def afterEncoded (state : ControlState) (character : Char) : ControlState :=
  if state = .string && (String.utf8EncodeChar character).contains 0x9C then .outside else state

/-- The position behind a character that is not text. -/
def next (state : ControlState) (character : Char) : ControlState :=
  if character.toNat < 0x20 || character.toNat = 0x7F then state.afterControl character.toNat
  else if character.toNat < 0x7F then state.afterPrintable character.toNat
  else state.afterEncoded character

end ControlState

/-- The text among characters that begin in the given position, directly behind a
character of text or not. -/
def textFrom : ControlState → (followsText : Bool) → List Char → List Char
  | _, _, [] => []
  | state, followsText, character :: characters =>
      if state.isText followsText character then
        character :: textFrom (state.afterText character) true characters
      else textFrom (state.next character) false characters

/-- A text without its control characters and control sequences. Blank controls
stay where they are text. -/
def withoutControls (text : String) : String :=
  String.ofList (textFrom .outside false text.toList)

end ShiftReduce.Text
