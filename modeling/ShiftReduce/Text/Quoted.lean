import ShiftReduce.Text.Combining
import ShiftReduce.Text.Unprintable

/-!
# Quoted text

Messages show characters and texts between quotes.  The quote itself, the
backslash and the common controls are written with a backslash, and every other
character that would not be visible on its own is written by its code.
-/

namespace ShiftReduce.Text

/-- A character written by its code point, in lower-case hexadecimal digits. -/
def escapeCode (character : Char) : String :=
  "\\u\x7b" ++ String.ofList (Nat.toDigits 16 character.toNat) ++ "\x7d"

/-- A character as it stands between two quotes. -/
def escapeWithin (quote character : Char) : String :=
  match character with
  | '\x00' => "\\0"
  | '\t' => "\\t"
  | '\r' => "\\r"
  | '\n' => "\\n"
  | '\\' => "\\\\"
  | _ =>
    if character = quote then "\\" ++ String.singleton character
    else if isCombining character || isUnprintable character then escapeCode character
    else String.singleton character

/-- A character in single quotes. -/
def quoteChar (character : Char) : String :=
  "\x27" ++ escapeWithin '\x27' character ++ "\x27"

/-- A text in double quotes. -/
def quote (text : String) : String :=
  "\x22" ++ String.join (text.toList.map (escapeWithin '\x22')) ++ "\x22"

end ShiftReduce.Text
