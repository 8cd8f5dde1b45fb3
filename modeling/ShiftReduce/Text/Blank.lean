/-!
# Blank characters

The characters with the Unicode property `White_Space`.  They carry no meaning
in grammar sources and parse inputs and are dropped from both.
-/

namespace ShiftReduce.Text

/-- Whether a character has the property `White_Space`. -/
def isBlank (character : Char) : Bool :=
  let code := character.toNat
  (0x09 ≤ code && code ≤ 0x0D) || code == 0x20 || code == 0x85 || code == 0xA0 ||
    code == 0x1680 || (0x2000 ≤ code && code ≤ 0x200A) || code == 0x2028 ||
    code == 0x2029 || code == 0x202F || code == 0x205F || code == 0x3000

/-- A text without its blank characters. -/
def withoutBlanks (text : List Char) : List Char := text.filter (!isBlank ·)

end ShiftReduce.Text
