/-!
# Grammar symbols

A symbol is one byte, and the byte alone decides its class: capital letters are
nonterminals, `e` is the empty symbol, and everything else is a terminal,
including the end marker `#`.  The three classes are disjoint and exhaustive, so
a symbol never carries a tag.  Unprintable bytes are symbols too; the loader and
the parser refuse them where they matter.
-/

namespace ShiftReduce

/-- A grammar symbol, which is any single byte. -/
structure Symbol where
  byte : UInt8
  deriving DecidableEq, Repr

namespace Symbol

/-- The symbol whose byte is the low half of a character's code. It is exact for
the characters up to `U+00FF`. -/
def ofChar (character : Char) : Symbol := ⟨character.toUInt8⟩

/-- The character that a symbol is shown as. -/
def toChar (symbol : Symbol) : Char := Char.ofUInt8 symbol.byte

/-- The empty symbol, which stands alone in an alternative for the empty sequence. -/
def empty : Symbol := ofChar 'e'

/-- The end marker: it closes every input and lies at the bottom of every stack. -/
def endMarker : Symbol := ofChar '#'

/-- Printable symbols are the visible ASCII characters; the space is not one. -/
def isPrintable (symbol : Symbol) : Bool := 0x21 ≤ symbol.byte && symbol.byte ≤ 0x7E

/-- Nonterminals are the capital ASCII letters. -/
def isNonterminal (symbol : Symbol) : Bool := 0x41 ≤ symbol.byte && symbol.byte ≤ 0x5A

def isEmpty (symbol : Symbol) : Bool := symbol == empty

/-- Every symbol that is neither a nonterminal nor empty is a terminal. -/
def isTerminal (symbol : Symbol) : Bool := !(symbol.isNonterminal || symbol.isEmpty)

def isEndMarker (symbol : Symbol) : Bool := symbol == endMarker

/-- The terminals that may stand in a rule or an input: printable ones other
than the end marker. -/
def isInput (symbol : Symbol) : Bool :=
  symbol.isPrintable && symbol.isTerminal && !symbol.isEndMarker

/-- The symbol written as a character, if that character is printable. -/
def ofPrintable? (character : Char) : Option Symbol :=
  if '!' ≤ character ∧ character ≤ '~' then some (ofChar character) else none

/-- The text of a symbol is its character. -/
def text (symbol : Symbol) : String := String.singleton symbol.toChar

/-- The text of a sequence of symbols, without separators. -/
def textOf (symbols : List Symbol) : String := String.ofList (symbols.map toChar)

end Symbol

end ShiftReduce
