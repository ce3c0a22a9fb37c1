import TextToSql.Unicode.Alphabetic
import TextToSql.Unicode.Mark
import TextToSql.Unicode.Digit

/-!
# Word characters

The characters that make up a word: alphabetic characters, marks, decimal digits, connector
punctuation such as the underscore, and the two join controls. A word boundary lies between a word
character and a character that is none, or an end of the text.
-/

namespace TextToSql.Unicode

/-- Whether a character is connector punctuation: the underscore and its relatives. -/
def isConnector (c : Char) : Bool :=
  let n := c.toNat
  n = 0x5F || n = 0x203F || n = 0x2040 || n = 0x2054 || n = 0xFE33 || n = 0xFE34
    || (0xFE4D ≤ n && n ≤ 0xFE4F) || n = 0xFF3F

/-- Whether a character is a join control: the zero-width non-joiner or joiner. -/
def isJoinControl (c : Char) : Bool := c.toNat = 0x200C || c.toNat = 0x200D

/-- Whether a character can be part of a word. -/
def isWordChar (c : Char) : Bool :=
  if c.toNat < 0x80 then c.isAlphanum || c.toNat = 0x5F
  else isAlphabetic c || isBareMark c || isDecimalDigit c || isConnector c || isJoinControl c

end TextToSql.Unicode
