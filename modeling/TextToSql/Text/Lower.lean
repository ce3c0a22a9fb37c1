import TextToSql.Text.Basic
import TextToSql.Unicode.Lowercase
import TextToSql.Unicode.Cased

/-!
# Lower case of texts

The full lower-case mapping of the Unicode Standard. It goes character by character but for two
cases: the dotted capital I becomes an i with a combining dot, and a capital sigma becomes the final
form when it ends a word, that is, when a cased character stands before it and none stands after it,
case-ignorable characters being looked through on both sides.
-/

namespace TextToSql.Text

open Unicode

/-- Whether the first character that is not case-ignorable has case. -/
def startsCased (s : List Char) : Bool :=
  match s.dropWhile isCaseIgnorable with
  | [] => false
  | c :: _ => isCased c

/-- Whether a sigma between the two given contexts is final; `before` is in reverse order. -/
def isFinalSigma (before after : List Char) : Bool := startsCased before && !startsCased after

/-- The lower case of one character between its contexts; `before` is in reverse order. -/
def lowerAt (before : List Char) (c : Char) (after : List Char) : List Char :=
  if c.toNat = 0x3A3 then
    if isFinalSigma before after then ['\u03C2'] else ['\u03C3']
  else if c.toNat = 0x130 then ['i', '\u0307']
  else [lowerChar c]

/-- The lower case of a text that follows `before`, which is in reverse order. -/
def lowerAfter (before : List Char) : List Char → List Char
  | [] => []
  | c :: rest => lowerAt before c rest ++ lowerAfter (c :: before) rest

/-- The lower case of a text. -/
def lower (s : List Char) : List Char := lowerAfter [] s

/-- The lower case of a string. -/
def lowerOf (s : String) : String := String.ofList (lower s.toList)

end TextToSql.Text
