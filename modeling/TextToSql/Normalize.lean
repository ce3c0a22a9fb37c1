import TextToSql.Text.Lower
import TextToSql.Unicode.WordChar

/-!
# Normal form of a question

A question is put into lower case, its punctuation becomes white space, function words without
meaning for a query are dropped, and plurals are reduced to their singular. The words of the schema
are protected: they stay as they are, and a plural of the trade vocabulary is reduced only to a
singular that the schema has.
-/

namespace TextToSql.Normalize

open Unicode

/-! ## Word lists -/

/-- Function words that are dropped. Words that have a meaning for a query, such as `is`, `than`,
`with` and `by`, are not among them. -/
def stopwords : List String :=
  ["a", "an", "the", "i", "my", "myself", "we", "our", "ours", "you", "your", "yours", "he",
   "him", "she", "they", "them", "its", "itself", "please", "could", "would", "should", "can",
   "will", "shall", "may", "might", "must", "do", "does", "did", "doing", "be", "been", "being",
   "was", "were", "am", "are", "for", "on", "about", "into", "through", "during", "before",
   "after", "again", "further", "then", "once", "here", "there", "just", "so", "very", "too",
   "also", "that", "these", "those", "such", "own", "only", "some", "any", "both", "if", "or",
   "because", "as", "until", "while", "whom", "why", "yourself", "ourselves", "themselves",
   "hers", "herself", "himself", "theirs", "had", "nor", "same", "other", "out", "off", "down",
   "now", "don", "kindly"]

/-- Words that look like plurals and keep their last letter. -/
def keptPlurals : List String :=
  ["sales", "orders", "items", "times", "status", "customers", "products", "analytics", "series",
   "news", "days", "months", "years", "weeks", "quarters", "less", "unless", "always", "has",
   "was", "is", "this", "its", "plus", "minus", "bonus", "address", "process"]

/-! ## Punctuation -/

/-- Whether a character belongs to a word or an operator wherever it stands. -/
def isKept (c : Char) : Bool :=
  isAlphabetic c || isNumeric c || c = '_' || isWhite c || c = '<' || c = '>' || c = '=' || c = '!'

/-- Whether a neighbour is an ASCII digit. -/
def isDigitAt (c : Option Char) : Bool :=
  match c with
  | none => false
  | some c => c.isDigit

/-- What a character becomes between its neighbours: a hyphen or a point stays between two ASCII
digits, and whatever else is not kept becomes a space. -/
def stripChar (before : Option Char) (c : Char) (after : Option Char) : Char :=
  if isKept c || ((c = '-' || c = '.') && isDigitAt before && isDigitAt after) then c else ' '

/-- A text after the character `before`, with its punctuation replaced by spaces. -/
def stripAfter (before : Option Char) : List Char → List Char
  | [] => []
  | c :: rest => stripChar before c rest.head? :: stripAfter (some c) rest

/-- A text with its punctuation replaced by spaces. -/
def strip (s : List Char) : List Char := stripAfter none s

/-! ## Plurals -/

/-- Whether a word ends in the given letters. -/
def endsIn (word : List Char) (ending : String) : Bool := ending.toList.isSuffixOf word

/-- A word without its last letters. -/
def withoutLast (n : Nat) (word : List Char) : List Char := word.take (word.length - n)

/-- The length of a text in bytes. -/
def byteLength (s : List Char) : Nat := s.foldl (fun bytes c => bytes + c.utf8Size) 0

/-- The singular of a word that looks like a plural: a word of more than three bytes that consists
of letters and ends in `s`, but not in `ss`, `us` or `is`. -/
def singular? (word : List Char) : Option (List Char) :=
  if byteLength word ≤ 3 || !word.all isAlphabetic then none
  else if endsIn word "ss" || endsIn word "us" || endsIn word "is" then none
  else if endsIn word "ies" then some (withoutLast 3 word ++ ['y'])
  else if endsIn word "ches" || endsIn word "shes" || endsIn word "xes" || endsIn word "sses" then
    some (withoutLast 2 word)
  else if endsIn word "s" then some (withoutLast 1 word)
  else none

/-- The form that a word takes: a protected word stays, and a word that keeps its plural goes into
the singular only if that is protected. -/
def baseForm (protectedWords : List String) (word : List Char) : List Char :=
  if protectedWords.contains (String.ofList word) then word
  else
    match singular? word with
    | none => word
    | some stem =>
        if keptPlurals.contains (String.ofList word)
            && !protectedWords.contains (String.ofList stem) then word
        else stem

/-! ## Whole texts -/

/-- The words of the normal form of a text. -/
def cleanWords (protectedWords : List String) (text : List Char) : List (List Char) :=
  ((Text.words (strip (Text.lower text))).filter
    fun word => !stopwords.contains (String.ofList word)).map (baseForm protectedWords)

/-- The normal form of a text: its words separated by single spaces. -/
def cleanText (protectedWords : List String) (text : String) : String :=
  " ".intercalate ((cleanWords protectedWords text.toList).map String.ofList)

end TextToSql.Normalize
