import TextToSql.Failure
import TextToSql.Text.Lower

/-!
# Languages

Questions are answered in English. A question in Hindi or Kannada is told by its script, or by the
number of its words that belong to the romanized vocabulary of the language; it is put into English
by a translator, and left as it is when there is none or it fails.

* `workingText_of_english` : a question in English is never sent to the translator.
-/

namespace TextToSql

/-- The languages that are told apart. -/
inductive Language where
  | english
  | hindi
  | kannada
deriving DecidableEq

/-- A translator into English: it answers with a text or fails. -/
abbrev Translator := Language → String → Except Failure String

namespace Language

/-- The two-letter code of a language. -/
def code : Language → String
  | english => "en"
  | hindi => "hi"
  | kannada => "kn"

/-! ## Detection -/

/-- Whether a character is in the Devanagari block. -/
def isDevanagari (c : Char) : Bool := 0x0900 ≤ c.toNat && c.toNat ≤ 0x097F

/-- Whether a character is in the Kannada block. -/
def isKannada (c : Char) : Bool := 0x0C80 ≤ c.toNat && c.toNat ≤ 0x0CFF

/-- English words of questions. -/
def englishWords : List String :=
  ["show", "get", "list", "find", "what", "which", "orders", "customers", "products"]

/-- Romanized Hindi words of questions. -/
def hindiWords : List String :=
  ["dikhao", "dikhaiye", "batao", "sabhi", "kitne", "kya", "kaun", "grahak", "aadesh", "utpad"]

/-- Romanized Kannada words of questions. -/
def kannadaWords : List String :=
  ["torisu", "pade", "patti", "huduku", "enu", "yava", "adeshagalu", "grahakaru", "utpannagalu"]

/-- The number of words that belong to a vocabulary. -/
def countIn (vocabulary words : List String) : Nat := words.countP vocabulary.contains

/-- The language of a text: a script decides at once, and of the vocabularies the one that has more
words of the text than each other one; English if there is none. -/
def detect (text : String) : Language :=
  if text.toList.any isDevanagari then hindi
  else if text.toList.any isKannada then kannada
  else
    let words := Text.wordsOf (Text.lowerOf text)
    let e := countIn englishWords words
    let h := countIn hindiWords words
    let k := countIn kannadaWords words
    if e < h && k < h then hindi
    else if e < k && h < k then kannada
    else english

/-! ## Translation -/

/-- The language that a translator is asked to translate a text from; none for English. -/
def foreign? (text : String) : Option Language :=
  match detect text with
  | english => none
  | language => some language

/-- A text in English as far as a translator can put it so. -/
def workingText (translator : Option Translator) (text : String) : String :=
  match foreign? text, translator with
  | some language, some translate =>
      match translate language text with
      | .ok translated => translated
      | .error _ => text
  | _, _ => text

/-- A question in English stays as it is, whatever the translator. -/
theorem workingText_of_english (translator : Option Translator) (text : String)
    (h : detect text = english) : workingText translator text = text := by
  have hf : foreign? text = none := by rw [foreign?, h]
  simp [workingText, hf]

/-- Without a translator a question stays as it is. -/
theorem workingText_none (text : String) : workingText none text = text := by
  simp [workingText]

end Language

end TextToSql
