import TextToSql.Http.Status
import TextToSql.Json.Doc
import TextToSql.Language.Basic

/-!
# Translation by a cloud service

A client of a translation service that is asked by a form-encoded query and answers with a JSON
document. The exchange with the service is a function from the query to the answer, so that the client
itself is a pure function of it.
-/

namespace TextToSql.Cloud

/-! ## Form encoding -/

/-- The upper-case hexadecimal digit of a number below sixteen. -/
def hexDigit (n : Nat) : Char :=
  if n < 10 then Char.ofNat (0x30 + n) else Char.ofNat (0x41 + (n - 10))

/-- The form-encoded character: letters, digits and `*-._` stay, a space becomes a plus sign, and of
any other character the bytes are written in hexadecimal. -/
def encodeChar (c : Char) : List Char :=
  if c.isAlphanum || c = '*' || c = '-' || c = '.' || c = '_' then [c]
  else if c = ' ' then ['+']
  else (String.utf8EncodeChar c).flatMap fun b => ['%', hexDigit (b.toNat / 16), hexDigit (b.toNat % 16)]

/-- The form-encoded text. -/
def encode (s : String) : String := String.ofList (s.toList.flatMap encodeChar)

/-- The form-encoded list of named values. -/
def encodeForm (fields : List (String × String)) : String :=
  "&".intercalate (fields.map fun (name, value) => encode name ++ "=" ++ encode value)

/-! ## The exchange -/

/-- An answer of the service. -/
structure Answer where
  status : Nat
  body : String

/-- What is answered to a query; none if there is no answer. -/
abbrev Exchange := String → Option Answer

/-- Why a translation fails. -/
inductive Fault where
  | noKey
  | noAnswer
  | refused (status : Nat) (body : String)
  | unreadable
  | noText
deriving DecidableEq

/-- The text that reports why a translation fails. -/
def Fault.message : Fault → String
  | noKey => "Translation API key is not configured"
  | noAnswer => "Failed to call translation service"
  | refused status body =>
      "Translation service returned error " ++ Http.showStatus status ++ ": " ++ body
  | unreadable => "Failed to parse translation response"
  | noText => "Translation response has no translatedText"

/-- A key that can be used: an empty one is none. -/
def usableKey (key : Option String) : Option String := key.filter fun k => !k.isEmpty

/-- The query for the translation of a text. -/
def query (key text source : String) : String :=
  encodeForm [("q", text), ("source", source), ("target", Language.english.code),
    ("format", "text"), ("key", key)]

/-- The translated text in the document of an answer. -/
def translatedText? (document : Json) : Option String :=
  match document with
  | .object members =>
      match Json.member? "data" members with
      | some (.object data) =>
          match Json.member? "translations" data with
          | some (.array (.object first :: _)) =>
              match Json.member? "translatedText" first with
              | some (.string text) => some text
              | _ => none
          | _ => none
      | _ => none
  | _ => none

/-- A text without the byte order mark that it may start with. -/
def dropMark (s : String) : String :=
  match s.toList with
  | c :: rest => if c.toNat = 0xFEFF then String.ofList rest else s
  | [] => s

/-- The translation in an answer; an answer that only announces another one is none. -/
def readAnswer (answer : Answer) : Except Fault String :=
  let body := if Http.isContentless answer.status then "" else answer.body
  if Http.isInterim answer.status then .error .noAnswer
  else if !Http.isSuccess answer.status then .error (.refused answer.status (dropMark body))
  else
    match Json.ofText? body with
    | none => .error .unreadable
    | some document =>
        match translatedText? document with
        | none => .error .noText
        | some text => .ok text

/-- The translation of a text from the language of the given code. -/
def translate (key : Option String) (exchange : Exchange) (source text : String) :
    Except Fault String :=
  match usableKey key with
  | none => .error .noKey
  | some key =>
      match exchange (query key text source) with
      | none => .error .noAnswer
      | some answer => readAnswer answer

/-- The client as a translator. -/
def translator (key : Option String) (exchange : Exchange) : Translator := fun language text =>
  match translate key exchange language.code text with
  | .ok translated => .ok translated
  | .error fault => .error (.translation fault.message)

end TextToSql.Cloud
