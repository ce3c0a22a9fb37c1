import TextToSql.Language.Cloud
import TextToSql.Service
import TextToSql.Settings.Toml

/-!
# Settings

What can be chosen about the service: where it listens, how it translates, whether it checks its SQL and
how it logs. Defaults come first, then a settings file if one is named, then single variables of the
environment, which hold even where the file has an unfit value.
-/

namespace TextToSql

/-- Where the service listens. -/
structure ServerSettings where
  host : String
  port : Fin 65536
deriving DecidableEq

/-- How questions are translated. -/
structure TranslationSettings where
  apiUrl : String
  apiKey : Option String
  enabled : Bool
deriving DecidableEq

/-- How the service logs. -/
structure LoggingSettings where
  level : String
  style : String
deriving DecidableEq

/-- All settings. -/
structure Settings where
  server : ServerSettings
  translation : TranslationSettings
  checksSql : Bool
  logging : LoggingSettings
deriving DecidableEq

namespace Settings

/-- The address that the service listens at. -/
def serverAddress (settings : Settings) : String :=
  settings.server.host ++ ":" ++ settings.server.port.val.repr

/-- The service with these settings, given how its translations are answered. -/
def service (settings : Settings) (exchange : Cloud.Exchange) : Service where
  translator :=
    if settings.translation.enabled then
      some (Cloud.translator settings.translation.apiKey exchange)
    else none
  checksSql := settings.checksSql

/-! ## Reading a tree of values -/

/-- A field that has to be there, as a text. -/
def textOf? (record : Value) (name : String) (place : Nat) : Option String :=
  (record.field? name place).bind Value.toText?

/-- A field that may be missing, as a text. -/
def optionalTextOf? (record : Value) (name : String) (place : Nat) : Option (Option String) :=
  match record.field? name place with
  | none => some none
  | some value => value.toText?.map some

/-- A field that has to be there, as a flag. -/
def flagOf? (record : Value) (name : String) (place : Nat) : Option Bool :=
  (record.field? name place).bind Value.toFlag?

/-- A part of the settings. -/
def part? (root : Value) (name : String) : Option Value := Entries.find? name root.entries

/-- The settings in a tree of values; none if a field is missing or cannot be read. Only the key of the
translation service may be missing. -/
def ofValue? (root : Value) : Option Settings := do
  let server ← part? root "server"
  let host ← textOf? server "host" 0
  let port ← (← server.field? "port" 1).toPort?
  let translation ← part? root "translation"
  let apiUrl ← textOf? translation "api_url" 0
  let apiKey ← optionalTextOf? translation "api_key" 1
  let enabled ← flagOf? translation "enabled" 2
  let language ← part? root "nlp"
  let checksSql ← flagOf? language "validate_sql" 0
  let logging ← part? root "logging"
  let level ← textOf? logging "level" 0
  let style ← textOf? logging "style" 1
  return ⟨⟨host, port⟩, ⟨apiUrl, apiKey, enabled⟩, checksSql, ⟨level, style⟩⟩

/-! ## Sources of settings -/

/-- The port that holds if none can be read. -/
def defaultPort : Nat := 8000

/-- The settings that hold if nothing is chosen. -/
def defaults : Value :=
  .table [
    ("server", .table [("host", .text "0.0.0.0"), ("port", .integer defaultPort)]),
    ("translation", .table [
      ("api_url", .text "https://translation.googleapis.com/language/translate/v2"),
      ("enabled", .flag true)]),
    ("nlp", .table [("validate_sql", .flag true)]),
    ("logging", .table [("level", .text "info"), ("style", .text "auto")])]

/-- The place that a key at the top of a settings file names: parts between points lead into tables. -/
def placeOf (key : String) : List String :=
  let parts := key.toList.foldr (fun c parts =>
    if c = '.' then [] :: parts
    else
      match parts with
      | part :: parts => (c :: part) :: parts
      | [] => [[c]]) [[]]
  if parts.all fun part => !part.isEmpty && part.all Toml.isKeyChar then parts.map String.ofList
  else [key]

/-- Lays the values of a settings file over a tree of values. -/
def layFile (file : Entries) (root : Value) : Value :=
  file.foldl (fun root (key, value) => Value.setAt (placeOf key) value root) root

/-- A variable of the environment that chooses a setting: its name, the place of the setting, and the
value that a text stands for. -/
structure Variable where
  name : String
  place : List String
  value : String → Value

/-- The flag that a variable stands for: only one text clears it. -/
def flagValue (s : String) : Value := .flag (s != "false")

/-- The port that a variable stands for. -/
def portValue (s : String) : Value := .integer ((Value.numeral? 65536 s).getD defaultPort)

/-- The variables that choose settings. -/
def knownVariables : List Variable :=
  [⟨"HOST", ["server", "host"], .text⟩,
   ⟨"PORT", ["server", "port"], portValue⟩,
   ⟨"TRANSLATE_API_URL", ["translation", "api_url"], .text⟩,
   ⟨"GOOGLE_API_KEY", ["translation", "api_key"], .text⟩,
   ⟨"TRANSLATION_ENABLED", ["translation", "enabled"], flagValue⟩,
   ⟨"NLQ_VALIDATE_SQL", ["nlp", "validate_sql"], flagValue⟩,
   ⟨"RUST_LOG", ["logging", "level"], .text⟩,
   ⟨"RUST_LOG_STYLE", ["logging", "style"], .text⟩]

/-- Sets what the variables of an environment choose. -/
def layVariables (environment : String → Option String) (root : Value) : Value :=
  knownVariables.foldl (fun root v =>
    match environment v.name with
    | some s => Value.setAt v.place (v.value s) root
    | none => root) root

/-- The variable that names a settings file. -/
def fileVariable : String := "NLQ_CONFIG"

/-- The settings that an environment and the file it names choose; none if the file is missing or
cannot be read, or if a setting cannot be read. -/
def load (environment readFile : String → Option String) : Option Settings := do
  let file ← match environment fileVariable with
    | none => some []
    | some name => (readFile name).bind Toml.ofText?
  ofValue? (layVariables environment (layFile file defaults))

end Settings

end TextToSql
