import TextToSql.Language.Cloud
import TextToSql.Service

/-!
# Translation in an answer

The translator has a part in an answer only by the text that it puts in the place of the question. So a
question in English is answered as without a translator, and so is a question whose translation fails; and a
question that is translated is answered as its translation is without a translator.

* `Cloud.exists_error_iff` : in which cases a translation by a cloud service fails;
* `Request.sql_eq_of_workingText` : a request is answered as the request for its text in English;
* `Service.respond_translated` : what a translator can change in an answer.
-/

namespace TextToSql

/-! ## Places in a document -/

namespace Json

/-- A step into a document: to a member of an object or to an item of an array. -/
inductive Step where
  | member (name : String)
  | item (index : Nat)

/-- What a step leads to. -/
def follow? : Json → Step → Option Json
  | .object members, .member name => member? name members
  | .array items, .item index => items[index]?
  | _, _ => none

/-- What some steps lead to, one after the other. -/
def at? (document : Json) : List Step → Option Json
  | [] => some document
  | step :: path => (document.follow? step).bind fun inner => inner.at? path

/-- A step to a member leads to somewhere in objects only. -/
theorem follow?_member_eq_some_iff (document inner : Json) (name : String) :
    document.follow? (.member name) = some inner
      ↔ ∃ members, document = .object members ∧ member? name members = some inner := by
  cases document <;> simp [follow?]

/-- The step to the first item leads to somewhere in arrays with items only. -/
theorem follow?_item_zero_eq_some_iff (document inner : Json) :
    document.follow? (.item 0) = some inner ↔ ∃ rest, document = .array (inner :: rest) := by
  cases document with
  | array items => cases items <;> simp [follow?]
  | null => simp [follow?]
  | bool value => simp [follow?]
  | number lexeme => simp [follow?]
  | string value => simp [follow?]
  | object members => simp [follow?]

end Json

/-! ## The cloud service -/

namespace Cloud

/-- The place of the translated text in the document of an answer. -/
def textPath : List Json.Step :=
  [.member "data", .member "translations", .item 0, .member "translatedText"]

/-- The content of an answer: there is none with some statuses. -/
def Answer.content (answer : Answer) : String :=
  if Http.isContentless answer.status then "" else answer.body

/-- How the translation of a text by the service fails. -/
inductive Fails (key : Option String) (exchange : Exchange) (source text : String) : Prop
  /-- There is no key to ask it with, or an empty one. -/
  | noKey (h : key = none ∨ key = some "")
  /-- It does not answer. -/
  | noAnswer (k : String) (hkey : key = some k) (h : exchange (query k text source) = none)
  /-- Its answer does not tell of success. -/
  | refused (k : String) (answer : Answer) (hkey : key = some k)
      (hanswer : exchange (query k text source) = some answer)
      (h : ¬ (200 ≤ answer.status ∧ answer.status ≤ 299))
  /-- The content of its answer is not a document. -/
  | unreadable (k : String) (answer : Answer) (hkey : key = some k)
      (hanswer : exchange (query k text source) = some answer)
      (h : Json.ofText? answer.content = none)
  /-- The document has no text in its place. -/
  | noText (k : String) (answer : Answer) (document : Json) (hkey : key = some k)
      (hanswer : exchange (query k text source) = some answer)
      (hdocument : Json.ofText? answer.content = some document)
      (h : ∀ translated, document.at? textPath ≠ some (.string translated))

/-- The translated text of a document is the text in its place. -/
theorem translatedText?_eq_some_iff (document : Json) (text : String) :
    translatedText? document = some text ↔ document.at? textPath = some (.string text) := by
  have hplace : document.at? textPath = some (.string text)
      ↔ ∃ members data first rest, document = .object members
          ∧ Json.member? "data" members = some (.object data)
          ∧ Json.member? "translations" data = some (.array (.object first :: rest))
          ∧ Json.member? "translatedText" first = some (.string text) := by
    simp only [textPath, Json.at?, Option.bind_eq_some_iff, Json.follow?_member_eq_some_iff,
      Json.follow?_item_zero_eq_some_iff]
    constructor
    · rintro ⟨_, ⟨members, rfl, hdata⟩, _, ⟨data, rfl, htranslations⟩, _, ⟨rest, rfl⟩, _,
        ⟨first, rfl, htext⟩, ⟨⟩⟩
      exact ⟨members, data, first, rest, rfl, hdata, htranslations, htext⟩
    · rintro ⟨members, data, first, rest, rfl, hdata, htranslations, htext⟩
      exact ⟨_, ⟨members, rfl, hdata⟩, _, ⟨data, rfl, htranslations⟩, _, ⟨rest, rfl⟩, _,
        ⟨first, rfl, htext⟩, rfl⟩
  rw [hplace]
  constructor
  · intro h
    unfold translatedText? at h
    split at h
    · next members =>
        split at h
        · next data hdata =>
            split at h
            · next first rest htranslations =>
                split at h
                · next text' htext =>
                    obtain rfl := Option.some.inj h
                    exact ⟨members, data, first, rest, rfl, hdata, htranslations, htext⟩
                · cases h
            · cases h
        · cases h
    · cases h
  · rintro ⟨members, data, first, rest, rfl, hdata, htranslations, htext⟩
    simp only [translatedText?, hdata, htranslations, htext]

/-- What is read from an answer that tells of success. -/
theorem readAnswer_of_success (answer : Answer) (h : 200 ≤ answer.status ∧ answer.status ≤ 299) :
    readAnswer answer =
      match Json.ofText? answer.content with
      | none => .error .unreadable
      | some document =>
          match translatedText? document with
          | none => .error .noText
          | some text => .ok text := by
  have hinterim : Http.isInterim answer.status = false := by
    have hstatus : ¬ answer.status < 200 := by omega
    simp [Http.isInterim, hstatus]
  have hsuccess : Http.isSuccess answer.status = true := by simpa [Http.isSuccess] using h
  rw [readAnswer, ← Answer.content, hinterim, hsuccess]
  rfl

/-- Nothing is read from an answer exactly if it does not tell of success, its content is not a document, or
the document has no text in its place. -/
theorem exists_readAnswer_error_iff (answer : Answer) :
    (∃ fault, readAnswer answer = .error fault)
      ↔ ¬ (200 ≤ answer.status ∧ answer.status ≤ 299) ∨ Json.ofText? answer.content = none
        ∨ ∃ document, Json.ofText? answer.content = some document
          ∧ ∀ translated, document.at? textPath ≠ some (.string translated) := by
  simp only [← translatedText?_eq_some_iff, ne_eq]
  by_cases hstatus : 200 ≤ answer.status ∧ answer.status ≤ 299
  · rw [readAnswer_of_success answer hstatus]
    cases hdocument : Json.ofText? answer.content with
    | none => simp
    | some document => cases htext : translatedText? document <;> simp [hstatus, htext]
  · refine iff_of_true ?_ (Or.inl hstatus)
    have hsuccess : Http.isSuccess answer.status = false := by
      rw [Bool.eq_false_iff]
      simpa [Http.isSuccess] using hstatus
    rw [readAnswer, hsuccess]
    by_cases hinterim : Http.isInterim answer.status = true
    · exact ⟨_, if_pos hinterim⟩
    · exact ⟨_, if_neg hinterim⟩

variable {key : Option String} {exchange : Exchange} {source text : String}

/-- With a key a translation fails exactly if the key is empty or nothing is read from an answer. -/
theorem exists_error_iff_of_key (k : String) :
    (∃ fault, translate (some k) exchange source text = .error fault)
      ↔ k = "" ∨ exchange (query k text source) = none
        ∨ ∃ answer, exchange (query k text source) = some answer
          ∧ ∃ fault, readAnswer answer = .error fault := by
  by_cases hk : k = ""
  · simp [translate, usableKey, Option.filter, hk]
  · cases hanswer : exchange (query k text source) <;>
      simp [translate, usableKey, Option.filter, hk, hanswer]

/-- **Failure.** A translation by the service fails exactly if there is no key or an empty one, there is no
answer, the answer does not tell of success, its content is not a document, or the document has no text in
its place. -/
theorem exists_error_iff :
    (∃ fault, translate key exchange source text = .error fault) ↔ Fails key exchange source text := by
  constructor
  · intro h
    cases key with
    | none => exact .noKey (Or.inl rfl)
    | some k =>
        rcases (exists_error_iff_of_key k).mp h with rfl | hnone | ⟨answer, hanswer, hread⟩
        · exact .noKey (Or.inr rfl)
        · exact .noAnswer k rfl hnone
        · rcases (exists_readAnswer_error_iff answer).mp hread with
            hstatus | hbroken | ⟨document, hdocument, htext⟩
          · exact .refused k answer rfl hanswer hstatus
          · exact .unreadable k answer rfl hanswer hbroken
          · exact .noText k answer document rfl hanswer hdocument htext
  · have hread : ∀ k answer, key = some k → exchange (query k text source) = some answer →
        (∃ fault, readAnswer answer = .error fault) →
        ∃ fault, translate key exchange source text = .error fault := by
      rintro k answer rfl hanswer h
      exact (exists_error_iff_of_key k).mpr (Or.inr (Or.inr ⟨answer, hanswer, h⟩))
    intro h
    cases h with
    | noKey h =>
        rcases h with rfl | rfl
        · exact ⟨.noKey, rfl⟩
        · exact ⟨.noKey, rfl⟩
    | noAnswer k hkey h =>
        subst hkey
        exact (exists_error_iff_of_key k).mpr (Or.inr (Or.inl h))
    | refused k answer hkey hanswer h =>
        exact hread k answer hkey hanswer ((exists_readAnswer_error_iff answer).mpr (Or.inl h))
    | unreadable k answer hkey hanswer h =>
        exact hread k answer hkey hanswer ((exists_readAnswer_error_iff answer).mpr (Or.inr (Or.inl h)))
    | noText k answer document hkey hanswer hdocument h =>
        exact hread k answer hkey hanswer
          ((exists_readAnswer_error_iff answer).mpr (Or.inr (Or.inr ⟨document, hdocument, h⟩)))

/-- The client fails as a translator where its translation fails. -/
theorem translator_eq_error (language : Language) (h : Fails key exchange language.code text) :
    ∃ failure, translator key exchange language text = .error failure := by
  obtain ⟨fault, hfault⟩ := exists_error_iff.mpr h
  exact ⟨.translation fault.message, by rw [translator, hfault]⟩

end Cloud

/-! ## The question in English -/

namespace Language

/-- A question that no translator puts into English stays as it is. -/
theorem workingText_of_fails (translator : Option Translator) (text : String)
    (h : ∀ translate ∈ translator, ∃ failure, translate (detect text) text = .error failure) :
    workingText translator text = text := by
  cases translator with
  | none => exact workingText_none text
  | some translate =>
      obtain ⟨failure, hfailure⟩ := h translate rfl
      cases hlanguage : detect text <;> rw [hlanguage] at hfailure <;>
        simp [workingText, foreign?, hlanguage, hfailure]

/-- A question in another language that is translated is put into English so. -/
theorem workingText_of_translated (translate : Translator) (text translated : String)
    (hforeign : detect text ≠ english) (h : translate (detect text) text = .ok translated) :
    workingText (some translate) text = translated := by
  cases hlanguage : detect text with
  | english => exact absurd hlanguage hforeign
  | hindi =>
      rw [hlanguage] at h
      simp [workingText, foreign?, hlanguage, h]
  | kannada =>
      rw [hlanguage] at h
      simp [workingText, foreign?, hlanguage, h]

end Language

/-! ## The answer -/

/-- A request is answered as the request for its text in English is without a translator, if neither has a
blank question. -/
theorem Request.sql_eq_of_workingText (translator : Option Translator) (request : Request)
    (h : ¬ Text.isBlank request.query)
    (hworking : ¬ Text.isBlank (Language.workingText translator request.query)) :
    request.sql translator
      = { request with query := Language.workingText translator request.query }.sql none := by
  rw [Request.sql, Request.sql, if_neg h, if_neg hworking, Language.workingText_none]
  rfl

namespace Service

/-- Two services that put a question into the same text answer it alike. -/
theorem respond_eq_of_workingText (translator : Option Translator) (checksSql : Bool) (request : Request)
    (h : ¬ Text.isBlank request.query)
    (hworking : ¬ Text.isBlank (Language.workingText translator request.query)) :
    (⟨translator, checksSql⟩ : Service).respond request
      = (⟨none, checksSql⟩ : Service).respond
          { request with query := Language.workingText translator request.query } := by
  rw [respond, respond, request.sql_eq_of_workingText translator h hworking]

/-- **Translation.** Let the question of a request have text. If it is in English, or there is no translator,
or the translator fails, it is answered as without a translator; a client of the cloud service fails if it
has no key or an empty one, or if the service does not answer, or not with success, or not with a document
that has a text in its place. If it is in another language and is translated into a text that is not blank,
it is answered as the request for this text is without a translator. -/
theorem respond_translated (checksSql : Bool) (request : Request) (h : ¬ Text.isBlank request.query) :
    let language := Language.detect request.query
    let plain : Service := ⟨none, checksSql⟩
    (∀ translator, language = .english →
        (⟨translator, checksSql⟩ : Service).respond request = plain.respond request)
      ∧ (∀ translator,
        (∀ translate ∈ translator, ∃ failure, translate language request.query = .error failure) →
        (⟨translator, checksSql⟩ : Service).respond request = plain.respond request)
      ∧ (∀ key exchange, Cloud.Fails key exchange language.code request.query →
        (⟨some (Cloud.translator key exchange), checksSql⟩ : Service).respond request
          = plain.respond request)
      ∧ ∀ (translate : Translator) (text : String), language ≠ .english →
        translate language request.query = .ok text → ¬ Text.isBlank text →
        (⟨some translate, checksSql⟩ : Service).respond request
          = plain.respond { request with query := text } := by
  intro language plain
  have hsame : ∀ translator, Language.workingText translator request.query = request.query →
      (⟨translator, checksSql⟩ : Service).respond request = plain.respond request := by
    intro translator hworking
    rw [respond_eq_of_workingText translator checksSql request h (by rwa [hworking]), hworking]
  have hfails : ∀ translator,
      (∀ translate ∈ translator, ∃ failure, translate language request.query = .error failure) →
      (⟨translator, checksSql⟩ : Service).respond request = plain.respond request :=
    fun translator hfails => hsame translator (Language.workingText_of_fails translator request.query hfails)
  refine ⟨?_, hfails, ?_, ?_⟩
  · intro translator henglish
    exact hsame translator (Language.workingText_of_english translator request.query henglish)
  · intro key exchange hcloud
    refine hfails _ fun translate htranslate => ?_
    obtain rfl := Option.some.inj htranslate
    exact Cloud.translator_eq_error language hcloud
  · intro translate text hforeign htext hblank
    have hworking := Language.workingText_of_translated translate request.query text hforeign htext
    rw [respond_eq_of_workingText (some translate) checksSql request h (by rwa [hworking]), hworking]

/-- A request with a question in romanized Hindi. -/
def romanized : Request where
  query := "grahak dikhao"
  schema := [[("customers", .array [.string "name"])]]
  relationships := []
  tableAliases := []
  columnAliases := []
  businessMetrics := []
  timePeriods := none

/-- A service that refuses every key. -/
def refusing : Cloud.Exchange := fun _ => some ⟨403, "\x7b\"error\": \x7b\"code\": 403\x7d\x7d"⟩

/-- A service that translates the question. -/
def delivering : Cloud.Exchange := fun _ => some
  ⟨200, "\x7b\"data\": \x7b\"translations\": [\x7b\"translatedText\": \"show customers\"\x7d]\x7d\x7d"⟩

/-- Where the service refuses, the question is taken to be about orders as it names no table; where it
translates, it is about customers. -/
theorem respond_translated_romanized :
    (⟨some (Cloud.translator (some "key") refusing), true⟩ : Service).respond romanized
        = (⟨none, true⟩ : Service).respond romanized
      ∧ (⟨some (Cloud.translator (some "key") delivering), true⟩ : Service).respond romanized
        = (⟨none, true⟩ : Service).respond { romanized with query := "show customers" }
      ∧ ((⟨none, true⟩ : Service).respond romanized).query
        = some "SELECT \"orders\".* FROM \"orders\""
      ∧ ((⟨none, true⟩ : Service).respond { romanized with query := "show customers" }).query
        = some "SELECT \"customers\".* FROM \"customers\"" := by
  have hlanguage : Language.detect romanized.query = .hindi := by decide +kernel
  have htext : Cloud.translator (some "key") delivering .hindi romanized.query = .ok "show customers" := by
    have hoption : (Cloud.translator (some "key") delivering .hindi romanized.query).toOption
        = some "show customers" := by decide +kernel
    cases hresult : Cloud.translator (some "key") delivering .hindi romanized.query with
    | ok text =>
        rw [hresult] at hoption
        exact congrArg _ (Option.some.inj hoption)
    | error failure =>
        rw [hresult] at hoption
        cases hoption
  obtain ⟨-, -, hcloud, htranslated⟩ := respond_translated true romanized (by decide +kernel)
  rw [hlanguage] at hcloud htranslated
  refine ⟨hcloud _ _ ?_, htranslated _ "show customers" ?_ htext ?_, ?_, ?_⟩
  · exact .refused "key" _ rfl rfl (by decide)
  · decide
  · decide +kernel
  · decide +kernel
  · decide +kernel

end Service

end TextToSql
