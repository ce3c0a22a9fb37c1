import TextToSql.Http.Router
import TextToSql.Proofs.JoinPlan

/-!
# The three outcomes of a request

A request has a blank question, a question about no table, or a question about some table, and its answer
shows which of them it is. Neither the translator nor the check of the SQL adds another outcome.

* `Response.Shows.eq` : an answer shows at most one outcome;
* `Service.shows_of_meets` : the answer to a request shows the outcome that the request meets;
* `Service.respond_outcome` : what follows for success, error and result, and for the HTTP front.
-/

namespace TextToSql

/-- What becomes of a request: its question is blank, it is about no table, or it is answered. -/
inductive Outcome where
  | blank
  | noTable
  | answered
deriving DecidableEq

/-- What the question of a request asks for, as far as it can be put into English. -/
def Request.intent (translator : Option Translator) (request : Request) : Intent :=
  let schema := Schema.ofRequest request
  let text := Language.workingText translator request.query
  Intent.ofText schema (Normalize.cleanText schema.vocabulary text)

/-- What a request has to be like for an outcome. -/
def Request.Meets (translator : Option Translator) (request : Request) : Outcome → Prop
  | .blank => Text.isBlank request.query
  | .noTable => ¬ Text.isBlank request.query ∧ (request.intent translator).tables = []
  | .answered => ¬ Text.isBlank request.query ∧ (request.intent translator).tables ≠ []

/-- How an answer shows an outcome: by a report without a query, by a report that stands for the query
too, or by a query without a report. -/
def Response.Shows (response : Response) : Outcome → Prop
  | .blank => response.query = none ∧ response.success = false ∧ response.error ≠ none
  | .noTable => response.success = false
      ∧ ∃ details, response.query = some ("ERROR: " ++ details) ∧ response.error = some details
  | .answered => response.success = true ∧ response.error = none
      ∧ ∃ rest, response.query = some ("SELECT " ++ rest)

/-! ## What an answer shows -/

namespace Response

/-- Whether a text is marked as a report. -/
def IsMarked (q : String) : Prop := sentinel.toList <+: q.toList

/-- What follows the mark does not matter. -/
theorem isMarked_error (details : String) : IsMarked ("ERROR: " ++ details) := by
  have hmark : "ERROR: ".toList = sentinel.toList ++ [' '] := by decide
  rw [IsMarked, String.toList_append, hmark, List.append_assoc]
  exact List.prefix_append _ _

/-- A statement is not marked as a report. -/
theorem not_isMarked_select (rest : String) : ¬ IsMarked ("SELECT " ++ rest) := by
  have hs : "SELECT ".toList = 'S' :: "ELECT ".toList := by decide
  have he : sentinel.toList = 'E' :: "RROR:".toList := by decide
  rw [IsMarked, String.toList_append, hs, he, List.cons_append, List.cons_prefix_cons]
  exact fun h => absurd h.1 (by decide)

variable {response : Response} {outcome : Outcome}

/-- **An answer shows at most one outcome.** -/
theorem Shows.eq (h : response.Shows outcome) (outcome' : Outcome) (h' : response.Shows outcome') :
    outcome = outcome' := by
  cases outcome with
  | blank =>
      obtain ⟨hquery, hsuccess, -⟩ := h
      cases outcome' with
      | blank => rfl
      | noTable =>
          obtain ⟨-, details, hquery', -⟩ := h'
          simp [hquery] at hquery'
      | answered => simp [Shows, hsuccess] at h'
  | noTable =>
      obtain ⟨hsuccess, details, hquery, -⟩ := h
      cases outcome' with
      | blank => simp [Shows, hquery] at h'
      | noTable => rfl
      | answered => simp [Shows, hsuccess] at h'
  | answered =>
      obtain ⟨hsuccess, -, -⟩ := h
      cases outcome' with
      | blank => simp [Shows, hsuccess] at h'
      | noTable => simp [Shows, hsuccess] at h'
      | answered => rfl

/-- An answer that shows an outcome is a success exactly when it has a query that is not marked. -/
theorem Shows.success_iff (h : response.Shows outcome) :
    response.success = true ↔ ∃ q, response.query = some q ∧ ¬ IsMarked q := by
  cases outcome with
  | blank =>
      obtain ⟨hquery, hsuccess, -⟩ := h
      simp [hquery, hsuccess]
  | noTable =>
      obtain ⟨hsuccess, details, hquery, -⟩ := h
      simp [hquery, hsuccess, isMarked_error]
  | answered =>
      obtain ⟨hsuccess, -, rest, hquery⟩ := h
      simp [hquery, hsuccess, not_isMarked_select]

/-- An answer that shows an outcome has no report exactly when it is a success. -/
theorem Shows.error_eq_none_iff (h : response.Shows outcome) :
    response.error = none ↔ response.success = true := by
  cases outcome with
  | blank =>
      obtain ⟨-, hsuccess, herror⟩ := h
      simp [herror, hsuccess]
  | noTable =>
      obtain ⟨hsuccess, details, -, herror⟩ := h
      simp [herror, hsuccess]
  | answered =>
      obtain ⟨hsuccess, herror, -⟩ := h
      simp [herror, hsuccess]

end Response

/-! ## What is answered -/

/-- Every request meets an outcome. -/
theorem Request.exists_meets (translator : Option Translator) (request : Request) :
    ∃ outcome, request.Meets translator outcome := by
  by_cases hblank : Text.isBlank request.query
  · exact ⟨.blank, hblank⟩
  · by_cases htables : (request.intent translator).tables = []
    · exact ⟨.noTable, hblank, htables⟩
    · exact ⟨.answered, hblank, htables⟩

/-- The SQL for a question with text is that of the statement of its intent. -/
theorem Request.sql_eq (translator : Option Translator) (request : Request)
    (h : ¬ Text.isBlank request.query) :
    request.sql translator = (request.intent translator).statement.map Sql.SelectStatement.toSql := by
  rw [Request.sql, if_neg h]
  rfl

/-- The SQL of a statement starts with `SELECT`. -/
theorem Sql.SelectStatement.exists_toSql_eq (s : SelectStatement) :
    ∃ rest, s.toSql = "SELECT " ++ rest := by
  simp only [SelectStatement.toSql, SelectStatement.print, String.append_assoc]
  exact ⟨_, rfl⟩

namespace Service

variable (service : Service) (request : Request)

/-- **The answer to a request shows the outcome that the request meets.** -/
theorem shows_of_meets (outcome : Outcome) (h : request.Meets service.translator outcome) :
    (service.respond request).Shows outcome := by
  cases outcome with
  | blank =>
      have hblank : Text.isBlank request.query := h
      have hsql : request.sql service.translator = .error .emptyQuery := by
        rw [Request.sql, if_pos hblank]
      rw [respond, hsql]
      exact ⟨rfl, rfl, Option.some_ne_none _⟩
  | noTable =>
      obtain ⟨hblank, htables⟩ := h
      have hsql : request.sql service.translator = .error .noTable := by
        rw [request.sql_eq _ hblank, Intent.statement, htables]
        rfl
      rw [respond, hsql]
      exact ⟨rfl, _, rfl, rfl⟩
  | answered =>
      obtain ⟨hblank, htables⟩ := h
      obtain ⟨first, rest, htables⟩ := List.exists_cons_of_ne_nil htables
      have hsql : request.sql service.translator
          = .ok ((request.intent service.translator).statementFor first).toSql := by
        rw [request.sql_eq _ hblank, Intent.statement_eq _ first rest htables]
        rfl
      obtain ⟨more, hmore⟩ := Sql.SelectStatement.exists_toSql_eq
        ((request.intent service.translator).statementFor first)
      rw [respond, hsql, hmore]
      exact ⟨rfl, rfl, more, rfl⟩

/-- **Outcomes.** A request has exactly one outcome, and its answer shows it. So an answer is a success
exactly when its query is there and is not marked as a report, and exactly when it has no report; its
result is `null`; and whatever message a request is read from, its answer is sent with status 200. -/
theorem respond_outcome :
    (∃! outcome, request.Meets service.translator outcome ∧ (service.respond request).Shows outcome)
      ∧ ((service.respond request).success = true
          ↔ ∃ q, (service.respond request).query = some q ∧ ¬ Response.IsMarked q)
      ∧ ((service.respond request).error = none ↔ (service.respond request).success = true)
      ∧ (∃ members, (service.respond request).toJson = .object members
          ∧ Json.member? "result" members = some .null)
      ∧ ∀ message, Http.readRequest message = .ok request →
          Http.processQuery service message = ⟨200, .json (service.respond request).toJson⟩ := by
  obtain ⟨outcome, hmeets⟩ := request.exists_meets service.translator
  have hshows := service.shows_of_meets request outcome hmeets
  refine ⟨⟨outcome, ⟨hmeets, hshows⟩, ?_⟩, hshows.success_iff, hshows.error_eq_none_iff, ?_, ?_⟩
  · rintro outcome' ⟨-, hshows'⟩
    exact hshows'.eq outcome hshows
  · exact ⟨_, rfl, by simp [Json.member?]⟩
  · intro message hread
    rw [Http.processQuery, hread]

/-- A message with a question about a table of its request. -/
def posted : Http.Message where
  method := "POST"
  path := "/process-query"
  contentType := some "application/json"
  body := "\x7b\"query\": \"shops\", \"schema\": [\x7b\"shops\": [\"id\"]\x7d]\x7d"

/-- A service that checks its SQL and does not translate sends an answer to it with status 200. -/
theorem respond_outcome_posted :
    ∃ request, Http.readRequest posted = .ok request
      ∧ Http.processQuery ⟨none, true⟩ posted
        = ⟨200, .json ((⟨none, true⟩ : Service).respond request).toJson⟩ := by
  have hread : (Http.readRequest posted).toOption.isSome := by decide +kernel
  cases hrequest : Http.readRequest posted with
  | error failure =>
      rw [hrequest] at hread
      exact absurd hread Bool.false_ne_true
  | ok request =>
      obtain ⟨-, -, -, -, hreply⟩ := respond_outcome ⟨none, true⟩ request
      exact ⟨request, rfl, hreply posted hrequest⟩

end Service

end TextToSql
