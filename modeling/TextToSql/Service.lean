import TextToSql.Language.Basic
import TextToSql.Normalize
import TextToSql.Plan
import TextToSql.Schema.Declare
import TextToSql.Sql.Check

/-!
# Answering a request

A request is answered by putting its question into English, then into normal form, and building the
statement. The answer carries the SQL, or the report of what went wrong; where no table could be found
the report stands in the place of the SQL too.

* `exists_warning?_iff` : when a service warns.
-/

namespace TextToSql

/-- The answer to a request. -/
structure Response where
  query : Option String
  success : Bool
  error : Option String
deriving DecidableEq

namespace Response

/-- What the report of a missing table starts with where it stands for the SQL. -/
def sentinel : String := "ERROR:"

/-- The answer of a successful request. -/
def ofSql (sql : String) : Response := ⟨some sql, true, none⟩

/-- The answer of a request that failed. -/
def ofFailure : Failure → Response
  | .schemaResolution details => ⟨some (sentinel ++ " " ++ details), false, some details⟩
  | failure => ⟨none, false, some failure.message⟩

/-- The answer as JSON; the query is never run, so it has no result. -/
def toJson (response : Response) : Json :=
  .object [("query", .ofOption response.query), ("result", .null),
    ("success", .bool response.success), ("error", .ofOption response.error)]

end Response

namespace Request

/-- The SQL that answers a request. -/
def sql (translator : Option Translator) (request : Request) : Except Failure String :=
  if Text.isBlank request.query then .error .emptyQuery
  else
    let schema := Schema.ofRequest request
    let text := Language.workingText translator request.query
    sqlOf schema (Normalize.cleanText schema.vocabulary text)

end Request

/-- What answers depend on beside the request: who translates questions, and whether the SQL is checked
before it is sent. -/
structure Service where
  translator : Option Translator
  checksSql : Bool

namespace Service

/-- The answer to a request. The check of the SQL has no part in it. -/
def respond (service : Service) (request : Request) : Response :=
  match request.sql service.translator with
  | .ok sql => .ofSql sql
  | .error failure => .ofFailure failure

/-- What the check finds about the SQL of an answer. It is a warning for those who run the service and
no part of the answer. -/
def warning? (service : Service) (request : Request) : Option Sql.CheckFault :=
  if service.checksSql then
    match request.sql service.translator with
    | .ok sql =>
        match Sql.check sql with
        | .ok () => none
        | .error fault => some fault
    | .error _ => none
  else none

/-- A service warns exactly if it checks its SQL and the SQL of the answer does not read as a single query. -/
theorem exists_warning?_iff (service : Service) (request : Request) :
    (∃ fault, service.warning? request = some fault)
      ↔ service.checksSql = true ∧ ∃ sql, request.sql service.translator = .ok sql
          ∧ Sql.statements? sql ≠ some [.query] := by
  cases hchecks : service.checksSql with
  | false => simp [warning?, hchecks]
  | true =>
      cases hsql : request.sql service.translator with
      | error failure => simp [warning?, hchecks, hsql]
      | ok sql =>
          have hfault : service.warning? request
              = match Sql.check sql with
                | .ok () => none
                | .error fault => some fault := by
            rw [warning?, if_pos hchecks, hsql]
          have hcheck := Sql.check_eq_ok_iff sql
          rw [hfault]
          cases hresult : Sql.check sql with
          | ok _ => simpa using hcheck.mp hresult
          | error fault =>
              rw [hresult] at hcheck
              simpa using hcheck

end Service

end TextToSql
