import TextToSql.Http.MediaType
import TextToSql.Service

/-!
# The HTTP front

Two routes: `/health` tells that the service is up, `/process-query` answers a request. A question
that cannot be answered is reported inside an answer with status 200; only a body that is no request
is an HTTP error. The service can be used from any origin, so every `OPTIONS` request is granted.
-/

namespace TextToSql

/-! ## Failures -/

namespace Failure

/-- The status of a failure. -/
def status : Failure → Nat
  | schemaResolution _ => 422
  | translation _ => 502
  | invalidSql _ => 500
  | validation _ => 400
  | internal _ => 500

/-- The code of a failure. -/
def code : Failure → String
  | schemaResolution _ => "SCHEMA_RESOLUTION_ERROR"
  | translation _ => "TRANSLATION_ERROR"
  | invalidSql _ => "INVALID_SQL"
  | validation _ => "VALIDATION_ERROR"
  | internal _ => "INTERNAL_ERROR"

/-- What can be done about a failure. -/
def advice : Failure → List (String × Json)
  | schemaResolution _ =>
      [("details", .string "Mention a table from the schema or register an alias for it.")]
  | _ => []

/-- A failure as JSON. -/
def toJson (failure : Failure) : Json :=
  .object [("error", .object ([("code", .string failure.code),
    ("message", .string failure.details)] ++ failure.advice))]

end Failure

/-- The text that reports why a body is not a request. -/
def RequestFault.message : RequestFault → String
  | malformed => "Failed to parse the request body as JSON"
  | mismatch => "Failed to deserialize the JSON body into the target type"

namespace Http

/-! ## Messages -/

/-- A request to the service. -/
structure Message where
  method : String
  path : String
  contentType : Option String
  body : String

/-- The content of an answer. -/
inductive Content where
  | text (s : String)
  | json (value : Json)

/-- An answer of the service. -/
structure Reply where
  status : Nat
  content : Content

/-- An answer without content. -/
def Reply.empty (status : Nat) : Reply := ⟨status, .text ""⟩

/-- The answer that reports a failure. -/
def Reply.ofFailure (failure : Failure) : Reply := ⟨failure.status, .json failure.toJson⟩

/-! ## Routes -/

/-- The path without the query and the fragment that may follow it. -/
def pathOnly (path : String) : String :=
  String.ofList (path.toList.takeWhile fun c => c ≠ '?' && c ≠ '#')

/-- How many bytes a body may have. -/
def bodyLimit : Nat := 2097152

/-- A body that is announced as JSON, as a request. -/
def readRequest (message : Message) : Except Failure Request :=
  if message.contentType.any announcesJson then
    if bodyLimit < message.body.utf8ByteSize then
      .error (.validation "Failed to buffer the request body: length limit exceeded")
    else
      match Request.ofText message.body with
      | .ok request => .ok request
      | .error fault => .error (.validation fault.message)
  else .error (.validation "Expected request with `Content-Type: application/json`")

/-- The answer to a request for SQL. -/
def processQuery (service : Service) (message : Message) : Reply :=
  match readRequest message with
  | .ok request => ⟨200, .json (service.respond request).toJson⟩
  | .error failure => .ofFailure failure

/-- The answer to a message. -/
def handle (service : Service) (message : Message) : Reply :=
  if message.method = "OPTIONS" then .empty 200
  else
    match pathOnly message.path with
    | "/health" =>
        if message.method = "GET" then ⟨200, .text "OK"⟩
        else if message.method = "HEAD" then .empty 200
        else .empty 405
    | "/process-query" =>
        if message.method = "POST" then processQuery service message else .empty 405
    | _ => .empty 404

end Http

end TextToSql
