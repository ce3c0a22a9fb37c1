/-!
# Failures

The ways in which a question can fail to be answered, with what is told about them.
-/

namespace TextToSql

/-- A failure with its details: no table was found, the question could not be put into English, the
generated SQL is not acceptable, the request is not acceptable, or something else went wrong. -/
inductive Failure where
  | schemaResolution (details : String)
  | translation (details : String)
  | invalidSql (details : String)
  | validation (details : String)
  | internal (details : String)
deriving DecidableEq

namespace Failure

/-- The details of a failure. -/
def details : Failure → String
  | schemaResolution details => details
  | translation details => details
  | invalidSql details => details
  | validation details => details
  | internal details => details

/-- The text that reports a failure. -/
def message : Failure → String
  | schemaResolution details => details
  | translation details => "Translation error: " ++ details
  | invalidSql details => "Invalid SQL: " ++ details
  | validation details => "Validation error: " ++ details
  | internal details => "Internal server error: " ++ details

/-- No table could be found for a question. -/
def noTable : Failure := .schemaResolution "Could not determine target table from input."

/-- A question without text. -/
def emptyQuery : Failure := .validation "Query text cannot be empty"

end Failure

end TextToSql
