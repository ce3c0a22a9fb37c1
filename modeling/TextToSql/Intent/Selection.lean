import TextToSql.Mention
import TextToSql.Sql.Statement

/-!
# The tables of a question

Which tables a question is about, in the order of their first mention, and how they are joined. A
question that mentions no table is given one by the first metric it mentions, else by an aliased
column, else the default table; a schema without tables never yields one of these two.
-/

namespace TextToSql

/-- A question with the tables it is about: what the clauses of a statement are read from. -/
structure Selection where
  schema : Schema
  tables : List String
  text : String

/-- Whether a table is among the tables of a question. -/
def Selection.has (s : Selection) (table : String) : Bool := s.tables.contains table

namespace Intent

/-- The table that is taken when nothing points to another one. -/
def defaultTable : String := "orders"

/-- The words in the name of a metric and the tables they point to. -/
def metricHints : List (List String × String) := [
  (["revenue", "sales", "income", "orders", "average order"], "orders"),
  (["customer", "client"], "customers"),
  (["product", "inventory"], "products")]

/-- A list with an element at its end, unless it is in the list already. -/
def addNew {α : Type} [DecidableEq α] (xs : List α) (x : α) : List α :=
  if x ∈ xs then xs else xs ++ [x]

/-- The tables that the mentions in a text name, each once and in text order. -/
def mentionedTables (schema : Schema) (text : String) : List String :=
  ((schema.tableMentions text).filterMap fun m =>
    schema.resolveTable? (Text.lowerOf m.text)).foldl addNew []

/-- The table that the first mentioned metric points to. -/
def tableOfMetric? (schema : Schema) (text : String) : Option String :=
  match schema.mentionedMetrics text with
  | [] => none
  | metric :: _ =>
      (metricHints.find? fun (words, _) => words.any (Text.holds metric.phrase)).map Prod.snd

/-- The part of a name before its first underscore. -/
def stem (name : String) : String := String.ofList (name.toList.takeWhile (· ≠ '_'))

/-- Whether a column of a table is akin to another column: one holds the stem of the other. -/
def isAkin (column c : String) : Bool := Text.holds column (stem c) || Text.holds c (stem column)

/-- The table with a column akin to the first aliased column that is mentioned and has one. -/
def tableOfAlias? (schema : Schema) (text : String) : Option String :=
  schema.columnAliases.findSome? fun (column, _) =>
    if schema.mentionsColumn text column then
      (schema.tables.find? fun t => t.columns.any (isAkin column)).map Table.name
    else none

/-- The table of a question that mentions none. -/
def impliedTable? (schema : Schema) (text : String) : Option String :=
  match tableOfMetric? schema text with
  | some table => some table
  | none =>
      match tableOfAlias? schema text with
      | some table => some table
      | none => if schema.isEmpty then none else some defaultTable

/-- The tables of a question. -/
def tablesOf (schema : Schema) (text : String) : List String :=
  match mentionedTables schema text with
  | [] => (impliedTable? schema text).toList
  | tables => tables

/-- The chains of relationships between neighbouring tables. -/
def joinsOf (schema : Schema) : List String → List Relationship
  | a :: b :: tables => schema.chain a b ++ joinsOf schema (b :: tables)
  | _ => []

end Intent

end TextToSql
