import TextToSql.Request
import TextToSql.Schema.Resolve

/-!
# From a request to its schema

The members of a request are read leniently: a value of an unexpected kind is passed over, a single
name stands for a list of one, and a relationship counts only if it is between two tables. Aliases,
metrics and time phrases are kept in lower case. A request without time phrases gets the built-in
ones; an empty object of them means none.
-/

namespace TextToSql

open Sql

namespace Schema

/-! ## Reading values leniently -/

/-- The members of an object that are texts. -/
def textMembers (members : List (String × Json)) : List (String × String) :=
  members.filterMap fun (name, value) =>
    match value with
    | .string s => some (name, s)
    | _ => none

/-- The texts of a list; a single text stands for a list of one. -/
def textList : Json → List String
  | .string s => [s]
  | .array items =>
      items.filterMap fun item =>
        match item with
        | .string s => some s
        | _ => none
  | _ => []

/-- A column reference that belongs to a table unless it names another one. -/
def qualified (reference table : String) : ColumnRef :=
  let ref := ColumnRef.ofText reference
  match ref.table with
  | some _ => ref
  | none => .of table ref.column

/-- The relationship that an entry declares, if it is between two tables. -/
def relationshipOf? (entry : RelationshipEntry) : Option Relationship :=
  match entry.tables with
  | [left, right] =>
      some ⟨left, right, (textMembers entry.joinCondition).map fun (l, r) =>
        (qualified l left, qualified r right)⟩
  | _ => none

/-- Phrases in lower case with their pieces of SQL. -/
def namedSql (members : List (String × Json)) : List NamedSql :=
  (textMembers members).map fun (name, sql) => ⟨Text.lowerOf name, sql⟩

/-! ## Built-in time phrases -/

/-- The start of the current span of time. -/
def startOf (unit : String) : String := "DATE_TRUNC('" ++ unit ++ "', CURRENT_DATE)"

/-- Orders from a moment on. -/
def ordersSince (moment : String) : String := "orders.order_date >= " ++ moment

/-- Orders in the current span of time. -/
def thisSpan (unit : String) : NamedSql := ⟨"this " ++ unit, ordersSince (startOf unit)⟩

/-- Orders in the span of time before the current one. -/
def lastSpan (unit : String) : NamedSql :=
  ⟨"last " ++ unit, ordersSince (startOf unit ++ " - INTERVAL '1 " ++ unit ++ "'")
    ++ " AND orders.order_date < " ++ startOf unit⟩

/-- Orders in the last days. -/
def lastDays (n : String) : NamedSql :=
  ⟨"last " ++ n ++ " days", ordersSince ("CURRENT_DATE - INTERVAL '" ++ n ++ " days'")⟩

/-- The time phrases of a request that declares none. -/
def builtinTimePhrases : List NamedSql := [
  ⟨"today", "orders.order_date::date = CURRENT_DATE"⟩,
  ⟨"yesterday", "orders.order_date::date = CURRENT_DATE - INTERVAL '1 day'"⟩,
  lastDays "7", lastDays "30", thisSpan "week", lastSpan "week", thisSpan "month",
  lastSpan "month", thisSpan "quarter", thisSpan "year", lastSpan "year"]

/-! ## The schema -/

/-- The tables that a list of entries declares, entry by entry and member by member. -/
def declaredTables (entries : List (List (String × Json))) : List Table :=
  entries.flatten.foldl (fun tables (name, columns) => mergeTable tables name (textList columns)) []

/-- The schema that a request describes. -/
def ofRequest (request : Request) : Schema where
  tables := declaredTables request.schema
  tableAliases := (textMembers request.tableAliases).map fun (name, table) =>
    (Text.lowerOf name, table)
  columnAliases := request.columnAliases.map fun (column, names) =>
    (column, (textList names).map Text.lowerOf)
  relationships := request.relationships.filterMap relationshipOf?
  metrics := namedSql request.businessMetrics
  timePhrases :=
    match request.timePeriods with
    | some members => namedSql members
    | none => builtinTimePhrases

end Schema

end TextToSql
