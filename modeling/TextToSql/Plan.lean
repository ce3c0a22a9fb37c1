import TextToSql.Failure
import TextToSql.Intent.Basic
import TextToSql.Sql.Printer

/-!
# From an intent to a statement

An intent names tables and the relationships between them; a statement has one source and tables
joined to it one by one. The relationships are taken in order, and each joins the side that is not
part of the source yet. If the first one does not touch the source, the source is moved to the side
that the question mentions first.
-/

namespace TextToSql

open Sql

namespace Intent

/-- A source with the tables joined to it so far. -/
structure JoinPlan where
  source : String
  joins : List JoinClause

/-- The tables of a plan. -/
def JoinPlan.tables (plan : JoinPlan) : List String :=
  plan.source :: plan.joins.map JoinClause.table

/-- A plan with one more joined table. -/
def JoinPlan.join (plan : JoinPlan) (table : String) (on : List (ColumnRef × ColumnRef)) :
    JoinPlan :=
  { plan with joins := plan.joins ++ [⟨table, on⟩] }

/-- The place of a table among the tables of a question; a table that is not mentioned comes last. -/
def rank (tables : List String) (table : String) : Nat :=
  (tables.findIdx? (· = table)).getD tables.length

/-- Takes a relationship into a plan. Nothing happens if both sides are part of the source, or if
neither is and the source has joins already. -/
def JoinPlan.extend (tables : List String) (plan : JoinPlan) (r : Relationship) : JoinPlan :=
  match plan.tables.contains r.left, plan.tables.contains r.right with
  | true, true => plan
  | true, false => plan.join r.right r.on
  | false, true => plan.join r.left r.on
  | false, false =>
      if plan.joins.isEmpty then
        if rank tables r.left ≤ rank tables r.right then
          JoinPlan.join ⟨r.left, []⟩ r.right r.on
        else JoinPlan.join ⟨r.right, []⟩ r.left r.on
      else plan

/-- The source and the joins of an intent whose first table is given. -/
def joinPlan (intent : Intent) (first : String) : JoinPlan :=
  intent.joins.foldl (JoinPlan.extend intent.tables) ⟨first, []⟩

/-- The groups of the statement: those of the intent, else the plain items of the projection if
there is something to aggregate. -/
def statementGroups (intent : Intent) : List Expr :=
  if intent.groupBy.isEmpty && intent.hasAggregates then
    (intent.columns.filter isPlain).map SelectItem.expr
  else intent.groupBy

/-- The statement of an intent; an intent without tables has none. -/
def statement (intent : Intent) : Except Failure SelectStatement :=
  match intent.tables with
  | [] => .error .noTable
  | first :: _ =>
      let plan := joinPlan intent first
      .ok {
        projection := intent.columns
        source := plan.source
        joins := plan.joins
        filter := intent.filter
        groupBy := intent.statementGroups
        having := intent.having
        orderBy := intent.orderBy
        limit := intent.limit }

end Intent

/-- The SQL for a text that is already in normal form. -/
def sqlOf (schema : Schema) (text : String) : Except Failure String :=
  (Intent.ofText schema text).statement.map SelectStatement.toSql

end TextToSql
