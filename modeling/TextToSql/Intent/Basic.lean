import TextToSql.Intent.Projection
import TextToSql.Intent.Grouping
import TextToSql.Intent.Ordering

/-!
# What a question asks for

The intent of a question: everything that a statement is built from. Each part is read from the
normalized text, and later parts use earlier ones: the groups look at the projection, and the
conditions on groups at the groups.
-/

namespace TextToSql

open Sql

/-- What a question asks for. -/
structure Intent where
  action : Action
  tables : List String
  joins : List Relationship
  columns : List SelectItem
  filter : Option Predicate
  groupBy : List Expr
  having : Option Predicate
  orderBy : List OrderKey
  limit : Option Nat

namespace Intent

/-- The kind of request that a text makes. -/
def actionOf (text : String) : Action := (Lexicon.actionRules.first? () text).getD .select

/-- The intent of a normalized text. -/
def ofText (schema : Schema) (text : String) : Intent :=
  let tables := tablesOf schema text
  let s : Selection := ⟨schema, tables, text⟩
  let columns := projectionOf s
  let groupBy := groupsOf s columns
  { action := actionOf text
    tables
    joins := joinsOf schema tables
    columns
    filter := filterOf s
    groupBy
    having := havingOf s groupBy
    orderBy := orderOf s
    limit := limitOf s }

/-- Whether the projection has an aggregate or a metric. -/
def hasAggregates (intent : Intent) : Bool :=
  intent.columns.any fun item => item.expr.isAggregate || item.expr.isFragment

end Intent

end TextToSql
