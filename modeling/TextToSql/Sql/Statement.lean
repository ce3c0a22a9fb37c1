import TextToSql.Sql.Predicate

/-!
# Statements

A `SELECT` statement clause by clause.
-/

namespace TextToSql.Sql

/-- An item of the projection with the name its column gets in the result. -/
structure SelectItem where
  expr : Expr
  name : Option String
deriving DecidableEq

/-- An item without a name of its own. -/
def SelectItem.plain (expr : Expr) : SelectItem := ⟨expr, none⟩

/-- The two directions of sorting. -/
inductive SortDirection where
  | ascending
  | descending
deriving DecidableEq

/-- The keyword of a direction. -/
def SortDirection.keyword : SortDirection → String
  | ascending => "ASC"
  | descending => "DESC"

/-- A key of the `ORDER BY` clause. -/
structure OrderKey where
  expr : Expr
  direction : SortDirection
deriving DecidableEq

/-- A joined table with the pairs of columns that have to be equal. -/
structure JoinClause where
  table : String
  on : List (ColumnRef × ColumnRef)
deriving DecidableEq

/-- A complete `SELECT` statement; an empty projection stands for all columns. -/
structure SelectStatement where
  projection : List SelectItem
  source : String
  joins : List JoinClause
  filter : Option Predicate
  groupBy : List Expr
  having : Option Predicate
  orderBy : List OrderKey
  limit : Option Nat

end TextToSql.Sql
