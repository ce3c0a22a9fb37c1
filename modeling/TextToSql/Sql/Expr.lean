import TextToSql.Text.Basic

/-!
# Columns and expressions

The expressions that a statement projects, groups by, orders by and compares.
-/

namespace TextToSql.Sql

/-- A column, optionally with the table it belongs to. -/
structure ColumnRef where
  table : Option String
  column : String
deriving DecidableEq

/-- The column `column` of the table `table`. -/
def ColumnRef.of (table column : String) : ColumnRef := ⟨some table, column⟩

/-- Reads `table.column`, split at the first dot, or a bare column name; white space around each
part is dropped. -/
def ColumnRef.ofText (reference : String) : ColumnRef :=
  match reference.toList.span (· ≠ '.') with
  | (table, _ :: column) =>
      .of (Text.trim (String.ofList table)) (Text.trim (String.ofList column))
  | (column, []) => ⟨none, Text.trim (String.ofList column)⟩

/-- The functions that sum up a group of rows. -/
inductive Aggregate where
  | count
  | sum
  | avg
  | min
  | max
deriving DecidableEq

/-- The name of an aggregate function in a statement. -/
def Aggregate.keyword : Aggregate → String
  | count => "COUNT"
  | sum => "SUM"
  | avg => "AVG"
  | min => "MIN"
  | max => "MAX"

/-- The name of an aggregate function in the alias of a result column. -/
def Aggregate.label : Aggregate → String
  | count => "count"
  | sum => "sum"
  | avg => "avg"
  | min => "min"
  | max => "max"

/-- The spans of time that dates can be cut down to. -/
inductive TimeGrain where
  | day
  | week
  | month
  | quarter
  | year
deriving DecidableEq

/-- The name of a span of time. -/
def TimeGrain.unit : TimeGrain → String
  | day => "day"
  | week => "week"
  | month => "month"
  | quarter => "quarter"
  | year => "year"

/-- An expression. The star of an aggregate over all rows is a case of its own, and a fragment is
text that the caller has supplied as it is to stand in the statement. -/
inductive Expr where
  | column (ref : ColumnRef)
  | star
  | tableStar (table : String)
  | aggregate (function : Aggregate) (distinct : Bool) (argument : Expr)
  | aggregateAll (function : Aggregate) (distinct : Bool)
  | truncated (grain : TimeGrain) (ref : ColumnRef)
  | number (digits : String)
  | text (value : String)
  | fragment (sql : String)
deriving DecidableEq

namespace Expr

/-- The column `column` of the table `table` as an expression. -/
def of (table column : String) : Expr := .column (.of table column)

/-- An aggregate of an expression. -/
def aggregated (function : Aggregate) (argument : Expr) : Expr :=
  .aggregate function false argument

/-- The number of rows, `COUNT(*)`. -/
def countAll : Expr := .aggregateAll .count false

/-- Whether an expression is an aggregate call. -/
def isAggregate : Expr → Bool
  | .aggregate .. => true
  | .aggregateAll .. => true
  | _ => false

/-- Whether an expression stands for all columns. -/
def isStar : Expr → Bool
  | .star => true
  | .tableStar _ => true
  | _ => false

/-- Whether an expression is a fragment supplied by the caller. -/
def isFragment : Expr → Bool
  | .fragment _ => true
  | _ => false

end Expr

end TextToSql.Sql
