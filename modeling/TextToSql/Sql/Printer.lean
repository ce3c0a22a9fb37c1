import TextToSql.Sql.Quoted
import TextToSql.Sql.Statement

/-!
# The printed form of statements

One printer with two quotings: `Quoting.quoted` writes every identifier between double quotes and is
what a caller receives, `Quoting.bare` writes the identifiers as they are and is for people to read.
Each clause is printed on its own and starts with a space where it follows another.
-/

namespace TextToSql.Sql

/-- How identifiers are written. -/
inductive Quoting where
  | quoted
  | bare
deriving DecidableEq

/-- The written form of an identifier. -/
def Quoting.name : Quoting → String → String
  | quoted, name => quoteIdentifier name
  | bare, name => name

/-! ## Expressions -/

/-- The written form of a column. -/
def ColumnRef.print (q : Quoting) (ref : ColumnRef) : String :=
  match ref.table with
  | some table => q.name table ++ "." ++ q.name ref.column
  | none => q.name ref.column

/-- The written form of an aggregate call over an argument that is already written. -/
def Aggregate.call (function : Aggregate) (distinct : Bool) (argument : String) : String :=
  if distinct then function.keyword ++ "(DISTINCT " ++ argument ++ ")"
  else function.keyword ++ "(" ++ argument ++ ")"

/-- The written form of a date cut down to a span of time. -/
def TimeGrain.call (grain : TimeGrain) (argument : String) : String :=
  match grain with
  | .day => "DATE(" ++ argument ++ ")"
  | grain => "DATE_TRUNC('" ++ grain.unit ++ "', " ++ argument ++ ")"

/-- The written form of an expression. -/
def Expr.print (q : Quoting) : Expr → String
  | .column ref => ref.print q
  | .star => "*"
  | .tableStar table => q.name table ++ ".*"
  | .aggregate function distinct argument => function.call distinct (argument.print q)
  | .aggregateAll function distinct => function.call distinct "*"
  | .truncated grain ref => grain.call (ref.print q)
  | .number digits => digits
  | .text value => quoteLiteral value
  | .fragment sql => sql

/-! ## Predicates -/

/-- The written form of a condition. -/
def Condition.print (q : Quoting) : Condition → String
  | .compare left op right => left.print q ++ " " ++ op.sign ++ " " ++ right.print q
  | .between column first last =>
      column.print q ++ " BETWEEN " ++ quoteLiteral first ++ "::date AND "
        ++ quoteLiteral last ++ "::date"
  | .contains column needle => column.print q ++ " ILIKE " ++ quoteLiteral ("%" ++ needle ++ "%")
  | .fragment sql => sql

mutual

/-- The written form of a predicate. -/
def Predicate.print (q : Quoting) : Predicate → String
  | .atom condition => condition.print q
  | .all members => " AND ".intercalate (Predicate.printAll q members)

/-- The written forms of a list of predicates. -/
def Predicate.printAll (q : Quoting) : List Predicate → List String
  | [] => []
  | p :: ps => p.print q :: Predicate.printAll q ps

end

/-- The written forms of a list of predicates are those of its members. -/
theorem Predicate.printAll_eq_map (q : Quoting) (ps : List Predicate) :
    Predicate.printAll q ps = ps.map (Predicate.print q) := by
  induction ps with
  | nil => rfl
  | cons p ps ih => rw [Predicate.printAll, ih, List.map_cons]

/-! ## Clauses -/

/-- The written form of a projected item; a name that is no plain alias is quoted in either
quoting. -/
def SelectItem.print (q : Quoting) (item : SelectItem) : String :=
  match item.name with
  | none => item.expr.print q
  | some name =>
      item.expr.print q ++ " AS " ++ (if isPlainAlias name then name else quoteIdentifier name)

/-- The written form of a projection. -/
def printProjection (q : Quoting) (items : List SelectItem) : String :=
  if items.isEmpty then "*" else ", ".intercalate (items.map (SelectItem.print q))

/-- The written form of a joined table with its condition. -/
def JoinClause.print (q : Quoting) (join : JoinClause) : String :=
  " JOIN " ++ q.name join.table ++ " ON "
    ++ " AND ".intercalate (join.on.map fun (l, r) => l.print q ++ " = " ++ r.print q)

/-- The written form of a `WHERE` or `HAVING` clause. -/
def printCondition (q : Quoting) (keyword : String) : Option Predicate → String
  | none => ""
  | some predicate => " " ++ keyword ++ " " ++ predicate.print q

/-- The written form of the grouping. -/
def printGroupBy (q : Quoting) (keys : List Expr) : String :=
  if keys.isEmpty then "" else " GROUP BY " ++ ", ".intercalate (keys.map (Expr.print q))

/-- The written form of a sort key. -/
def OrderKey.print (q : Quoting) (key : OrderKey) : String :=
  key.expr.print q ++ " " ++ key.direction.keyword

/-- The written form of the ordering. -/
def printOrderBy (q : Quoting) (keys : List OrderKey) : String :=
  if keys.isEmpty then "" else " ORDER BY " ++ ", ".intercalate (keys.map (OrderKey.print q))

/-- The written form of the row limit. -/
def printLimit : Option Nat → String
  | none => ""
  | some n => " LIMIT " ++ n.repr

/-- The written form of a statement. -/
def SelectStatement.print (q : Quoting) (s : SelectStatement) : String :=
  "SELECT " ++ printProjection q s.projection ++ " FROM " ++ q.name s.source
    ++ String.join (s.joins.map (JoinClause.print q))
    ++ printCondition q "WHERE" s.filter
    ++ printGroupBy q s.groupBy
    ++ printCondition q "HAVING" s.having
    ++ printOrderBy q s.orderBy
    ++ printLimit s.limit

/-- The statement as it is sent to the caller, with every identifier quoted. -/
def SelectStatement.toSql (s : SelectStatement) : String := s.print .quoted

end TextToSql.Sql
