import TextToSql.Sql.Statement

/-!
# The pieces of a statement

Everything in a statement that is not fixed by its form: the tables and columns that it names, the names
of its results, the values that it compares with, and the fragments that it contains.

* `Predicate.atoms_conjoin_map` : the conditions of a conjunction of conditions.
-/

namespace TextToSql.Sql

/-- A name, a value or a fragment in a statement. -/
inductive Piece where
  | table (name : String)
  | column (ref : ColumnRef)
  | result (name : String)
  | number (digits : String)
  | text (value : String)
  | fragment (sql : String)
deriving DecidableEq

/-- The pieces of an expression. -/
def Expr.pieces : Expr → List Piece
  | .column ref => [.column ref]
  | .star => []
  | .tableStar table => [.table table]
  | .aggregate _ _ argument => argument.pieces
  | .aggregateAll _ _ => []
  | .truncated _ ref => [.column ref]
  | .number digits => [.number digits]
  | .text value => [.text value]
  | .fragment sql => [.fragment sql]

/-- The pieces of a condition: the bounds of a range and what is searched for are texts. -/
def Condition.pieces : Condition → List Piece
  | .compare left _ right => left.pieces ++ right.pieces
  | .between ref first last => [.column ref, .text first, .text last]
  | .contains ref needle => [.column ref, .text needle]
  | .fragment sql => [.fragment sql]

/-- The pieces of a predicate. -/
def Predicate.pieces (p : Predicate) : List Piece := p.atoms.flatMap Condition.pieces

/-- The pieces of a projected item: those of its expression and the name of its result. -/
def SelectItem.pieces (item : SelectItem) : List Piece :=
  item.expr.pieces ++ item.name.toList.map Piece.result

/-- The pieces of a joined table. -/
def JoinClause.pieces (join : JoinClause) : List Piece :=
  .table join.table :: join.on.flatMap fun pair => [.column pair.1, .column pair.2]

/-- The pieces of a statement. -/
def SelectStatement.pieces (s : SelectStatement) : List Piece :=
  s.projection.flatMap SelectItem.pieces ++ [.table s.source]
    ++ s.joins.flatMap JoinClause.pieces
    ++ s.filter.toList.flatMap Predicate.pieces
    ++ s.groupBy.flatMap Expr.pieces
    ++ s.having.toList.flatMap Predicate.pieces
    ++ s.orderBy.flatMap fun key => key.expr.pieces

/-- The conditions of a conjunction of conditions are these conditions. -/
theorem Predicate.atoms_conjoin_map (cs : List Condition) (p : Predicate)
    (h : conjoin (cs.map .atom) = some p) : p.atoms = cs := by
  rw [atoms_conjoin _ p h, List.flatMap_map]
  simp [atoms]

end TextToSql.Sql
