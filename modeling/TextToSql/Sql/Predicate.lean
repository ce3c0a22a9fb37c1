import TextToSql.Sql.Expr

/-!
# Conditions and conjunctions

A condition is a single test on a row or a group; a predicate is a condition or a conjunction of
predicates, nested to any depth.

* `atoms_conjoin` : the conjunction of a list of predicates has the conditions of its members, in
  order.
-/

namespace TextToSql.Sql

/-- The comparisons of two values. -/
inductive Comparison where
  | equal
  | notEqual
  | greater
  | less
  | atLeast
  | atMost
deriving DecidableEq

/-- The sign of a comparison. -/
def Comparison.sign : Comparison → String
  | equal => "="
  | notEqual => "!="
  | greater => ">"
  | less => "<"
  | atLeast => ">="
  | atMost => "<="

/-- A single test: a comparison, a range of dates, a search for a substring in any letter case, or
a fragment supplied by the caller. -/
inductive Condition where
  | compare (left : Expr) (op : Comparison) (right : Expr)
  | between (column : ColumnRef) (first last : String)
  | contains (column : ColumnRef) (needle : String)
  | fragment (sql : String)
deriving DecidableEq

/-- A condition or a conjunction of predicates. -/
inductive Predicate where
  | atom (condition : Condition)
  | all (members : List Predicate)

namespace Predicate

/-- The conjunction of a list of predicates: none of an empty list, and the member itself of a
list of one. -/
def conjoin : List Predicate → Option Predicate
  | [] => none
  | [p] => some p
  | p :: q :: ps => some (.all (p :: q :: ps))

mutual

/-- The conditions of a predicate, from left to right. -/
def atoms : Predicate → List Condition
  | .atom condition => [condition]
  | .all members => atomsAll members

/-- The conditions of a list of predicates, from left to right. -/
def atomsAll : List Predicate → List Condition
  | [] => []
  | p :: ps => p.atoms ++ atomsAll ps

end

/-- The conditions of a list of predicates are those of its members in order. -/
theorem atomsAll_eq_flatMap (ps : List Predicate) : atomsAll ps = ps.flatMap atoms := by
  induction ps with
  | nil => rfl
  | cons p ps ih => rw [atomsAll, ih, List.flatMap_cons]

/-- There is no conjunction of nothing. -/
theorem conjoin_eq_none_iff (ps : List Predicate) : conjoin ps = none ↔ ps = [] := by
  match ps with
  | [] => simp [conjoin]
  | [p] => simp [conjoin]
  | p :: q :: ps => simp [conjoin]

/-- The conjunction of a list of predicates has the conditions of its members, in order. -/
theorem atoms_conjoin (ps : List Predicate) (p : Predicate) (h : conjoin ps = some p) :
    p.atoms = ps.flatMap atoms := by
  match ps with
  | [] => simp [conjoin] at h
  | [q] =>
      rw [conjoin, Option.some.injEq] at h
      subst h
      simp
  | q :: r :: rs =>
      rw [conjoin, Option.some.injEq] at h
      subst h
      rw [atoms, atomsAll_eq_flatMap]

end Predicate

end TextToSql.Sql
