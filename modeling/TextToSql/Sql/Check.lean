import TextToSql.Failure
import TextToSql.Sql.Grammar

/-!
# Checking SQL

A text is acceptable if it is exactly one query. The check tells whether a text can be read and what
kinds of statements it has.

* `check_eq_ok_iff` : a text is acceptable exactly when it reads as a single query.
-/

namespace TextToSql.Sql

/-- The kinds of statements. -/
inductive StatementKind where
  | query
  | delete
  | drop
  | insert
  | truncate
  | update
deriving DecidableEq

namespace StatementKind

open Form

/-- All kinds of statements. -/
def all : List StatementKind := [query, delete, drop, insert, truncate, update]

/-- The keyword that names a kind of statement. -/
def label : StatementKind → String
  | query => "SELECT"
  | delete => "DELETE"
  | drop => "DROP"
  | insert => "INSERT"
  | truncate => "TRUNCATE"
  | update => "UPDATE"

/-- The results that a change reports. -/
def returning : Form := clause ["RETURNING"] (list item)

/-- What happens to things that depend on what is removed. -/
def dependents : Form := maybe (anyKeyword ["CASCADE", "RESTRICT"])

/-- What can be dropped. -/
def droppable : Form :=
  oneOf [keywords ["MATERIALIZED", "VIEW"],
    anyKeyword ["TABLE", "VIEW", "INDEX", "SCHEMA", "DATABASE", "SEQUENCE", "ROLE", "TYPE", "USER"]]

/-- A value given to a column, or values given to several columns. -/
def assignment : Form :=
  row [oneOf [path, parens (list path)], symbol "=", phrase .expr]

/-- The form of a kind of statement. -/
def form : StatementKind → Form
  | query => phrase .query
  | delete =>
      row [keywords ["DELETE", "FROM"], path, maybe otherName, clause ["USING"] (list (phrase .source)),
        clause ["WHERE"] (phrase .expr), returning]
  | drop => row [keyword "DROP", droppable, maybe (keywords ["IF", "EXISTS"]), list path, dependents]
  | insert =>
      row [keyword "INSERT", maybe (keyword "INTO"), maybe (keyword "TABLE"), path,
        maybe (row [keyword "AS", name]), maybe (parens (list name)),
        oneOf [keywords ["DEFAULT", "VALUES"], phrase .query], returning]
  | truncate =>
      row [keyword "TRUNCATE", maybe (keyword "TABLE"), maybe (keyword "ONLY"), list path,
        maybe (row [anyKeyword ["RESTART", "CONTINUE"], keyword "IDENTITY"]), dependents]
  | update =>
      row [keyword "UPDATE", phrase .source, keyword "SET", list assignment,
        clause ["FROM"] (list (phrase .source)), clause ["WHERE"] (phrase .expr), returning]

/-- The kind of statement that tokens make up. -/
def ofTokens? (ts : List Token) : Option StatementKind := all.find? fun k => k.form.covers ts

end StatementKind

/-! ## Statements in a text -/

/-- The tokens between semicolons. -/
def splitStatements (ts : List Token) : List (List Token) :=
  ts.foldr (fun t pieces =>
    if t = .symbol ";" then [] :: pieces
    else
      match pieces with
      | piece :: pieces => (t :: piece) :: pieces
      | [] => [[t]]) [[]]

/-- The kinds of the statements in a text; none if it cannot be read. Nothing between two semicolons
is no statement. -/
def statements? (sql : String) : Option (List StatementKind) :=
  (Token.ofText? sql).bind fun ts =>
    ((splitStatements ts).filter fun piece => !piece.isEmpty).mapM StatementKind.ofTokens?

/-! ## The check -/

/-- Why a text is not acceptable: it cannot be read, has no statement, has a statement that is no
query, or has several statements. -/
inductive CheckFault where
  | unreadable
  | empty
  | notQuery (kind : StatementKind)
  | several (count : Nat)
deriving DecidableEq

/-- The text that reports why a text is not acceptable. -/
def CheckFault.message : CheckFault → String
  | unreadable => "SQL parsing error"
  | empty => "Empty SQL query"
  | notQuery kind => "Only SELECT queries are permitted. Found: " ++ kind.label
  | several count => "Expected a single statement, found " ++ count.repr

/-- Accepts a text that is exactly one query. -/
def check (sql : String) : Except CheckFault Unit :=
  match statements? sql with
  | none => .error .unreadable
  | some [] => .error .empty
  | some [.query] => .ok ()
  | some [kind] => .error (.notQuery kind)
  | some kinds => .error (.several kinds.length)

/-- A text is acceptable exactly when it reads as a single query. -/
theorem check_eq_ok_iff (sql : String) : check sql = .ok () ↔ statements? sql = some [.query] := by
  rw [check]
  split <;> simp_all

/-- A failed check as a failure. -/
def CheckFault.toFailure (fault : CheckFault) : Failure := .invalidSql fault.message

end TextToSql.Sql
