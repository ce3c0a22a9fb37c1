import TextToSql.Sql.Expr

/-!
# The schema of a request

What a request says about the caller's data: tables with their columns, aliases, relationships,
business metrics and time phrases. Everything is kept in the order of its declaration, and the first
declaration wins wherever one has to be chosen.
-/

namespace TextToSql

open Sql

/-- A table with its columns. -/
structure Table where
  name : String
  columns : List String
deriving DecidableEq

/-- Two tables with the pairs of columns that have to be equal for their rows to belong together. -/
structure Relationship where
  left : String
  right : String
  on : List (ColumnRef × ColumnRef)
deriving DecidableEq

/-- A phrase of the caller with the piece of SQL it stands for. -/
structure NamedSql where
  phrase : String
  sql : String
deriving DecidableEq

/-- The schema of a request. -/
structure Schema where
  tables : List Table
  tableAliases : List (String × String)
  columnAliases : List (String × List String)
  relationships : List Relationship
  metrics : List NamedSql
  timePhrases : List NamedSql

namespace Schema

/-- The schema that declares nothing. -/
def empty : Schema := ⟨[], [], [], [], [], []⟩

/-! ## Tables and columns -/

/-- Adds the columns that a list does not have yet, each once and in order. -/
def mergeColumns (old new : List String) : List String :=
  new.foldl (fun columns c => if columns.contains c then columns else columns ++ [c]) old

/-- Adds a table; one that is declared again merges its columns into the first declaration. -/
def mergeTable (tables : List Table) (name : String) (columns : List String) : List Table :=
  match tables with
  | [] => [⟨name, mergeColumns [] columns⟩]
  | t :: ts =>
      if t.name = name then ⟨t.name, mergeColumns t.columns columns⟩ :: ts
      else t :: mergeTable ts name columns

/-- Adds a table to a schema. -/
def addTable (schema : Schema) (name : String) (columns : List String) : Schema :=
  { schema with tables := mergeTable schema.tables name columns }

/-- The names of the tables. -/
def tableNames (schema : Schema) : List String := schema.tables.map Table.name

/-- Whether a schema has no table. -/
def isEmpty (schema : Schema) : Bool := schema.tables.isEmpty

/-- Whether a table is declared. -/
def hasTable (schema : Schema) (table : String) : Bool :=
  schema.tables.any fun t => t.name = table

/-- The columns of a table; none if it is unknown. -/
def columns (schema : Schema) (table : String) : List String :=
  match schema.tables.find? fun t => t.name = table with
  | some t => t.columns
  | none => []

/-- Whether a table has a column. -/
def hasColumn (schema : Schema) (table column : String) : Bool :=
  (schema.columns table).contains column

/-- All tables with all their columns. -/
def allColumns (schema : Schema) : List (String × String) :=
  schema.tables.flatMap fun t => t.columns.map fun c => (t.name, c)

/-! ## Names -/

/-- The texts that mention a column: its name, then its aliases. -/
def formsOf (schema : Schema) (column : String) : List String :=
  match schema.columnAliases.find? fun entry => entry.1 = column with
  | some (_, aliases) => mergeColumns [column] aliases
  | none => [column]

end Schema

end TextToSql
