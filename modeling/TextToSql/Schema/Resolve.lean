import TextToSql.Schema.Basic
import TextToSql.Text.Lower

/-!
# Names in a question

How a term of a question finds the table or the column that it names, how two tables are connected,
and which words the schema can be mentioned by.
-/

namespace TextToSql

open Sql

namespace Schema

/-! ## Terms -/

/-- The table that a term names: the table of that name, else the table of that alias, else the
table whose name is the term with an `s`. -/
def resolveTable? (schema : Schema) (term : String) : Option String :=
  if schema.hasTable term then some term
  else
    match schema.tableAliases.find? fun entry => entry.1 = term with
    | some (_, table) => some table
    | none => if schema.hasTable (term ++ "s") then some (term ++ "s") else none

/-- Whether one of two texts occurs in the other. -/
def overlaps (term column : String) : Bool := Text.holds column term || Text.holds term column

/-- The column that a term names among all column aliases: an aliased column or one of its aliases. -/
def aliasedColumn? (schema : Schema) (term : String) : Option String :=
  (schema.columnAliases.find? fun (column, aliases) =>
    term = column || aliases.contains term).map Prod.fst

/-- The column that a term names: an alias comes first, then, within a table, the first column that
contains the term or is contained in it. A term that names no column stays as it is. -/
def resolveColumn (schema : Schema) (term : String) (table : Option String) : String :=
  match schema.aliasedColumn? term with
  | some column => column
  | none =>
      match table with
      | none => term
      | some table =>
          if term.isEmpty then term
          else ((schema.columns table).find? (overlaps term)).getD term

/-- The first column of any table that contains a term or is contained in it. -/
def columnLike? (schema : Schema) (term : String) : Option ColumnRef :=
  if term.isEmpty then none
  else
    (schema.allColumns.find? fun (_, column) => overlaps term column).map
      fun (table, column) => .of table column

/-! ## Relationships -/

/-- The relationship between two tables, first as declared from the one to the other, then the
other way round. -/
def relationship? (schema : Schema) (a b : String) : Option Relationship :=
  (schema.relationships.find? fun r => r.left = a && r.right = b).or
    (schema.relationships.find? fun r => r.left = b && r.right = a)

/-- The chain that goes from one table to another through a third one. -/
def detour? (schema : Schema) (a b middle : String) : Option (List Relationship) :=
  if middle = a || middle = b then none
  else
    match schema.relationship? a middle, schema.relationship? middle b with
    | some first, some second => some [⟨a, middle, first.on⟩, ⟨middle, b, second.on⟩]
    | _, _ => none

/-- The chain of relationships that connects two tables: a direct one, else one through the first
declared table that is related to both, else none. -/
def chain (schema : Schema) (a b : String) : List Relationship :=
  match schema.relationship? a b with
  | some r => [⟨a, b, r.on⟩]
  | none => (schema.tableNames.findSome? (schema.detour? a b)).getD []

/-! ## Vocabulary -/

/-- The words of a phrase in lower case. -/
def wordsOfPhrase (phrase : String) : List String := (Text.wordsOf phrase).map Text.lowerOf

/-- Every word that the schema can be mentioned by; a word may be listed more than once. -/
def vocabulary (schema : Schema) : List String :=
  (schema.tables.flatMap fun t => (t.name :: t.columns).flatMap wordsOfPhrase)
    ++ (schema.tableAliases.flatMap fun (name, table) => [name, table].flatMap wordsOfPhrase)
    ++ (schema.columnAliases.flatMap fun (column, names) =>
        (column :: names).flatMap wordsOfPhrase)
    ++ (schema.metrics.flatMap fun m => wordsOfPhrase m.phrase)
    ++ (schema.timePhrases.flatMap fun p => wordsOfPhrase p.phrase)

end Schema

end TextToSql
