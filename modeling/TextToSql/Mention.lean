import TextToSql.Pattern.Scan
import TextToSql.Schema.Resolve

/-!
# Mentions of the schema

Where a question mentions tables, columns, metrics and time phrases: in any letter case and as whole
words, that is, between two word boundaries.
-/

namespace TextToSql.Schema

open Pattern

/-! ## Tables -/

/-- The names that a table can be mentioned by: the table names, then the aliases. -/
def tableTerms (schema : Schema) : List String :=
  (schema.tableNames ++ schema.tableAliases.map Prod.fst).filter fun term => !term.isEmpty

/-- The mentions of tables in a text, in text order. Where several names match at a place, the one
declared first is taken. -/
def tableMentions (schema : Schema) (text : String) : List Match :=
  match schema.tableTerms with
  | [] => []
  | terms => (whole (oneOf terms)).matchesIn text

/-! ## Phrases -/

/-- The pattern of a phrase. -/
def phrasePattern (phrase : String) : Pattern := whole (lit phrase)

/-- Whether a phrase is mentioned in a text. -/
def mentionsPhrase (text phrase : String) : Bool := (phrasePattern phrase).occursIn text

/-- The metrics that a text mentions, in the order of their declaration. -/
def mentionedMetrics (schema : Schema) (text : String) : List NamedSql :=
  schema.metrics.filter fun m => mentionsPhrase text m.phrase

/-- The first declared time phrase that a text mentions. -/
def mentionedTime? (schema : Schema) (text : String) : Option NamedSql :=
  schema.timePhrases.find? fun p => mentionsPhrase text p.phrase

/-! ## Columns -/

/-- Whether a column has been declared, in a table or by its aliases. -/
def knowsColumn (schema : Schema) (column : String) : Bool :=
  (schema.allColumns.any fun (_, c) => c = column)
    || schema.columnAliases.any fun (c, _) => c = column

/-- The pattern of the forms of a column. -/
def columnPattern (schema : Schema) (column : String) : Pattern :=
  whole (oneOf ((schema.formsOf column).filter fun form => !form.isEmpty))

/-- Whether a text mentions a declared column by its name or an alias. -/
def mentionsColumn (schema : Schema) (text column : String) : Bool :=
  schema.knowsColumn column && (schema.columnPattern column).occursIn text

end TextToSql.Schema
