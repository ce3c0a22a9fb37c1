import TextToSql.Intent.Selection
import TextToSql.Lexicon.Cue

/-!
# The projection

What a question wants to see: the metrics it mentions, then the columns it mentions, under the
aggregate it asks for where that makes sense, else aggregates of the measures of its tables, else all
columns of the first table.
-/

namespace TextToSql

open Sql

namespace Intent

/-- The measures that are aggregated when no column is mentioned. -/
def measures : List String := ["total_amount", "price", "quantity", "stock_quantity"]

/-- The columns that a mentioned aggregate is applied to. -/
def aggregatable : List String :=
  ["total_amount", "price", "quantity", "stock_quantity", "customer_id", "order_id", "product_id"]

/-- The name of the result of an aggregate over a column. -/
def aggregateName (function : Aggregate) (column : String) : String :=
  function.label ++ "_" ++ column

/-- A mentioned metric as an item; spaces in its name become underscores. -/
def metricItem (metric : NamedSql) : SelectItem :=
  ⟨.fragment metric.sql,
    some (String.ofList (metric.phrase.toList.map fun c => if c = ' ' then '_' else c))⟩

/-- The columns that a question mentions, in the order of its tables and of their declaration. -/
def mentionedColumns (s : Selection) : List ColumnRef :=
  s.tables.flatMap fun table =>
    ((s.schema.columns table).filter (s.schema.mentionsColumn s.text)).map (ColumnRef.of table)

/-- A column under an aggregate: identifiers are counted without repetition. -/
def aggregateItem (function : Aggregate) (ref : ColumnRef) : SelectItem :=
  ⟨.aggregate function (function = .count && Text.holds ref.column "id") (.column ref),
    some (aggregateName function ref.column)⟩

/-- Puts an aggregate over an item that is a plain column and can be aggregated. -/
def wrap (function : Aggregate) (item : SelectItem) : SelectItem :=
  match item.expr with
  | .column ref => if aggregatable.contains ref.column then aggregateItem function ref else item
  | _ => item

/-- The items for an aggregate when no column is mentioned: the number of rows, or the aggregate of
every measure of the tables. -/
def measureItems (s : Selection) (function : Aggregate) : List SelectItem :=
  if function = .count then [⟨.countAll, some "total_count"⟩]
  else
    s.tables.flatMap fun table =>
      ((s.schema.columns table).filter measures.contains).map fun column =>
        ⟨.aggregated function (.of table column), some (aggregateName function column)⟩

/-- The items for the columns and aggregates that a question mentions. -/
def columnItems (functions : List Aggregate) (s : Selection) : List SelectItem :=
  match mentionedColumns s with
  | [] => functions.flatMap (measureItems s)
  | columns =>
      functions.foldl (fun items function => items.map (wrap function))
        (columns.map fun ref => .plain (.column ref))

/-- The projection of a question. -/
def projectionOf (s : Selection) : List SelectItem :=
  match s.tables with
  | [] => [.plain .star]
  | first :: _ =>
      let items := (s.schema.mentionedMetrics s.text).map metricItem
        ++ columnItems (Lexicon.aggregateRules.firsts () s.text) s
      if items.isEmpty then [.plain (.tableStar first)] else items

end Intent

end TextToSql
