import TextToSql.Intent.Filter
import TextToSql.Lexicon.Cue

/-!
# Groups and conditions on groups

The `GROUP BY` clause of a question that asks for groups or for an aggregate, and the `HAVING` clause
of a question that is grouped.
-/

namespace TextToSql

open Sql Pattern Lexicon

namespace Intent

/-! ## Groups -/

/-- The columns of a table that are worth grouping by. -/
def groupingCandidates (table : String) : List String :=
  match table with
  | "customers" => ["name", "customer_id"]
  | "orders" => ["status", "order_date"]
  | "products" => ["category", "name", "product_id"]
  | "order_items" => ["product_id"]
  | _ => []

/-- The candidates of a table that it has and that are projected or mentioned. -/
def groupColumns (s : Selection) (items : List SelectItem) (table : String) : List Expr :=
  ((groupingCandidates table).filter fun column =>
    s.schema.hasColumn table column
      && (items.any (fun item => item.expr = .of table column)
        || s.schema.mentionsColumn s.text column)).map (Expr.of table)

/-- The spans of time that orders are grouped by. -/
def groupGrains (s : Selection) : List Expr :=
  if s.has "orders" then
    (timeGrainRules.firsts () s.text).map fun grain =>
      .truncated grain (.of "orders" "order_date")
  else []

/-- Whether a projected item can be grouped by: it is no aggregate, no star and no fragment. -/
def isPlain (item : SelectItem) : Bool :=
  !item.expr.isAggregate && !item.expr.isStar && !item.expr.isFragment

/-- The groups of a question with the given projection. An aggregate without any other group is
grouped by the plain items of the projection. -/
def groupsOf (s : Selection) (items : List SelectItem) : List Expr :=
  let aggregated := aggregationCue.occursIn s.text
  if !groupingCue.occursIn s.text && !aggregated then []
  else
    match (s.tables.flatMap (groupColumns s items) ++ groupGrains s).foldl addNew [] with
    | [] =>
        if aggregated then ((items.filter isPlain).map SelectItem.expr).foldl addNew [] else []
    | groups => groups

/-! ## Conditions on groups -/

/-- The words that imply the aggregate of a threshold. -/
def aggregateWords : List (String × Aggregate) :=
  [("total", .sum), ("average", .avg), ("count", .count)]

/-- The aggregate of the keyword whose first occurrence is the last one before the first occurrence
of a term. -/
def impliedAggregate? (text term : List Char) : Option Aggregate :=
  match Text.firstIndex? term text with
  | none => none
  | some place =>
      let earlier := aggregateWords.filterMap fun (keyword, function) =>
        ((Text.firstIndex? keyword.toList text).filter (· < place)).map fun i => (i, function)
      (earlier.foldl (fun best candidate =>
        match best with
        | some current => if candidate.1 ≤ current.1 then some current else some candidate
        | none => some candidate) none).map Prod.snd

/-- A threshold for a column that is named anywhere in the schema, under the aggregate that the text
implies. -/
def havingCondition (s : Selection) : List String → Option Condition
  | [term, op, number] => do
      let op ← comparison? op
      let ref ← s.schema.columnLike? term
      let left :=
        match impliedAggregate? (Text.lower s.text.toList) term.toList with
        | some function => .aggregated function (.column ref)
        | none => .column ref
      return .compare left op (.number number)
  | _ => none

/-- A threshold for an aggregate of a column that is named anywhere in the schema. -/
def aggregateCondition (function : Aggregate) (s : Selection) : List String → Option Condition
  | [term, op, number] => do
      let ref ← s.schema.columnLike? term
      let op ← comparison? op
      return .compare (.aggregated function (.column ref)) op (.number number)
  | _ => none

/-- The column that is counted for a noun. -/
def countedColumn? (noun : String) : Option Expr :=
  match noun with
  | "order" | "orders" | "purchase" | "purchases" => some (.of "orders" "order_id")
  | "item" | "items" | "product" | "products" => some (.of "order_items" "item_id")
  | _ => none

/-- A threshold for the number of things that a noun stands for. -/
def countCondition (_ : Selection) : List String → Option Condition
  | [op, number, noun] => do
      let op ← comparison? op
      let column ← countedColumn? (Text.lowerOf noun)
      return .compare (.aggregated .count column) op (.number number)
  | _ => none

/-- A threshold for the number of orders. -/
def ordersCondition (_ : Selection) : List String → Option Condition
  | [number] =>
      some (.compare (.aggregated .count (.of "orders" "order_id")) .greater (.number number))
  | _ => none

/-- A threshold for the total or the average of a term. -/
def aggregateRule (name text : String) (function : Aggregate) : Rule Selection Condition :=
  ⟨name, lit "where" ++ spaces ++ lit text ++ spaces ++ capture word ++ spaces ++ lit "is" ++ spaces
    ++ capture (oneOf ["greater than", "less than"]) ++ spaces ++ capture digits,
    aggregateCondition function⟩

/-- The rules for conditions on groups. -/
def havingRules : RuleSet Selection Condition where
  rules := [
    ⟨"having", lit "having" ++ spaces ++ capture word ++ spaces
      ++ capture (oneOf ["greater than", "less than", "at least", "at most", "equals", "equal to",
        ">=", "<=", ">", "<", "="]) ++ spaces ++ capture digits, havingCondition⟩,
    aggregateRule "where_total" "total" .sum,
    aggregateRule "where_average" "average" .avg,
    ⟨"with_count", lit "with" ++ spaces ++ capture (oneOf ["more than", "at least", "less than"])
      ++ spaces ++ capture digits ++ spaces ++ capture word, countCondition⟩,
    ⟨"ordered_times", lit "who" ++ spaces ++ lit "ordered" ++ spaces ++ lit "more than" ++ spaces
      ++ capture digits ++ spaces ++ lit "time" ++ optional (lit "s") ++ boundary,
      ordersCondition⟩]

/-- The condition of a question on its groups; a question without groups has none. -/
def havingOf (s : Selection) (groups : List Expr) : Option Predicate :=
  if groups.isEmpty then none
  else conjunction ((havingRules.all s s.text).foldl addNew [])

end Intent

end TextToSql
