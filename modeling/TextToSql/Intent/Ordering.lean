import TextToSql.Intent.Selection
import TextToSql.Lexicon.Cue
import TextToSql.Lexicon.Limit

/-!
# Order and limit

The `ORDER BY` clause of a question: the key it names, else a measure guessed from its words where it
asks for the rows at the top or the bottom.
-/

namespace TextToSql

open Sql Pattern Lexicon

namespace Intent

/-- The total amount of an order. -/
def totalAmount : Expr := .of "orders" "total_amount"

/-- The key that a term names: a column of any table, else an aliased column, under the aggregate
that the text has a cue for. -/
def namedKey? (schema : Schema) (term text : String) : Option Expr :=
  match schema.columnLike? term with
  | some ref => some (.column ref)
  | none =>
      let canonical := schema.resolveColumn term none
      if canonical = term then none
      else
        (schema.allColumns.find? fun (_, column) => column = canonical).map fun (table, column) =>
          match orderingAggregateRules.first? () text with
          | some function => .aggregated function (.of table column)
          | none => .of table column

/-- The key for a word of measure in a text. -/
def measureKey (text keyword : String) : Expr :=
  match keyword with
  | "price" => if Text.holds text "products" then .of "products" "price" else .of "order_items" "price"
  | "quantity" => .of "order_items" "quantity"
  | _ => totalAmount

/-- The key of a question for the rows at the top or the bottom that names none. -/
def guessedKey (text : String) : Expr :=
  match ["revenue", "sales", "amount", "price", "quantity"].find? (Text.holds text) with
  | some keyword => measureKey text keyword
  | none =>
      if Text.holds text "customer" then .aggregated .count (.of "orders" "order_id")
      else if Text.holds text "product" then .aggregated .sum (.of "order_items" "quantity")
      else totalAmount

/-- The key of a question with a word of rank that has no other. -/
def rankingKey? (schema : Schema) (text : String) : Option Expr :=
  if Text.holds text "recent" && schema.hasTable "orders" then some (.of "orders" "order_date")
  else if ["sales", "revenue", "amount"].any (Text.holds text) then some totalAmount
  else if Text.holds text "price" then some (.of "products" "price")
  else none

/-- The key that a question names or, with a number of rows at the top or the bottom, implies. -/
def askedKey? (s : Selection) (text : String) : Option OrderKey :=
  match orderPhrase.find? s.text with
  | some m =>
      let direction :=
        if descendingCue.occursIn s.text then SortDirection.descending else .ascending
      (namedKey? s.schema (Text.lowerOf (m.captures.headD "")) text).map fun expr =>
        ⟨expr, direction⟩
  | none =>
      if topCue.occursIn s.text then some ⟨guessedKey text, .descending⟩
      else if bottomCue.occursIn s.text then some ⟨guessedKey text, .ascending⟩
      else none

/-- The order of a question: at most one key. -/
def orderOf (s : Selection) : List OrderKey :=
  let text := Text.lowerOf s.text
  match askedKey? s text with
  | some key => [key]
  | none =>
      if rankingCue.occursIn s.text then
        ((rankingKey? s.schema text).map fun expr => ⟨expr, .descending⟩).toList
      else []

/-- The row limit of a question. -/
def limitOf (s : Selection) : Option Nat := limitRules.first? () s.text

end Intent

end TextToSql
