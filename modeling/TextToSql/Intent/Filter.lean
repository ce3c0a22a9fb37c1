import TextToSql.Intent.Selection
import TextToSql.Lexicon.Comparison
import TextToSql.Pattern.Rule

/-!
# Conditions on rows

The `WHERE` clause of a question. A comparison of the total amount of an order stands for the whole
clause; otherwise the conditions of all families are gathered, each once, in the order of the
families, of their rules and of the text.
-/

namespace TextToSql

open Sql Pattern Lexicon

namespace Intent

/-! ## Total amounts -/

/-- A comparison of the total amount of an order with a number. -/
def amountCondition (s : Selection) : List String → Option Condition
  | [op, number] =>
      if s.has "orders" then
        (comparison? op).map fun op => .compare (.of "orders" "total_amount") op (.number number)
      else none
  | _ => none

/-- The phrases of comparison with a total amount. -/
def amountComparison : Pattern :=
  capture (oneOf ["greater than", "more than", "above", "over", "exceeding", "less than", "below",
    "under", "at least", "at most", "equal to", "equals", ">=", "<=", ">", "<", "="])

/-- A word with white space after it that may be left out. -/
def optionalWord (text : Pattern) : Pattern := optional (text ++ spaces)

/-- The word `order` in singular or plural. -/
def orderOrOrders : Pattern := lit "order" ++ optional (lit "s")

/-- The rest of a comparison with an amount: `is`, a phrase of comparison and a number. -/
def comparedTo (comparison : Pattern) : Pattern :=
  spaces ++ optionalWord (lit "is") ++ comparison ++ spaces ++ capture numeral

/-- The rules for total amounts. -/
def totalAmountRules : RuleSet Selection Condition where
  rules := [
    ⟨"total_amount", boundary ++ lit "total" ++ spaces ++ optionalWord (lit "order")
      ++ lit "amount" ++ comparedTo amountComparison, amountCondition⟩,
    ⟨"order_amount", boundary ++ orderOrOrders ++ spaces ++ optionalWord (lit "with")
      ++ lit "amount" ++ comparedTo amountComparison, amountCondition⟩,
    ⟨"order_total", boundary ++ optionalWord orderOrOrders ++ lit "total"
      ++ comparedTo amountComparison, amountCondition⟩]

/-- The rule for other words of amount. -/
def amountRules : RuleSet Selection Condition where
  rules := [
    ⟨"amount", boundary ++ oneOf ["amount", "price", "sum", "value", "cost"]
      ++ comparedTo (capture (oneOf ["greater than", "more than", "above", "over", "less than",
        "below", "under", "at least", "at most", ">=", "<=", ">", "<"])), amountCondition⟩]

/-! ## Comparisons -/

/-- The column of a selected table that a term names; words of comparison name none. -/
def selectedColumn? (s : Selection) (term : String) : Option ColumnRef :=
  if isComparisonWord term then none
  else
    s.tables.findSome? fun table =>
      let column := s.schema.resolveColumn term (some table)
      if s.schema.hasColumn table column then some (.of table column) else none

/-- Whether a text is an ASCII numeral: digits, with at most one point between digits. -/
def isNumeral (value : String) : Bool :=
  match value.toList.span (· ≠ '.') with
  | (whole, rest) =>
      !whole.isEmpty && whole.all Char.isDigit
        && match rest with
          | [] => true
          | _ :: fraction => !fraction.isEmpty && fraction.all Char.isDigit

/-- A compared value: a number where it is a numeral, else a text. -/
def literal (value : String) : Expr := if isNumeral value then .number value else .text value

/-- A comparison of a column with a value; a status takes its stored value. -/
def comparisonCondition (op : Comparison) (s : Selection) : List String → Option Condition
  | [term, value] => do
      let ref ← selectedColumn? s term
      if isComparisonWord value then none
      let value := if ref.column = "status" then (status? value).getD value else value
      return .compare (.column ref) op (literal value)
  | _ => none

/-- A comparison with a word: a term, a phrase and a word. -/
def wordRule (name text : String) (op : Comparison) : Rule Selection Condition :=
  ⟨name, capture word ++ spaces ++ lit text ++ spaces ++ capture word, comparisonCondition op⟩

/-- A comparison with a number: a term, `is` if wanted, a phrase and a number. -/
def numberRule (name text : String) (op : Comparison) : Rule Selection Condition :=
  ⟨name, capture word ++ spaces ++ optionalWord (lit "is") ++ lit text ++ spaces
    ++ capture numeral, comparisonCondition op⟩

/-- The rules for comparisons. -/
def comparisonRules : RuleSet Selection Condition where
  rules := [
    wordRule "is" "is" .equal,
    wordRule "equals" "equals" .equal,
    wordRule "eq_symbol" "=" .equal,
    wordRule "equal_to" "equal to" .equal,
    numberRule "greater_than" "greater than" .greater,
    numberRule "more_than" "more than" .greater,
    numberRule "above" "above" .greater,
    numberRule "gt_symbol" ">" .greater,
    numberRule "less_than" "less than" .less,
    numberRule "below" "below" .less,
    numberRule "lt_symbol" "<" .less,
    numberRule "at_least" "at least" .atLeast,
    numberRule "gte_symbol" ">=" .atLeast,
    numberRule "at_most" "at most" .atMost,
    numberRule "lte_symbol" "<=" .atMost,
    wordRule "not_equal_to" "not equal to" .notEqual,
    wordRule "neq_symbol" "!=" .notEqual,
    wordRule "different_from" "different from" .notEqual]

/-! ## Ranges of dates -/

/-- A range of dates of a column. -/
def dateCondition (s : Selection) : List String → Option Condition
  | [term, first, last] => (selectedColumn? s term).map fun ref => .between ref first last
  | _ => none

/-- A date as it is written in a question: word characters, points and hyphens. -/
def date : Pattern := .run .dotted

/-- The rules for ranges of dates. -/
def dateRules : RuleSet Selection Condition where
  rules := [
    ⟨"between", capture word ++ spaces ++ lit "between" ++ spaces ++ capture date ++ spaces
      ++ lit "and" ++ spaces ++ capture date, dateCondition⟩,
    ⟨"from_to", capture word ++ spaces ++ lit "from" ++ spaces ++ capture date ++ spaces
      ++ lit "to" ++ spaces ++ capture date, dateCondition⟩]

/-! ## Substrings -/

/-- A search for a substring in a column. -/
def substringCondition (s : Selection) : List String → Option Condition
  | [term, needle] => (selectedColumn? s term).map fun ref => .contains ref needle
  | _ => none

/-- The rules for substrings. -/
def substringRules : RuleSet Selection Condition where
  rules := [
    ⟨"contains", capture word ++ spaces ++ lit "contains" ++ spaces ++ capture word,
      substringCondition⟩,
    ⟨"like", capture word ++ spaces ++ lit "like" ++ spaces ++ capture word, substringCondition⟩,
    ⟨"in_it", capture word ++ spaces ++ lit "with" ++ spaces ++ capture word ++ spaces ++ lit "in"
      ++ spaces ++ lit "it" ++ boundary, substringCondition⟩]

/-! ## The status of orders -/

/-- A comparison of the status of an order with the last captured word. -/
def statusCondition (s : Selection) (captures : List String) : Option Condition := do
  if !s.has "orders" then none
  let value ← captures.getLast?
  let status ← status? value
  return .compare (.of "orders" "status") .equal (.text status)

/-- The rules for the status of orders. -/
def statusRules : RuleSet Selection Condition where
  rules := [
    ⟨"column_status", capture word ++ spaces ++ lit "status" ++ spaces ++ lit "is" ++ spaces
      ++ capture word, statusCondition⟩,
    ⟨"status", lit "status" ++ spaces ++ lit "is" ++ spaces ++ capture word, statusCondition⟩,
    ⟨"status_orders", capture word ++ spaces ++ lit "orders" ++ boundary, statusCondition⟩]

/-! ## The clause -/

/-- The condition of the time phrase that a question about orders mentions. -/
def timeConditions (s : Selection) : List Condition :=
  if s.has "orders" then
    ((s.schema.mentionedTime? s.text).map fun p => .fragment p.sql).toList
  else []

/-- The conditions of all families, each once. -/
def rowConditions (s : Selection) : List Condition :=
  (amountRules.all s s.text ++ comparisonRules.all s s.text ++ dateRules.all s s.text
    ++ substringRules.all s s.text ++ statusRules.all s s.text).foldl addNew (timeConditions s)

/-- The conjunction of a list of conditions. -/
def conjunction (conditions : List Condition) : Option Predicate :=
  Predicate.conjoin (conditions.map .atom)

/-- The condition of a question on the rows of its tables. -/
def filterOf (s : Selection) : Option Predicate :=
  if s.tables.isEmpty then none
  else
    match totalAmountRules.first? s s.text with
    | some condition => some (.atom condition)
    | none => conjunction (rowConditions s)

end Intent

end TextToSql
