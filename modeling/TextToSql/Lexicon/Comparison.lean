import TextToSql.Sql.Predicate
import TextToSql.Text.Lower

/-!
# Words of comparison and status

The phrases that compare two values, the words that belong to such phrases and are never a value or
a column themselves, and the words for the status of an order.
-/

namespace TextToSql.Lexicon

open Sql

/-- The comparison that a phrase expresses, in any letter case and with white space around it. -/
def comparison? (phrase : String) : Option Comparison :=
  let phrase := Text.lowerOf (Text.trim phrase)
  if ["is", "equals", "equal to", "="].contains phrase then some .equal
  else if ["greater than", "more than", "above", "over", "exceeding", ">"].contains phrase then
    some .greater
  else if ["less than", "below", "under", "<"].contains phrase then some .less
  else if ["at least", ">="].contains phrase then some .atLeast
  else if ["at most", "<="].contains phrase then some .atMost
  else if ["not equal to", "!=", "different from"].contains phrase then some .notEqual
  else none

/-- The words that comparisons and their surroundings are made of. -/
def comparisonWords : List String :=
  ["greater", "less", "more", "than", "not", "at", "least", "most", "equal", "equals", "to", "is",
   "above", "below", "over", "under", "between", "different", "from", "where", "with", "and"]

/-- Whether a word belongs to the phrasing of comparisons. -/
def isComparisonWord (word : String) : Bool := comparisonWords.contains word

/-- The stored value of a word for a status, in any letter case. -/
def status? (word : String) : Option String :=
  match Text.lowerOf word with
  | "complete" | "completed" => some "completed"
  | "pending" => some "pending"
  | "shipped" => some "shipped"
  | "cancelled" | "canceled" => some "cancelled"
  | "processing" => some "processing"
  | "new" => some "new"
  | "delivered" => some "delivered"
  | _ => none

end TextToSql.Lexicon
