import TextToSql.Pattern.Rule
import TextToSql.Sql.Expr

/-!
# Cue words

The fixed English vocabulary that tells what a question asks for: the kind of the request, aggregate
functions, grouping, spans of time, sorting. Cues match in any letter case, and as whole words unless
the comment says otherwise.
-/

namespace TextToSql

/-- The kinds of requests. -/
inductive Action where
  | select
  | count
  | average
  | sum
  | min
  | max
deriving DecidableEq

/-- The name of a kind of request. -/
def Action.name : Action → String
  | select => "select"
  | count => "count"
  | average => "average"
  | sum => "sum"
  | min => "min"
  | max => "max"

namespace Lexicon

open Sql Pattern

/-- One of several phrases as whole words. -/
def phrase (texts : List String) : Pattern := whole (oneOf texts)

/-! ## What is asked for -/

/-- The cues for the kind of a request. -/
def actionRules : RuleSet Unit Action where
  rules := [
    .always "select" (phrase ["show", "list", "display", "get", "find", "search", "select", "query",
      "retrieve", "give me", "what are", "what is"]) .select,
    .always "count" (phrase ["count", "how many", "total number", "number of"]) .count,
    .always "average" (phrase ["average", "avg", "mean", "typical"]) .average,
    .always "sum" (phrase ["sum", "total", "add up", "overall"]) .sum,
    .always "min" (phrase ["minimum", "min", "smallest", "lowest", "least"]) .min,
    .always "max" (phrase ["maximum", "max", "largest", "highest", "most", "greatest"]) .max]

/-- The cue that several tables are to be joined. -/
def joinCue : Pattern :=
  phrase ["with", "along with", "including", "related", "associated", "linked to", "joined with",
    "from", "and their", "who have"]

/-! ## Aggregates and groups -/

/-- The cue for a grouped result. -/
def groupingCue : Pattern :=
  phrase ["group by", "grouped by", "per", "by", "categorized by", "segmented by", "broken down by"]

/-- The cue for an aggregated result. -/
def aggregationCue : Pattern :=
  phrase ["total", "average", "count", "sum", "min", "max", "mean", "highest", "lowest"]

/-- The cues for aggregate functions. -/
def aggregateRules : RuleSet Unit Aggregate where
  rules := [
    .always "count" (phrase ["count", "how many", "number of"]) .count,
    .always "avg" (phrase ["average", "avg", "mean"]) .avg,
    .always "sum" (phrase ["sum", "total", "add up"]) .sum,
    .always "min" (phrase ["minimum", "min", "smallest", "lowest"]) .min,
    .always "max" (phrase ["maximum", "max", "largest", "highest", "greatest"]) .max]

/-- The cues for the aggregate of a sort key; they also match inside words. -/
def orderingAggregateRules : RuleSet Unit Aggregate where
  rules := [
    .always "total" (lit "total") .sum,
    .always "sum" (lit "sum") .sum,
    .always "average" (lit "average") .avg,
    .always "avg" (lit "avg") .avg,
    .always "count" (lit "count") .count,
    .always "number" (lit "number") .count]

/-- The cues for groups by a span of time. -/
def timeGrainRules : RuleSet Unit TimeGrain where
  rules := [
    .always "daily" (phrase ["daily", "day", "days"]) .day,
    .always "monthly" (phrase ["monthly", "month", "months"]) .month,
    .always "yearly" (phrase ["yearly", "year", "years"]) .year,
    .always "quarterly" (phrase ["quarterly", "quarter", "quarters"]) .quarter,
    .always "weekly" (phrase ["weekly", "week", "weeks"]) .week]

/-! ## Sorting -/

/-- The cue for a descending order. -/
def descendingCue : Pattern :=
  phrase ["descending", "decrease", "descend", "drop", "highest", "best", "top"]

/-- The cue for the rows at the top: a word of rank and a number. -/
def topCue : Pattern :=
  phrase ["top", "highest", "best", "most"] ++ spaces ++ digits

/-- The cue for the rows at the bottom: a word of rank and a number. -/
def bottomCue : Pattern :=
  phrase ["bottom", "lowest", "worst", "least"] ++ spaces ++ digits

/-- The words of rank; they also match inside words. -/
def rankingCue : Pattern := oneOf ["top", "highest", "best", "bottom", "lowest", "worst"]

/-- The phrase that names a sort key, which it captures. -/
def orderPhrase : Pattern :=
  boundary
    ++ oneOf ["order", "ordered", "sort", "sorted", "arrange", "arranged", "rank", "ranked"]
    ++ spaces ++ lit "by" ++ spaces ++ capture word

end Lexicon

end TextToSql
