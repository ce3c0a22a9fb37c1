import TextToSql.Pattern.Rule
import TextToSql.Text.Numeral

/-!
# Row limits

A limit is a number after a word of rank or order. Only an ASCII numeral from 1 to `2 ^ 64 - 1` is a
limit, and `first` or `last` with a number and a unit of time is a span of time and no limit.

* `count?_pos` : a limit is at least one.
-/

namespace TextToSql.Lexicon

open Pattern

/-- The number of rows that a captured numeral asks for. -/
def count? (digits : String) : Option Nat :=
  (Text.numeral? digits.toList).filter fun n => 0 < n && n < UInt64.size

/-- A limit is at least one. -/
theorem count?_pos (digits : String) (n : Nat) (h : count? digits = some n) : 0 < n := by
  have hn := (Option.filter_eq_some_iff.mp h).2
  simp only [Bool.and_eq_true, decide_eq_true_eq] at hn
  exact hn.1

/-- The units of time that make a number after `first` or `last` a span of time. -/
def timeUnits : List String :=
  ["day", "days", "week", "weeks", "month", "months", "quarter", "quarters", "year", "years"]

/-- A cue word with a number as a whole word after it. -/
def counted (cue : String) : Pattern :=
  boundary ++ lit cue ++ spaces ++ capture digits ++ boundary

/-- The limit of a captured numeral. -/
def plainCount : Unit → List String → Option Nat
  | _, [digits] => count? digits
  | _, _ => none

/-- The limit of a captured numeral that no unit of time follows. -/
def countWithoutUnit : Unit → List String → Option Nat
  | _, [digits] => count? digits
  | _, [digits, unit] => if timeUnits.contains unit then none else count? digits
  | _, _ => none

/-- A limit after a cue word. -/
def limitRule (cue : String) : Rule Unit Nat := ⟨cue, counted cue, plainCount⟩

/-- A limit after `first` or `last`, with the word after the number. -/
def spanRule (cue : String) : Rule Unit Nat :=
  ⟨cue, counted cue ++ optional (spaces ++ capture word), countWithoutUnit⟩

/-- The rules for row limits. -/
def limitRules : RuleSet Unit Nat where
  rules := [limitRule "limit", limitRule "top", spanRule "first", limitRule "bottom",
    spanRule "last", limitRule "highest", limitRule "lowest", limitRule "best", limitRule "worst"]

end TextToSql.Lexicon
