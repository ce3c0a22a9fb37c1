import TextToSql.Pattern.Scan

/-!
# Rules

A rule turns the matches of a pattern into values; its action may decline a match. The order of the
rules in a set is their precedence.
-/

namespace TextToSql

/-- A pattern with an action, which makes a value of the captured parts of a match in a context, or
declines the match. -/
structure Rule (κ α : Type) where
  name : String
  pattern : Pattern
  action : κ → List String → Option α

/-- A rule whose every match has the same value. -/
def Rule.always {κ α : Type} (name : String) (pattern : Pattern) (value : α) : Rule κ α :=
  ⟨name, pattern, fun _ _ => some value⟩

/-- The values of a rule on a text, in text order. -/
def Rule.all {κ α : Type} (rule : Rule κ α) (context : κ) (text : String) : List α :=
  (rule.pattern.matchesIn text).filterMap fun m => rule.action context m.captures

/-- The first value of a rule on a text. -/
def Rule.first? {κ α : Type} (rule : Rule κ α) (context : κ) (text : String) : Option α :=
  (rule.pattern.matchesIn text).findSome? fun m => rule.action context m.captures

/-- Rules in the order of their precedence. -/
structure RuleSet (κ α : Type) where
  rules : List (Rule κ α)

namespace RuleSet

variable {κ α : Type}

/-- The value of the first rule that has one. -/
def first? (set : RuleSet κ α) (context : κ) (text : String) : Option α :=
  set.rules.findSome? fun rule => rule.first? context text

/-- The values of all rules: in the order of the rules, then of the text. -/
def all (set : RuleSet κ α) (context : κ) (text : String) : List α :=
  set.rules.flatMap fun rule => rule.all context text

/-- The first value of each rule that has one, in the order of the rules. -/
def firsts (set : RuleSet κ α) (context : κ) (text : String) : List α :=
  set.rules.filterMap fun rule => rule.first? context text

/-- Whether the pattern of some rule occurs in a text, even where its action declines. -/
def occursIn (set : RuleSet κ α) (text : String) : Bool :=
  set.rules.any fun rule => rule.pattern.occursIn text

end RuleSet

end TextToSql
