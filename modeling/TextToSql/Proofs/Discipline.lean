import TextToSql.Proofs.Intent.Filter
import TextToSql.Proofs.Intent.Grouping
import TextToSql.Proofs.Intent.Plain
import TextToSql.Proofs.JoinPlan

/-!
# The discipline of the clauses

What the clauses of an intent, and of the statement that is built from it, have in common for every
question: nothing is nested, nothing is repeated, and each clause has only the kinds of pieces that belong
there.

* `filterOf_flat`, `havingOf_flat` : conditions are single or different members of one conjunction;
* `nodup_statementGroups` : no group is repeated, also where the statement adds the groups;
* `ofText_disciplined` : the clauses of an intent and of its statement.
-/

namespace TextToSql

open Sql

namespace Sql

/-- A predicate is a single condition, or the conjunction of at least two different ones. -/
inductive Predicate.Flat : Predicate → List Condition → Prop
  | single (c : Condition) : Flat (.atom c) [c]
  | all (cs : List Condition) (hlength : 2 ≤ cs.length) (hnodup : cs.Nodup) :
      Flat (.all (cs.map .atom)) cs

/-- Whether a condition is a fragment supplied by the caller. -/
def Condition.isFragment : Condition → Bool
  | .fragment _ => true
  | _ => false

/-- Whether a condition compares an aggregate. -/
def Condition.hasAggregate : Condition → Bool
  | .compare left _ right => left.isAggregate || right.isAggregate
  | _ => false

end Sql

/-- The clauses that an intent and a statement share. -/
structure Clauses where
  projection : List SelectItem
  filter : Option Predicate
  groupBy : List Expr
  having : Option Predicate
  orderBy : List OrderKey
  limit : Option Nat

/-- The clauses of an intent. -/
def Intent.clauses (intent : Intent) : Clauses :=
  ⟨intent.columns, intent.filter, intent.groupBy, intent.having, intent.orderBy, intent.limit⟩

/-- The clauses of a statement. -/
def Sql.SelectStatement.clauses (s : SelectStatement) : Clauses :=
  ⟨s.projection, s.filter, s.groupBy, s.having, s.orderBy, s.limit⟩

/-- What the clauses for a question to a schema keep to. -/
structure Clauses.Disciplined (schema : Schema) (clauses : Clauses) : Prop where
  projection_ne_nil : clauses.projection ≠ []
  star_alone : ∀ item ∈ clauses.projection, item.expr.isStar → clauses.projection = [item]
  filter_flat : ∀ p ∈ clauses.filter, ∃ cs, p.Flat cs ∧ (∀ c ∈ cs, c.hasAggregate = false)
    ∧ (∀ c ∈ cs.tail, c.isFragment = false)
    ∧ ∀ sql, cs.head? = some (.fragment sql) → ∃ phrase ∈ schema.timePhrases, phrase.sql = sql
  groupBy_nodup : clauses.groupBy.Nodup
  groupBy_keys : ∀ key ∈ clauses.groupBy,
    (∃ ref, key = .column ref) ∨ ∃ grain ref, key = .truncated grain ref
  having_flat : ∀ p ∈ clauses.having, clauses.groupBy ≠ [] ∧ ∃ cs, p.Flat cs
    ∧ ∀ c ∈ cs, ∃ left op number, c = .compare left op (.number number)
      ∧ ((∃ ref, left = .column ref)
        ∨ ∃ function distinct ref, left = .aggregate function distinct (.column ref))
  orderBy_length : clauses.orderBy.length ≤ 1
  limit_pos : ∀ n ∈ clauses.limit, 1 ≤ n

namespace Intent

open Lexicon

/-! ## Conjunctions -/

/-- The conjunction of different conditions is flat. -/
theorem flat_conjunction (cs : List Condition) (hcs : cs.Nodup) (p : Predicate)
    (h : conjunction cs = some p) : p.Flat cs := by
  unfold conjunction at h
  match cs with
  | [] => cases h
  | [c] =>
      cases h
      exact .single c
  | c :: c' :: cs =>
      cases h
      exact .all (c :: c' :: cs) (by simp) hcs

/-! ## Fragments -/

/-- A comparison of an amount is no fragment. -/
theorem isFragment_of_amountCondition (s : Selection) (captures : List String) (c : Condition)
    (h : amountCondition s captures = some c) : c.isFragment = false := by
  unfold amountCondition at h
  split at h
  · split at h
    · obtain ⟨op, _, rfl⟩ := Option.map_eq_some_iff.mp h
      rfl
    · cases h
  · cases h

/-- A comparison of a column is no fragment. -/
theorem isFragment_of_comparisonCondition (op : Comparison) (s : Selection) (captures : List String)
    (c : Condition) (h : comparisonCondition op s captures = some c) : c.isFragment = false := by
  unfold comparisonCondition at h
  split at h
  · simp only [Option.bind_eq_bind, Option.bind_eq_some_iff] at h
    obtain ⟨ref, _, h⟩ := h
    split at h
    · cases h
    · cases h
      rfl
  · cases h

/-- A range of dates is no fragment. -/
theorem isFragment_of_dateCondition (s : Selection) (captures : List String) (c : Condition)
    (h : dateCondition s captures = some c) : c.isFragment = false := by
  unfold dateCondition at h
  split at h
  · obtain ⟨ref, _, rfl⟩ := Option.map_eq_some_iff.mp h
    rfl
  · cases h

/-- A search for a substring is no fragment. -/
theorem isFragment_of_substringCondition (s : Selection) (captures : List String) (c : Condition)
    (h : substringCondition s captures = some c) : c.isFragment = false := by
  unfold substringCondition at h
  split at h
  · obtain ⟨ref, _, rfl⟩ := Option.map_eq_some_iff.mp h
    rfl
  · cases h

/-- A comparison of a status is no fragment. -/
theorem isFragment_of_statusCondition (s : Selection) (captures : List String) (c : Condition)
    (h : statusCondition s captures = some c) : c.isFragment = false := by
  unfold statusCondition at h
  split at h
  · cases h
  · simp only [Option.bind_eq_bind, Option.bind_eq_some_iff] at h
    obtain ⟨word, _, status, _, h⟩ := h
    cases h
    rfl

/-- The conditions of the rules are no fragments. -/
theorem isFragment_of_rules (s : Selection) (c : Condition)
    (h : c ∈ amountRules.all s s.text ++ comparisonRules.all s s.text ++ dateRules.all s s.text
      ++ substringRules.all s s.text ++ statusRules.all s s.text) : c.isFragment = false := by
  have hcomparison : ∀ rule ∈ comparisonRules.rules, ∃ op, rule.action = comparisonCondition op := by
    simp [comparisonRules, wordRule, numberRule]
  have hdate : ∀ rule ∈ dateRules.rules, rule.action = dateCondition := by simp [dateRules]
  have hsubstring : ∀ rule ∈ substringRules.rules, rule.action = substringCondition := by
    simp [substringRules]
  have hstatus : ∀ rule ∈ statusRules.rules, rule.action = statusCondition := by simp [statusRules]
  simp only [List.mem_append] at h
  rcases h with (((h | h) | h) | h) | h <;>
    obtain ⟨rule, hrule, captures, -, haction⟩ := RuleSet.mem_all _ _ _ c h
  · obtain rfl := List.mem_singleton.mp hrule
    exact isFragment_of_amountCondition s _ c haction
  · obtain ⟨op, hop⟩ := hcomparison rule hrule
    rw [hop] at haction
    exact isFragment_of_comparisonCondition op s _ c haction
  · rw [hdate rule hrule] at haction
    exact isFragment_of_dateCondition s _ c haction
  · rw [hsubstring rule hrule] at haction
    exact isFragment_of_substringCondition s _ c haction
  · rw [hstatus rule hrule] at haction
    exact isFragment_of_statusCondition s _ c haction

/-- There is at most one condition of a time phrase. -/
theorem timeConditions_cases (s : Selection) :
    timeConditions s = [] ∨ ∃ c, timeConditions s = [c] := by
  unfold timeConditions
  split
  · cases s.schema.mentionedTime? s.text with
    | none => exact Or.inl rfl
    | some phrase => exact Or.inr ⟨_, rfl⟩
  · exact Or.inl rfl

/-- The gathered conditions are distinct. -/
theorem nodup_rowConditions (s : Selection) : (rowConditions s).Nodup := by
  refine nodup_foldl_addNew _ _ ?_
  rcases timeConditions_cases s with heq | ⟨c, heq⟩
  · rw [heq]
    exact List.nodup_nil
  · rw [heq]
    exact List.nodup_singleton c

/-- Among the gathered conditions, only the first one can be a fragment. -/
theorem isFragment_of_mem_tail (s : Selection) (c : Condition) (h : c ∈ (rowConditions s).tail) :
    c.isFragment = false := by
  obtain ⟨more, heq, hmore⟩ := foldl_addNew_eq (timeConditions s)
    (amountRules.all s s.text ++ comparisonRules.all s s.text ++ dateRules.all s s.text
      ++ substringRules.all s s.text ++ statusRules.all s s.text)
  refine isFragment_of_rules s c (hmore c ?_)
  rw [rowConditions, heq] at h
  rcases timeConditions_cases s with htime | ⟨t, htime⟩
  · rw [htime, List.nil_append] at h
    exact List.mem_of_mem_tail h
  · rwa [htime] at h

/-- A condition on rows has no aggregate. -/
theorem RowCondition.hasAggregate {s : Selection} {c : Condition} (h : RowCondition s c) :
    c.hasAggregate = false := by
  cases h with
  | amount op number horders hnumber => rfl
  | comparison ref op value href hvalue =>
      unfold literal
      split <;> rfl
  | dates ref first last href hfirst hlast => rfl
  | substring ref needle href hneedle => rfl
  | status value horders hvalue => rfl
  | time phrase horders hphrase => rfl

/-! ## The clauses one by one -/

/-- **A filter is flat**, and only its first condition can be a fragment. -/
theorem filterOf_flat (s : Selection) (p : Predicate) (h : filterOf s = some p) :
    ∃ cs, p.Flat cs ∧ (∀ c ∈ cs, RowCondition s c) ∧ ∀ c ∈ cs.tail, c.isFragment = false := by
  have hrow := rowCondition_of_mem_atoms s p h
  unfold filterOf at h
  split at h
  · cases h
  · split at h
    · next condition _ =>
        cases h
        exact ⟨[condition], .single condition, hrow, by simp⟩
    · refine ⟨rowConditions s, flat_conjunction _ (nodup_rowConditions s) p h, ?_,
        isFragment_of_mem_tail s⟩
      rwa [Predicate.atoms_conjoin_map _ p h] at hrow

/-- **A condition on groups is flat.** -/
theorem havingOf_flat (s : Selection) (groups : List Expr) (p : Predicate)
    (h : havingOf s groups = some p) :
    groups ≠ [] ∧ ∃ cs, p.Flat cs ∧ ∀ c ∈ cs, GroupCondition s.schema c := by
  have hgroup := groupCondition_of_mem_atoms s groups p h
  unfold havingOf at h
  split at h
  · cases h
  · next hgroups =>
      have hnodup := nodup_foldl_addNew [] (havingRules.all s s.text) List.nodup_nil
      refine ⟨by simpa using hgroups, _, flat_conjunction _ hnodup p h, ?_⟩
      rwa [Predicate.atoms_conjoin_map _ p h] at hgroup

/-- The groups of a question are distinct. -/
theorem nodup_groupsOf (s : Selection) (items : List SelectItem) : (groupsOf s items).Nodup := by
  unfold groupsOf
  dsimp only
  split
  · exact List.nodup_nil
  · split
    · split
      · exact nodup_foldl_addNew [] _ List.nodup_nil
      · exact List.nodup_nil
    · exact nodup_foldl_addNew [] _ List.nodup_nil

/-- The groups of the statement of a question are distinct: those that the statement adds are different
columns of different tables. -/
theorem nodup_statementGroups (schema : Schema) (hschema : schema.Built) (text : String) :
    (ofText schema text).statementGroups.Nodup := by
  unfold statementGroups
  split
  · exact nodup_plain ⟨schema, tablesOf schema text, text⟩ hschema (nodup_tablesOf schema text)
  · exact nodup_groupsOf _ _

/-- A question has at most one sort key. -/
theorem length_orderOf (s : Selection) : (orderOf s).length ≤ 1 := by
  unfold orderOf
  dsimp only
  split
  · exact Nat.le_refl 1
  · split
    · exact Option.length_toList_le
    · exact Nat.zero_le 1

/-- A limit is at least one. -/
theorem limitOf_pos (s : Selection) (n : Nat) (h : limitOf s = some n) : 1 ≤ n := by
  have hplain : ∀ captures, plainCount () captures = some n → 1 ≤ n := by
    intro captures hcount
    unfold plainCount at hcount
    split at hcount
    · exact count?_pos _ n hcount
    · cases hcount
  have hspan : ∀ captures, countWithoutUnit () captures = some n → 1 ≤ n := by
    intro captures hcount
    unfold countWithoutUnit at hcount
    split at hcount
    · exact count?_pos _ n hcount
    · split at hcount
      · cases hcount
      · exact count?_pos _ n hcount
    · cases hcount
  have hactions : ∀ rule ∈ limitRules.rules,
      rule.action = plainCount ∨ rule.action = countWithoutUnit := by
    simp [limitRules, limitRule, spanRule]
  obtain ⟨rule, hrule, captures, -, haction⟩ := RuleSet.first?_eq_some _ _ _ n h
  rcases hactions rule hrule with heq | heq
  · rw [heq] at haction
    exact hplain _ haction
  · rw [heq] at haction
    exact hspan _ haction

/-! ## All clauses -/

/-- The clauses of a question are disciplined with any groups that are distinct keys and are there where the
question has groups. -/
theorem disciplined_of_groups (schema : Schema) (text : String) (groups : List Expr)
    (hnodup : groups.Nodup) (hkeys : ∀ key ∈ groups, GroupKey ⟨schema, tablesOf schema text, text⟩ key)
    (hgroups : (ofText schema text).groupBy ≠ [] → groups ≠ []) :
    ({ (ofText schema text).clauses with groupBy := groups } : Clauses).Disciplined schema where
  projection_ne_nil := projectionOf_ne_nil ⟨schema, tablesOf schema text, text⟩
  star_alone := isStar_alone ⟨schema, tablesOf schema text, text⟩
  filter_flat := by
    intro p hp
    obtain ⟨cs, hflat, hrow, htail⟩ := filterOf_flat ⟨schema, tablesOf schema text, text⟩ p hp
    refine ⟨cs, hflat, fun c hc => (hrow c hc).hasAggregate, htail, ?_⟩
    intro sql hhead
    cases hrow _ (List.mem_of_head? hhead) with
    | time phrase _ hphrase => exact ⟨phrase, hphrase, rfl⟩
  groupBy_nodup := hnodup
  groupBy_keys := by
    intro key hkey
    cases hkeys key hkey with
    | column ref _ => exact Or.inl ⟨ref, rfl⟩
    | grain grain _ => exact Or.inr ⟨grain, _, rfl⟩
  having_flat := by
    intro p hp
    obtain ⟨hne, cs, hflat, hcs⟩ := havingOf_flat ⟨schema, tablesOf schema text, text⟩ _ p hp
    refine ⟨hgroups hne, cs, hflat, ?_⟩
    intro c hc
    cases hcs c hc with
    | column ref op number _ _ => exact ⟨_, op, number, rfl, Or.inl ⟨ref, rfl⟩⟩
    | aggregate function ref op number _ _ =>
        exact ⟨_, op, number, rfl, Or.inr ⟨function, false, ref, rfl⟩⟩
  orderBy_length := length_orderOf ⟨schema, tablesOf schema text, text⟩
  limit_pos := limitOf_pos ⟨schema, tablesOf schema text, text⟩

/-- **Discipline.** The clauses of the intent of any question to a schema that can come about are
disciplined, and so are those of its statement. -/
theorem ofText_disciplined (schema : Schema) (hschema : schema.Built) (text : String) :
    (ofText schema text).clauses.Disciplined schema
      ∧ ∀ s, (ofText schema text).statement = .ok s → s.clauses.Disciplined schema := by
  have hitems := projectedItem_of_mem ⟨schema, tablesOf schema text, text⟩
  constructor
  · exact disciplined_of_groups schema text (ofText schema text).groupBy (nodup_groupsOf _ _)
      (groupKey_of_mem_groupsOf _ _ hitems) id
  · intro s hs
    obtain ⟨first, rest, _, rfl⟩ := exists_eq_statementFor _ s hs
    refine disciplined_of_groups schema text (ofText schema text).statementGroups
      (nodup_statementGroups schema hschema text) (groupKey_of_mem_statementGroups schema text) ?_
    intro hgroups
    have hnot : (ofText schema text).groupBy.isEmpty = false := List.isEmpty_eq_false_iff.mpr hgroups
    rwa [statementGroups, hnot, Bool.false_and, if_neg Bool.false_ne_true]

/-- A request with a question that fills every clause. -/
def everyClause : Request where
  query := "sum price of orders today by status having price > 5 top 3"
  schema := [[("orders", .array [.string "status", .string "price"])]]
  relationships := []
  tableAliases := []
  columnAliases := []
  businessMetrics := []
  timePeriods := none

/-- Its statement has three conditions on rows, a group with a condition on it, an order and a limit. -/
theorem ofText_disciplined_everyClause :
    (Schema.ofRequest everyClause).Built
      ∧ ∃ s, (ofText (Schema.ofRequest everyClause) everyClause.query).statement = .ok s
        ∧ (∃ p ∈ s.filter, p.atoms.length = 3) ∧ s.groupBy.length = 1 ∧ s.having.isSome
        ∧ s.orderBy.length = 1 ∧ s.limit = some 3
        ∧ s.clauses.Disciplined (Schema.ofRequest everyClause) := by
  have hbuilt := Schema.Built.ofRequest everyClause
  have hdisciplined := (ofText_disciplined _ hbuilt everyClause.query).2
  have hshape : let intent := ofText (Schema.ofRequest everyClause) everyClause.query
      (intent.tables, intent.filter.map fun p => p.atoms.length) = (["orders"], some 3)
        ∧ (intent.statementGroups.length, intent.having.isSome) = (1, true)
        ∧ (intent.orderBy.length, intent.limit) = (1, some 3) := by decide +kernel
  generalize ofText (Schema.ofRequest everyClause) everyClause.query = intent at hshape hdisciplined ⊢
  simp only [Prod.mk.injEq] at hshape
  obtain ⟨⟨htables, hfilter⟩, ⟨hgroups, hhaving⟩, horder, hlimit⟩ := hshape
  have hs := intent.statement_eq "orders" [] htables
  refine ⟨hbuilt, _, hs, ?_, hgroups, hhaving, horder, hlimit, hdisciplined _ hs⟩
  obtain ⟨p, hp, hlength⟩ := Option.map_eq_some_iff.mp hfilter
  exact ⟨p, hp, hlength⟩

end Intent

end TextToSql
