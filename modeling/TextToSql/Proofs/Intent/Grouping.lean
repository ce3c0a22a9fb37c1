import TextToSql.Intent.Grouping
import TextToSql.Plan
import TextToSql.Proofs.Intent.Projection
import TextToSql.Proofs.Intent.Selection
import TextToSql.Proofs.Pattern.Captures
import TextToSql.Proofs.Sql.Pieces

/-!
# What groups and conditions on groups can say

A statement is grouped by columns of its tables and by spans of the order date. A condition on groups
compares a column or an aggregate of a column with a number.

* `groupKey_of_mem_groupsOf`, `groupKey_of_mem_statementGroups` : the two forms of group keys;
* `groupCondition_of_mem_atoms` : the form of conditions on groups.
-/

namespace TextToSql.Intent

open Sql Pattern Lexicon Unicode

/-! ## Keys of groups -/

/-- The keys that the rows of a question are grouped by. -/
inductive GroupKey (s : Selection) : Expr → Prop
  | column (ref : ColumnRef) (href : s.Offers ref) : GroupKey s (.column ref)
  | grain (grain : TimeGrain) (horders : s.has "orders") :
      GroupKey s (.truncated grain (.of "orders" "order_date"))

/-- A plain item of a projection is a column. -/
theorem groupKey_of_isPlain (s : Selection) (item : SelectItem) (h : ProjectedItem s item)
    (hplain : isPlain item) : GroupKey s item.expr := by
  cases h with
  | column ref href => exact .column ref href
  | metric m hm => cases hplain
  | aggregate function distinct ref href => cases hplain
  | countAll => cases hplain
  | tableStar first rest htables => cases hplain
  | star htables => cases hplain

/-- The candidates of a table are columns of it. -/
theorem groupKey_of_mem_groupColumns (s : Selection) (items : List SelectItem) (table : String)
    (htable : table ∈ s.tables) (key : Expr) (h : key ∈ groupColumns s items table) :
    GroupKey s key := by
  obtain ⟨c, hc, rfl⟩ := List.mem_map.mp h
  have hcolumn := (List.mem_filter.mp hc).2
  rw [Bool.and_eq_true] at hcolumn
  have hmem := s.schema.mem_columns_of_hasColumn table c hcolumn.1
  exact .column (.of table c) ⟨table, htable, c, hmem, rfl⟩

/-- The groups of a question with a projection are columns and spans of the order date. -/
theorem groupKey_of_mem_groupsOf (s : Selection) (items : List SelectItem)
    (hitems : ∀ item ∈ items, ProjectedItem s item) (key : Expr) (h : key ∈ groupsOf s items) :
    GroupKey s key := by
  unfold groupsOf at h
  dsimp only at h
  split at h
  · cases h
  · split at h
    · split at h
      · rw [mem_foldl_addNew] at h
        rcases h with h | h
        · cases h
        · obtain ⟨item, hitem, rfl⟩ := List.mem_map.mp h
          obtain ⟨hmem, hplain⟩ := List.mem_filter.mp hitem
          exact groupKey_of_isPlain s item (hitems item hmem) hplain
      · cases h
    · rw [mem_foldl_addNew, List.mem_append] at h
      rcases h with h | h | h
      · cases h
      · obtain ⟨table, htable, hkey⟩ := List.mem_flatMap.mp h
        exact groupKey_of_mem_groupColumns s items table htable key hkey
      · unfold groupGrains at h
        split at h
        · next horders =>
            obtain ⟨grain, _, rfl⟩ := List.mem_map.mp h
            exact .grain grain horders
        · cases h

/-- The groups of the statement of a question are columns and spans of the order date. -/
theorem groupKey_of_mem_statementGroups (schema : Schema) (text : String) (key : Expr)
    (h : key ∈ (ofText schema text).statementGroups) :
    GroupKey ⟨schema, tablesOf schema text, text⟩ key := by
  have hitems := projectedItem_of_mem ⟨schema, tablesOf schema text, text⟩
  unfold statementGroups at h
  split at h
  · obtain ⟨item, hitem, rfl⟩ := List.mem_map.mp h
    obtain ⟨hmem, hplain⟩ := List.mem_filter.mp hitem
    exact groupKey_of_isPlain _ item (hitems item hmem) hplain
  · exact groupKey_of_mem_groupsOf _ _ hitems key h

/-! ## Conditions on groups -/

/-- The columns that are counted for a noun. -/
def countedColumns : List ColumnRef := [.of "orders" "order_id", .of "order_items" "item_id"]

/-- The conditions on the groups of a question: a column or an aggregate of a column is compared with a
number in decimal digits. -/
inductive GroupCondition (schema : Schema) : Condition → Prop
  | column (ref : ColumnRef) (op : Comparison) (number : String) (href : schema.Declares ref)
      (hnumber : IsRun .digit number.toList) :
      GroupCondition schema (.compare (.column ref) op (.number number))
  | aggregate (function : Aggregate) (ref : ColumnRef) (op : Comparison) (number : String)
      (href : schema.Declares ref ∨ ref ∈ countedColumns) (hnumber : IsRun .digit number.toList) :
      GroupCondition schema (.compare (.aggregated function (.column ref)) op (.number number))

/-- The column that is counted for a noun is one of two. -/
theorem countedColumn?_eq_some (noun : String) (e : Expr) (h : countedColumn? noun = some e) :
    ∃ ref ∈ countedColumns, e = .column ref := by
  unfold countedColumn? at h
  split at h <;> cases h <;> simp [countedColumns, Expr.of]

/-- A threshold for a term is a condition on groups. -/
theorem groupCondition_of_having (name cue : String) (texts : List String) (s : Selection)
    (c : Condition) (h : Rule.Gives ⟨name, lit cue ++ spaces ++ capture word ++ spaces
      ++ capture (oneOf texts) ++ spaces ++ capture digits, havingCondition⟩ s c) :
    GroupCondition s.schema c := by
  obtain ⟨cs, hcs, haction⟩ := h
  obtain ⟨term, _, op, _, number, hnumber, rfl⟩ :
      ∃ term, word.Takes term ∧ ∃ op, (oneOf texts).Takes op
        ∧ ∃ number, digits.Takes number ∧ [term, op, number] = cs := by
    simpa using hcs
  simp only [List.map_cons, List.map_nil, havingCondition, Option.bind_eq_bind,
    Option.bind_eq_some_iff] at haction
  obtain ⟨op, _, ref, href, hc⟩ := haction
  have hdeclares := s.schema.columnLike?_declares _ ref href
  have hdigits : IsRun .digit (String.ofList number).toList := by
    rw [String.toList_ofList]
    exact isRun_of_takes_run .digit number hnumber
  cases hc
  split
  · next function _ => exact .aggregate function ref op _ (Or.inl hdeclares) hdigits
  · exact .column ref op _ hdeclares hdigits

/-- A threshold for the number of things that a noun stands for is a condition on groups. -/
theorem groupCondition_of_count (name cue : String) (texts : List String) (s : Selection)
    (c : Condition) (h : Rule.Gives ⟨name, lit cue ++ spaces ++ capture (oneOf texts) ++ spaces
      ++ capture digits ++ spaces ++ capture word, countCondition⟩ s c) :
    GroupCondition s.schema c := by
  obtain ⟨cs, hcs, haction⟩ := h
  obtain ⟨op, _, number, hnumber, noun, _, rfl⟩ :
      ∃ op, (oneOf texts).Takes op ∧ ∃ number, digits.Takes number
        ∧ ∃ noun, word.Takes noun ∧ [op, number, noun] = cs := by
    simpa using hcs
  simp only [List.map_cons, List.map_nil, countCondition, Option.bind_eq_bind,
    Option.bind_eq_some_iff] at haction
  obtain ⟨op, _, column, hcolumn, hc⟩ := haction
  obtain ⟨ref, href, rfl⟩ := countedColumn?_eq_some _ column hcolumn
  cases hc
  refine .aggregate .count ref op _ (Or.inr href) ?_
  rw [String.toList_ofList]
  exact isRun_of_takes_run .digit number hnumber

/-- A threshold for the total or the average of a term is a condition on groups. -/
theorem groupCondition_of_aggregateRule (name text : String) (function : Aggregate) (s : Selection)
    (c : Condition) (h : (aggregateRule name text function).Gives s c) :
    GroupCondition s.schema c := by
  obtain ⟨cs, hcs, haction⟩ := h
  obtain ⟨term, _, op, _, number, hnumber, rfl⟩ :
      ∃ term, word.Takes term ∧ ∃ op, (oneOf ["greater than", "less than"]).Takes op
        ∧ ∃ number, digits.Takes number ∧ [term, op, number] = cs := by
    simpa [aggregateRule] using hcs
  simp only [aggregateRule, List.map_cons, List.map_nil, aggregateCondition, Option.bind_eq_bind,
    Option.bind_eq_some_iff] at haction
  obtain ⟨ref, href, op, _, hc⟩ := haction
  cases hc
  refine .aggregate function ref op _ (Or.inl (s.schema.columnLike?_declares _ ref href)) ?_
  rw [String.toList_ofList]
  exact isRun_of_takes_run .digit number hnumber

/-- The rules for conditions on groups make conditions on groups. -/
theorem groupCondition_of_havingRules (s : Selection) (c : Condition)
    (rule : Rule Selection Condition) (hrule : rule ∈ havingRules.rules) (h : rule.Gives s c) :
    GroupCondition s.schema c := by
  simp only [havingRules, List.mem_cons, List.not_mem_nil, or_false] at hrule
  rcases hrule with rfl | rfl | rfl | rfl | rfl
  · exact groupCondition_of_having _ _ _ s c h
  · exact groupCondition_of_aggregateRule _ _ _ s c h
  · exact groupCondition_of_aggregateRule _ _ _ s c h
  · exact groupCondition_of_count _ _ _ s c h
  · obtain ⟨cs, hcs, haction⟩ := h
    obtain ⟨number, hnumber, rfl⟩ : ∃ number, digits.Takes number ∧ [number] = cs := by
      simpa using hcs
    cases haction
    refine .aggregate .count _ .greater _ (Or.inr List.mem_cons_self) ?_
    rw [String.toList_ofList]
    exact isRun_of_takes_run .digit number hnumber

/-- **Every condition on groups has the form of one.** -/
theorem groupCondition_of_mem_atoms (s : Selection) (groups : List Expr) (p : Predicate)
    (h : havingOf s groups = some p) (c : Condition) (hc : c ∈ p.atoms) :
    GroupCondition s.schema c := by
  unfold havingOf at h
  split at h
  · cases h
  · rw [Predicate.atoms_conjoin_map _ p h, mem_foldl_addNew] at hc
    rcases hc with hc | hc
    · cases hc
    · obtain ⟨rule, hrule, hgives⟩ := RuleSet.mem_all _ _ _ c hc
      exact groupCondition_of_havingRules s c rule hrule hgives

end TextToSql.Intent
