import TextToSql.Proofs.Intent.Grouping
import TextToSql.Proofs.Intent.Plain
import TextToSql.Proofs.JoinPlan

/-!
# Which projected columns are grouped

A statement that sums up rows is grouped by what its question suggests: columns worth grouping by, and
spans of the order date. Only a question that suggests none is grouped by whatever it projects. So a
projected column that is not worth grouping by can stay outside the groups, and a projected column that is
cannot.

* `mem_statementGroups_of_suggestions` : the groups are the suggested ones where there are any;
* `covers_of_suggestions_eq_nil` : all projected columns are grouped where there are none;
* `statement_coverage` : what holds of the projection of a statement that sums up rows.
-/

namespace TextToSql

open Sql

namespace Sql

/-- Whether a statement sums up rows: it projects an aggregate or a metric, or it has groups. -/
def SelectStatement.SumsUp (s : SelectStatement) : Prop :=
  (∃ item ∈ s.projection, item.expr.isAggregate ∨ item.expr.isFragment) ∨ s.groupBy ≠ []

/-- Whether all columns that a statement projects are among its groups, and it projects no star. -/
def SelectStatement.CoversProjection (s : SelectStatement) : Prop :=
  ∀ item ∈ s.projection,
    item.expr.isStar = false ∧ ∀ ref, item.expr = .column ref → .column ref ∈ s.groupBy

end Sql

namespace Intent

open Lexicon

/-- The keys that a question with the given projection suggests to group by: where it has a cue for groups
or aggregates, the columns worth grouping by and the spans of time that it mentions. -/
def suggestions (s : Selection) (items : List SelectItem) : List Expr :=
  if groupingCue.occursIn s.text || aggregationCue.occursIn s.text then
    s.tables.flatMap (groupColumns s items) ++ groupGrains s
  else []

/-! ## The groups of a question -/

/-- A question is grouped by what it suggests. -/
theorem groupsOf_eq (s : Selection) (items : List SelectItem) (h : suggestions s items ≠ []) :
    groupsOf s items = (suggestions s items).foldl addNew [] := by
  unfold suggestions at h ⊢
  unfold groupsOf
  dsimp only
  split at h
  · next hcue =>
      have hcue' : (!groupingCue.occursIn s.text && !aggregationCue.occursIn s.text) = false := by
        rw [← Bool.not_or, hcue]
        rfl
      rw [hcue', if_neg Bool.false_ne_true, if_pos hcue]
      obtain ⟨key, hkey⟩ := List.exists_mem_of_ne_nil _ h
      split
      · next hnil =>
          have hmem := (mem_foldl_addNew [] _ key).mpr (Or.inr hkey)
          rw [hnil] at hmem
          cases hmem
      · rfl
  · exact absurd rfl h

/-- A question that suggests nothing is not grouped, or by the plain items that it projects. -/
theorem groupsOf_cases (s : Selection) (items : List SelectItem) (h : suggestions s items = []) :
    groupsOf s items = [] ∨ groupsOf s items = (plainExprs items).foldl addNew [] := by
  unfold suggestions at h
  unfold groupsOf
  dsimp only
  split
  · exact Or.inl rfl
  · next hcue =>
      rw [← Bool.not_or, Bool.not_eq_true, Bool.not_eq_false'] at hcue
      rw [if_pos hcue] at h
      rw [h]
      dsimp only [List.foldl_nil]
      split
      · exact Or.inr rfl
      · exact Or.inl rfl

/-! ## Stars -/

/-- A question that mentions a column has items for its columns and aggregates. -/
theorem columnItems_ne_nil (functions : List Aggregate) (s : Selection) (h : mentionedColumns s ≠ []) :
    columnItems functions s ≠ [] := by
  have hfold : ∀ items : List SelectItem, items ≠ [] →
      functions.foldl (fun items function => items.map (wrap function)) items ≠ [] := by
    induction functions with
    | nil => exact fun items hitems => hitems
    | cons function functions ih =>
        intro items hitems
        exact ih _ (by simpa using hitems)
  unfold columnItems
  split
  · next hnil => exact absurd hnil h
  · exact hfold _ (by simpa using h)

/-- A question that mentions a column projects no star. -/
theorem isStar_of_mentionedColumns (s : Selection) (h : mentionedColumns s ≠ []) (item : SelectItem)
    (hitem : item ∈ projectionOf s) : item.expr.isStar = false := by
  unfold projectionOf at hitem
  split at hitem
  · next htables => exact absurd (by simp [mentionedColumns, htables]) h
  · dsimp only at hitem
    split at hitem
    · next hempty =>
        have hnil := (List.append_eq_nil_iff.mp (List.isEmpty_iff.mp hempty)).2
        exact absurd hnil (columnItems_ne_nil _ s h)
    · rcases List.mem_append.mp hitem with hitem | hitem
      · obtain ⟨m, _, rfl⟩ := List.mem_map.mp hitem
        rfl
      · exact isStar_of_mem_columnItems _ s item hitem

/-- Beside a star, only spans of time are suggested: a column worth grouping by would be projected. -/
theorem suggestions_of_isStar (s : Selection) (item : SelectItem) (hitem : item ∈ projectionOf s)
    (hstar : item.expr.isStar) (key : Expr) (hkey : key ∈ suggestions s (projectionOf s)) :
    ∃ grain, key = .truncated grain (.of "orders" "order_date") := by
  unfold suggestions at hkey
  split at hkey
  · rcases List.mem_append.mp hkey with hkey | hkey
    · obtain ⟨table, htable, hkey⟩ := List.mem_flatMap.mp hkey
      obtain ⟨c, hc, rfl⟩ := List.mem_map.mp hkey
      have hchosen := (List.mem_filter.mp hc).2
      rw [Bool.and_eq_true, Bool.or_eq_true] at hchosen
      obtain ⟨hcolumn, hchosen⟩ := hchosen
      exfalso
      rcases hchosen with hprojected | hmentioned
      · rw [isStar_alone s item hitem hstar, List.any_eq_true] at hprojected
        obtain ⟨item', hitem', heq⟩ := hprojected
        obtain rfl := List.mem_singleton.mp hitem'
        rw [of_decide_eq_true heq] at hstar
        cases hstar
      · have hmem : .of table c ∈ mentionedColumns s := by
          refine List.mem_flatMap.mpr ⟨table, htable, List.mem_map.mpr ⟨c, ?_, rfl⟩⟩
          exact List.mem_filter.mpr ⟨s.schema.mem_columns_of_hasColumn table c hcolumn, hmentioned⟩
        rw [isStar_of_mentionedColumns s (List.ne_nil_of_mem hmem) item hitem] at hstar
        cases hstar
    · unfold groupGrains at hkey
      split at hkey
      · obtain ⟨grain, _, rfl⟩ := List.mem_map.mp hkey
        exact ⟨grain, rfl⟩
      · cases hkey
  · cases hkey

/-! ## The groups of a statement -/

section Statement

variable (schema : Schema) (text : String)

/-- The question that a text makes to a schema. -/
def selectionOf : Selection := ⟨schema, tablesOf schema text, text⟩

/-- **The groups of a statement are the suggested ones**, where there are any. -/
theorem mem_statementGroups_of_suggestions
    (h : suggestions (selectionOf schema text) (ofText schema text).columns ≠ []) (key : Expr) :
    key ∈ (ofText schema text).statementGroups
      ↔ key ∈ suggestions (selectionOf schema text) (ofText schema text).columns := by
  have hgroups : (ofText schema text).groupBy
      = (suggestions (selectionOf schema text) (ofText schema text).columns).foldl addNew [] :=
    groupsOf_eq _ _ h
  have hmem : ∀ key, key ∈ (ofText schema text).groupBy
      ↔ key ∈ suggestions (selectionOf schema text) (ofText schema text).columns := by
    intro key
    rw [hgroups, mem_foldl_addNew]
    simp
  obtain ⟨first, hfirst⟩ := List.exists_mem_of_ne_nil _ h
  have hne : (ofText schema text).groupBy.isEmpty = false :=
    List.isEmpty_eq_false_iff.mpr (List.ne_nil_of_mem ((hmem first).mpr hfirst))
  rw [statementGroups, hne, Bool.false_and, if_neg Bool.false_ne_true, hmem]

/-- **All plain items are groups** of a statement that sums up rows, where nothing is suggested. -/
theorem mem_statementGroups_of_plain (first : String)
    (h : suggestions (selectionOf schema text) (ofText schema text).columns = [])
    (hsums : ((ofText schema text).statementFor first).SumsUp) (key : Expr) :
    key ∈ (ofText schema text).statementGroups ↔ key ∈ plainExprs (ofText schema text).columns := by
  by_cases hempty : (ofText schema text).groupBy = []
  -- the statement adds the groups
  · have haggregates : (ofText schema text).hasAggregates := by
      rcases hsums with ⟨item, hitem, hkind⟩ | hgroups
      · exact List.any_eq_true.mpr ⟨item, hitem, by simpa using hkind⟩
      · by_contra hnone
        refine hgroups ?_
        show (ofText schema text).statementGroups = []
        simp [statementGroups, hempty, hnone]
    rw [statementGroups, hempty, haggregates]
    rfl
  · have hgroups : (ofText schema text).groupBy
        = (plainExprs (ofText schema text).columns).foldl addNew [] :=
      (groupsOf_cases _ _ h).resolve_left hempty
    rw [statementGroups, List.isEmpty_eq_false_iff.mpr hempty, Bool.false_and,
      if_neg Bool.false_ne_true, hgroups, mem_foldl_addNew]
    simp

/-- Where nothing is suggested, a statement that sums up rows groups all columns that it projects. -/
theorem covers_of_suggestions_eq_nil (first : String)
    (h : suggestions (selectionOf schema text) (ofText schema text).columns = [])
    (hsums : ((ofText schema text).statementFor first).SumsUp) :
    ((ofText schema text).statementFor first).CoversProjection := by
  have hgroups := mem_statementGroups_of_plain schema text first h hsums
  intro item hitem
  constructor
  · by_contra hstar
    rw [Bool.not_eq_false] at hstar
    have halone : (ofText schema text).columns = [item] :=
      isStar_alone (selectionOf schema text) item hitem hstar
    -- with a star alone there is nothing plain to group by, and nothing that sums up
    rw [halone, plainExprs_star item hstar] at hgroups
    rcases hsums with ⟨item', hitem', hkind⟩ | hne
    · have hitem' : item' ∈ (ofText schema text).columns := hitem'
      rw [halone, List.mem_singleton] at hitem'
      subst hitem'
      cases hexpr : item'.expr <;> simp [hexpr, Expr.isStar, Expr.isAggregate, Expr.isFragment] at hstar hkind
    · obtain ⟨key, hkey⟩ := List.exists_mem_of_ne_nil _ hne
      exact absurd ((hgroups key).mp hkey) List.not_mem_nil
  · intro ref href
    refine (hgroups _).mpr ?_
    rw [← href]
    refine List.mem_map_of_mem (List.mem_filter.mpr ⟨hitem, ?_⟩)
    rw [isPlain, href]
    rfl

/-- A projected column that is worth grouping by is suggested, where anything is. -/
theorem mem_suggestions_of_projected (table column : String)
    (hcandidate : column ∈ groupingCandidates table) (item : SelectItem)
    (hitem : item ∈ (ofText schema text).columns) (hexpr : item.expr = .of table column)
    (h : suggestions (selectionOf schema text) (ofText schema text).columns ≠ []) :
    .of table column ∈ suggestions (selectionOf schema text) (ofText schema text).columns := by
  obtain ⟨htable, hcolumn⟩ : table ∈ (selectionOf schema text).tables
      ∧ schema.hasColumn table column := by
    have hform := projectedItem_of_mem (selectionOf schema text) item hitem
    cases hform with
    | column ref href =>
        obtain ⟨table', htable', c, hc, heq⟩ := href
        rw [heq] at hexpr
        cases hexpr
        exact ⟨htable', List.contains_iff_mem.mpr hc⟩
    | metric m hm => cases hexpr
    | aggregate function distinct ref href => cases hexpr
    | countAll => cases hexpr
    | tableStar first rest htables => cases hexpr
    | star htables => cases hexpr
  unfold suggestions at h ⊢
  split at h
  · next hcue =>
      rw [if_pos hcue]
      refine List.mem_append_left _ (List.mem_flatMap.mpr ⟨table, htable, ?_⟩)
      refine List.mem_map.mpr ⟨column, List.mem_filter.mpr ⟨hcandidate, ?_⟩, rfl⟩
      have hprojected : (ofText schema text).columns.any fun item => item.expr = .of table column :=
        List.any_eq_true.mpr ⟨item, hitem, by simpa using hexpr⟩
      rw [hprojected, Bool.true_or, Bool.and_true]
      exact hcolumn
  · exact absurd rfl h

/-- **Coverage.** A statement for a question that sums up rows groups every column that it projects and
that is worth grouping by. If the question suggests no groups, it groups every column that it projects, and
it projects no star. If the question does, the groups are exactly the suggested ones, and a star is
projected at most alone and over spans of the order date. -/
theorem statement_coverage (s : SelectStatement) (h : (ofText schema text).statement = .ok s)
    (hsums : s.SumsUp) :
    (∀ table, ∀ column ∈ groupingCandidates table, ∀ item ∈ s.projection,
        item.expr = .of table column → .of table column ∈ s.groupBy)
      ∧ (suggestions (selectionOf schema text) s.projection = [] → s.CoversProjection)
      ∧ (suggestions (selectionOf schema text) s.projection ≠ [] →
          (∀ key, key ∈ s.groupBy ↔ key ∈ suggestions (selectionOf schema text) s.projection)
            ∧ ∀ item ∈ s.projection, item.expr.isStar → s.projection = [item]
              ∧ ∀ key ∈ s.groupBy, ∃ grain, key = .truncated grain (.of "orders" "order_date")) := by
  obtain ⟨first, rest, _, rfl⟩ := exists_eq_statementFor _ s h
  refine ⟨?_, fun hnone => covers_of_suggestions_eq_nil schema text first hnone hsums, ?_⟩
  · intro table column hcandidate item hitem hexpr
    by_cases hnone : suggestions (selectionOf schema text) (ofText schema text).columns = []
    · have hcovers := covers_of_suggestions_eq_nil schema text first hnone hsums
      exact (hcovers item hitem).2 _ hexpr
    · exact (mem_statementGroups_of_suggestions schema text hnone _).mpr
        (mem_suggestions_of_projected schema text table column hcandidate item hitem hexpr hnone)
  · intro hsome
    have hgroups := mem_statementGroups_of_suggestions schema text hsome
    refine ⟨hgroups, ?_⟩
    intro item hitem hstar
    refine ⟨isStar_alone (selectionOf schema text) item hitem hstar, ?_⟩
    intro key hkey
    exact suggestions_of_isStar (selectionOf schema text) item hitem hstar key ((hgroups key).mp hkey)

end Statement

/-- A request for a table with a column that is worth grouping by and one that is not. -/
def regional : Request where
  query := "total price per status and region of orders"
  schema := [[("orders", .array [.string "order_id", .string "status", .string "region",
    .string "price"])]]
  relationships := []
  tableAliases := []
  columnAliases := []
  businessMetrics := []
  timePeriods := none

/-- Its question projects both columns and is grouped by the one. -/
theorem ofText_regional :
    let intent := ofText (Schema.ofRequest regional) regional.query
    (intent.tables, intent.columns.map SelectItem.expr, intent.statementGroups)
      = (["orders"],
        [.of "orders" "status", .of "orders" "region", .aggregated .sum (.of "orders" "price")],
        [.of "orders" "status"]) := by decide +kernel

/-- So the statement for it has an aggregate and groups, and a projected column is not among them. -/
theorem not_coversProjection_regional :
    ∃ s, (ofText (Schema.ofRequest regional) regional.query).statement = .ok s
      ∧ (∃ item ∈ s.projection, item.expr.isAggregate) ∧ s.groupBy = [.of "orders" "status"]
      ∧ ¬ s.CoversProjection := by
  have hshape := ofText_regional
  generalize ofText (Schema.ofRequest regional) regional.query = intent at hshape ⊢
  simp only [Prod.mk.injEq] at hshape
  obtain ⟨htables, hcolumns, hgroups⟩ := hshape
  have hprojected : ∀ e ∈ intent.columns.map SelectItem.expr, ∃ item ∈ intent.columns, item.expr = e :=
    fun e he => List.mem_map.mp he
  rw [hcolumns] at hprojected
  refine ⟨_, intent.statement_eq "orders" [] htables, ?_, hgroups, ?_⟩
  · obtain ⟨item, hitem, hexpr⟩ := hprojected (.aggregated .sum (.of "orders" "price")) (by simp)
    exact ⟨item, hitem, by rw [hexpr]; rfl⟩
  · intro hcovers
    obtain ⟨item, hitem, hexpr⟩ := hprojected (.of "orders" "region") (by simp)
    have hmem : .of "orders" "region" ∈ intent.statementGroups := (hcovers item hitem).2 _ hexpr
    rw [hgroups] at hmem
    exact absurd hmem (by decide)

/-- The projected column that is worth grouping by is among them. -/
theorem statement_coverage_regional :
    ∃ s, (ofText (Schema.ofRequest regional) regional.query).statement = .ok s ∧ s.SumsUp
      ∧ .of "orders" "status" ∈ s.groupBy := by
  have hcoverage := statement_coverage (Schema.ofRequest regional) regional.query
  have hshape := ofText_regional
  generalize ofText (Schema.ofRequest regional) regional.query = intent at hshape hcoverage ⊢
  simp only [Prod.mk.injEq] at hshape
  obtain ⟨htables, hcolumns, hgroups⟩ := hshape
  have hs := intent.statement_eq "orders" [] htables
  have hsums : (intent.statementFor "orders").SumsUp := by
    refine Or.inr ?_
    show intent.statementGroups ≠ []
    rw [hgroups]
    exact List.cons_ne_nil _ _
  obtain ⟨item, hitem, hexpr⟩ : ∃ item ∈ intent.columns, item.expr = .of "orders" "status" := by
    refine List.mem_map.mp ?_
    rw [hcolumns]
    exact List.mem_cons_self
  exact ⟨_, hs, hsums, (hcoverage _ hs hsums).1 "orders" "status" (by decide) item hitem hexpr⟩

end Intent

end TextToSql
