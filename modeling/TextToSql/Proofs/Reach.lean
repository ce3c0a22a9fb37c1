import TextToSql.Proofs.Intent.Ordering
import TextToSql.Proofs.Intent.Grouping
import TextToSql.Proofs.Scope

/-!
# What order and conditions on groups reach for

The tables of a statement about connected tables, and the columns that its order and its conditions on
groups look at. Those columns come from a search in the whole schema or are built in, so their tables can
lie outside of the statement.

* `mem_tables_of_linksNeighbours` : the tables of the statement are those of the question and those between
  them;
* `sortColumn_of_mem_orderOf`, `thresholdColumn_of_mem_atoms` : where the columns come from;
* `statement_reach` : all of this for the statement of a question.
-/

namespace TextToSql

open Sql Lexicon Intent

/-- The tables of a statement: its source and what is joined to it. -/
def Sql.SelectStatement.tables (s : SelectStatement) : List String :=
  s.source :: s.joins.map JoinClause.table

/-- A column that the order of a statement or its condition on groups looks at. -/
def Sql.SelectStatement.Consults (s : SelectStatement) (ref : ColumnRef) : Prop :=
  (∃ key ∈ s.orderBy, .column ref ∈ key.expr.pieces) ∨ ∃ p ∈ s.having, .column ref ∈ p.pieces

/-- An expression that looks at a single column. -/
def Sql.Expr.IsOver (e : Expr) (ref : ColumnRef) : Prop := e.pieces = [.column ref]

/-- A condition that compares a single column with a number. -/
def Sql.Condition.IsOver (c : Condition) (ref : ColumnRef) : Prop :=
  ∃ digits, c.pieces = [.column ref, .number digits]

/-- A table over which the chain between two others goes. -/
def Schema.Between (schema : Schema) (a b table : String) : Prop :=
  ∃ on on', schema.chain a b = [⟨a, table, on⟩, ⟨table, b, on'⟩]

/-- The columns that sort keys are built in for. -/
def measuredColumns : List ColumnRef := [
  .of "orders" "total_amount", .of "orders" "order_date", .of "orders" "order_id",
  .of "products" "price", .of "order_items" "price", .of "order_items" "quantity"]

/-- The tables of the columns that are built in for sort keys and thresholds. -/
def measuredTables : List String := ["orders", "order_items", "products"]

/-- The term of a question after its first phrase for an order. -/
def Selection.sortTerm? (s : Selection) : Option String :=
  (orderPhrase.find? s.text).map fun m => Text.lowerOf (m.captures.headD "")

namespace Intent

/-- Where the column of a sort key comes from: it is like the term after a phrase for an order, or the term
is an alias of it; else it is built in for a cue for rank. A word of rank without a number counts only if
no column is found in another way. -/
inductive SortColumn (s : Selection) : ColumnRef → Prop
  | named (term : String) (ref : ColumnRef) (hterm : s.sortTerm? = some term)
      (hlike : s.schema.columnLike? term = some ref) : SortColumn s ref
  | aliased (term table column : String) (hterm : s.sortTerm? = some term)
      (hunlike : s.schema.columnLike? term = none)
      (halias : s.schema.aliasedColumn? term = some column)
      (hfirst : s.schema.allColumns.find? (fun entry => entry.2 = column) = some (table, column)) :
      SortColumn s (.of table column)
  | measured (ref : ColumnRef) (hterm : s.sortTerm? = none)
      (hcue : topCue.occursIn s.text ∨ bottomCue.occursIn s.text) (href : ref ∈ measuredColumns) :
      SortColumn s ref
  | ranked (ref : ColumnRef) (hunlike : ∀ term ∈ s.sortTerm?, s.schema.columnLike? term = none)
      (huncued : s.sortTerm? = none → ¬ topCue.occursIn s.text ∧ ¬ bottomCue.occursIn s.text)
      (hcue : rankingCue.occursIn s.text) (href : ref ∈ measuredColumns) : SortColumn s ref

/-- A match from which one of the named rules makes a condition on groups. -/
def MakesThreshold (s : Selection) (names : List String) (m : Match) (c : Condition) : Prop :=
  ∃ rule ∈ havingRules.rules, rule.name ∈ names ∧ m ∈ rule.pattern.matchesIn s.text
    ∧ rule.action s m.captures = some c

/-- Where the column of a condition on groups comes from: it is like a term, or it is built in for a
threshold for a number of things. -/
inductive ThresholdColumn (s : Selection) (c : Condition) (ref : ColumnRef) : Prop
  | named (m : Match) (hmatch : MakesThreshold s ["having", "where_total", "where_average"] m c)
      (hlike : s.schema.columnLike? (m.captures.headD "") = some ref) : ThresholdColumn s c ref
  | counted (m : Match) (hmatch : MakesThreshold s ["with_count", "ordered_times"] m c)
      (href : ref ∈ countedColumns) : ThresholdColumn s c ref

end Intent

/-- A statement whose tables are those of a question and those between neighbours among them, and whose
order and conditions on groups look at the columns that the question leads to. If the question has every
declared table, they leave the statement at most for a built-in one. -/
structure Sql.SelectStatement.Reaches (selection : Selection) (s : SelectStatement) : Prop where
  tables : ∀ table, table ∈ s.tables ↔ table ∈ selection.tables
    ∨ ∃ a b, [a, b] <:+: selection.tables ∧ selection.schema.Between a b table
  orderBy : ∀ key ∈ s.orderBy, ∃ ref, key.expr.IsOver ref ∧ SortColumn selection ref
  having : ∀ p ∈ s.having, ∀ c ∈ p.atoms, ∃ ref, c.IsOver ref ∧ ThresholdColumn selection c ref
  covered : selection.schema.tableNames ⊆ selection.tables → ∀ ref, s.Consults ref →
    ∃ table, ref.table = some table ∧ (table ∈ s.tables ∨ table ∈ measuredTables)

namespace Intent

/-! ## The tables of the statement -/

/-- The sides of the relationships between neighbours are these neighbours and the tables between them. -/
theorem mem_or_between_of_touches (schema : Schema) (tables : List String) (table : String)
    (h : ∃ r ∈ joinsOf schema tables, r.Touches table) :
    table ∈ tables ∨ ∃ a b, [a, b] <:+: tables ∧ schema.Between a b table := by
  obtain ⟨r, hr, htouches⟩ := h
  obtain ⟨a, b, hpair, hr⟩ := (mem_joinsOf schema tables r).mp hr
  have ha : a ∈ tables := hpair.subset (by simp)
  have hb : b ∈ tables := hpair.subset (by simp)
  rcases schema.chain_cases a b with hchain | ⟨r₁, _, hchain⟩ | ⟨middle, _, _, _, r₁, _, r₂, _, hchain⟩
  · simp [hchain] at hr
  · rw [hchain, List.mem_singleton] at hr
    subst hr
    rcases htouches with rfl | rfl
    · exact Or.inl ha
    · exact Or.inl hb
  · have hbetween : ∃ a b, [a, b] <:+: tables ∧ schema.Between a b middle :=
      ⟨a, b, hpair, r₁.on, r₂.on, hchain⟩
    rw [hchain] at hr
    rcases List.mem_cons.mp hr with rfl | hr
    · rcases htouches with rfl | rfl
      · exact Or.inl ha
      · exact Or.inr hbetween
    · obtain rfl := List.mem_singleton.mp hr
      rcases htouches with rfl | rfl
      · exact Or.inr hbetween
      · exact Or.inl hb

/-- A table between two neighbours is a side of a relationship between neighbours. -/
theorem touches_of_between (schema : Schema) (tables : List String) (a b table : String)
    (hpair : [a, b] <:+: tables) (h : schema.Between a b table) :
    ∃ r ∈ joinsOf schema tables, r.Touches table := by
  obtain ⟨on, on', hchain⟩ := h
  refine ⟨⟨a, table, on⟩, (mem_joinsOf schema tables _).mpr ⟨a, b, hpair, ?_⟩, Or.inr rfl⟩
  rw [hchain]
  exact List.mem_cons_self

/-- The tables of the statement of a question about connected tables are its tables and those between
them. -/
theorem mem_tables_of_linksNeighbours (schema : Schema) (text : String) (s : SelectStatement)
    (hlinks : schema.LinksNeighbours (tablesOf schema text))
    (h : (ofText schema text).statement = .ok s) (table : String) :
    table ∈ s.tables ↔ table ∈ tablesOf schema text
      ∨ ∃ a b, [a, b] <:+: tablesOf schema text ∧ schema.Between a b table := by
  obtain ⟨first, rest, hfirst, rfl⟩ := exists_eq_statementFor _ s h
  have hplan := (mem_joinPlan_tables schema text first rest hfirst hlinks).2 table
  show table ∈ (joinPlan (ofText schema text) first).tables ↔ _
  rw [hplan]
  constructor
  · rintro (htable | htouches)
    · exact Or.inl htable
    · exact mem_or_between_of_touches schema _ table htouches
  · rintro (htable | ⟨a, b, hpair, hbetween⟩)
    · exact Or.inl htable
    · exact Or.inr (touches_of_between schema _ a b table hpair hbetween)

/-! ## The columns of sort keys -/

/-- A key that is built in looks at a column that keys are built in for. -/
theorem exists_isOver_of_mem_builtinKeys (key : Expr) (h : key ∈ builtinKeys) :
    ∃ ref ∈ measuredColumns, key.IsOver ref := by
  simp only [builtinKeys, List.mem_cons, List.not_mem_nil, or_false] at h
  rcases h with rfl | rfl | rfl | rfl | rfl | rfl | rfl <;> exact ⟨_, by decide, rfl⟩

/-- A key that the term of a question names looks at the column that the term is like or stands for. -/
theorem sortColumn_of_namedKey? (s : Selection) (term text : String) (key : Expr)
    (hterm : s.sortTerm? = some term) (h : namedKey? s.schema term text = some key) :
    ∃ ref, key.IsOver ref ∧ SortColumn s ref := by
  unfold namedKey? at h
  split at h
  · next ref hlike =>
      cases h
      exact ⟨ref, rfl, .named term ref hterm hlike⟩
  · next hunlike =>
      dsimp only at h
      split at h
      · cases h
      · next hne =>
          obtain ⟨⟨table, column⟩, hfind, rfl⟩ := Option.map_eq_some_iff.mp h
          -- the term is not its own column, so it is an alias
          cases halias : s.schema.aliasedColumn? term with
          | none => exact absurd (by simp [Schema.resolveColumn, halias]) hne
          | some column' =>
              have hcolumn : s.schema.resolveColumn term none = column' := by
                simp [Schema.resolveColumn, halias]
              rw [hcolumn] at hfind
              obtain rfl : column = column' := by simpa using List.find?_some hfind
              refine ⟨.of table column, ?_, .aliased term table column hterm hunlike halias hfind⟩
              dsimp only
              split <;> rfl

/-- A key that a question asks for looks at a column that the question leads to. -/
theorem sortColumn_of_askedKey? (s : Selection) (text : String) (key : OrderKey)
    (h : askedKey? s text = some key) : ∃ ref, key.expr.IsOver ref ∧ SortColumn s ref := by
  have hguessed : ∀ direction, (⟨guessedKey text, direction⟩ : OrderKey) = key →
      ∃ ref ∈ measuredColumns, key.expr.IsOver ref := by
    rintro direction rfl
    exact exists_isOver_of_mem_builtinKeys _ (guessedKey_mem_builtinKeys text)
  unfold askedKey? at h
  split at h
  · next m hphrase =>
      have hterm : s.sortTerm? = some (Text.lowerOf (m.captures.headD "")) := by
        rw [Selection.sortTerm?, hphrase, Option.map_some]
      obtain ⟨e, he, rfl⟩ := Option.map_eq_some_iff.mp h
      exact sortColumn_of_namedKey? s _ text e hterm he
  · next hphrase =>
      have hterm : s.sortTerm? = none := by rw [Selection.sortTerm?, hphrase, Option.map_none]
      split at h
      · next hcue =>
          obtain ⟨ref, href, hover⟩ := hguessed _ (Option.some.inj h)
          exact ⟨ref, hover, .measured ref hterm (Or.inl hcue) href⟩
      · split at h
        · next hcue =>
            obtain ⟨ref, href, hover⟩ := hguessed _ (Option.some.inj h)
            exact ⟨ref, hover, .measured ref hterm (Or.inr hcue) href⟩
        · cases h

/-- A question that asks for no key has no term that is like a column, and without a term it has no cue for
rank with a number. -/
theorem unlike_of_askedKey?_eq_none (s : Selection) (text : String) (h : askedKey? s text = none) :
    (∀ term ∈ s.sortTerm?, s.schema.columnLike? term = none)
      ∧ (s.sortTerm? = none → ¬ topCue.occursIn s.text ∧ ¬ bottomCue.occursIn s.text) := by
  unfold askedKey? at h
  unfold Selection.sortTerm?
  split at h
  · next m hphrase =>
      have hnone : namedKey? s.schema (Text.lowerOf (m.captures.headD "")) text = none :=
        Option.map_eq_none_iff.mp h
      rw [hphrase, Option.map_some]
      refine ⟨?_, fun hterm => absurd hterm (Option.some_ne_none _)⟩
      rintro term ⟨rfl⟩
      unfold namedKey? at hnone
      split at hnone
      · cases hnone
      · next hunlike => exact hunlike
  · next hphrase =>
      rw [hphrase, Option.map_none]
      refine ⟨by simp, ?_⟩
      intro _
      split at h
      · cases h
      · next htop =>
          split at h
          · cases h
          · next hbottom => exact ⟨htop, hbottom⟩

/-- The key of an order looks at a column that the question leads to. -/
theorem sortColumn_of_mem_orderOf (s : Selection) (key : OrderKey) (h : key ∈ orderOf s) :
    ∃ ref, key.expr.IsOver ref ∧ SortColumn s ref := by
  unfold orderOf at h
  dsimp only at h
  split at h
  · next key' hasked =>
      obtain rfl := List.mem_singleton.mp h
      exact sortColumn_of_askedKey? s _ key hasked
  · next hasked =>
      obtain ⟨hunlike, huncued⟩ := unlike_of_askedKey?_eq_none s _ hasked
      split at h
      · next hcue =>
          obtain ⟨e, he, rfl⟩ := Option.map_eq_some_iff.mp (Option.mem_toList.mp h)
          obtain ⟨ref, href, hover⟩ :=
            exists_isOver_of_mem_builtinKeys e (rankingKey?_mem_builtinKeys s.schema _ e he)
          exact ⟨ref, hover, .ranked ref hunlike huncued hcue href⟩
      · cases h

/-! ## The columns of conditions on groups -/

/-- A threshold for a term compares the column that the term is like. -/
theorem isOver_of_havingCondition (s : Selection) (captures : List String) (c : Condition)
    (h : havingCondition s captures = some c) :
    ∃ ref, c.IsOver ref ∧ s.schema.columnLike? (captures.headD "") = some ref := by
  unfold havingCondition at h
  split at h
  · next term op number =>
      obtain ⟨op, _, h⟩ := Option.bind_eq_some_iff.mp h
      obtain ⟨ref, hlike, h⟩ := Option.bind_eq_some_iff.mp h
      cases h
      refine ⟨ref, ⟨number, ?_⟩, hlike⟩
      split <;> rfl
  · cases h

/-- A threshold for the total or the average of a term compares the column that the term is like. -/
theorem isOver_of_aggregateCondition (function : Aggregate) (s : Selection) (captures : List String)
    (c : Condition) (h : aggregateCondition function s captures = some c) :
    ∃ ref, c.IsOver ref ∧ s.schema.columnLike? (captures.headD "") = some ref := by
  unfold aggregateCondition at h
  split at h
  · next term op number =>
      obtain ⟨ref, hlike, h⟩ := Option.bind_eq_some_iff.mp h
      obtain ⟨op, _, h⟩ := Option.bind_eq_some_iff.mp h
      cases h
      exact ⟨ref, ⟨number, rfl⟩, hlike⟩
  · cases h

/-- A threshold for the number of things that a noun stands for compares a built-in column. -/
theorem isOver_of_countCondition (s : Selection) (captures : List String) (c : Condition)
    (h : countCondition s captures = some c) : ∃ ref ∈ countedColumns, c.IsOver ref := by
  unfold countCondition at h
  split at h
  · next op number noun =>
      obtain ⟨op, _, h⟩ := Option.bind_eq_some_iff.mp h
      obtain ⟨column, hcolumn, h⟩ := Option.bind_eq_some_iff.mp h
      obtain ⟨ref, href, rfl⟩ := countedColumn?_eq_some _ column hcolumn
      cases h
      exact ⟨ref, href, number, rfl⟩
  · cases h

/-- A threshold for the number of orders compares a built-in column. -/
theorem isOver_of_ordersCondition (s : Selection) (captures : List String) (c : Condition)
    (h : ordersCondition s captures = some c) : ∃ ref ∈ countedColumns, c.IsOver ref := by
  unfold ordersCondition at h
  split at h
  · next number =>
      cases h
      exact ⟨.of "orders" "order_id", by decide, number, rfl⟩
  · cases h

/-- What a rule for conditions on groups makes of a match compares a column that the match leads to. -/
theorem thresholdColumn_of_match (s : Selection) (c : Condition) (rule : Rule Selection Condition)
    (m : Match) (hrule : rule ∈ havingRules.rules) (hm : m ∈ rule.pattern.matchesIn s.text)
    (haction : rule.action s m.captures = some c) :
    ∃ ref, c.IsOver ref ∧ ThresholdColumn s c ref := by
  have hrules := hrule
  simp only [havingRules, List.mem_cons, List.not_mem_nil, or_false] at hrules
  rcases hrules with rfl | rfl | rfl | rfl | rfl
  · obtain ⟨ref, hover, hlike⟩ := isOver_of_havingCondition s _ c haction
    exact ⟨ref, hover, .named m ⟨_, hrule, by simp, hm, haction⟩ hlike⟩
  · obtain ⟨ref, hover, hlike⟩ := isOver_of_aggregateCondition .sum s _ c haction
    exact ⟨ref, hover, .named m ⟨_, hrule, by simp [aggregateRule], hm, haction⟩ hlike⟩
  · obtain ⟨ref, hover, hlike⟩ := isOver_of_aggregateCondition .avg s _ c haction
    exact ⟨ref, hover, .named m ⟨_, hrule, by simp [aggregateRule], hm, haction⟩ hlike⟩
  · obtain ⟨ref, href, hover⟩ := isOver_of_countCondition s _ c haction
    exact ⟨ref, hover, .counted m ⟨_, hrule, by simp, hm, haction⟩ href⟩
  · obtain ⟨ref, href, hover⟩ := isOver_of_ordersCondition s _ c haction
    exact ⟨ref, hover, .counted m ⟨_, hrule, by simp, hm, haction⟩ href⟩

/-- A condition on groups compares a column that the question leads to. -/
theorem thresholdColumn_of_mem_atoms (s : Selection) (groups : List Expr) (p : Predicate)
    (h : havingOf s groups = some p) (c : Condition) (hc : c ∈ p.atoms) :
    ∃ ref, c.IsOver ref ∧ ThresholdColumn s c ref := by
  unfold havingOf at h
  split at h
  · cases h
  · rw [Predicate.atoms_conjoin_map _ p h, mem_foldl_addNew] at hc
    rcases hc with hc | hc
    · cases hc
    · obtain ⟨rule, hrule, m, hm, haction⟩ := RuleSet.exists_match_of_mem_all _ _ _ c hc
      exact thresholdColumn_of_match s c rule m hrule hm haction

/-! ## Declared and built-in tables -/

/-- A declared column belongs to a declared table. -/
theorem exists_table_of_declares {schema : Schema} {ref : ColumnRef} (h : schema.Declares ref) :
    ∃ table ∈ schema.tableNames, ref.table = some table := by
  obtain ⟨t, ht, c, _, rfl⟩ := h
  exact ⟨t.name, List.mem_map_of_mem ht, rfl⟩

/-- A column of a sort key is declared or built in. -/
theorem SortColumn.declares_or_mem {s : Selection} {ref : ColumnRef} (h : SortColumn s ref) :
    s.schema.Declares ref ∨ ref ∈ measuredColumns := by
  cases h with
  | named term ref hterm hlike => exact Or.inl (s.schema.columnLike?_declares term ref hlike)
  | aliased term table column hterm hunlike halias hfirst =>
      exact Or.inl (s.schema.declares_of_mem_allColumns table column (List.mem_of_find?_eq_some hfirst))
  | measured ref hterm hcue href => exact Or.inr href
  | ranked ref hunlike huncued hcue href => exact Or.inr href

/-- A column of a condition on groups is declared or built in. -/
theorem ThresholdColumn.declares_or_mem {s : Selection} {c : Condition} {ref : ColumnRef}
    (h : ThresholdColumn s c ref) : s.schema.Declares ref ∨ ref ∈ countedColumns := by
  cases h with
  | named m hmatch hlike => exact Or.inl (s.schema.columnLike?_declares _ ref hlike)
  | counted m hmatch href => exact Or.inr href

/-- A column that a statement consults is declared or built in, if those of its order and of its conditions
on groups are. -/
theorem declares_or_mem_of_consults {selection : Selection} {s : SelectStatement} {ref : ColumnRef}
    (horder : ∀ key ∈ s.orderBy, ∃ ref, key.expr.IsOver ref ∧ SortColumn selection ref)
    (hhaving : ∀ p ∈ s.having, ∀ c ∈ p.atoms,
      ∃ ref, c.IsOver ref ∧ ThresholdColumn selection c ref)
    (h : s.Consults ref) :
    selection.schema.Declares ref ∨ ref ∈ measuredColumns ++ countedColumns := by
  rcases h with ⟨key, hkey, hpiece⟩ | ⟨p, hp, hpiece⟩
  · obtain ⟨ref', hover, hsort⟩ := horder key hkey
    have hpieces : key.expr.pieces = [.column ref'] := hover
    obtain rfl : ref = ref' := by simpa [hpieces] using hpiece
    exact hsort.declares_or_mem.imp_right (List.mem_append_left _)
  · obtain ⟨c, hc, hpiece⟩ := List.mem_flatMap.mp hpiece
    obtain ⟨ref', ⟨digits, hpieces⟩, hthreshold⟩ := hhaving p hp c hc
    obtain rfl : ref = ref' := by simpa [hpieces] using hpiece
    exact hthreshold.declares_or_mem.imp_right (List.mem_append_right _)

/-! ## Statements -/

/-- The statement of a question about connected tables reaches for what the question leads to. -/
theorem reaches_of_linksNeighbours (schema : Schema) (text : String) (s : SelectStatement)
    (hlinks : schema.LinksNeighbours (tablesOf schema text))
    (h : (ofText schema text).statement = .ok s) :
    s.Reaches ⟨schema, tablesOf schema text, text⟩ := by
  let selection : Selection := ⟨schema, tablesOf schema text, text⟩
  have htables := mem_tables_of_linksNeighbours schema text s hlinks h
  obtain ⟨first, rest, hfirst, rfl⟩ := exists_eq_statementFor _ s h
  have horder := sortColumn_of_mem_orderOf selection
  have hhaving := thresholdColumn_of_mem_atoms selection (groupsOf selection (projectionOf selection))
  refine ⟨htables, horder, hhaving, ?_⟩
  intro hall ref hconsults
  have hbuiltin : ∀ ref ∈ measuredColumns ++ countedColumns,
      ∃ table ∈ measuredTables, ref.table = some table := by decide
  rcases declares_or_mem_of_consults horder hhaving hconsults with hdeclared | hmem
  · obtain ⟨table, hname, href⟩ := exists_table_of_declares hdeclared
    exact ⟨table, href, Or.inl ((htables table).mpr (Or.inl (hall hname)))⟩
  · obtain ⟨table, htable, href⟩ := hbuiltin ref hmem
    exact ⟨table, href, Or.inr htable⟩

/-- **Reach.** A question with a table has a statement, and if its neighbouring tables are connected, the
tables of the statement are those of the question and those between neighbours, while its order and its
conditions on groups look at the columns that their terms and cues lead to, in scope or not. -/
theorem statement_reach (schema : Schema) (text : String)
    (hlinks : schema.LinksNeighbours (tablesOf schema text)) :
    (tablesOf schema text ≠ [] → ∃ s, (ofText schema text).statement = .ok s)
      ∧ ∀ s, (ofText schema text).statement = .ok s →
          s.Reaches ⟨schema, tablesOf schema text, text⟩ := by
  constructor
  · intro hne
    exact exists_statement (ofText schema text) hne
  · intro s h
    exact reaches_of_linksNeighbours schema text s hlinks h

/-- A question of the shop whose order and condition on groups look at a table in scope. -/
theorem statement_reach_shop :
    let text := "name of customers, items, orders by name having price > 5 sorted by price"
    shop.LinksNeighbours ["customers", "items", "orders"]
      ∧ ∃ s, (ofText shop text).statement = .ok s
          ∧ s.orderBy = [⟨.of "items" "price", .ascending⟩]
          ∧ (∃ p ∈ s.having, .column (.of "items" "price") ∈ p.pieces) ∧ "items" ∈ s.tables
          ∧ s.Reaches ⟨shop, ["customers", "items", "orders"], text⟩ := by
  intro text
  have htables : tablesOf shop text = ["customers", "items", "orders"] := by decide +kernel
  have hlinks : shop.LinksNeighbours ["customers", "items", "orders"] :=
    .cons_cons (by decide) (.cons_cons (by decide) (.singleton _))
  have horder : ((ofText shop text).statementFor "customers").orderBy
      = [⟨.of "items" "price", .ascending⟩] := by decide +kernel
  have hhaving : ∃ p ∈ ((ofText shop text).statementFor "customers").having,
      .column (.of "items" "price") ∈ p.pieces := by decide +kernel
  have hreach := statement_reach shop text (by rwa [htables])
  rw [htables] at hreach
  have hs := statement_eq (ofText shop text) "customers" _ htables
  have hall := hreach.2 _ hs
  have hitems := (hall.tables "items").mpr (Or.inl (by decide))
  exact ⟨hlinks, _, hs, horder, hhaving, hitems, hall⟩

/-- A request in which two tables have a column of the same name. -/
def scored : Request where
  query := "customers by name having score > 5 sorted by score"
  schema := [[("products", .array [.string "product_id", .string "score"])],
    [("customers", .array [.string "customer_id", .string "name", .string "score"])]]
  relationships := []
  tableAliases := []
  columnAliases := []
  businessMetrics := []
  timePeriods := none

/-- Its question is about the second table only, but its condition on groups and its order look at the
first one, which is not part of the statement. -/
theorem not_reached_scored :
    (Schema.ofRequest scored).LinksNeighbours (tablesOf (Schema.ofRequest scored) scored.query)
      ∧ ∃ s, (ofText (Schema.ofRequest scored) scored.query).statement = .ok s
          ∧ s.tables = ["customers"]
          ∧ (∃ key ∈ s.orderBy, Piece.column (.of "products" "score") ∈ key.expr.pieces)
          ∧ ∃ p ∈ s.having, ∃ c ∈ p.atoms, Piece.column (.of "products" "score") ∈ c.pieces := by
  have htables : tablesOf (Schema.ofRequest scored) scored.query = ["customers"] := by decide +kernel
  have hs := statement_eq (ofText (Schema.ofRequest scored) scored.query) "customers" [] htables
  refine ⟨?_, _, hs, ?_, ?_, ?_⟩
  · rw [htables]
    exact .singleton _
  · decide +kernel
  · decide +kernel
  · decide +kernel

end Intent

end TextToSql
