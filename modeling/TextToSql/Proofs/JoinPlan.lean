import Mathlib.Data.List.Nodup
import TextToSql.Plan
import TextToSql.Proofs.Intent.Selection

/-!
# Join plans

What the fold over the relationships of an intent builds. Every step either leaves the plan alone, joins
one new table to a table that is there, or starts the plan over at a relationship that does not touch it;
the last can only be the very first step.

* `JoinPlan.step_extend` : the four things that a relationship can do to a plan;
* `joinPlan_wellFormed` : the plan of an intent is well formed;
* `statement_joins` : so are the joins of every statement, and they compare columns in scope.
-/

namespace TextToSql

open Sql

namespace Intent

/-! ## One step -/

/-- What a relationship can do to a plan. -/
inductive JoinPlan.Step (plan : JoinPlan) (r : Relationship) : JoinPlan → Prop
  /-- Both tables are there already. -/
  | known (hleft : r.left ∈ plan.tables) (hright : r.right ∈ plan.tables) : Step plan r plan
  /-- One table is there, and the other one is joined to it. -/
  | joined (old new : String) (hsides : r.Connects old new) (hold : old ∈ plan.tables)
      (hnew : new ∉ plan.tables) : Step plan r (plan.join new r.on)
  /-- Neither table is there, and nothing has been joined yet: the plan starts over. -/
  | moved (base new : String) (hsides : r.Connects base new) (hleft : r.left ∉ plan.tables)
      (hright : r.right ∉ plan.tables) (hjoins : plan.joins = []) :
      Step plan r (JoinPlan.join ⟨base, []⟩ new r.on)
  /-- Neither table is there, and the plan has joins. -/
  | skipped (hleft : r.left ∉ plan.tables) (hright : r.right ∉ plan.tables)
      (hjoins : plan.joins ≠ []) : Step plan r plan

/-- Taking a relationship into a plan is one of the four steps. -/
theorem JoinPlan.step_extend (tables : List String) (plan : JoinPlan) (r : Relationship) :
    plan.Step r (plan.extend tables r) := by
  unfold JoinPlan.extend
  by_cases hleft : r.left ∈ plan.tables <;> by_cases hright : r.right ∈ plan.tables <;>
    simp only [List.contains_eq_mem, hleft, hright, decide_true, decide_false]
  · exact .known hleft hright
  · exact .joined r.left r.right (Or.inl ⟨rfl, rfl⟩) hleft hright
  · exact .joined r.right r.left (Or.inr ⟨rfl, rfl⟩) hright hleft
  · split
    · next hempty =>
        have hjoins : plan.joins = [] := List.isEmpty_iff.mp hempty
        split
        · exact .moved r.left r.right (Or.inl ⟨rfl, rfl⟩) hleft hright hjoins
        · exact .moved r.right r.left (Or.inr ⟨rfl, rfl⟩) hleft hright hjoins
    · next hempty => exact .skipped hleft hright (by simpa using hempty)

/-- A joined table comes last among the tables of a plan. -/
theorem JoinPlan.tables_join (plan : JoinPlan) (table : String) (on : List (ColumnRef × ColumnRef)) :
    (plan.join table on).tables = plan.tables ++ [table] := by
  simp [JoinPlan.tables, JoinPlan.join]

/-- The tables of a plan after a step were there before or are sides of the relationship. -/
theorem JoinPlan.Step.tables_cases {plan plan' : JoinPlan} {r : Relationship} (h : plan.Step r plan')
    (table : String) (htable : table ∈ plan'.tables) : table ∈ plan.tables ∨ r.Touches table := by
  have hside : ∀ {a b}, r.Connects a b → r.Touches a ∧ r.Touches b := by
    rintro a b (⟨rfl, rfl⟩ | ⟨rfl, rfl⟩)
    · exact ⟨Or.inl rfl, Or.inr rfl⟩
    · exact ⟨Or.inr rfl, Or.inl rfl⟩
  cases h with
  | known hleft hright => exact Or.inl htable
  | joined old new hsides hold hnew =>
      rw [JoinPlan.tables_join, List.mem_append] at htable
      rcases htable with htable | htable
      · exact Or.inl htable
      · obtain rfl := List.mem_singleton.mp htable
        exact Or.inr (hside hsides).2
  | moved base new hsides hleft hright hjoins =>
      rw [JoinPlan.tables_join, List.mem_append] at htable
      rcases htable with htable | htable
      · obtain rfl := List.mem_singleton.mp htable
        exact Or.inr (hside hsides).1
      · obtain rfl := List.mem_singleton.mp htable
        exact Or.inr (hside hsides).2
  | skipped hleft hright hjoins => exact Or.inl htable

/-- Where the left side of a relationship is in a plan, a step keeps the source and all tables, and after
it the right side is in the plan, too. -/
theorem JoinPlan.Step.right_mem_of_left_mem {plan plan' : JoinPlan} {r : Relationship}
    (h : plan.Step r plan') (hr : r.left ∈ plan.tables) :
    plan'.source = plan.source ∧ plan.tables ⊆ plan'.tables ∧ r.right ∈ plan'.tables := by
  cases h with
  | known hleft hright => exact ⟨rfl, fun _ h => h, hright⟩
  | joined old new hsides hold hnew =>
      rw [JoinPlan.tables_join]
      refine ⟨rfl, List.subset_append_left _ _, ?_⟩
      rcases hsides with ⟨rfl, rfl⟩ | ⟨rfl, rfl⟩
      · exact List.mem_append_right _ (List.mem_singleton_self _)
      · exact absurd hr hnew
  | moved base new hsides hleft hright hjoins => exact absurd hr hleft
  | skipped hleft hright hjoins => exact absurd hr hleft

/-- After a step by a relationship between two different tables something is joined. -/
theorem JoinPlan.Step.joins_ne_nil {plan plan' : JoinPlan} {r : Relationship} (h : plan.Step r plan')
    (hr : r.left ≠ r.right) : plan'.joins ≠ [] := by
  cases h with
  -- without joins, the source would be both sides of the relationship
  | known hleft hright =>
      intro hjoins
      simp only [JoinPlan.tables, hjoins, List.map_nil, List.mem_singleton] at hleft hright
      exact hr (hleft.trans hright.symm)
  | joined old new hsides hold hnew => simp [JoinPlan.join]
  | moved base new hsides hleft hright hjoins => simp [JoinPlan.join]
  | skipped hleft hright hjoins => exact hjoins

/-! ## All steps -/

/-- The tables of a plan after all steps were there before or are sides of the relationships. -/
theorem JoinPlan.tables_foldl_extend (tables : List String) (relationships : List Relationship)
    (plan : JoinPlan) (table : String)
    (h : table ∈ (relationships.foldl (JoinPlan.extend tables) plan).tables) :
    table ∈ plan.tables ∨ ∃ r ∈ relationships, r.Touches table := by
  induction relationships generalizing plan with
  | nil => exact Or.inl h
  | cons r rs ih =>
      rcases ih _ h with hnext | ⟨r', hr', htouches⟩
      · rcases (plan.step_extend tables r).tables_cases table hnext with hplan | htouches
        · exact Or.inl hplan
        · exact Or.inr ⟨r, List.mem_cons_self, htouches⟩
      · exact Or.inr ⟨r', List.mem_cons_of_mem r hr', htouches⟩

/-- A path from a table of a plan keeps its source and its tables, and after it both sides of every
relationship of the path are in the plan. -/
theorem JoinPlan.foldl_extend_path (tables : List String) (plan : JoinPlan) {a b : String}
    {rs : List Relationship} (h : Relationship.Path a b rs) (ha : a ∈ plan.tables) :
    let plan' := rs.foldl (JoinPlan.extend tables) plan
    plan'.source = plan.source ∧ plan.tables ⊆ plan'.tables
      ∧ ∀ r ∈ rs, ∀ table, r.Touches table → table ∈ plan'.tables := by
  -- each relationship finds its left side in the plan: the one before it has put it there
  induction h generalizing plan with
  | nil a => exact ⟨rfl, List.Subset.refl _, by simp⟩
  | cons r rs b hrest ih =>
      obtain ⟨hsource, hsub, hright⟩ := (plan.step_extend tables r).right_mem_of_left_mem ha
      obtain ⟨hsource', hsub', hall⟩ := ih (plan.extend tables r) hright
      refine ⟨hsource'.trans hsource, List.Subset.trans hsub hsub', ?_⟩
      intro r' hr' table htouches
      rcases List.mem_cons.mp hr' with rfl | hr'
      · rcases htouches with rfl | rfl
        · exact hsub' (hsub ha)
        · exact hsub' hright
      · exact hall r' hr' table htouches

/-- Joins follow relationships, one each and in order: a join has the condition of its relationship,
which connects the joined table to one of the tables before it. -/
def Follows : List String → List Relationship → List JoinClause → Prop
  | _, [], [] => True
  | tables, r :: rs, join :: joins =>
      join.on = r.on ∧ (∃ table ∈ tables, r.Connects table join.table)
        ∧ Follows (tables ++ [join.table]) rs joins
  | _, _, _ => False

/-- One more join follows one more relationship. -/
theorem Follows.snoc {tables : List String} {rs : List Relationship} {joins : List JoinClause}
    (h : Follows tables rs joins) (r : Relationship) (old new : String) (hsides : r.Connects old new)
    (hold : old ∈ tables ++ joins.map JoinClause.table) :
    Follows tables (rs ++ [r]) (joins ++ [⟨new, r.on⟩]) := by
  induction rs generalizing tables joins with
  | nil =>
      cases joins with
      | nil => exact ⟨rfl, ⟨old, by simpa using hold, hsides⟩, trivial⟩
      | cons join joins => exact h.elim
  | cons r' rs ih =>
      cases joins with
      | nil => exact h.elim
      | cons join joins =>
          obtain ⟨hon, hconnects, hrest⟩ := h
          refine ⟨hon, hconnects, ih hrest ?_⟩
          simpa using hold

/-- A join that follows relationships has the condition of one of them, which connects the joined table to
one of the tables before it. -/
theorem Follows.exists_connects {tables : List String} {rs : List Relationship}
    {joins : List JoinClause} (h : Follows tables rs joins) (before after : List JoinClause)
    (join : JoinClause) (hjoins : joins = before ++ join :: after) :
    ∃ r ∈ rs, join.on = r.on
      ∧ ∃ table ∈ tables ++ before.map JoinClause.table, r.Connects table join.table := by
  induction before generalizing tables rs joins with
  | nil =>
      subst hjoins
      cases rs with
      | nil => exact h.elim
      | cons r rs =>
          obtain ⟨hon, ⟨table, htable, hsides⟩, _⟩ := h
          exact ⟨r, List.mem_cons_self, hon, table, by simpa using htable, hsides⟩
  | cons join' before ih =>
      subst hjoins
      cases rs with
      | nil => exact h.elim
      | cons r rs =>
          obtain ⟨r', hr', hon, table, htable, hsides⟩ := ih h.2.2 rfl
          exact ⟨r', List.mem_cons_of_mem r hr', hon, table, by simpa using htable, hsides⟩

/-- Every join has the condition of a relationship. -/
theorem Follows.exists_on_eq {tables : List String} {rs : List Relationship} {joins : List JoinClause}
    (h : Follows tables rs joins) (join : JoinClause) (hjoin : join ∈ joins) :
    ∃ r ∈ rs, join.on = r.on := by
  obtain ⟨before, after, hjoins⟩ := List.append_of_mem hjoin
  obtain ⟨r, hr, hon, -⟩ := h.exists_connects before after join hjoins
  exact ⟨r, hr, hon⟩

/-- A plan for relationships that starts at a given table: no table occurs in it twice, its joins follow
some of the relationships, and it has another source only if the first relationship does not touch the
given one. -/
structure JoinPlan.WellFormed (first : String) (relationships : List Relationship)
    (plan : JoinPlan) : Prop where
  nodup : plan.tables.Nodup
  follows : ∃ used, used.Sublist relationships ∧ Follows [plan.source] used plan.joins
  source : plan.source = first ∨ ∃ r rs, relationships = r :: rs ∧ ¬ r.Touches first

/-- A plan in which nothing is joined yet is well formed. -/
theorem JoinPlan.wellFormed_nil (first : String) : JoinPlan.WellFormed first [] ⟨first, []⟩ where
  nodup := by simp [JoinPlan.tables]
  follows := ⟨[], List.Sublist.refl [], trivial⟩
  source := Or.inl rfl

/-- A step keeps a plan well formed. The invariant needs that a plan without joins has seen no relationship:
so it can only start over at the first one. -/
theorem JoinPlan.WellFormed.step {first : String} {done : List Relationship} {plan plan' : JoinPlan}
    (h : JoinPlan.WellFormed first done plan) (hdone : plan.joins = [] → done = [])
    (r : Relationship) (hr : r.left ≠ r.right) (hstep : plan.Step r plan') :
    JoinPlan.WellFormed first (done ++ [r]) plan' := by
  obtain ⟨used, hused, hfollows⟩ := h.follows
  have hsource : plan.source = first ∨ ∃ r' rs, done ++ [r] = r' :: rs ∧ ¬ r'.Touches first := by
    rcases h.source with hfirst | ⟨r', rs, rfl, htouches⟩
    · exact Or.inl hfirst
    · exact Or.inr ⟨r', rs ++ [r], rfl, htouches⟩
  have hkept : used.Sublist (done ++ [r]) := hused.trans (List.sublist_append_left done [r])
  cases hstep with
  | known hleft hright => exact ⟨h.nodup, ⟨used, hkept, hfollows⟩, hsource⟩
  | joined old new hsides hold hnew =>
      refine ⟨?_, ⟨used ++ [r], ?_, ?_⟩, hsource⟩
      · rw [JoinPlan.tables_join]
        exact h.nodup.append (List.nodup_singleton new) (List.disjoint_singleton.mpr hnew)
      · exact hused.append (List.Sublist.refl [r])
      · exact hfollows.snoc r old new hsides hold
  -- this is the very first relationship, and it does not touch the table the plan started at
  | moved base new hsides hleft hright hjoins =>
      obtain rfl := hdone hjoins
      have hbase : base ≠ new := by
        rintro rfl
        rcases hsides with ⟨h₁, h₂⟩ | ⟨h₁, h₂⟩ <;> exact hr (h₁.trans h₂.symm)
      have hfirst : plan.source = first := by
        rcases h.source with hfirst | ⟨_, _, hnil, _⟩
        · exact hfirst
        · cases hnil
      refine ⟨?_, ⟨[r], List.Sublist.refl [r], ?_⟩, Or.inr ⟨r, [], rfl, ?_⟩⟩
      · rw [JoinPlan.tables_join]
        simpa [JoinPlan.tables] using hbase
      · exact ⟨rfl, ⟨base, by simp [JoinPlan.join], hsides⟩, trivial⟩
      · rintro (htouch | htouch)
        · exact hleft (by simp [JoinPlan.tables, hfirst, htouch])
        · exact hright (by simp [JoinPlan.tables, hfirst, htouch])
  | skipped hleft hright hjoins => exact ⟨h.nodup, ⟨used, hkept, hfollows⟩, hsource⟩

/-- All steps keep a plan well formed. -/
theorem JoinPlan.WellFormed.foldl {first : String} (tables : List String)
    (relationships done : List Relationship) (plan : JoinPlan)
    (hrelationships : ∀ r ∈ relationships, r.left ≠ r.right)
    (h : JoinPlan.WellFormed first done plan) (hdone : plan.joins = [] → done = []) :
    JoinPlan.WellFormed first (done ++ relationships)
      (relationships.foldl (JoinPlan.extend tables) plan) := by
  induction relationships generalizing done plan with
  | nil => simpa using h
  | cons r rs ih =>
      obtain ⟨hr, hrs⟩ := List.forall_mem_cons.mp hrelationships
      have hstep := plan.step_extend tables r
      have hjoins := hstep.joins_ne_nil hr
      -- from here on something is joined, and the plan cannot start over any more
      have hall := ih (done ++ [r]) (plan.extend tables r) hrs (h.step hdone r hr hstep)
        fun hnil => absurd hnil hjoins
      rwa [List.append_assoc, List.singleton_append] at hall

/-- The plan of an intent whose relationships each relate two different tables is well formed. -/
theorem joinPlan_wellFormed (intent : Intent) (first : String)
    (h : ∀ r ∈ intent.joins, r.left ≠ r.right) :
    JoinPlan.WellFormed first intent.joins (joinPlan intent first) :=
  (JoinPlan.wellFormed_nil first).foldl intent.tables intent.joins [] ⟨first, []⟩ h fun _ => rfl

/-! ## The columns that joins compare -/

/-- Joins that follow relationships between columns of their own tables compare columns of the joined
table and of the tables before it. -/
theorem Follows.belongsTo {tables : List String} {rs : List Relationship} {joins : List JoinClause}
    (h : Follows tables rs joins) (hrs : ∀ r ∈ rs, r.ComparesOwn) (before after : List JoinClause)
    (join : JoinClause) (hjoins : joins = before ++ join :: after) :
    ∀ pair ∈ join.on, pair.1.BelongsTo (tables ++ (before ++ [join]).map JoinClause.table)
      ∧ pair.2.BelongsTo (tables ++ (before ++ [join]).map JoinClause.table) := by
  obtain ⟨r, hr, hon, table, htable, hsides⟩ := h.exists_connects before after join hjoins
  have hsub : [r.left, r.right] ⊆ tables ++ (before ++ [join]).map JoinClause.table := by
    refine List.Subset.trans hsides.sides_subset ?_
    rw [List.map_append, List.map_singleton, ← List.append_assoc]
    exact List.cons_subset.mpr ⟨List.mem_append_left _ htable, List.subset_append_right _ _⟩
  intro pair hpair
  obtain ⟨hleft, hright⟩ := hrs r hr pair (by rwa [← hon])
  exact ⟨hleft.mono hsub, hright.mono hsub⟩

/-! ## Statements -/

/-- The statement of an intent whose first table is given. -/
def statementFor (intent : Intent) (first : String) : SelectStatement where
  projection := intent.columns
  source := (joinPlan intent first).source
  joins := (joinPlan intent first).joins
  filter := intent.filter
  groupBy := intent.statementGroups
  having := intent.having
  orderBy := intent.orderBy
  limit := intent.limit

/-- An intent with a first table has the statement for it. -/
theorem statement_eq (intent : Intent) (first : String) (rest : List String)
    (h : intent.tables = first :: rest) : intent.statement = .ok (intent.statementFor first) := by
  unfold statement
  rw [h]
  rfl

/-- A question with a table has a statement. -/
theorem exists_statement (intent : Intent) (h : intent.tables ≠ []) :
    ∃ s, intent.statement = .ok s := by
  obtain ⟨first, rest, htables⟩ := List.exists_cons_of_ne_nil h
  exact ⟨_, intent.statement_eq first rest htables⟩

/-- A statement that is built is the one for the first table. -/
theorem exists_eq_statementFor (intent : Intent) (s : SelectStatement) (h : intent.statement = .ok s) :
    ∃ first rest, intent.tables = first :: rest ∧ s = intent.statementFor first := by
  cases htables : intent.tables with
  | nil =>
      unfold statement at h
      rw [htables] at h
      cases h
  | cons first rest =>
      rw [intent.statement_eq first rest htables] at h
      cases h
      exact ⟨first, rest, rfl, rfl⟩

end Intent

/-- Every join compares columns of the joined table and of the tables before it. -/
def Sql.SelectStatement.JoinsInScope (s : SelectStatement) : Prop :=
  ∀ before join after, s.joins = before ++ join :: after → ∀ pair ∈ join.on,
    pair.1.BelongsTo (s.source :: (before ++ [join]).map JoinClause.table)
      ∧ pair.2.BelongsTo (s.source :: (before ++ [join]).map JoinClause.table)

namespace Intent

/-- A question to a schema whose relationships compare their own columns has its joins in scope. -/
theorem joinsInScope_of_comparesOwn (schema : Schema) (text : String) (s : SelectStatement)
    (hschema : ∀ r ∈ schema.relationships, r.ComparesOwn)
    (h : (ofText schema text).statement = .ok s) : s.JoinsInScope := by
  obtain ⟨first, rest, _, rfl⟩ := exists_eq_statementFor _ s h
  have hnodup := nodup_tablesOf schema text
  have hdifferent : ∀ r ∈ (ofText schema text).joins, r.left ≠ r.right :=
    joinsOf_ne schema _ hnodup
  have hown : ∀ r ∈ (ofText schema text).joins, r.ComparesOwn :=
    forall_mem_joinsOf schema _ hnodup _ fun a _ b _ _ => schema.comparesOwn_of_mem_chain a b hschema
  obtain ⟨used, hused, hfollows⟩ := (joinPlan_wellFormed (ofText schema text) first hdifferent).follows
  intro before join after hjoins
  exact hfollows.belongsTo (fun r hr => hown r (hused.subset hr)) before after join hjoins

/-- **Joins.** An intent with a table whose relationships each relate two different tables has a statement
with a well-formed plan. The joins of a question are in scope if the relationships of its request name no
tables but their own two. -/
theorem statement_joins :
    (∀ (intent : Intent) (first : String) (rest : List String), intent.tables = first :: rest →
        (∀ r ∈ intent.joins, r.left ≠ r.right) →
        ∃ s, intent.statement = .ok s
          ∧ JoinPlan.WellFormed first intent.joins ⟨s.source, s.joins⟩)
      ∧ ∀ (request : Request) (text : String) (s : SelectStatement),
          (∀ entry ∈ request.relationships, entry.NamesOwn) →
          (ofText (Schema.ofRequest request) text).statement = .ok s → s.JoinsInScope := by
  constructor
  · intro intent first rest htables hrelationships
    exact ⟨_, intent.statement_eq first rest htables, joinPlan_wellFormed intent first hrelationships⟩
  · intro request text s hentries h
    have hschema := Schema.ofRequest_comparesOwn request hentries
    exact joinsInScope_of_comparesOwn (Schema.ofRequest request) text s hschema h

/-- An intent about orders whose relationships start elsewhere, come back, repeat and break off. -/
def scattered : Intent where
  action := .select
  tables := ["orders", "products"]
  joins :=
    [⟨"items", "products", [(.of "items" "product_id", .of "products" "id")]⟩,
      ⟨"items", "products", []⟩, ⟨"regions", "shops", []⟩, ⟨"orders", "items", []⟩,
      ⟨"products", "orders", []⟩]
  columns := []
  filter := none
  groupBy := []
  having := none
  orderBy := []
  limit := none

/-- A request with one relationship, one of whose columns is written with its table. -/
def linked : Request where
  query := "customers, orders"
  schema := [[("orders", .array [.string "total"]), ("customers", .array [.string "name"])]]
  relationships := [⟨["customers", "orders"], [("id", .string "orders.customer_id")]⟩]
  tableAliases := []
  columnAliases := []
  businessMetrics := []
  timePeriods := none

/-- Both halves hold of something: the scattered intent, and a question of the linked request. -/
theorem statement_joins_scattered :
    ((∀ r ∈ scattered.joins, r.left ≠ r.right)
        ∧ ∃ s, scattered.statement = .ok s
          ∧ JoinPlan.WellFormed "orders" scattered.joins ⟨s.source, s.joins⟩)
      ∧ (∀ entry ∈ linked.relationships, entry.NamesOwn)
        ∧ ∃ s, (ofText (Schema.ofRequest linked) linked.query).statement = .ok s ∧ s.joins ≠ []
          ∧ s.JoinsInScope := by
  have hscattered : ∀ r ∈ scattered.joins, r.left ≠ r.right := by decide
  have hlinked : ∀ entry ∈ linked.relationships, entry.NamesOwn := by
    intro entry hentry
    obtain rfl := List.mem_singleton.mp hentry
    rintro left right ⟨⟩ pair hpair
    obtain rfl := List.mem_singleton.mp hpair
    exact ⟨by decide, by decide⟩
  have htables : (ofText (Schema.ofRequest linked) linked.query).tables = ["customers", "orders"] := by
    decide +kernel
  have hjoins : (joinPlan (ofText (Schema.ofRequest linked) linked.query) "customers").joins ≠ [] := by
    decide +kernel
  have hs := statement_eq _ "customers" ["orders"] htables
  constructor
  · exact ⟨hscattered, statement_joins.1 scattered "orders" ["products"] rfl hscattered⟩
  · exact ⟨hlinked, _, hs, hjoins, statement_joins.2 linked linked.query _ hlinked hs⟩

end Intent

end TextToSql
