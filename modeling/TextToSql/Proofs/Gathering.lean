import Mathlib.Data.List.Induction
import TextToSql.Proofs.Intent.Projection
import TextToSql.Proofs.JoinPlan

/-!
# What a plan gathers

A plan starts at a table and gathers others by the relationships. The first relationship brings its two
tables into the plan in any case: if it does not touch the table that the plan starts at, that table is given
up for it. From then on a relationship brings in a table only if it connects it to one that is there. So a
table that was given up comes back if a later relationship connects it, and else a star of it is left without
its table.

* `JoinPlan.mem_tables_iff` : the tables of a plan are those that its relationships gather;
* `JoinPlan.source_foldl_extend` : the source of a plan is settled by its first relationship;
* `statement_star` : where the table of a star is to be found in the statement.
-/

namespace TextToSql

open Sql

/-- The tables that relationships gather, one after the other: the sides of the first of them, and each side
of a later one whose other side has been gathered by those before it. -/
inductive Relationship.Gathers : List Relationship → String → Prop
  | first (r : Relationship) (rs : List Relationship) (table : String) (h : r.Touches table) :
      Gathers (r :: rs) table
  | later (before : List Relationship) (r : Relationship) (after : List Relationship) (old table : String)
      (hold : Gathers before old) (h : r.Connects old table) : Gathers (before ++ r :: after) table

/-- Which of the two tables of a relationship a question mentions first. -/
def Relationship.earlierSide (r : Relationship) (tables : List String) : String :=
  if Intent.rank tables r.left ≤ Intent.rank tables r.right then r.left else r.right

namespace Relationship

/-- The side that is mentioned first is a side. -/
theorem touches_earlierSide (r : Relationship) (tables : List String) :
    r.Touches (r.earlierSide tables) := by
  unfold earlierSide
  split
  · exact Or.inl rfl
  · exact Or.inr rfl

variable {rs : List Relationship} {table : String}

/-- More relationships gather more. -/
theorem Gathers.append (h : Gathers rs table) (more : List Relationship) :
    Gathers (rs ++ more) table := by
  cases h with
  | first r rs table h => exact .first r (rs ++ more) table h
  | later before r after old table hold h =>
      rw [List.append_assoc, List.cons_append]
      exact .later before r (after ++ more) old table hold h

/-- No relationships gather nothing. -/
theorem Gathers.ne_nil (h : Gathers rs table) : rs ≠ [] := by
  cases h with
  | first r rs table h => exact List.cons_ne_nil r rs
  | later before r after old table hold h => simp

/-- A single relationship gathers its sides. -/
theorem gathers_singleton (r : Relationship) : Gathers [r] table ↔ r.Touches table := by
  constructor
  · intro h
    generalize hrs : [r] = rs at h
    cases h with
    | first r' rs' table h =>
        obtain ⟨rfl, -⟩ := List.cons.inj hrs
        exact h
    | later before r' after old table hold h =>
        have hlength := congrArg List.length hrs
        have hpos := List.length_pos_of_ne_nil hold.ne_nil
        simp only [List.length_append, List.length_cons, List.length_nil] at hlength
        omega
  · exact .first r [] table

/-- One more relationship gathers the tables that it connects to those gathered before it. -/
theorem gathers_snoc (hne : rs ≠ []) (r : Relationship) :
    Gathers (rs ++ [r]) table ↔ Gathers rs table ∨ ∃ old, Gathers rs old ∧ r.Connects old table := by
  constructor
  · intro h
    generalize hall : rs ++ [r] = all at h
    cases h with
    | first r' rs' table h =>
        obtain ⟨r'', rs'', rfl⟩ := List.exists_cons_of_ne_nil hne
        obtain ⟨rfl, -⟩ := List.cons.inj hall
        exact Or.inl (.first r'' rs'' table h)
    | later before r' after old table hold h =>
        rcases List.eq_nil_or_concat after with rfl | ⟨after, r'', rfl⟩
        · obtain ⟨rfl, hr⟩ := List.append_inj' hall rfl
          obtain ⟨rfl, -⟩ := List.cons.inj hr
          exact Or.inr ⟨old, hold, h⟩
        · rw [List.concat_eq_append, ← List.cons_append, ← List.append_assoc] at hall
          obtain ⟨rfl, -⟩ := List.append_inj' hall rfl
          exact Or.inl (.later before r' after old table hold h)
  · rintro (h | ⟨old, hold, h⟩)
    · exact h.append [r]
    · exact .later rs r [] old table hold h

end Relationship

namespace Intent

/-! ## The tables of a plan -/

/-- After a step from a plan that has joins, its tables are those from before and those that the relationship
connects to them. -/
theorem JoinPlan.Step.mem_tables_iff {plan plan' : JoinPlan} {r : Relationship} (h : plan.Step r plan')
    (hjoins : plan.joins ≠ []) (table : String) :
    table ∈ plan'.tables ↔ table ∈ plan.tables ∨ ∃ old ∈ plan.tables, r.Connects old table := by
  cases h with
  | known hleft hright =>
      refine ⟨Or.inl, ?_⟩
      rintro (htable | ⟨old, _, ⟨-, rfl⟩ | ⟨rfl, -⟩⟩)
      · exact htable
      · exact hright
      · exact hleft
  | joined old new hsides hold hnew =>
      rw [JoinPlan.tables_join, List.mem_append, List.mem_singleton]
      constructor
      · rintro (htable | rfl)
        · exact Or.inl htable
        · exact Or.inr ⟨old, hold, hsides⟩
      · rintro (htable | ⟨old', hold', hsides'⟩)
        · exact Or.inl htable
        -- the relationship has only two sides, and `new` is the one that was not there
        · rcases hsides with ⟨rfl, rfl⟩ | ⟨rfl, rfl⟩ <;> rcases hsides' with ⟨rfl, rfl⟩ | ⟨rfl, rfl⟩
          · exact Or.inr rfl
          · exact absurd hold' hnew
          · exact absurd hold' hnew
          · exact Or.inr rfl
  | moved base new hsides hleft hright hnil => exact absurd hnil hjoins
  | skipped hleft hright _ =>
      refine ⟨Or.inl, ?_⟩
      rintro (htable | ⟨old, hold, ⟨rfl, -⟩ | ⟨-, rfl⟩⟩)
      · exact htable
      · exact absurd hold hleft
      · exact absurd hold hright

/-- After the first step the tables of a plan are the sides of the relationship, wherever it started. -/
theorem JoinPlan.Step.mem_tables_first {first : String} {plan' : JoinPlan} {r : Relationship}
    (h : JoinPlan.Step ⟨first, []⟩ r plan') (hr : r.left ≠ r.right) (table : String) :
    table ∈ plan'.tables ↔ r.Touches table := by
  have hstart : (⟨first, []⟩ : JoinPlan).tables = [first] := rfl
  have hsides : ∀ {a b}, r.Connects a b → (table = a ∨ table = b ↔ r.Touches table) := by
    rintro a b (⟨rfl, rfl⟩ | ⟨rfl, rfl⟩)
    · exact or_congr eq_comm eq_comm
    · exact or_comm.trans (or_congr eq_comm eq_comm)
  cases h with
  | known hleft hright =>
      rw [hstart, List.mem_singleton] at hleft hright
      exact absurd (hleft.trans hright.symm) hr
  | joined old new hconnects hold hnew =>
      rw [JoinPlan.tables_join, hstart] at *
      obtain rfl := List.mem_singleton.mp hold
      rw [List.singleton_append, List.mem_cons, List.mem_singleton]
      exact hsides hconnects
  | moved base new hconnects hleft hright hnil =>
      have hbase : (⟨base, []⟩ : JoinPlan).tables = [base] := rfl
      rw [JoinPlan.tables_join, hbase, List.singleton_append, List.mem_cons, List.mem_singleton]
      exact hsides hconnects
  | skipped hleft hright hjoins => exact absurd rfl hjoins

/-- **The tables of a plan** for some relationships are those that they gather. -/
theorem JoinPlan.mem_tables_iff (tables : List String) (first : String) (rs : List Relationship)
    (hrs : ∀ r ∈ rs, r.left ≠ r.right) (hne : rs ≠ []) (table : String) :
    table ∈ (rs.foldl (JoinPlan.extend tables) ⟨first, []⟩).tables ↔ Relationship.Gathers rs table := by
  suffices h : (rs.foldl (JoinPlan.extend tables) ⟨first, []⟩).joins ≠ []
      ∧ ∀ table, table ∈ (rs.foldl (JoinPlan.extend tables) ⟨first, []⟩).tables
        ↔ Relationship.Gathers rs table from h.2 table
  -- by the last relationship: all but the first find a plan that has joins
  induction rs using List.reverseRecOn with
  | nil => exact absurd rfl hne
  | append_singleton rs r ih =>
      obtain ⟨hrs, hr⟩ := List.forall_mem_append.mp hrs
      have hr : r.left ≠ r.right := hr r (List.mem_singleton_self r)
      rw [List.foldl_append, List.foldl_cons, List.foldl_nil]
      have hstep := JoinPlan.step_extend tables (rs.foldl (JoinPlan.extend tables) ⟨first, []⟩) r
      refine ⟨hstep.joins_ne_nil hr, fun table => ?_⟩
      by_cases hnil : rs = []
      · subst hnil
        rw [List.nil_append, Relationship.gathers_singleton]
        exact hstep.mem_tables_first hr table
      · obtain ⟨hjoins, hmem⟩ := ih hrs hnil
        rw [hstep.mem_tables_iff hjoins, Relationship.gathers_snoc hnil]
        simp only [hmem]

/-! ## The source of a plan -/

/-- A step from a plan that has joins keeps its source. -/
theorem JoinPlan.Step.source_eq {plan plan' : JoinPlan} {r : Relationship} (h : plan.Step r plan')
    (hjoins : plan.joins ≠ []) : plan'.source = plan.source := by
  cases h with
  | known hleft hright => rfl
  | joined old new hsides hold hnew => rfl
  | moved base new hsides hleft hright hnil => exact absurd hnil hjoins
  | skipped hleft hright _ => rfl

/-- The first step keeps the source if the relationship touches it, and else moves it to the side that is
mentioned first. -/
theorem JoinPlan.source_extend_first (tables : List String) (first : String) (r : Relationship) :
    (r.Touches first → (JoinPlan.extend tables ⟨first, []⟩ r).source = first)
      ∧ (¬ r.Touches first →
        (JoinPlan.extend tables ⟨first, []⟩ r).source = r.earlierSide tables) := by
  have hstart : (⟨first, []⟩ : JoinPlan).tables = [first] := rfl
  unfold JoinPlan.extend Relationship.Touches Relationship.earlierSide
  simp only [hstart, List.contains_eq_mem, List.mem_singleton]
  by_cases hleft : r.left = first <;> by_cases hright : r.right = first <;>
    simp [hleft, hright, JoinPlan.join]
  split <;> rfl

/-- **The source of a plan** is settled by the first relationship: it stays where the plan started if the
relationship touches it, and is moved to the side that is mentioned first if not. -/
theorem JoinPlan.source_foldl_extend (tables : List String) (first : String) (r : Relationship)
    (rs : List Relationship) (hrs : ∀ r' ∈ r :: rs, r'.left ≠ r'.right) :
    let plan := (r :: rs).foldl (JoinPlan.extend tables) ⟨first, []⟩
    (r.Touches first → plan.source = first)
      ∧ (¬ r.Touches first → plan.source = r.earlierSide tables) := by
  intro plan
  obtain ⟨hr, hrest⟩ := List.forall_mem_cons.mp hrs
  clear hrs
  suffices h : plan.source = (JoinPlan.extend tables ⟨first, []⟩ r).source by
    rw [h]
    exact JoinPlan.source_extend_first tables first r
  have hjoins := (JoinPlan.step_extend tables ⟨first, []⟩ r).joins_ne_nil hr
  show (rs.foldl (JoinPlan.extend tables) _).source = _
  generalize JoinPlan.extend tables ⟨first, []⟩ r = start at hjoins
  induction rs generalizing start with
  | nil => rfl
  | cons r' rs ih =>
      obtain ⟨hr', hrest⟩ := List.forall_mem_cons.mp hrest
      have hstep := JoinPlan.step_extend tables start r'
      rw [List.foldl_cons, ih hrest _ (hstep.joins_ne_nil hr'), hstep.source_eq hjoins]

/-! ## Stars -/

/-- The table of a star is the first table of the question. -/
theorem head?_tables_of_star (s : Selection) (table : String)
    (h : projectionOf s = [.plain (.tableStar table)]) : s.tables.head? = some table := by
  have hitem : SelectItem.plain (.tableStar table) ∈ projectionOf s := by
    rw [h]
    exact List.mem_singleton_self _
  generalize hstar : SelectItem.plain (.tableStar table) = item at hitem
  cases projectedItem_of_mem s item hitem with
  | tableStar first rest htables =>
      cases hstar
      rw [htables]
      rfl
  | metric => cases hstar
  | column => cases hstar
  | aggregate => cases hstar
  | countAll => cases hstar
  | star => cases hstar

/-- The first relationship of a question whose first two tables are connected touches the first one. -/
theorem touches_of_mem_head?_joinsOf (schema : Schema) (first second : String) (rest : List String)
    (h : schema.chain first second ≠ []) :
    ∀ r ∈ (joinsOf schema (first :: second :: rest)).head?, r.Touches first := by
  intro r hr
  rw [joinsOf, List.head?_append_of_ne_nil _ h] at hr
  have hpath := schema.path_chain first second h
  generalize schema.chain first second = hops at hr hpath
  cases hpath with
  | nil => cases hr
  | cons r' rs b hrest =>
      cases hr
      exact Or.inl rfl

/-- **Stars.** A question whose projection is a star is answered by a statement, and the star is one of its
first table. This is the source of the statement unless the first relationship does not touch it; in particular
it is if the first two tables are connected. Where the first relationship does not touch it, the side of the
relationship that is mentioned first is the source, and the table of the star is joined exactly if a later
relationship connects it to a table that is there. -/
theorem statement_star (schema : Schema) (text : String) (table : String)
    (hstar : (ofText schema text).columns = [.plain (.tableStar table)]) :
    let tables := tablesOf schema text
    let joins := joinsOf schema tables
    ∃ s, (ofText schema text).statement = .ok s
      ∧ tables.head? = some table
      ∧ ((∀ r ∈ joins.head?, r.Touches table) → s.source = table)
      ∧ (∀ second rest, tables = table :: second :: rest → schema.chain table second ≠ [] →
          s.source = table)
      ∧ ∀ r ∈ joins.head?, ¬ r.Touches table →
          s.source = r.earlierSide tables
            ∧ (table ∈ s.joins.map JoinClause.table ↔ Relationship.Gathers joins table) := by
  intro tables joins
  have hhead : tables.head? = some table := head?_tables_of_star ⟨schema, tables, text⟩ table hstar
  obtain ⟨rest, htables⟩ := List.head?_eq_some_iff.mp hhead
  have hs := statement_eq (ofText schema text) table rest htables
  have hjoins : ∀ r ∈ joins, r.left ≠ r.right := joinsOf_ne schema tables (nodup_tablesOf schema text)
  have hplan : joinPlan (ofText schema text) table
      = joins.foldl (JoinPlan.extend tables) ⟨table, []⟩ := rfl
  have hstays : (∀ r ∈ joins.head?, r.Touches table) →
      (joinPlan (ofText schema text) table).source = table := by
    intro htouches
    rw [hplan]
    cases hrs : joins with
    | nil => rfl
    | cons r rs =>
        rw [hrs] at hjoins htouches
        exact (JoinPlan.source_foldl_extend tables table r rs hjoins).1 (htouches r rfl)
  refine ⟨_, hs, hhead, hstays, ?_, ?_⟩
  · intro second rest' htables hchain
    refine hstays fun r hr => ?_
    have hr : r ∈ (joinsOf schema tables).head? := hr
    rw [htables] at hr
    exact touches_of_mem_head?_joinsOf schema table second rest' hchain r hr
  · intro r hr htouches
    obtain ⟨rs, hrs⟩ : ∃ rs, joins = r :: rs := List.head?_eq_some_iff.mp hr
    have hne : joins ≠ [] := by
      rw [hrs]
      exact List.cons_ne_nil r rs
    have hsource : (joinPlan (ofText schema text) table).source = r.earlierSide tables := by
      rw [hrs] at hjoins hplan
      rw [hplan]
      exact (JoinPlan.source_foldl_extend tables table r rs hjoins).2 htouches
    refine ⟨hsource, ?_⟩
    rw [← JoinPlan.mem_tables_iff tables table joins hjoins hne, ← hplan, JoinPlan.tables, List.mem_cons,
      hsource]
    -- the source is a side of the relationship, so it is another table
    refine ⟨Or.inr, fun hmem => hmem.resolve_left fun heq => htouches ?_⟩
    rw [heq]
    exact r.touches_earlierSide tables

/-- A schema whose items reach the stores over their suppliers only. -/
def supplied : Schema where
  tables := [⟨"stores", []⟩, ⟨"items", []⟩, ⟨"suppliers", []⟩, ⟨"regions", []⟩, ⟨"batches", []⟩]
  tableAliases := []
  columnAliases := []
  relationships :=
    [⟨"items", "batches", [(.of "items" "id", .of "batches" "item_id")]⟩,
      ⟨"batches", "suppliers", [(.of "batches" "supplier_id", .of "suppliers" "id")]⟩,
      ⟨"suppliers", "stores", [(.of "suppliers" "store_id", .of "stores" "id")]⟩,
      ⟨"stores", "regions", [(.of "stores" "region_id", .of "regions" "id")]⟩]
  metrics := []
  timePhrases := []

/-- A question whose first table is given up for its second one, and joined after all as the way from its
third table to its fourth. -/
theorem statement_star_supplied :
    ∃ s, (ofText supplied "stores, items, suppliers, regions").statement = .ok s
      ∧ (ofText supplied "stores, items, suppliers, regions").columns = [.plain (.tableStar "stores")]
      ∧ s.source = "items"
      ∧ "stores" ∈ s.joins.map JoinClause.table := by
  have htables : tablesOf supplied "stores, items, suppliers, regions"
      = ["stores", "items", "suppliers", "regions"] := by decide +kernel
  have hstar : (ofText supplied "stores, items, suppliers, regions").columns
      = [.plain (.tableStar "stores")] := by decide +kernel
  obtain ⟨s, hs, -, -, -, hmoved⟩ :=
    statement_star supplied "stores, items, suppliers, regions" "stores" hstar
  have hjoins : joinsOf supplied ["stores", "items", "suppliers", "regions"]
      = supplied.relationships := by decide +kernel
  rw [htables, hjoins] at hmoved
  obtain ⟨hsource, hgathers⟩ := hmoved _ rfl (by unfold Relationship.Touches; decide)
  refine ⟨s, hs, hstar, hsource, hgathers.mpr ?_⟩
  -- the relationships are taken in their order: each connects a table to the one before it
  refine .later (supplied.relationships.take 2) _ (supplied.relationships.drop 3) "suppliers" "stores" ?_
    (Or.inl ⟨rfl, rfl⟩)
  refine .later (supplied.relationships.take 1) _ [] "batches" "suppliers" ?_ (Or.inl ⟨rfl, rfl⟩)
  exact .first _ [] "batches" (Or.inr rfl)

/-- A schema whose products are connected to nothing. -/
def unlinked : Schema where
  tables := [⟨"products", ["product_id"]⟩, ⟨"orders", ["order_id"]⟩, ⟨"customers", ["customer_id"]⟩]
  tableAliases := []
  columnAliases := []
  relationships := [⟨"customers", "orders", [(.of "customers" "customer_id", .of "orders" "customer_id")]⟩]
  metrics := []
  timePhrases := []

/-- A question whose first table is given up for the other two: the star of it is all that is selected. -/
theorem not_gathered_products :
    ∃ s, (ofText unlinked "products, orders, customers").statement = .ok s
      ∧ s.projection = [.plain (.tableStar "products")]
      ∧ ¬ "products" ∈ s.source :: s.joins.map JoinClause.table := by
  have htables : (ofText unlinked "products, orders, customers").tables
      = ["products", "orders", "customers"] := by decide +kernel
  have hs := statement_eq _ "products" ["orders", "customers"] htables
  refine ⟨_, hs, ?_, ?_⟩
  · decide +kernel
  · decide +kernel

end Intent

end TextToSql
