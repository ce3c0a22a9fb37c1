import Mathlib.Data.List.Chain
import Mathlib.Data.List.Count
import TextToSql.Proofs.Intent.Supply
import TextToSql.Proofs.JoinPlan

/-!
# The scope of a statement

If every table of a question is connected to the next one, the source is the first table and all others
are joined to it, each once; the projection, the condition on rows and the groups look at these tables
only.

* `mem_joinPlan_tables` : the tables of the plan for a question about connected tables;
* `statement_scope` : the scope of the statement of a question about connected tables.
-/

namespace TextToSql

open Sql

/-- Neighbours in a list of tables are connected by a chain of relationships. -/
def Schema.LinksNeighbours (schema : Schema) (tables : List String) : Prop :=
  tables.IsChain fun a b => schema.chain a b ≠ []

namespace Intent

/-! ## The plan of connected tables -/

/-- The relationships between connected neighbours are a path from the first table. -/
theorem path_joinsOf (schema : Schema) (first : String) (rest : List String)
    (h : schema.LinksNeighbours (first :: rest)) :
    ∃ last, Relationship.Path first last (joinsOf schema (first :: rest)) := by
  induction rest generalizing first with
  | nil => exact ⟨first, .nil first⟩
  | cons next rest ih =>
      obtain ⟨hchain, hrest⟩ := List.isChain_cons_cons.mp h
      obtain ⟨last, hlast⟩ := ih next hrest
      exact ⟨last, (schema.path_chain first next hchain).append hlast⟩

/-- Every connected table behind the first one is a side of a relationship. -/
theorem exists_touches_joinsOf (schema : Schema) (first : String) (rest : List String)
    (h : schema.LinksNeighbours (first :: rest)) :
    ∀ table ∈ rest, ∃ r ∈ joinsOf schema (first :: rest), r.Touches table := by
  induction rest generalizing first with
  | nil => simp
  | cons next rest ih =>
      obtain ⟨hchain, hrest⟩ := List.isChain_cons_cons.mp h
      intro table htable
      rw [joinsOf]
      rcases List.mem_cons.mp htable with rfl | htable
      · obtain ⟨r, hr, hright⟩ := (schema.path_chain first table hchain).exists_right_eq hchain
        exact ⟨r, List.mem_append_left _ hr, Or.inr hright⟩
      · obtain ⟨r, hr, htouches⟩ := ih next hrest table htable
        exact ⟨r, List.mem_append_right _ hr, htouches⟩

/-- The plan of connected tables starts at the first one, and its tables are these tables and the sides of
the relationships between them. -/
theorem JoinPlan.mem_foldl_extend_connected (schema : Schema) (tables : List String) (first : String)
    (rest : List String) (h : schema.LinksNeighbours (first :: rest)) :
    let plan := (joinsOf schema (first :: rest)).foldl (JoinPlan.extend tables) ⟨first, []⟩
    plan.source = first ∧ ∀ table, table ∈ plan.tables ↔
      table ∈ first :: rest ∨ ∃ r ∈ joinsOf schema (first :: rest), r.Touches table := by
  intro plan
  have hfirst : first ∈ (⟨first, []⟩ : JoinPlan).tables := List.mem_cons_self
  obtain ⟨last, hpath⟩ := path_joinsOf schema first rest h
  obtain ⟨hsource, hsub, hall⟩ := JoinPlan.foldl_extend_path tables ⟨first, []⟩ hpath hfirst
  refine ⟨hsource, fun table => ⟨?_, ?_⟩⟩
  · intro htable
    rcases JoinPlan.tables_foldl_extend tables _ _ table htable with hnew | htouches
    · obtain rfl := List.mem_singleton.mp hnew
      exact Or.inl List.mem_cons_self
    · exact Or.inr htouches
  · rintro (htable | ⟨r, hr, htouches⟩)
    · rcases List.mem_cons.mp htable with rfl | htable
      · exact hsub hfirst
      · obtain ⟨r, hr, htouches⟩ := exists_touches_joinsOf schema first rest h table htable
        exact hall r hr table htouches
    · exact hall r hr table htouches

/-- The plan of a question about connected tables starts at the first one, and its tables are the tables of
the question and the sides of the relationships between neighbours. -/
theorem mem_joinPlan_tables (schema : Schema) (text first : String) (rest : List String)
    (htables : tablesOf schema text = first :: rest)
    (hlinks : schema.LinksNeighbours (tablesOf schema text)) :
    (joinPlan (ofText schema text) first).source = first
      ∧ ∀ table, table ∈ (joinPlan (ofText schema text) first).tables ↔
          table ∈ tablesOf schema text
            ∨ ∃ r ∈ joinsOf schema (tablesOf schema text), r.Touches table := by
  rw [htables] at hlinks
  have hplan := JoinPlan.mem_foldl_extend_connected schema (tablesOf schema text) first rest hlinks
  rwa [← htables] at hplan

/-- The plan of a question about connected tables starts at the first one and has each of them once. -/
theorem joinPlan_connected (schema : Schema) (text first : String) (rest : List String)
    (htables : tablesOf schema text = first :: rest)
    (hconnected : schema.LinksNeighbours (tablesOf schema text)) :
    (joinPlan (ofText schema text) first).source = first
      ∧ ∀ table ∈ tablesOf schema text,
          (joinPlan (ofText schema text) first).tables.count table = 1 := by
  have hnodup := nodup_tablesOf schema text
  have hplan := (joinPlan_wellFormed (ofText schema text) first (joinsOf_ne schema _ hnodup)).nodup
  obtain ⟨hsource, hmem⟩ := mem_joinPlan_tables schema text first rest htables hconnected
  refine ⟨hsource, ?_⟩
  intro table htable
  exact List.count_eq_one_of_mem hplan ((hmem table).mpr (Or.inl htable))

end Intent

/-! ## The names in the clauses -/

/-- A piece that names only tables of a question and their declared columns, but for three columns of
orders in a question about orders. -/
def Sql.Piece.InScope (s : Selection) : Piece → Prop
  | .table name => name ∈ s.tables
  | .column ref => s.Offers ref ∨ (s.has "orders" ∧ ref ∈ orderColumns)
  | _ => True

/-- A statement in the scope of a question: it starts from the first table, has every table once, and names
nothing else in its projection, its condition on rows and its groups. -/
structure Sql.SelectStatement.Scoped (selection : Selection) (s : SelectStatement) : Prop where
  source : selection.tables.head? = some s.source
  once : ∀ table ∈ selection.tables, (s.source :: s.joins.map JoinClause.table).count table = 1
  projection : ∀ item ∈ s.projection, ∀ piece ∈ item.expr.pieces, piece.InScope selection
  filter : ∀ p ∈ s.filter, ∀ piece ∈ p.pieces, piece.InScope selection
  groupBy : ∀ key ∈ s.groupBy, ∀ piece ∈ key.pieces, piece.InScope selection

namespace Intent

variable {s : Selection}

/-- What a question supplies names only what is in its scope. -/
theorem inScope_of_supplies {piece : Piece} (h : s.Supplies piece) : piece.InScope s := by
  cases h with
  | table name hname => exact hname
  | column ref href => exact Or.inl href
  | orderColumn ref horders href => exact Or.inr ⟨horders, href⟩
  | number digits hdigits => trivial
  | text value hvalue => trivial
  | fragment phrase hphrase => trivial

/-! ## Statements -/

/-- The statement of a question whose neighbouring tables are connected is in its scope. -/
theorem scoped_of_linksNeighbours (schema : Schema) (text : String) (s : SelectStatement)
    (hlinks : schema.LinksNeighbours (tablesOf schema text))
    (h : (ofText schema text).statement = .ok s) :
    s.Scoped ⟨schema, tablesOf schema text, text⟩ := by
  obtain ⟨first, rest, hfirst, rfl⟩ := exists_eq_statementFor _ s h
  have htables : tablesOf schema text = first :: rest := hfirst
  obtain ⟨hsource, hcount⟩ := joinPlan_connected schema text first rest htables hlinks
  constructor
  · show (tablesOf schema text).head? = some (joinPlan (ofText schema text) first).source
    rw [htables, hsource]
    rfl
  · exact hcount
  · intro item hitem piece hpiece
    have hprojected := projectedItem_of_mem ⟨schema, tablesOf schema text, text⟩ item hitem
    exact inScope_of_supplies (hprojected.supplies piece hpiece)
  · intro p hp piece hpiece
    obtain ⟨c, hc, hpiece⟩ := List.mem_flatMap.mp hpiece
    exact inScope_of_supplies ((rowCondition_of_mem_atoms _ p hp c hc).supplies piece hpiece)
  · intro key hkey piece hpiece
    have hgroup := groupKey_of_mem_statementGroups schema text key hkey
    exact inScope_of_supplies (hgroup.supplies piece hpiece)

/-- **Scope.** A question with a table has a statement, and if its neighbouring tables are connected, the
statement is in its scope: the joins reach every table of the question, and no clause on rows or groups
leaves them. -/
theorem statement_scope (schema : Schema) (text : String)
    (hlinks : schema.LinksNeighbours (tablesOf schema text)) :
    (tablesOf schema text ≠ [] → ∃ s, (ofText schema text).statement = .ok s)
      ∧ ∀ s, (ofText schema text).statement = .ok s →
          s.Scoped ⟨schema, tablesOf schema text, text⟩ := by
  constructor
  · intro hne
    obtain ⟨first, rest, htables⟩ := List.exists_cons_of_ne_nil hne
    exact ⟨_, statement_eq _ first rest htables⟩
  · intro s h
    exact scoped_of_linksNeighbours schema text s hlinks h

/-- A schema in which customers and items are connected over orders only. -/
def shop : Schema where
  tables := [⟨"customers", ["name"]⟩, ⟨"orders", ["status"]⟩, ⟨"items", ["price"]⟩]
  tableAliases := []
  columnAliases := []
  relationships :=
    [⟨"orders", "customers", [(.of "orders" "customer_id", .of "customers" "id")]⟩,
      ⟨"items", "orders", [(.of "items" "order_id", .of "orders" "id")]⟩]
  metrics := []
  timePhrases := []

/-- A question whose second table is reached over its third one, which is then there already. -/
theorem statement_scope_shop :
    shop.LinksNeighbours ["customers", "items", "orders"]
      ∧ ∃ s, (ofText shop "name of customers, items, orders").statement = .ok s
          ∧ s.joins.map JoinClause.table = ["orders", "items"]
          ∧ s.Scoped ⟨shop, ["customers", "items", "orders"], "name of customers, items, orders"⟩ := by
  have htables : tablesOf shop "name of customers, items, orders" = ["customers", "items", "orders"] := by
    decide +kernel
  have hlinks : shop.LinksNeighbours ["customers", "items", "orders"] :=
    .cons_cons (by decide) (.cons_cons (by decide) (.singleton _))
  have hjoins : (joinPlan (ofText shop "name of customers, items, orders") "customers").joins.map
      JoinClause.table = ["orders", "items"] := by decide +kernel
  have hscope := statement_scope shop "name of customers, items, orders" (by rwa [htables])
  rw [htables] at hscope
  have hs := statement_eq (ofText shop "name of customers, items, orders") "customers" _ htables
  exact ⟨hlinks, _, hs, hjoins, hscope.2 _ hs⟩

end Intent

end TextToSql
