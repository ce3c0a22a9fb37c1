import TextToSql.Proofs.JoinPlan

/-!
# The conditions of joins

A join takes its condition from the first entry of the request for its two tables, and it takes all of it:
one equation for each member of the entry that is a text. An entry without such members connects its tables
all the same, and its join is printed with nothing behind `ON`.

* `Schema.relationship?_ofRequest` : the relationship between two tables is that of their entry;
* `Intent.statement_joinConditions` : the joins of a statement have as many equations as their entries;
* `Intent.not_joined_on_condition` : so a join can be without any.
-/

namespace TextToSql

open Sql

/-- The entry of a request that counts for two tables: the first one from the one to the other, else the
first one the other way round. -/
def Request.entryFor? (request : Request) (a b : String) : Option RelationshipEntry :=
  (request.relationships.find? fun entry => entry.tables = [a, b]).or
    (request.relationships.find? fun entry => entry.tables = [b, a])

/-- The members of an entry that its condition is made of: those that are texts. -/
def RelationshipEntry.equations (entry : RelationshipEntry) : List (String × String) :=
  Schema.textMembers entry.joinCondition

/-! ## Entries -/

namespace Schema

/-- An entry for two tables declares a relationship, with an equation for each of its members that are
texts. -/
theorem relationshipOf?_of_tables (entry : RelationshipEntry) (left right : String)
    (h : entry.tables = [left, right]) :
    ∃ r, relationshipOf? entry = some r ∧ r.on.length = entry.equations.length := by
  refine ⟨⟨left, right, _⟩, by rw [relationshipOf?, h], ?_⟩
  exact List.length_map _

/-- The relationship that an entry declares is between the two tables of the entry. -/
theorem tables_of_relationshipOf? (entry : RelationshipEntry) (r : Relationship)
    (h : relationshipOf? entry = some r) : entry.tables = [r.left, r.right] := by
  unfold relationshipOf? at h
  split at h
  · next left right htables =>
      cases h
      exact htables
  · cases h

/-- The first relationship from one table to another is that of the first entry from the one to the
other. -/
theorem find?_relationshipOf? (entries : List RelationshipEntry) (a b : String) :
    ((entries.filterMap relationshipOf?).find? fun r => r.left = a && r.right = b)
      = (entries.find? fun entry => entry.tables = [a, b]).bind relationshipOf? := by
  rw [List.find?_filterMap]
  congr 2
  funext entry
  cases hr : relationshipOf? entry with
  | none =>
      have hne : entry.tables ≠ [a, b] := by
        intro htables
        obtain ⟨r, hsome, -⟩ := relationshipOf?_of_tables entry a b htables
        simp [hsome] at hr
      simp [hne]
  | some r => simp [tables_of_relationshipOf? entry r hr]

/-- **The relationship between two tables** is that of the entry that counts for them. -/
theorem relationship?_ofRequest (request : Request) (a b : String) :
    (ofRequest request).relationship? a b = (request.entryFor? a b).bind relationshipOf? := by
  have hrelationships : (ofRequest request).relationships
      = request.relationships.filterMap relationshipOf? := rfl
  rw [relationship?, hrelationships, find?_relationshipOf?, find?_relationshipOf?, Request.entryFor?]
  cases hentry : request.relationships.find? fun entry => entry.tables = [a, b] with
  | none => rfl
  | some entry =>
      have htables : entry.tables = [a, b] := by simpa using List.find?_some hentry
      obtain ⟨r, hr, -⟩ := relationshipOf?_of_tables entry a b htables
      simp [hr]

/-- The relationship between two tables has an equation for each text among the members of their entry. -/
theorem exists_entryFor? (request : Request) (a b : String) (r : Relationship)
    (h : (ofRequest request).relationship? a b = some r) :
    ∃ entry, request.entryFor? a b = some entry ∧ r.on.length = entry.equations.length := by
  rw [relationship?_ofRequest] at h
  obtain ⟨entry, hentry, hr⟩ := Option.bind_eq_some_iff.mp h
  obtain ⟨r', hr', hlength⟩ := relationshipOf?_of_tables entry _ _ (tables_of_relationshipOf? entry r hr)
  obtain rfl : r' = r := Option.some.inj (hr'.symm.trans hr)
  exact ⟨entry, hentry, hlength⟩

end Schema

/-- The entry that counts for two tables is one of the request, and it is for two tables. -/
theorem Request.mem_of_entryFor? (request : Request) (a b : String) (entry : RelationshipEntry)
    (h : request.entryFor? a b = some entry) :
    entry ∈ request.relationships ∧ entry.tables.length = 2 := by
  rcases Option.or_eq_some_iff.mp h with h | ⟨-, h⟩
  · have htables : entry.tables = [a, b] := by simpa using List.find?_some h
    exact ⟨List.mem_of_find?_eq_some h, by rw [htables]; rfl⟩
  · have htables : entry.tables = [b, a] := by simpa using List.find?_some h
    exact ⟨List.mem_of_find?_eq_some h, by rw [htables]; rfl⟩

/-! ## Joins -/

/-- Pieces with a separator between them start with the first piece. -/
theorem exists_intercalate_eq (separator piece : String) (pieces : List String) :
    ∃ rest, separator.intercalate (piece :: pieces) = piece ++ rest := by
  cases pieces with
  | nil => exact ⟨"", by rw [String.intercalate_singleton, String.append_empty]⟩
  | cons next pieces =>
      exact ⟨_, by rw [String.intercalate_cons_cons, String.append_assoc]⟩

/-- A join with a condition is printed with an equation behind `ON`. -/
theorem Sql.JoinClause.exists_print_eq (q : Quoting) (join : JoinClause) (h : join.on ≠ []) :
    ∃ l r rest, (l, r) ∈ join.on ∧ join.print q = " JOIN " ++ q.name join.table ++ " ON "
      ++ (l.print q ++ " = " ++ r.print q ++ rest) := by
  obtain ⟨⟨l, r⟩, more, hon⟩ := List.exists_cons_of_ne_nil h
  obtain ⟨rest, hrest⟩ := exists_intercalate_eq " AND " (l.print q ++ " = " ++ r.print q)
    (more.map fun pair => pair.1.print q ++ " = " ++ pair.2.print q)
  refine ⟨l, r, rest, ?_, ?_⟩
  · rw [hon]
    exact List.mem_cons_self
  · rw [JoinClause.print, hon, List.map_cons]
    exact congrArg (" JOIN " ++ q.name join.table ++ " ON " ++ ·) hrest

namespace Intent

/-- A join of a statement is a hop between its table and a table before it, and has the condition of the
relationship between the two. -/
theorem exists_relationship?_of_join (schema : Schema) (text : String) (s : SelectStatement)
    (h : (ofText schema text).statement = .ok s) (before after : List JoinClause) (join : JoinClause)
    (hjoins : s.joins = before ++ join :: after) :
    ∃ table ∈ s.source :: before.map JoinClause.table, ∃ r,
      (schema.relationship? table join.table = some r
        ∨ schema.relationship? join.table table = some r)
      ∧ join.on = r.on := by
  obtain ⟨first, rest, _, rfl⟩ := exists_eq_statementFor _ s h
  have hnodup := nodup_tablesOf schema text
  have hhops : ∀ hop ∈ (ofText schema text).joins,
      ∃ r, schema.relationship? hop.left hop.right = some r ∧ hop.on = r.on :=
    forall_mem_joinsOf schema _ hnodup _ fun a _ b _ _ => schema.relationship?_of_mem_chain a b
  obtain ⟨used, hused, hfollows⟩ :=
    (joinPlan_wellFormed (ofText schema text) first (joinsOf_ne schema _ hnodup)).follows
  obtain ⟨hop, hhop, hon, table, htable, hsides⟩ :=
    hfollows.exists_connects before after join hjoins
  obtain ⟨r, hr, hron⟩ := hhops hop (hused.subset hhop)
  refine ⟨table, htable, r, ?_, hon.trans hron⟩
  rcases hsides with ⟨hleft, hright⟩ | ⟨hleft, hright⟩
  · rw [hleft, hright] at hr
    exact Or.inl hr
  · rw [hleft, hright] at hr
    exact Or.inr hr

/-- **Conditions of joins.** Every join of a statement is between its table and a table before it, and has
as many equations as the entry for the two has members that are texts. So if every entry for two tables has
one, every join is printed with an equation behind `ON`. -/
theorem statement_joinConditions (request : Request) (text : String) (s : SelectStatement)
    (h : (ofText (Schema.ofRequest request) text).statement = .ok s) :
    (∀ before join after, s.joins = before ++ join :: after →
        ∃ table ∈ s.source :: before.map JoinClause.table, ∃ entry,
          (request.entryFor? table join.table = some entry
            ∨ request.entryFor? join.table table = some entry)
          ∧ join.on.length = entry.equations.length)
      ∧ ((∀ entry ∈ request.relationships, entry.tables.length = 2 → entry.equations ≠ []) →
          ∀ join ∈ s.joins, ∃ l r rest, (l, r) ∈ join.on
            ∧ join.print .quoted = " JOIN " ++ quoteIdentifier join.table ++ " ON "
              ++ (l.print .quoted ++ " = " ++ r.print .quoted ++ rest)) := by
  have hentries : ∀ before join after, s.joins = before ++ join :: after →
      ∃ table ∈ s.source :: before.map JoinClause.table, ∃ entry,
        (request.entryFor? table join.table = some entry
          ∨ request.entryFor? join.table table = some entry)
        ∧ join.on.length = entry.equations.length := by
    intro before join after hjoins
    obtain ⟨table, htable, r, hr, hon⟩ := exists_relationship?_of_join _ text s h before after join hjoins
    refine ⟨table, htable, ?_⟩
    rw [hon]
    rcases hr with hr | hr
    · obtain ⟨entry, hentry, hlength⟩ := Schema.exists_entryFor? request _ _ r hr
      exact ⟨entry, Or.inl hentry, hlength⟩
    · obtain ⟨entry, hentry, hlength⟩ := Schema.exists_entryFor? request _ _ r hr
      exact ⟨entry, Or.inr hentry, hlength⟩
  refine ⟨hentries, ?_⟩
  intro hequations join hjoin
  obtain ⟨before, after, hjoins⟩ := List.append_of_mem hjoin
  obtain ⟨table, _, entry, hentry, hlength⟩ := hentries before join after hjoins
  have hmem : entry ∈ request.relationships ∧ entry.tables.length = 2 := by
    rcases hentry with hentry | hentry
    · exact request.mem_of_entryFor? _ _ entry hentry
    · exact request.mem_of_entryFor? _ _ entry hentry
  have hon : join.on ≠ [] := by
    have hne := hequations entry hmem.1 hmem.2
    rwa [← List.length_pos_iff, ← hlength, List.length_pos_iff] at hne
  exact join.exists_print_eq .quoted hon

/-- The joins of a question of the linked request have the one equation of its entry. -/
theorem statement_joinConditions_linked :
    ∃ s, (ofText (Schema.ofRequest linked) linked.query).statement = .ok s ∧ s.joins ≠ []
      ∧ ∀ join ∈ s.joins, ∃ l r rest, (l, r) ∈ join.on
        ∧ join.print .quoted = " JOIN " ++ quoteIdentifier join.table ++ " ON "
          ++ (l.print .quoted ++ " = " ++ r.print .quoted ++ rest) := by
  have htables : (ofText (Schema.ofRequest linked) linked.query).tables = ["customers", "orders"] := by
    decide +kernel
  have hjoins : (joinPlan (ofText (Schema.ofRequest linked) linked.query) "customers").joins ≠ [] := by
    decide +kernel
  have hequations : ∀ entry ∈ linked.relationships, entry.tables.length = 2 → entry.equations ≠ [] := by
    intro entry hentry _
    obtain rfl := List.mem_singleton.mp hentry
    exact List.cons_ne_nil _ _
  have hs := statement_eq _ "customers" ["orders"] htables
  exact ⟨_, hs, hjoins, (statement_joinConditions linked linked.query _ hs).2 hequations⟩

/-- A request whose only relationship has no condition. -/
def unconditioned : Request where
  query := "customers and orders"
  schema := [[("customers", .array [.string "customer_id"])], [("orders", .array [.string "order_id"])]]
  relationships := [⟨["customers", "orders"], []⟩]
  tableAliases := []
  columnAliases := []
  businessMetrics := []
  timePeriods := none

/-- Its question joins the two tables without a condition, and the printed statement breaks off behind
`ON`. -/
theorem not_joined_on_condition :
    ∃ s, (ofText (Schema.ofRequest unconditioned) unconditioned.query).statement = .ok s
      ∧ s.joins = [⟨"orders", []⟩]
      ∧ s.toSql = "SELECT \"customers\".* FROM \"customers\" JOIN \"orders\" ON " := by
  have htables : (ofText (Schema.ofRequest unconditioned) unconditioned.query).tables
      = ["customers", "orders"] := by decide +kernel
  have hs := statement_eq _ "customers" ["orders"] htables
  refine ⟨_, hs, ?_, ?_⟩
  · decide +kernel
  · decide +kernel

end Intent

end TextToSql
