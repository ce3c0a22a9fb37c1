import TextToSql.Proofs.Intent.Ordering
import TextToSql.Proofs.Intent.Supply
import TextToSql.Proofs.JoinPlan
import TextToSql.Proofs.Schema.Declare

/-!
# What a question can put into a statement

A question chooses among the names and the fragments of the schema and supplies values. It cannot bring in
a name or a piece of SQL of its own, and its values hold no character that could end a literal.

* `Piece.Confined` : what the pieces of a statement can be;
* `statement_confined` : every piece of every statement is confined.
-/

namespace TextToSql

open Sql Unicode Intent

/-- The columns that are built in. -/
def builtinColumns : List ColumnRef := [
  .of "orders" "total_amount", .of "orders" "status", .of "orders" "order_date",
  .of "orders" "order_id", .of "products" "price", .of "order_items" "item_id",
  .of "order_items" "price", .of "order_items" "quantity"]

/-- A piece of a statement that comes from the schema or is built in, or a value of harmless characters:
a number in decimal digits, or a text of word characters, points and hyphens. -/
def Sql.Piece.Confined (schema : Schema) : Piece → Prop
  | .table name =>
      name ∈ schema.tableNames ∨ (∃ entry ∈ schema.tableAliases, entry.2 = name)
        ∨ name ∈ builtinTables
  | .column ref =>
      schema.Declares ref
        ∨ (∃ r ∈ schema.relationships, ∃ pair ∈ r.on, ref = pair.1 ∨ ref = pair.2)
        ∨ ref ∈ builtinColumns
  | .result name =>
      (∃ m ∈ schema.metrics, (metricItem m).name = some name)
        ∨ (∃ function ref, schema.Declares ref ∧ name = aggregateName function ref.column)
        ∨ name = "total_count"
  | .number digits => IsDecimal isDecimalDigit digits.toList
  | .text value => IsRun .dotted value.toList
  | .fragment sql => ∃ phrase ∈ schema.metrics ++ schema.timePhrases, phrase.sql = sql

/-- A name in a statement that the request writes or that is built in. -/
def Sql.Piece.NamedBy (request : Request) : Piece → Prop
  | .table name => request.NamesTable name ∨ name ∈ builtinTables
  | .column ref => request.NamesColumn ref ∨ ref ∈ builtinColumns
  | _ => True

/-- The confined names of the schema of a request are written in the request. -/
theorem Sql.Piece.Confined.namedBy {request : Request} {piece : Piece}
    (h : piece.Confined (Schema.ofRequest request)) : piece.NamedBy request := by
  cases piece with
  | table name =>
      rcases h with hname | ⟨entry, hentry, rfl⟩ | hname
      · obtain ⟨t, ht, rfl⟩ := List.mem_map.mp hname
        exact Or.inl (Schema.ofRequest_tables request t ht).1
      · exact Or.inl (Schema.ofRequest_tableAliases request entry hentry)
      · exact Or.inr hname
  | column ref =>
      rcases h with ⟨t, ht, c, hc, rfl⟩ | ⟨r, hr, pair, hpair, heq⟩ | hcolumn
      · exact Or.inl ((Schema.ofRequest_tables request t ht).2 c hc)
      · obtain ⟨hleft, hright⟩ := Schema.ofRequest_on request r hr pair hpair
        rcases heq with rfl | rfl
        · exact Or.inl hleft
        · exact Or.inl hright
      · exact Or.inr hcolumn
  | result name => trivial
  | number digits => trivial
  | text value => trivial
  | fragment sql => trivial

/-- No quote is a word character, a point or a hyphen. -/
theorem IsRun.not_quote {s : List Char} (h : IsRun .dotted s) (c : Char) (hc : c ∈ s) :
    c ≠ '\x27' ∧ c ≠ '"' := by
  have hdotted := h.2 c hc
  constructor
  · rintro rfl
    exact absurd hdotted (by decide)
  · rintro rfl
    exact absurd hdotted (by decide)

namespace Intent

/-! ## The pieces of each clause -/

variable {s : Selection} {schema : Schema}

/-- The columns that are built in are confined. -/
theorem confined_of_builtin {ref : ColumnRef} (h : ref ∈ builtinColumns) :
    (Piece.column ref).Confined schema :=
  Or.inr (Or.inr h)

/-- The tables of a question are confined. -/
theorem confined_of_mem_tablesOf (text name : String) (h : name ∈ tablesOf schema text) :
    (Piece.table name).Confined schema :=
  mem_tablesOf schema text name h

/-- What a question supplies is confined if its tables are. -/
theorem confined_of_supplies {piece : Piece} (h : s.Supplies piece)
    (htables : ∀ table ∈ s.tables, (Piece.table table).Confined s.schema) :
    piece.Confined s.schema := by
  cases h with
  | table name hname => exact htables name hname
  | column ref href => exact Or.inl href.declares
  | orderColumn ref horders href =>
      have hbuiltin : ∀ ref ∈ orderColumns, ref ∈ builtinColumns := by decide
      exact confined_of_builtin (hbuiltin ref href)
  | number digits hdigits => exact hdigits
  | text value hvalue => exact hvalue
  | fragment phrase hphrase => exact ⟨phrase, hphrase, rfl⟩

/-- The name of a projected item is confined. -/
theorem ProjectedItem.confined_name {item : SelectItem} (h : ProjectedItem s item) :
    ∀ name ∈ item.name, (Piece.result name).Confined s.schema := by
  cases h with
  | metric m hm => exact fun name hname => Or.inl ⟨m, hm, hname⟩
  | aggregate function distinct ref href =>
      rintro name ⟨rfl⟩
      exact Or.inr (Or.inl ⟨function, ref, href.declares, rfl⟩)
  | countAll =>
      rintro name ⟨rfl⟩
      exact Or.inr (Or.inr rfl)
  | column ref href =>
      intro name hname
      cases hname
  | tableStar first rest hfirst =>
      intro name hname
      cases hname
  | star hnone =>
      intro name hname
      cases hname

/-- The pieces of a projected item are confined if the tables of the question are. -/
theorem ProjectedItem.confined {item : SelectItem} (h : ProjectedItem s item)
    (htables : ∀ table ∈ s.tables, (Piece.table table).Confined s.schema) :
    ∀ piece ∈ item.pieces, piece.Confined s.schema := by
  rw [SelectItem.pieces, List.forall_mem_append]
  constructor
  · intro piece hpiece
    exact confined_of_supplies (h.supplies piece hpiece) htables
  · intro piece hpiece
    obtain ⟨name, hname, rfl⟩ := List.mem_map.mp hpiece
    exact h.confined_name name (Option.mem_toList.mp hname)

/-- The pieces of a condition on groups are confined. -/
theorem GroupCondition.confined {c : Condition} (h : GroupCondition schema c) :
    ∀ piece ∈ c.pieces, piece.Confined schema := by
  have hcounted : ∀ ref ∈ countedColumns, ref ∈ builtinColumns := by decide
  cases h with
  | column ref op number href hnumber =>
      rw [Condition.pieces, List.forall_mem_append, Expr.pieces, Expr.pieces,
        List.forall_mem_singleton, List.forall_mem_singleton]
      constructor
      · exact Or.inl href
      · exact IsDigits.isDecimal hnumber
  | aggregate function ref op number href hnumber =>
      rw [Condition.pieces, List.forall_mem_append, Expr.aggregated, Expr.pieces, Expr.pieces,
        Expr.pieces, List.forall_mem_singleton, List.forall_mem_singleton]
      constructor
      · rcases href with href | href
        · exact Or.inl href
        · exact confined_of_builtin (hcounted ref href)
      · exact IsDigits.isDecimal hnumber

/-- The pieces of a sort key are confined. -/
theorem SortKey.confined {key : Expr} (h : SortKey schema key) :
    ∀ piece ∈ key.pieces, piece.Confined schema := by
  have hbuiltin : ∀ key ∈ builtinKeys, ∀ piece ∈ key.pieces, ∃ ref ∈ builtinColumns,
      piece = .column ref := by decide
  cases h with
  | column ref href =>
      rw [Expr.pieces, List.forall_mem_singleton]
      exact Or.inl href
  | aggregate function ref href =>
      rw [Expr.aggregated, Expr.pieces, Expr.pieces, List.forall_mem_singleton]
      exact Or.inl href
  | builtin key hkey =>
      intro piece hpiece
      obtain ⟨ref, href, rfl⟩ := hbuiltin key hkey piece hpiece
      exact confined_of_builtin href

/-- The tables of the plan of a question are confined. -/
theorem confined_of_mem_tables (text first : String) (hfirst : first ∈ tablesOf schema text)
    (table : String) (h : table ∈ (joinPlan (ofText schema text) first).tables) :
    (Piece.table table).Confined schema := by
  have hsides : ∀ r ∈ joinsOf schema (tablesOf schema text), ∀ table, r.Touches table →
      (Piece.table table).Confined schema := by
    refine forall_mem_joinsOf schema _ (nodup_tablesOf schema text) _ ?_
    intro a ha b hb _ r hr table htouches
    rcases (schema.on_and_sides_of_mem_chain a b r hr).2 table htouches with rfl | rfl | hname
    · exact confined_of_mem_tablesOf text table ha
    · exact confined_of_mem_tablesOf text table hb
    · exact Or.inl hname
  rcases JoinPlan.tables_foldl_extend _ _ _ table h with htable | ⟨r, hr, htouches⟩
  · obtain rfl := List.mem_singleton.mp htable
    exact confined_of_mem_tablesOf text table hfirst
  · exact hsides r hr table htouches

/-- The pieces of a joined table of a question are confined. -/
theorem confined_of_mem_join (text first : String) (hfirst : first ∈ tablesOf schema text)
    (join : JoinClause) (hjoin : join ∈ (joinPlan (ofText schema text) first).joins) :
    ∀ piece ∈ join.pieces, piece.Confined schema := by
  have hnodup := nodup_tablesOf schema text
  have hon : ∀ r ∈ joinsOf schema (tablesOf schema text), ∃ r' ∈ schema.relationships, r.on = r'.on :=
    forall_mem_joinsOf schema _ hnodup _ fun a _ b _ _ r hr =>
      (schema.on_and_sides_of_mem_chain a b r hr).1
  -- a join has the condition of a link of some chain, and that one has it from the schema
  obtain ⟨used, hused, hfollows⟩ :=
    (joinPlan_wellFormed (ofText schema text) first (joinsOf_ne schema _ hnodup)).follows
  intro piece hpiece
  rcases List.mem_cons.mp hpiece with rfl | hpiece
  · refine confined_of_mem_tables text first hfirst join.table ?_
    exact List.mem_cons_of_mem _ (List.mem_map_of_mem hjoin)
  · obtain ⟨r, hr, hjoinon⟩ := hfollows.exists_on_eq join hjoin
    obtain ⟨r', hr', hron⟩ := hon r (hused.subset hr)
    obtain ⟨pair, hpair, hpiece⟩ := List.mem_flatMap.mp hpiece
    rw [hjoinon, hron] at hpair
    simp only [List.mem_cons, List.not_mem_nil, or_false] at hpiece
    rcases hpiece with rfl | rfl
    · exact Or.inr (Or.inl ⟨r', hr', pair, hpair, Or.inl rfl⟩)
    · exact Or.inr (Or.inl ⟨r', hr', pair, hpair, Or.inr rfl⟩)

/-! ## Statements -/

/-- The pieces of the statement of a question are confined, clause by clause. -/
theorem confined_of_mem_statementFor (schema : Schema) (text first : String)
    (hfirst : first ∈ tablesOf schema text) :
    ∀ piece ∈ ((ofText schema text).statementFor first).pieces, piece.Confined schema := by
  let selection : Selection := ⟨schema, tablesOf schema text, text⟩
  have htables : ∀ table ∈ selection.tables, (Piece.table table).Confined schema :=
    fun table htable => confined_of_mem_tablesOf text table htable
  intro piece hpiece
  simp only [SelectStatement.pieces, List.mem_append, or_assoc] at hpiece
  rcases hpiece with hpiece | hpiece | hpiece | hpiece | hpiece | hpiece | hpiece
  -- the projection
  · obtain ⟨item, hitem, hpiece⟩ := List.mem_flatMap.mp hpiece
    exact (projectedItem_of_mem selection item hitem).confined htables piece hpiece
  -- the source and the joins
  · obtain rfl := List.mem_singleton.mp hpiece
    exact confined_of_mem_tables text first hfirst _ List.mem_cons_self
  · obtain ⟨join, hjoin, hpiece⟩ := List.mem_flatMap.mp hpiece
    exact confined_of_mem_join text first hfirst join hjoin piece hpiece
  -- the condition on rows
  · obtain ⟨p, hp, hpiece⟩ := List.mem_flatMap.mp hpiece
    obtain ⟨c, hc, hpiece⟩ := List.mem_flatMap.mp hpiece
    have hcondition := rowCondition_of_mem_atoms selection p (Option.mem_toList.mp hp) c hc
    exact confined_of_supplies (hcondition.supplies piece hpiece) htables
  -- the groups and the condition on them
  · obtain ⟨key, hkey, hpiece⟩ := List.mem_flatMap.mp hpiece
    have hgroup := groupKey_of_mem_statementGroups schema text key hkey
    exact confined_of_supplies (hgroup.supplies piece hpiece) htables
  · obtain ⟨p, hp, hpiece⟩ := List.mem_flatMap.mp hpiece
    obtain ⟨c, hc, hpiece⟩ := List.mem_flatMap.mp hpiece
    exact (groupCondition_of_mem_atoms selection _ p (Option.mem_toList.mp hp) c hc).confined piece hpiece
  -- the order
  · obtain ⟨key, hkey, hpiece⟩ := List.mem_flatMap.mp hpiece
    exact (sortKey_of_mem_orderOf selection key hkey).confined piece hpiece

/-- **Confinement.** Every piece of a statement for a question is confined; so no text in it holds a
quote, and its names are written in the request that the schema was read from. -/
theorem statement_confined (schema : Schema) (text : String) (s : SelectStatement)
    (h : (ofText schema text).statement = .ok s) :
    (∀ piece ∈ s.pieces, piece.Confined schema)
      ∧ (∀ value, Piece.text value ∈ s.pieces → ∀ c ∈ value.toList, c ≠ '\x27' ∧ c ≠ '"')
      ∧ ∀ request, schema = Schema.ofRequest request → ∀ piece ∈ s.pieces, piece.NamedBy request := by
  obtain ⟨first, rest, htables, rfl⟩ := exists_eq_statementFor _ s h
  have hfirst : first ∈ tablesOf schema text := by
    show first ∈ (ofText schema text).tables
    rw [htables]
    exact List.mem_cons_self
  have hall := confined_of_mem_statementFor schema text first hfirst
  refine ⟨hall, ?_, ?_⟩
  · intro value hvalue c hc
    have hrun : IsRun .dotted value.toList := hall _ hvalue
    exact hrun.not_quote c hc
  · rintro request rfl piece hpiece
    exact (hall piece hpiece).namedBy

/-- A question of the linked request with a quote in it: its text ends before the quote. -/
theorem statement_confined_linked :
    ∃ s, (ofText (Schema.ofRequest linked) "customers, name is o\x27hara").statement = .ok s
      ∧ Piece.text "o" ∈ s.pieces ∧ (∀ piece ∈ s.pieces, piece.Confined (Schema.ofRequest linked))
      ∧ ∀ piece ∈ s.pieces, piece.NamedBy linked := by
  let intent := ofText (Schema.ofRequest linked) "customers, name is o\x27hara"
  have htables : intent.tables = ["customers"] := by decide +kernel
  have hvalue : Piece.text "o" ∈ (intent.statementFor "customers").pieces := by decide +kernel
  have hs := intent.statement_eq "customers" [] htables
  obtain ⟨hconfined, -, hnamed⟩ := statement_confined _ _ _ hs
  exact ⟨_, hs, hvalue, hconfined, hnamed linked rfl⟩

end Intent

end TextToSql
