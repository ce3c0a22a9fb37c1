import TextToSql.Proofs.Answer
import TextToSql.Proofs.Mention

/-!
# Requests without tables

A request that declares no table can still have a question about one: an alias names its target, and a
metric with a telling word in its name points to a built-in table, whether or not these are declared. Nothing
else yields a table, so a question that mentions neither is answered by the report that there is none.

* `Intent.tablesOf_eq_nil_iff_of_tableless` : when a question to a schema without tables is about none;
* `Service.respond_of_tableless` : when a request without tables is answered by the report of it;
* `Request.answered_aliasOnly` : it is not always.
-/

namespace TextToSql

/-- A metric whose name has a word that points to a table. -/
def NamedSql.PointsToTable (metric : NamedSql) : Prop :=
  ∃ hint ∈ Intent.metricHints, ∃ word ∈ hint.1, Text.holds metric.phrase word

instance (metric : NamedSql) : Decidable metric.PointsToTable :=
  inferInstanceAs (Decidable (∃ hint ∈ Intent.metricHints, ∃ word ∈ hint.1, Text.holds metric.phrase word))

/-- A text that leads a schema to no table by an alias or a metric: none of its mentions is an alias, and
the first metric that it mentions, if any, points to no table. -/
structure Schema.LeadsNowhere (schema : Schema) (text : String) : Prop where
  aliases : ∀ m ∈ schema.tableMentions text,
    Text.lowerOf m.text ∉ schema.tableAliases.map Prod.fst
  metrics : ∀ metric ∈ (schema.mentionedMetrics text).head?, ¬ metric.PointsToTable

instance (schema : Schema) (text : String) : Decidable (schema.LeadsNowhere text) :=
  decidable_of_iff ((∀ m ∈ schema.tableMentions text,
      Text.lowerOf m.text ∉ schema.tableAliases.map Prod.fst)
    ∧ ∀ metric ∈ (schema.mentionedMetrics text).head?, ¬ metric.PointsToTable)
    ⟨fun h => ⟨h.1, h.2⟩, fun h => ⟨h.aliases, h.metrics⟩⟩

/-- The normal form of the question of a request, as far as it can be put into English. -/
def Request.normalText (translator : Option Translator) (request : Request) : String :=
  Normalize.cleanText (Schema.ofRequest request).vocabulary
    (Language.workingText translator request.query)

/-! ## Schemas without tables -/

namespace Intent

variable (schema : Schema) (text : String)

/-- Without tables, a term is nothing but an alias. -/
theorem resolveTable?_of_tableless (h : schema.tables = []) (term : String) :
    schema.resolveTable? term = schema.tableAliases.lookup term := by
  have hnone : ∀ name, schema.hasTable name = false := by simp [Schema.hasTable, h]
  rw [← Schema.find?_map_snd, Schema.resolveTable?, hnone, hnone, if_neg Bool.false_ne_true,
    if_neg Bool.false_ne_true]
  cases schema.tableAliases.find? fun entry => entry.1 = term <;> rfl

/-- Without tables, the mentions name none exactly when none of them is an alias. -/
theorem mentionedTables_eq_nil_iff_of_tableless (h : schema.tables = []) :
    mentionedTables schema text = []
      ↔ ∀ m ∈ schema.tableMentions text, Text.lowerOf m.text ∉ schema.tableAliases.map Prod.fst := by
  have halias : ∀ term, term ∈ schema.tableAliases.map Prod.fst
      ↔ ∃ table, schema.tableAliases.lookup term = some table := by
    intro term
    rw [← Option.isSome_iff_exists]
    simp [List.lookup_isSome_iff]
  have hmem : ∀ table, table ∈ mentionedTables schema text
      ↔ ∃ m ∈ schema.tableMentions text, schema.tableAliases.lookup (Text.lowerOf m.text) = some table := by
    intro table
    simp [mentionedTables, mem_foldl_addNew, resolveTable?_of_tableless schema h]
  rw [List.eq_nil_iff_forall_not_mem]
  constructor
  · intro hnil m hm hterm
    obtain ⟨table, htable⟩ := (halias _).mp hterm
    exact hnil table ((hmem table).mpr ⟨m, hm, htable⟩)
  · intro hnone table htable
    obtain ⟨m, hm, hlookup⟩ := (hmem table).mp htable
    exact hnone m hm ((halias _).mpr ⟨table, hlookup⟩)

/-- A text points to no table by its metrics exactly when the first of them does not. -/
theorem tableOfMetric?_eq_none_iff :
    tableOfMetric? schema text = none
      ↔ ∀ metric ∈ (schema.mentionedMetrics text).head?, ¬ metric.PointsToTable := by
  unfold tableOfMetric?
  cases schema.mentionedMetrics text with
  | nil => simp
  | cons metric metrics => simp [NamedSql.PointsToTable]

/-- Without tables, a question that mentions none is about the table that a metric points to. -/
theorem impliedTable?_of_tableless (h : schema.tables = []) :
    impliedTable? schema text = tableOfMetric? schema text := by
  have halias : tableOfAlias? schema text = none := by
    simp [tableOfAlias?, h]
  have hempty : schema.isEmpty = true := by simp [Schema.isEmpty, h]
  rw [impliedTable?, halias, hempty]
  cases tableOfMetric? schema text <;> rfl

/-- **A question to a schema without tables** is about no table exactly when it leads to none by an alias or
a metric. -/
theorem tablesOf_eq_nil_iff_of_tableless (h : schema.tables = []) :
    tablesOf schema text = [] ↔ schema.LeadsNowhere text := by
  have hmentioned := mentionedTables_eq_nil_iff_of_tableless schema text h
  have hmetrics := tableOfMetric?_eq_none_iff schema text
  unfold tablesOf
  split
  · next hnil =>
      rw [impliedTable?_of_tableless schema text h, Option.toList_eq_nil_iff, hmetrics]
      exact ⟨fun hm => ⟨hmentioned.mp hnil, hm⟩, fun hm => hm.metrics⟩
  · next tables hne =>
      constructor
      · intro hnil
        exact absurd hnil hne
      · intro hnowhere
        exact absurd (hmentioned.mpr hnowhere.aliases) hne

end Intent

/-! ## Requests without tables -/

namespace Service

/-- The schema of a request that declares no table has none. -/
theorem tables_eq_nil_of_tableless (request : Request) (h : ∀ name, ¬ request.DeclaresTable name) :
    (Schema.ofRequest request).tables = [] := by
  rw [← List.map_eq_nil_iff, List.eq_nil_iff_forall_not_mem]
  intro name hname
  exact h name ((Schema.mem_tableNames_ofRequest request name).mp hname)

/-- A question with text is answered by the report that there is no table exactly when it is about none. -/
theorem respond_eq_noTable_iff (service : Service) (request : Request)
    (h : ¬ Text.isBlank request.query) :
    service.respond request = .ofFailure .noTable ↔ (request.intent service.translator).tables = [] := by
  constructor
  · intro hrespond
    by_contra htables
    have hshows := service.shows_of_meets request .answered ⟨h, htables⟩
    rw [hrespond] at hshows
    exact Bool.false_ne_true hshows.1
  · intro htables
    rw [respond, request.sql_eq _ h, Intent.statement, htables]
    rfl

/-- **Requests without tables.** A question with text to a request that declares no table is about no table,
and is answered by the report of it, exactly when it leads to none by an alias or a metric. Whatever column
aliases, relationships and time phrases the request has, they yield none. -/
theorem respond_of_tableless (service : Service) (request : Request)
    (hnone : ∀ name, ¬ request.DeclaresTable name) (hquery : ¬ Text.isBlank request.query) :
    let text := request.normalText service.translator
    ((request.intent service.translator).tables = []
        ↔ (Schema.ofRequest request).LeadsNowhere text)
      ∧ (service.respond request = .ofFailure .noTable
        ↔ (Schema.ofRequest request).LeadsNowhere text) := by
  have htables : (request.intent service.translator).tables = []
      ↔ (Schema.ofRequest request).LeadsNowhere (request.normalText service.translator) :=
    Intent.tablesOf_eq_nil_iff_of_tableless _ _ (tables_eq_nil_of_tableless request hnone)
  exact ⟨htables, (service.respond_eq_noTable_iff request hquery).trans htables⟩

end Service

/-- A request without tables that has everything else. -/
def undeclared : Request where
  query := "price this month"
  schema := [[]]
  relationships := [⟨["customers", "orders"], [("customer_id", .string "customer_id")]⟩]
  tableAliases := [("clients", .string "customers")]
  columnAliases := [("price", .array [.string "cost"])]
  businessMetrics := [("margin", .string "SUM(gain)")]
  timePeriods := none

/-- Its question mentions a column and a time phrase, and there is no table for it. -/
theorem Service.respond_of_tableless_undeclared :
    (∀ name, ¬ undeclared.DeclaresTable name)
      ∧ (⟨none, true⟩ : Service).respond undeclared = .ofFailure .noTable := by
  have hnone : ∀ name, ¬ undeclared.DeclaresTable name := by
    rintro name ⟨members, hmembers, hname⟩
    obtain rfl := List.mem_singleton.mp hmembers
    cases hname
  have hnowhere : (Schema.ofRequest undeclared).LeadsNowhere (undeclared.normalText none) := by
    decide +kernel
  have hanswer := (Service.respond_of_tableless ⟨none, true⟩ undeclared hnone (by decide +kernel)).2
  exact ⟨hnone, hanswer.mpr hnowhere⟩

/-- A request that declares nothing but an alias. -/
def aliasOnly : Request where
  query := "show clients"
  schema := []
  relationships := []
  tableAliases := [("clients", .string "customers")]
  columnAliases := []
  businessMetrics := []
  timePeriods := none

/-- A request that declares nothing but a metric. -/
def metricOnly : Request where
  query := "total revenue"
  schema := []
  relationships := []
  tableAliases := []
  columnAliases := []
  businessMetrics := [("total revenue", .string "SUM(amount)")]
  timePeriods := none

/-- Neither declares a table, and both are answered with a statement about one. -/
theorem Request.answered_aliasOnly :
    ((∀ name, ¬ aliasOnly.DeclaresTable name)
        ∧ (aliasOnly.intent none).tables = ["customers"]
        ∧ (⟨none, true⟩ : Service).respond aliasOnly
          = .ofSql "SELECT \"customers\".* FROM \"customers\"")
      ∧ (∀ name, ¬ metricOnly.DeclaresTable name)
        ∧ (metricOnly.intent none).tables = ["orders"]
        ∧ (⟨none, true⟩ : Service).respond metricOnly
          = .ofSql "SELECT SUM(amount) AS total_revenue FROM \"orders\"" := by
  have hempty : ∀ request : Request, request.schema = [] → ∀ name, ¬ request.DeclaresTable name := by
    rintro request hschema name ⟨members, hmembers, -⟩
    rw [hschema] at hmembers
    cases hmembers
  refine ⟨⟨hempty aliasOnly rfl, ?_, ?_⟩, hempty metricOnly rfl, ?_, ?_⟩
  · decide +kernel
  · decide +kernel
  · decide +kernel
  · decide +kernel

end TextToSql
