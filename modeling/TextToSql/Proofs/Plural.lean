import TextToSql.Proofs.LetterCase

/-!
# The plural of a term

A term that is neither a table nor an alias stands for the table with an `s` behind it. But the scan of a text
offers the names and aliases of tables only, so this step is not reached from a text: where a text has only the
singular of a table, the scan finds nothing, and the question is about whatever table a metric, a column or the
default points to.

* `resolveTable?_eq` : a term names a table by itself or by its plural;
* `resolvedMentions_of_hasPlainNames` : where names are plain, no mention leads to a table by its plural;
* `Intent.tablesOf_of_mentionsSingular` : the table of a question with the singular of a table.
-/

namespace TextToSql

open Pattern Text

namespace Schema

variable {schema : Schema}

/-! ## Terms -/

/-- The table that a term names by itself: the table of that name, else the target of its first alias. -/
def namedTable? (schema : Schema) (term : String) : Option String :=
  if term ∈ schema.tableNames then some term else schema.tableAliases.lookup term

/-- The table that the plural of a term names. -/
def pluralTable? (schema : Schema) (term : String) : Option String :=
  if term ++ "s" ∈ schema.tableNames then some (term ++ "s") else none

/-- A term names a table by itself, else by its plural. -/
theorem resolveTable?_eq (schema : Schema) (term : String) :
    schema.resolveTable? term = (schema.namedTable? term).or (schema.pluralTable? term) := by
  rw [resolveTable?, namedTable?, pluralTable?, ← find?_map_snd]
  simp only [hasTable_iff]
  split
  · rfl
  · cases schema.tableAliases.find? fun entry => entry.1 = term <;> rfl

/-- A name or an alias of a table names one by itself. -/
theorem exists_namedTable? (term : String) (h : schema.NamesTable term) :
    ∃ table, schema.namedTable? term = some table := by
  rw [namedTable?]
  rcases h.1 with hname | halias
  · exact ⟨term, if_pos hname⟩
  · split
    · exact ⟨term, rfl⟩
    · rw [← Option.isSome_iff_exists]
      simpa [List.lookup_isSome_iff] using halias

/-- What is neither a name nor an alias of a table names none by itself. -/
theorem namedTable?_eq_none (term : String) (hname : term ∉ schema.tableNames)
    (halias : term ∉ schema.tableAliases.map Prod.fst) : schema.namedTable? term = none := by
  rw [namedTable?, if_neg hname, List.lookup_eq_none_iff]
  intro entry hentry
  have hkey : entry.1 ≠ term := fun heq => halias (heq ▸ List.mem_map_of_mem hentry)
  simpa using hkey.symm

/-! ## Mentions -/

/-- Where names are plain, a mention names a table by itself or not at all: in lower case it is a name or an
alias, unless it has a long s, and then its plural is no name either. -/
theorem resolveTable?_of_mem_tableMentions (h : schema.HasPlainNames) (text : String) (m : Match)
    (hm : m ∈ schema.tableMentions text) :
    schema.resolveTable? (lowerOf m.text) = schema.namedTable? (lowerOf m.text) := by
  obtain ⟨before, after, -, -, term, hterm, hoccurs⟩ := schema.occurs_of_mem_tableMentions text m hm
  have hplain : IsPlain term.toList := h.isPlain_of_mem_tableTerms term ((mem_tableTerms term).mpr hterm)
  have hsmall : IsPlain (term.toList.map Char.toLower) := by rwa [hplain.map_toLower]
  rw [resolveTable?_eq]
  by_cases hlong : '\u017F' ∈ m.text.toList
  · have hlower : '\u017F' ∈ (lowerOf m.text ++ "s").toList := by
      rw [String.toList_append, toList_lowerOf]
      exact List.mem_append_left _ (long_mem_lower hsmall hoccurs.folds hlong)
    have hplural : lowerOf m.text ++ "s" ∉ schema.tableNames := fun hname =>
      absurd (h.tables _ hname _ hlower) (by decide)
    rw [pluralTable?, if_neg hplural, Option.or_none]
  · have hlower : lowerOf m.text = term := by
      rw [← String.toList_inj, toList_lowerOf, lower_eq_of_folds hsmall hoccurs.folds hlong,
        hplain.map_toLower]
    obtain ⟨table, htable⟩ := exists_namedTable? term hterm
    rw [hlower, htable, Option.some_or]

/-- **Where names are plain, no mention leads to a table by its plural**, whatever the text. -/
theorem resolvedMentions_of_hasPlainNames (h : schema.HasPlainNames) (text : String) :
    schema.resolvedMentions text
      = (schema.tableMentions text).filterMap fun m => schema.namedTable? (lowerOf m.text) :=
  List.filterMap_congr fun m hm => resolveTable?_of_mem_tableMentions h text m hm

/-- A text that has the singular of a table as a whole word, but no name and no alias of a table. -/
structure MentionsSingular (schema : Schema) (t text : String) : Prop where
  plural : t ++ "s" ∈ schema.tableNames
  noTable : t ∉ schema.tableNames
  noAlias : t ∉ schema.tableAliases.map Prod.fst
  singular : HasWhole text t
  nothing : ∀ term, schema.NamesTable term → ¬ HasWhole text term

/-- A text without names and aliases of tables mentions none. -/
theorem tableMentions_eq_nil (text : String)
    (h : ∀ term, schema.NamesTable term → ¬ HasWhole text term) : schema.tableMentions text = [] := by
  rw [List.eq_nil_iff_forall_not_mem]
  intro m hm
  obtain ⟨before, after, htext, -, term, hterm, hoccurs⟩ := schema.occurs_of_mem_tableMentions text m hm
  exact h term hterm ⟨before, m.text, after, htext, hoccurs⟩

end Schema

/-! ## Tables -/

namespace Intent

/-- The table of a question that mentions none, where the schema has a table. -/
theorem impliedTable?_of_tables (schema : Schema) (text : String) (h : schema.tableNames ≠ []) :
    impliedTable? schema text
      = some (((tableOfMetric? schema text).or (tableOfAlias? schema text)).getD defaultTable) := by
  have hempty : schema.isEmpty = false := by
    rw [Schema.isEmpty, List.isEmpty_eq_false_iff]
    exact fun hnil => h (by rw [Schema.tableNames, hnil, List.map_nil])
  rw [impliedTable?, hempty]
  cases tableOfMetric? schema text with
  | some table => rfl
  | none => cases tableOfAlias? schema text <;> rfl

/-- A text without metrics points to no table by one. -/
theorem tableOfMetric?_of_not_hasWhole (schema : Schema) (text : String)
    (h : ∀ m ∈ schema.metrics, ¬ HasWhole text m.phrase) : tableOfMetric? schema text = none := by
  have hnone : schema.mentionedMetrics text = [] := by
    refine List.filter_eq_nil_iff.mpr fun m hm => ?_
    exact mt (occursIn_whole_lit_iff m.phrase text).mp (h m hm)
  rw [tableOfMetric?, hnone]

/-- **The singular of a table.** A question that has the singular of a table as a whole word, but no name and
no alias of a table, is about the table that a metric points to, else that of an aliased column, else the
default one, whatever the singular; so a question without metrics and aliased columns is about the plural
exactly if that is the default table. Yet the singular itself names the plural. Where names are plain, it is
the same with all texts: no mention leads to a table by its plural. -/
theorem tablesOf_of_mentionsSingular (schema : Schema) (t text : String)
    (h : schema.MentionsSingular t text) :
    schema.resolveTable? t = some (t ++ "s")
      ∧ tablesOf schema text
          = [((tableOfMetric? schema text).or (tableOfAlias? schema text)).getD defaultTable]
      ∧ ((∀ m ∈ schema.metrics, ¬ HasWhole text m.phrase) →
          (∀ entry ∈ schema.columnAliases, ¬ schema.mentionsColumn text entry.1) →
          (tablesOf schema text = [t ++ "s"] ↔ t = "order"))
      ∧ (schema.HasPlainNames → ∀ text', schema.resolvedMentions text'
          = (schema.tableMentions text').filterMap fun m => schema.namedTable? (lowerOf m.text)) := by
  have htables : tablesOf schema text
      = [((tableOfMetric? schema text).or (tableOfAlias? schema text)).getD defaultTable] := by
    have hmentioned : mentionedTables schema text = [] := by
      rw [mentionedTables, Schema.tableMentions_eq_nil text h.nothing]
      rfl
    rw [tablesOf, hmentioned, impliedTable?_of_tables schema text (List.ne_nil_of_mem h.plural)]
    rfl
  refine ⟨?_, htables, ?_, fun hplain => Schema.resolvedMentions_of_hasPlainNames hplain⟩
  · rw [Schema.resolveTable?_eq, Schema.namedTable?_eq_none t h.noTable h.noAlias, Option.none_or,
      Schema.pluralTable?, if_pos h.plural]
  · intro hmetrics haliases
    have halias : tableOfAlias? schema text = none := by
      refine List.findSome?_eq_none_iff.mpr fun entry hentry => ?_
      exact if_neg (haliases entry hentry)
    have hdefault : defaultTable = "order" ++ "s" := by decide
    rw [htables, tableOfMetric?_of_not_hasWhole schema text hmetrics, halias, Option.none_or,
      Option.getD_none, hdefault, List.singleton_inj]
    constructor
    · intro heq
      rw [← String.toList_inj, String.toList_append, String.toList_append] at heq
      exact (String.toList_inj.mp (List.append_cancel_right heq)).symm
    · rintro rfl
      rfl

end Intent

/-- A schema with tables in the plural, and with an alias, a metric and an aliased column. -/
def pluralSchema : Schema where
  tables := [⟨"customers", ["id"]⟩, ⟨"orders", ["order_id", "total_amount"]⟩]
  tableAliases := [("client", "customers")]
  columnAliases := [("total_amount", ["spend"])]
  relationships := []
  metrics := [⟨"total revenue", "SUM(total_amount)"⟩]
  timePhrases := []

/-- A text has no name and no alias of a table if none of the terms for tables is in it. -/
theorem Schema.nothing_of_forall_mem (schema : Schema) (text : String)
    (h : ∀ term ∈ schema.tableTerms, ¬ HasWhole text term) (term : String) (hterm : schema.NamesTable term) :
    ¬ HasWhole text term :=
  h term ((mem_tableTerms term).mpr hterm)

/-- A question for the orders by their singular is about the orders only because these are the default. -/
theorem Intent.tablesOf_of_mentionsSingular_pluralSchema :
    pluralSchema.MentionsSingular "order" "latest Order" ∧ tablesOf pluralSchema "latest Order" = ["orders"]
      ∧ pluralSchema.HasPlainNames := by
  have horder : pluralSchema.MentionsSingular "order" "latest Order" :=
    ⟨by decide, by decide, by decide, by decide +kernel,
      pluralSchema.nothing_of_forall_mem _ (by decide +kernel)⟩
  have hplain : pluralSchema.HasPlainNames := ⟨by decide, by decide⟩
  obtain ⟨-, -, htables, -⟩ := tablesOf_of_mentionsSingular pluralSchema "order" "latest Order" horder
  exact ⟨horder, (htables (by decide +kernel) (by decide +kernel)).mpr rfl, hplain⟩

/-- A question for the customers by their singular, in normal form, is taken for one about the orders, although
the singular names the customers. -/
theorem Intent.not_tablesOf_pluralSchema :
    pluralSchema.MentionsSingular "customer" "show customer"
      ∧ Normalize.cleanText pluralSchema.vocabulary "show customer" = "show customer"
      ∧ pluralSchema.resolveTable? "customer" = some "customers"
      ∧ tablesOf pluralSchema "show customer" ≠ ["customers"]
      ∧ tablesOf pluralSchema "show customer" = ["orders"] :=
  ⟨⟨by decide, by decide, by decide, by decide +kernel,
      pluralSchema.nothing_of_forall_mem _ (by decide +kernel)⟩,
    by decide +kernel, by decide +kernel, by decide +kernel, by decide +kernel⟩

end TextToSql
