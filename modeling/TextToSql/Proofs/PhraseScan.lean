import TextToSql.Proofs.Mention
import TextToSql.Proofs.Pattern.Occurrence
import TextToSql.Proofs.Schema.Declare

/-!
# The scan for columns, metrics and time phrases

When a text mentions a column, a metric or a time phrase, for every schema. The phrases may be any texts: one
may be the beginning of another, and they may hold spaces and characters that belong to no word. A phrase is
mentioned where it stands as a whole word and nowhere else; that an earlier form of a column starts alike hides
none, since the forms are tried in turn up to the word boundary behind them.

* `mentionsPhrase_iff` : a phrase is mentioned where a text has it as a whole word;
* `mem_formsOf` : the forms of a column are its name and its aliases;
* `mentions_whole` : what a text mentions of a schema.
-/

namespace TextToSql.Schema

open Pattern

variable (schema : Schema) (text : String)

/-! ## Phrases -/

/-- A phrase is mentioned where a text has it as a whole word. -/
theorem mentionsPhrase_iff (phrase : String) : mentionsPhrase text phrase ↔ HasWhole text phrase :=
  occursIn_whole_lit_iff phrase text

/-- The metrics that a text mentions are those it has as whole words. -/
theorem mentionedMetrics_eq :
    schema.mentionedMetrics text = schema.metrics.filter fun m => HasWhole text m.phrase := by
  refine List.filter_congr fun m _ => Bool.eq_iff_iff.mpr ?_
  rw [mentionsPhrase_iff, decide_eq_true_eq]

/-- The time phrase that a text mentions is the first one that it has as a whole word. -/
theorem mentionedTime?_eq_some_iff (p : NamedSql) :
    schema.mentionedTime? text = some p
      ↔ ∃ earlier later, schema.timePhrases = earlier ++ p :: later ∧ HasWhole text p.phrase
          ∧ ∀ q ∈ earlier, ¬ HasWhole text q.phrase := by
  rw [mentionedTime?, List.find?_eq_some_iff_append]
  simp only [Bool.not_eq_true', ← Bool.not_eq_true, mentionsPhrase_iff]
  constructor
  · rintro ⟨hp, earlier, later, hphrases, hearlier⟩
    exact ⟨earlier, later, hphrases, hp, hearlier⟩
  · rintro ⟨earlier, later, hphrases, hp, hearlier⟩
    exact ⟨hp, earlier, later, hphrases, hearlier⟩

/-- No time phrase is mentioned exactly where a text has none of them as a whole word. -/
theorem mentionedTime?_eq_none_iff :
    schema.mentionedTime? text = none ↔ ∀ p ∈ schema.timePhrases, ¬ HasWhole text p.phrase := by
  rw [mentionedTime?, List.find?_eq_none]
  simp only [mentionsPhrase_iff]

/-! ## Columns -/

/-- A column that a table or the aliases declare. -/
def HasColumnNamed (column : String) : Prop :=
  (∃ t ∈ schema.tables, column ∈ t.columns) ∨ column ∈ schema.columnAliases.map Prod.fst

/-- The terms that name a column: its name and its aliases, but not the empty text. -/
def NamesColumn (column term : String) : Prop :=
  (term = column ∨ ∃ aliases, schema.columnAliases.lookup column = some aliases ∧ term ∈ aliases)
    ∧ term ≠ ""

/-- A column is known exactly where a table or the aliases declare it. -/
theorem knowsColumn_iff (column : String) : schema.knowsColumn column ↔ schema.HasColumnNamed column := by
  simp [knowsColumn, HasColumnNamed, allColumns]

/-- The forms of a column are its name and its aliases. -/
theorem mem_formsOf (column form : String) :
    form ∈ schema.formsOf column
      ↔ form = column ∨ ∃ aliases, schema.columnAliases.lookup column = some aliases ∧ form ∈ aliases := by
  rw [← find?_map_snd, formsOf]
  split
  · next name aliases hfind => simp [hfind, mem_mergeColumns]
  · next hfind => simp [hfind]

/-- The forms that a column is looked for by are the terms that name it. -/
theorem mem_filter_formsOf (column form : String) :
    (form ∈ (schema.formsOf column).filter fun form => !form.isEmpty) ↔ schema.NamesColumn column form := by
  rw [List.mem_filter, mem_formsOf, NamesColumn]
  simp

/-- A column with a name is mentioned where a text has one of its names as a whole word. -/
theorem mentionsColumn_iff (column : String) (hnamed : ∃ term, schema.NamesColumn column term) :
    schema.mentionsColumn text column
      ↔ schema.HasColumnNamed column ∧ ∃ term, schema.NamesColumn column term ∧ HasWhole text term := by
  have hne : ((schema.formsOf column).filter fun form => !form.isEmpty) ≠ [] := by
    obtain ⟨term, hterm⟩ := hnamed
    exact List.ne_nil_of_mem ((mem_filter_formsOf schema column term).mpr hterm)
  rw [mentionsColumn, Bool.and_eq_true, knowsColumn_iff, columnPattern, occursIn_whole_oneOf _ hne]
  simp only [mem_filter_formsOf]

/-- **What a text mentions of a schema.** A column with a name, that is, with a form that is not empty, is
mentioned exactly if it is declared and one of its names is in the text as a whole word, up to case. The
metrics that are mentioned are those whose phrases are in the text as whole words, in the order of their
declaration, and the time phrase that is mentioned is the first one declared that is, if there is one. -/
theorem mentions_whole :
    (∀ column, (∃ term, schema.NamesColumn column term) →
        (schema.mentionsColumn text column
          ↔ schema.HasColumnNamed column ∧ ∃ term, schema.NamesColumn column term ∧ HasWhole text term))
      ∧ schema.mentionedMetrics text = (schema.metrics.filter fun m => HasWhole text m.phrase)
      ∧ (∀ p, schema.mentionedTime? text = some p
          ↔ ∃ earlier later, schema.timePhrases = earlier ++ p :: later ∧ HasWhole text p.phrase
              ∧ ∀ q ∈ earlier, ¬ HasWhole text q.phrase)
      ∧ (schema.mentionedTime? text = none ↔ ∀ p ∈ schema.timePhrases, ¬ HasWhole text p.phrase) :=
  ⟨mentionsColumn_iff schema text, mentionedMetrics_eq schema text, mentionedTime?_eq_some_iff schema text,
    mentionedTime?_eq_none_iff schema text⟩

/-- A schema with a form that another one starts with, and phrases with a point and a parenthesis in them. -/
def pricedSchema : Schema where
  tables := [⟨"sales", ["amount", "code"]⟩]
  tableAliases := []
  columnAliases := [("amount", ["net", "net_total"]), ("code", ["a.b"])]
  relationships := []
  metrics := [⟨"net", "SUM(net)"⟩, ⟨"net_total", "SUM(amount)"⟩, ⟨"rate (%)", "AVG(rate)"⟩, ⟨"", "COUNT(*)"⟩]
  timePhrases := [⟨"this", "a"⟩, ⟨"this.month", "b"⟩, ⟨"month", "c"⟩]

/-- A form that goes on where another one has ended is found, and a point stands for no other character. -/
theorem mentions_whole_pricedSchema :
    let text := "NET_TOTAL by axb and rate (%)s of thismonth: THIS.MONTH"
    pricedSchema.NamesColumn "amount" "net_total"
      ∧ pricedSchema.mentionsColumn text "amount"
      ∧ ¬ pricedSchema.mentionsColumn text "code"
      ∧ (pricedSchema.mentionedMetrics text).map NamedSql.phrase = ["net_total", "rate (%)", ""]
      ∧ pricedSchema.mentionedTime? text = some ⟨"this", "a"⟩ := by
  intro text
  obtain ⟨hcolumns, hmetrics, htime, -⟩ := mentions_whole pricedSchema text
  have hamount : pricedSchema.NamesColumn "amount" "net_total" :=
    ⟨.inr ⟨["net", "net_total"], by decide, by decide⟩, by decide⟩
  have hcode : pricedSchema.NamesColumn "code" "code" := ⟨.inl rfl, by decide⟩
  refine ⟨hamount, ?_, ?_, ?_, ?_⟩
  · exact (hcolumns "amount" ⟨_, hamount⟩).mpr ⟨.inl (by decide), _, hamount, by decide +kernel⟩
  · intro hmentions
    obtain ⟨-, term, ⟨hterm, -⟩, hwhole⟩ := (hcolumns "code" ⟨_, hcode⟩).mp hmentions
    rcases hterm with rfl | ⟨aliases, haliases, hterm⟩
    · revert hwhole
      decide +kernel
    · obtain rfl : ["a.b"] = aliases := Option.some.inj haliases
      obtain rfl := List.mem_singleton.mp hterm
      revert hwhole
      decide +kernel
  · rw [hmetrics]
    decide +kernel
  · exact (htime _).mpr ⟨[], _, rfl, by decide +kernel, by simp⟩

end TextToSql.Schema
