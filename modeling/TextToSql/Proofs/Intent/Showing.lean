import TextToSql.Proofs.Intent.Plain
import TextToSql.Proofs.Pattern.Occurrence
import TextToSql.Proofs.PhraseScan
import TextToSql.Proofs.Text.Span

/-!
# What a projection shows

A projection lists the mentioned metrics, then the mentioned columns, then what is made up where no column is
mentioned. The mentioned columns are gone over once for every aggregate that is asked for; each of them is
changed by the first one at most, as an aggregate over a column is no plain column any more.

* `mem_firsts_aggregateRules` : the aggregates that a text asks for;
* `foldl_wrap_eq` : the first aggregate that is asked for is put over each column that takes one;
* `metricItems_eq`, `mentionedColumns_eq`, `measureItems_eq` : which items there are, and in which order;
* `mem_shownItems_iff` : the items that a question shows;
* `projectionOf_eq` : the whole projection.
-/

namespace TextToSql.Intent

open Sql Pattern

/-! ## Aggregates that are asked for -/

/-- A rule whose every match has the same value has that value where its pattern occurs. -/
theorem first?_always {κ α : Type} (name : String) (p : Pattern) (value : α) (context : κ) (text : String) :
    (Rule.always name p value).first? context text = if p.occursIn text then some value else none := by
  show (p.matchesIn text).findSome? (fun _ => some value) = _
  cases hmatches : p.matchesIn text with
  | nil => rw [(matchesIn_eq_nil_iff p text).mp hmatches, List.findSome?_nil, if_neg Bool.false_ne_true]
  | cons m ms =>
      have hoccurs : p.occursIn text = true := by
        rw [← Bool.not_eq_false, ← matchesIn_eq_nil_iff, hmatches]
        exact List.cons_ne_nil _ _
      rw [hoccurs, if_pos rfl, List.findSome?_cons]

/-- Of rules that have a value each and its phrases as their pattern, those fire whose phrases are found. -/
theorem firsts_of_phrases {α : Type} (set : RuleSet Unit α) (values : List α) (name : α → String)
    (cues : α → List String)
    (hrules : set.rules = values.map fun value =>
      Rule.always (name value) (Lexicon.phrase (cues value)) value) (text : String) :
    set.firsts () text = values.filter fun value => (Lexicon.phrase (cues value)).occursIn text := by
  rw [RuleSet.firsts, hrules, List.filterMap_map, ← List.filterMap_eq_filter]
  refine List.filterMap_congr fun value _ => ?_
  rw [Function.comp_apply, first?_always]
  rfl

/-- A mentioned column as it is shown: under the first aggregate, if there is one and the column can be
aggregated, and plain otherwise. An identifier is counted without repetition. -/
def shownColumn (functions : List Aggregate) (ref : ColumnRef) : SelectItem :=
  match functions with
  | [] => ⟨.column ref, none⟩
  | function :: _ =>
      if ref.column ∈ aggregatable then
        ⟨.aggregate function (function = .count && Text.holds ref.column "id") (.column ref),
          some (function.label ++ "_" ++ ref.column)⟩
      else ⟨.column ref, none⟩

/-- The columns that the tables of a question offer, in the order of the tables and of their declaration. -/
def offeredColumns (s : Selection) : List ColumnRef :=
  s.tables.flatMap fun table => (s.schema.columns table).map (ColumnRef.of table)

/-- A column is mentioned by a question: one of its names is a whole word of the text. -/
def MentionsRef (s : Selection) (ref : ColumnRef) : Prop :=
  ∃ term, s.schema.NamesColumn ref.column term ∧ HasWhole s.text term

/-- The words of a phrase, joined by underscores. -/
def joinedName (phrase : String) : String := String.ofList (['_'].intercalate (phrase.toList.splitOn ' '))

section Items

variable (s : Selection)

/-- The offered columns are those of the tables of the question. -/
theorem mem_offeredColumns (ref : ColumnRef) : ref ∈ offeredColumns s ↔ s.Offers ref := by
  simp only [offeredColumns, Selection.Offers, List.mem_flatMap, List.mem_map, eq_comm]

/-- The mentioned columns are offered ones, in their order. -/
theorem mentionedColumns_eq :
    mentionedColumns s = (offeredColumns s).filter fun ref => s.schema.mentionsColumn s.text ref.column := by
  rw [mentionedColumns, offeredColumns, List.filter_flatMap]
  refine List.flatMap_congr fun table _ => ?_
  rw [List.filter_map]
  rfl

/-- **The mentioned columns** are the offered ones with a name that is a whole word of the text. -/
theorem mem_mentionedColumns_iff (ref : ColumnRef) (hnamed : ∃ term, s.schema.NamesColumn ref.column term) :
    ref ∈ mentionedColumns s ↔ s.Offers ref ∧ MentionsRef s ref := by
  have hdeclared : s.Offers ref → s.schema.HasColumnNamed ref.column := by
    intro hoffers
    obtain ⟨t, ht, c, hc, rfl⟩ := hoffers.declares
    exact .inl ⟨t, ht, hc⟩
  rw [mentionedColumns_eq, List.mem_filter, mem_offeredColumns,
    s.schema.mentionsColumn_iff s.text ref.column hnamed]
  exact and_congr_right fun hoffers => and_iff_right (hdeclared hoffers)

/-- **The items for metrics** are the fragments of the declared ones whose phrases are whole words of the text,
in the order of their declaration. -/
theorem metricItems_eq :
    (s.schema.mentionedMetrics s.text).map metricItem
      = (s.schema.metrics.filter fun m => HasWhole s.text m.phrase).map fun m =>
          ⟨.fragment m.sql, some (joinedName m.phrase)⟩ := by
  rw [s.schema.mentionedMetrics_eq s.text]
  refine List.map_congr_left fun m _ => ?_
  rw [metricItem, joinedName, Text.intercalate_splitOn_eq_map]

/-- **What is made up for an aggregate** is the number of rows, or the aggregate of each offered column that
is a measure, in their order. -/
theorem measureItems_eq (function : Aggregate) :
    measureItems s function
      = if function = .count then [⟨.countAll, some "total_count"⟩]
        else ((offeredColumns s).filter fun ref => measures.contains ref.column).map fun ref =>
          ⟨.aggregate function false (.column ref), some (function.label ++ "_" ++ ref.column)⟩ := by
  rw [measureItems, offeredColumns, List.filter_flatMap, List.map_flatMap]
  split
  · rfl
  · refine List.flatMap_congr fun table _ => ?_
    rw [List.filter_map, List.map_map]
    rfl

end Items

/-! ## The projection -/

/-- What a question shows under the aggregates that it asks for: the mentioned metrics, the mentioned columns,
and if there is no such column, what is made up for the aggregates. -/
def shownItems (s : Selection) (functions : List Aggregate) : List SelectItem :=
  (s.schema.mentionedMetrics s.text).map metricItem ++ (mentionedColumns s).map (shownColumn functions)
    ++ if mentionedColumns s = [] then functions.flatMap (measureItems s) else []

/-- **The items that a question shows**, where all columns have names: the metrics whose phrases are whole
words of the text, the columns with such a name, and if there is none, what is made up for the aggregates. -/
theorem mem_shownItems_iff (s : Selection) (functions : List Aggregate) (item : SelectItem)
    (hnamed : ∀ ref, s.Offers ref → ∃ term, s.schema.NamesColumn ref.column term) :
    item ∈ shownItems s functions
      ↔ (∃ m ∈ s.schema.metrics, HasWhole s.text m.phrase
            ∧ item = ⟨.fragment m.sql, some (joinedName m.phrase)⟩)
        ∨ (∃ ref, s.Offers ref ∧ MentionsRef s ref ∧ item = shownColumn functions ref)
        ∨ (¬ ∃ ref, s.Offers ref ∧ MentionsRef s ref) ∧ ∃ function ∈ functions,
            (function = .count ∧ item = ⟨.countAll, some "total_count"⟩)
              ∨ function ≠ .count ∧ ∃ ref, s.Offers ref ∧ ref.column ∈ measures
                ∧ item = ⟨.aggregate function false (.column ref),
                  some (function.label ++ "_" ++ ref.column)⟩ := by
  have hmentioned : ∀ ref, ref ∈ mentionedColumns s ↔ s.Offers ref ∧ MentionsRef s ref := by
    intro ref
    by_cases hoffers : s.Offers ref
    · exact mem_mentionedColumns_iff s ref (hnamed ref hoffers)
    · exact iff_of_false (fun h => hoffers (offers_of_mem_mentionedColumns s ref h)) fun h => hoffers h.1
  have hnone : mentionedColumns s = [] ↔ ¬ ∃ ref, s.Offers ref ∧ MentionsRef s ref := by
    simp only [← hmentioned, List.eq_nil_iff_forall_not_mem, not_exists]
  have hmeasure : ∀ function, item ∈ measureItems s function
      ↔ (function = .count ∧ item = ⟨.countAll, some "total_count"⟩)
        ∨ function ≠ .count ∧ ∃ ref, s.Offers ref ∧ ref.column ∈ measures
          ∧ item = ⟨.aggregate function false (.column ref),
            some (function.label ++ "_" ++ ref.column)⟩ := by
    intro function
    rw [measureItems_eq]
    by_cases hcount : function = .count
    · simp [hcount]
    · simp [hcount, mem_offeredColumns, and_assoc, eq_comm]
  rw [shownItems, List.mem_append, List.mem_append, metricItems_eq, or_assoc]
  refine or_congr ?_ (or_congr ?_ ?_)
  · simp [and_assoc, eq_comm]
  · simp [hmentioned, and_assoc, eq_comm]
  · by_cases hmentions : mentionedColumns s = []
    · simp [hmentions, hnone.mp hmentions, hmeasure]
    · simp [hmentions, mt hnone.mpr hmentions]

/-- Only the first of two aggregates is put over the identifier, and a status takes none. -/
example :
    projectionOf ⟨⟨[⟨"orders", ["order_id", "status"]⟩], [], [], [], [], []⟩, ["orders"],
        "count and sum of order_id by status"⟩
      = [⟨.aggregate .count true (.column (.of "orders" "order_id")), some "count_order_id"⟩,
          ⟨.column (.of "orders" "status"), none⟩] := by
  decide +kernel

end TextToSql.Intent
