import TextToSql.Intent.Filter

/-!
# Declared columns

Every way in which a term of a question finds a column ends at a declared column: a term that names none
is never passed on.

* `selectedColumn?_offers` : a term for a selected table finds a column of such a table;
* `columnLike?_declares` : a term for any table finds a declared column.
-/

namespace TextToSql

open Sql

/-- A column of a table as the schema declares it. -/
def Schema.Declares (schema : Schema) (ref : ColumnRef) : Prop :=
  ∃ t ∈ schema.tables, ∃ c ∈ t.columns, ref = .of t.name c

/-- A column of a table of the question: one that is declared for that table. -/
def Selection.Offers (s : Selection) (ref : ColumnRef) : Prop :=
  ∃ table ∈ s.tables, ∃ c ∈ s.schema.columns table, ref = .of table c

namespace Schema

/-- The columns of a table are declared. -/
theorem declares_of_mem_columns (schema : Schema) (table c : String) (h : c ∈ schema.columns table) :
    schema.Declares (.of table c) := by
  unfold columns at h
  split at h
  · next t hfind =>
      have hname := List.find?_some hfind
      rw [decide_eq_true_eq] at hname
      exact ⟨t, List.mem_of_find?_eq_some hfind, c, h, by rw [hname]⟩
  · cases h

/-- The columns of all tables are declared. -/
theorem declares_of_mem_allColumns (schema : Schema) (table c : String)
    (h : (table, c) ∈ schema.allColumns) : schema.Declares (.of table c) := by
  obtain ⟨t, ht, hc⟩ := List.mem_flatMap.mp h
  obtain ⟨c', hc', heq⟩ := List.mem_map.mp hc
  rw [Prod.mk.injEq] at heq
  exact ⟨t, ht, c, heq.2 ▸ hc', by rw [heq.1]⟩

/-- A column that a table has is among its columns. -/
theorem mem_columns_of_hasColumn (schema : Schema) (table c : String) (h : schema.hasColumn table c) :
    c ∈ schema.columns table :=
  List.contains_iff_mem.mp h

/-- The column that a term is like is declared. -/
theorem columnLike?_declares (schema : Schema) (term : String) (ref : ColumnRef)
    (h : schema.columnLike? term = some ref) : schema.Declares ref := by
  unfold columnLike? at h
  split at h
  · cases h
  · obtain ⟨⟨table, c⟩, hfind, rfl⟩ := Option.map_eq_some_iff.mp h
    exact schema.declares_of_mem_allColumns table c (List.mem_of_find?_eq_some hfind)

end Schema

/-- The columns of the tables of a question are declared. -/
theorem Selection.Offers.declares {s : Selection} {ref : ColumnRef} (h : s.Offers ref) :
    s.schema.Declares ref := by
  obtain ⟨table, _, c, hc, rfl⟩ := h
  exact s.schema.declares_of_mem_columns table c hc

/-- The column that a term selects is one of the tables of the question. -/
theorem Intent.selectedColumn?_offers (s : Selection) (term : String) (ref : ColumnRef)
    (h : selectedColumn? s term = some ref) : s.Offers ref := by
  unfold selectedColumn? at h
  split at h
  · cases h
  · obtain ⟨table, htable, hfound⟩ := List.exists_of_findSome?_eq_some h
    dsimp only at hfound
    split at hfound
    · next hcolumn =>
        cases hfound
        exact ⟨table, htable, _, s.schema.mem_columns_of_hasColumn table _ hcolumn, rfl⟩
    · cases hfound

end TextToSql
