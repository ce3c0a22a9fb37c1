import TextToSql.Proofs.Intent.Selection
import TextToSql.Schema.Declare

/-!
# The columns of a table are distinct

A schema is read from a request or started empty, and grows table by table; merging columns repeats none.

* `Built` : the schemas that can come about;
* `Built.nodup_columns` : the columns of a table of such a schema are distinct.
-/

namespace TextToSql.Schema

/-- The schemas that can come about. -/
inductive Built : Schema → Prop
  | empty : Built .empty
  | ofRequest (request : Request) : Built (ofRequest request)
  | addTable (schema : Schema) (name : String) (columns : List String) (h : Built schema) :
      Built (schema.addTable name columns)

/-- Columns are merged by adding the new ones one by one. -/
theorem mergeColumns_eq (old new : List String) : mergeColumns old new = new.foldl Intent.addNew old := by
  unfold mergeColumns
  congr 1
  funext columns c
  simp [Intent.addNew]

/-- Merging a table repeats no column of any table. -/
theorem nodup_columns_mergeTable (tables : List Table) (name : String) (columns : List String)
    (h : ∀ t ∈ tables, t.columns.Nodup) : ∀ t ∈ mergeTable tables name columns, t.columns.Nodup := by
  have hmerged : ∀ old : List String, old.Nodup → (mergeColumns old columns).Nodup := by
    intro old hold
    rw [mergeColumns_eq]
    exact Intent.nodup_foldl_addNew old columns hold
  induction tables with
  | nil =>
      intro t ht
      obtain rfl := List.mem_singleton.mp ht
      exact hmerged [] List.nodup_nil
  | cons t' ts ih =>
      obtain ⟨ht', hts⟩ := List.forall_mem_cons.mp h
      unfold mergeTable
      split
      · exact List.forall_mem_cons.mpr ⟨hmerged t'.columns ht', hts⟩
      · exact List.forall_mem_cons.mpr ⟨ht', ih hts⟩

/-- The tables that a request declares repeat no column. -/
theorem nodup_columns_declaredTables (entries : List (List (String × Json))) :
    ∀ t ∈ declaredTables entries, t.columns.Nodup := by
  suffices hfold : ∀ (members : List (String × Json)) (tables : List Table),
      (∀ t ∈ tables, t.columns.Nodup) →
        ∀ t ∈ members.foldl (fun ts m => mergeTable ts m.1 (textList m.2)) tables, t.columns.Nodup from
    hfold entries.flatten [] (by simp)
  intro members
  induction members with
  | nil =>
      intro tables htables
      exact htables
  | cons m ms ih =>
      intro tables htables
      exact ih _ (nodup_columns_mergeTable tables m.1 (textList m.2) htables)

/-- The tables of a schema repeat no column. -/
theorem Built.nodup_columns_of_mem {schema : Schema} (h : schema.Built) :
    ∀ t ∈ schema.tables, t.columns.Nodup := by
  induction h with
  | empty => simp [Schema.empty]
  | ofRequest request => exact nodup_columns_declaredTables request.schema
  | addTable schema name columns _ ih => exact nodup_columns_mergeTable schema.tables name columns ih

/-- **The columns of a table are distinct.** -/
theorem Built.nodup_columns {schema : Schema} (h : schema.Built) (table : String) :
    (schema.columns table).Nodup := by
  unfold Schema.columns
  split
  · next t hfind => exact h.nodup_columns_of_mem t (List.mem_of_find?_eq_some hfind)
  · exact List.nodup_nil

end TextToSql.Schema
