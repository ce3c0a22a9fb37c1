import TextToSql.Proofs.Schema.Columns
import TextToSql.Schema.Declare

/-!
# What the schema of a request contains

The tables, columns and conditions of the schema are those that the request writes; reading it leniently
leaves things out and adds nothing.

* `ofRequest_tables` : every table and every column of it is a member of the request;
* `ofRequest_on` : every compared column is written in the condition of an entry.
-/

namespace TextToSql

open Sql

/-- A table name that a request writes: the name of a table or the target of an alias. -/
def Request.NamesTable (request : Request) (name : String) : Prop :=
  (∃ members ∈ request.schema, ∃ value, (name, value) ∈ members)
    ∨ ∃ word, (word, name) ∈ Schema.textMembers request.tableAliases

/-- A column that a request writes: one that is listed for a table, or one in the condition of a
relationship, where a table of the relationship may be added to it. -/
def Request.NamesColumn (request : Request) (ref : ColumnRef) : Prop :=
  (∃ members ∈ request.schema, ∃ name value, (name, value) ∈ members
      ∧ ∃ c ∈ Schema.textList value, ref = .of name c)
    ∨ ∃ entry ∈ request.relationships, ∃ pair ∈ Schema.textMembers entry.joinCondition,
        ∃ table ∈ entry.tables, ref = Schema.qualified pair.1 table ∨ ref = Schema.qualified pair.2 table

namespace Schema

/-- Merging columns gathers the old and the new ones. -/
theorem mem_mergeColumns (old new : List String) (c : String) :
    c ∈ mergeColumns old new ↔ c ∈ old ∨ c ∈ new := by
  unfold mergeColumns
  induction new generalizing old with
  | nil => simp
  | cons c' new ih =>
      rw [List.foldl_cons, ih]
      split
      · next hold =>
          have hmem : c' ∈ old := List.contains_iff_mem.mp hold
          constructor
          · rintro (h | h)
            · exact Or.inl h
            · exact Or.inr (List.mem_cons_of_mem c' h)
          · rintro (h | h)
            · exact Or.inl h
            · rcases List.mem_cons.mp h with rfl | h
              · exact Or.inl hmem
              · exact Or.inr h
      · simp [or_assoc]

/-- What holds of all tables and their columns and of a merged table holds of all tables after merging. -/
theorem forall_mem_mergeTable (p : String → Prop) (q : String → String → Prop) (tables : List Table)
    (name : String) (columns : List String)
    (htables : ∀ t ∈ tables, p t.name ∧ ∀ c ∈ t.columns, q t.name c) (hname : p name)
    (hcolumns : ∀ c ∈ columns, q name c) :
    ∀ t ∈ mergeTable tables name columns, p t.name ∧ ∀ c ∈ t.columns, q t.name c := by
  have hmerged : ∀ old, (∀ c ∈ old, q name c) → ∀ c ∈ mergeColumns old columns, q name c := by
    intro old hold c hc
    rcases (mem_mergeColumns old columns c).mp hc with hc | hc
    · exact hold c hc
    · exact hcolumns c hc
  induction tables with
  | nil =>
      intro t ht
      obtain rfl := List.mem_singleton.mp ht
      exact ⟨hname, hmerged [] (by simp)⟩
  | cons t' ts ih =>
      obtain ⟨ht', hts⟩ := List.forall_mem_cons.mp htables
      unfold mergeTable
      split
      · next heq =>
          subst heq
          exact List.forall_mem_cons.mpr ⟨⟨ht'.1, hmerged t'.columns ht'.2⟩, hts⟩
      · exact List.forall_mem_cons.mpr ⟨ht', ih hts⟩

/-- What holds of the members of a request holds of the tables that they declare. -/
theorem forall_mem_foldl_mergeTable (p : String → Prop) (q : String → String → Prop)
    (members : List (String × Json)) (tables : List Table)
    (htables : ∀ t ∈ tables, p t.name ∧ ∀ c ∈ t.columns, q t.name c)
    (hmembers : ∀ m ∈ members, p m.1 ∧ ∀ c ∈ textList m.2, q m.1 c) :
    ∀ t ∈ members.foldl (fun ts m => mergeTable ts m.1 (textList m.2)) tables,
      p t.name ∧ ∀ c ∈ t.columns, q t.name c := by
  induction members generalizing tables with
  | nil => exact htables
  | cons m ms ih =>
      obtain ⟨hm, hms⟩ := List.forall_mem_cons.mp hmembers
      exact ih _ (forall_mem_mergeTable p q tables m.1 (textList m.2) htables hm.1 hm.2) hms

/-- The tables of a request are its members, and their columns are listed there. -/
theorem ofRequest_tables (request : Request) :
    ∀ t ∈ (ofRequest request).tables,
      request.NamesTable t.name ∧ ∀ c ∈ t.columns, request.NamesColumn (.of t.name c) := by
  refine forall_mem_foldl_mergeTable _ (fun t c => request.NamesColumn (.of t c)) _ [] (by simp) ?_
  intro m hm
  obtain ⟨members, hmembers, hmem⟩ := List.mem_flatten.mp hm
  refine ⟨Or.inl ⟨members, hmembers, m.2, hmem⟩, ?_⟩
  intro c hc
  exact Or.inl ⟨members, hmembers, m.1, m.2, hmem, c, hc, rfl⟩

/-- The targets of the aliases of a request are written there. -/
theorem ofRequest_tableAliases (request : Request) :
    ∀ entry ∈ (ofRequest request).tableAliases, request.NamesTable entry.2 := by
  intro entry hentry
  obtain ⟨⟨word, name⟩, hmem, rfl⟩ := List.mem_map.mp hentry
  exact Or.inr ⟨word, hmem⟩

/-- The columns that the relationships of a request compare are written there. -/
theorem ofRequest_on (request : Request) :
    ∀ r ∈ (ofRequest request).relationships, ∀ pair ∈ r.on,
      request.NamesColumn pair.1 ∧ request.NamesColumn pair.2 := by
  intro r hr pair hpair
  obtain ⟨entry, hentry, hdeclares⟩ := List.mem_filterMap.mp hr
  unfold relationshipOf? at hdeclares
  split at hdeclares
  · next left right htables =>
      cases hdeclares
      obtain ⟨written, hwritten, rfl⟩ := List.mem_map.mp hpair
      constructor
      · exact Or.inr ⟨entry, hentry, written, hwritten, left, by simp [htables], Or.inl rfl⟩
      · exact Or.inr ⟨entry, hentry, written, hwritten, right, by simp [htables], Or.inr rfl⟩
  · cases hdeclares

end Schema

end TextToSql
