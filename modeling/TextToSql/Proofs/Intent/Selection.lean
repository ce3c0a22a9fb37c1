import Mathlib.Data.List.Nodup
import TextToSql.Intent.Selection
import TextToSql.Proofs.Schema.Relationships

/-!
# The tables of a question

Where the tables of a question can come from, and the relationships between neighbouring ones.

* `nodup_tablesOf` : a question has each of its tables once;
* `mem_tablesOf` : each of them is a declared table, the target of an alias or a built-in name;
* `mem_joinsOf` : the relationships of a question are those of the chains between neighbours;
* `joinsOf_ne` : the relationships between neighbours relate different tables.
-/

namespace TextToSql.Intent

open Sql

/-! ## Lists without repetition -/

section AddNew

variable {α : Type} [DecidableEq α]

/-- The elements that are added are in the list, and so are those that were there. -/
theorem mem_addNew (xs : List α) (x y : α) : y ∈ addNew xs x ↔ y ∈ xs ∨ y = x := by
  unfold addNew
  split
  · next hx =>
      constructor
      · exact Or.inl
      · rintro (hy | rfl)
        · exact hy
        · exact hx
  · simp

/-- Adding elements one by one gathers them all. -/
theorem mem_foldl_addNew (xs ys : List α) (y : α) :
    y ∈ ys.foldl addNew xs ↔ y ∈ xs ∨ y ∈ ys := by
  induction ys generalizing xs with
  | nil => simp
  | cons z ys ih => rw [List.foldl_cons, ih, mem_addNew, List.mem_cons, or_assoc]

/-- Adding elements one by one repeats none. -/
theorem nodup_foldl_addNew (xs ys : List α) (h : xs.Nodup) : (ys.foldl addNew xs).Nodup := by
  induction ys generalizing xs with
  | nil => exact h
  | cons z ys ih =>
      refine ih _ ?_
      unfold addNew
      split
      · exact h
      · next hz => exact h.append (List.nodup_singleton z) (List.disjoint_singleton.mpr hz)

/-- Adding elements one by one goes on behind those that were there. -/
theorem foldl_addNew_eq (xs ys : List α) :
    ∃ more, ys.foldl addNew xs = xs ++ more ∧ ∀ y ∈ more, y ∈ ys := by
  induction ys generalizing xs with
  | nil => exact ⟨[], by simp, by simp⟩
  | cons y ys ih =>
      obtain ⟨more, hmore, hmem⟩ := ih (addNew xs y)
      rw [List.foldl_cons, hmore]
      unfold addNew
      split
      · exact ⟨more, rfl, fun z hz => List.mem_cons_of_mem y (hmem z hz)⟩
      · refine ⟨y :: more, by simp, ?_⟩
        intro z hz
        rcases List.mem_cons.mp hz with rfl | hz
        · exact List.mem_cons_self
        · exact List.mem_cons_of_mem y (hmem z hz)

end AddNew

/-! ## Tables -/

/-- A question has each of its tables once. -/
theorem nodup_tablesOf (schema : Schema) (text : String) : (tablesOf schema text).Nodup := by
  unfold tablesOf
  split
  · cases impliedTable? schema text with
    | none => exact List.nodup_nil
    | some table => exact List.nodup_singleton table
  · exact nodup_foldl_addNew [] _ List.nodup_nil

/-- The table that a term resolves to is declared or the target of an alias. -/
theorem resolveTable?_eq_some (schema : Schema) (term table : String)
    (h : schema.resolveTable? term = some table) :
    table ∈ schema.tableNames ∨ ∃ entry ∈ schema.tableAliases, entry.2 = table := by
  have hdeclared : ∀ name, schema.hasTable name → name ∈ schema.tableNames := by
    intro name hname
    obtain ⟨t, ht, heq⟩ := List.any_eq_true.mp hname
    exact List.mem_map.mpr ⟨t, ht, of_decide_eq_true heq⟩
  unfold Schema.resolveTable? at h
  split at h
  · next hterm =>
      cases h
      exact Or.inl (hdeclared _ hterm)
  · split at h
    · next name table' hfind =>
        cases h
        exact Or.inr ⟨_, List.mem_of_find?_eq_some hfind, rfl⟩
    · split at h
      · next hplural =>
          cases h
          exact Or.inl (hdeclared _ hplural)
      · cases h

/-- The table names that are built in. -/
def builtinTables : List String := ["orders", "customers", "products"]

/-- The tables that metrics point to are built in. -/
theorem tableOfMetric?_eq_some (schema : Schema) (text table : String)
    (h : tableOfMetric? schema text = some table) : table ∈ builtinTables := by
  have hhints : ∀ hint ∈ metricHints, hint.2 ∈ builtinTables := by decide
  unfold tableOfMetric? at h
  split at h
  · cases h
  · obtain ⟨hint, hhint, rfl⟩ := Option.map_eq_some_iff.mp h
    exact hhints hint (List.mem_of_find?_eq_some hhint)

/-- The table with a column akin to an aliased one is declared. -/
theorem tableOfAlias?_eq_some (schema : Schema) (text table : String)
    (h : tableOfAlias? schema text = some table) : table ∈ schema.tableNames := by
  obtain ⟨⟨column, names⟩, _, hentry⟩ := List.exists_of_findSome?_eq_some h
  dsimp only at hentry
  split at hentry
  · obtain ⟨t, ht, rfl⟩ := Option.map_eq_some_iff.mp hentry
    exact List.mem_map.mpr ⟨t, List.mem_of_find?_eq_some ht, rfl⟩
  · cases hentry

/-- The table of a question that mentions none is declared or built in. -/
theorem impliedTable?_eq_some (schema : Schema) (text table : String)
    (h : impliedTable? schema text = some table) :
    table ∈ schema.tableNames ∨ table ∈ builtinTables := by
  unfold impliedTable? at h
  split at h
  · next table' hmetric =>
      cases h
      exact Or.inr (tableOfMetric?_eq_some schema text table hmetric)
  · split at h
    · next table' halias =>
        cases h
        exact Or.inl (tableOfAlias?_eq_some schema text table halias)
    · split at h
      · cases h
      · cases h
        exact Or.inr (by decide)

/-- The tables of a question are declared, targets of aliases or built in. -/
theorem mem_tablesOf (schema : Schema) (text table : String) (h : table ∈ tablesOf schema text) :
    table ∈ schema.tableNames ∨ (∃ entry ∈ schema.tableAliases, entry.2 = table)
      ∨ table ∈ builtinTables := by
  unfold tablesOf at h
  split at h
  · rcases impliedTable?_eq_some schema text table (Option.mem_toList.mp h) with hname | hname
    · exact Or.inl hname
    · exact Or.inr (Or.inr hname)
  · rw [mentionedTables, mem_foldl_addNew] at h
    rcases h with h | h
    · cases h
    · obtain ⟨m, _, hm⟩ := List.mem_filterMap.mp h
      rcases resolveTable?_eq_some schema _ table hm with hname | hname
      · exact Or.inl hname
      · exact Or.inr (Or.inl hname)

/-! ## Neighbours -/

/-- The relationships of a question are those of the chains between neighbours. -/
theorem mem_joinsOf (schema : Schema) (tables : List String) (r : Relationship) :
    r ∈ joinsOf schema tables ↔ ∃ a b, [a, b] <:+: tables ∧ r ∈ schema.chain a b := by
  induction tables with
  | nil => simp [joinsOf]
  | cons a tables ih =>
      cases tables with
      | nil => simp [joinsOf, List.infix_cons_iff]
      | cons b tables =>
          rw [joinsOf, List.mem_append, ih]
          constructor
          · rintro (hr | ⟨a', b', hpair, hr⟩)
            · exact ⟨a, b, List.infix_cons_iff.mpr (Or.inl (by simp)), hr⟩
            · exact ⟨a', b', List.infix_cons_iff.mpr (Or.inr hpair), hr⟩
          · rintro ⟨a', b', hpair, hr⟩
            rcases List.infix_cons_iff.mp hpair with hhead | hpair
            · obtain ⟨rfl, rfl⟩ : a' = a ∧ b' = b := by simpa using hhead
              exact Or.inl hr
            · exact Or.inr ⟨a', b', hpair, hr⟩

/-- What holds of the relationships between any two different tables that follow each other holds of all
relationships between neighbours. -/
theorem forall_mem_joinsOf (schema : Schema) (tables : List String) (htables : tables.Nodup)
    (p : Relationship → Prop)
    (h : ∀ a ∈ tables, ∀ b ∈ tables, a ≠ b → ∀ r ∈ schema.chain a b, p r) :
    ∀ r ∈ joinsOf schema tables, p r := by
  intro r hr
  obtain ⟨a, b, hpair, hr⟩ := (mem_joinsOf schema tables r).mp hr
  -- the list has no repetition, so neighbours are different
  have hab : a ≠ b := by simpa using htables.sublist hpair.sublist
  exact h a (hpair.subset (by simp)) b (hpair.subset (by simp)) hab r hr

/-- The relationships between neighbours relate different tables. -/
theorem joinsOf_ne (schema : Schema) (tables : List String) (htables : tables.Nodup) :
    ∀ r ∈ joinsOf schema tables, r.left ≠ r.right :=
  forall_mem_joinsOf schema tables htables _ fun a _ b _ hab => schema.chain_ne a b hab

end TextToSql.Intent
