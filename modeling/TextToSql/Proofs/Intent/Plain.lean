import TextToSql.Plan
import TextToSql.Proofs.Intent.Projection
import TextToSql.Proofs.Schema.Distinct

/-!
# Stars and plain items of a projection

A star stands alone in a projection, and the plain items of a projection are mentioned columns, each of
them once.

* `isStar_alone` : a star is the sole item;
* `plain_sublist` : the plain items are mentioned columns in their order;
* `nodup_plain` : no plain item is repeated.
-/

namespace TextToSql.Intent

open Sql

/-! ## Stars -/

/-- Putting an aggregate over an item makes no star of it. -/
theorem isStar_wrap (function : Aggregate) (item : SelectItem) (h : item.expr.isStar = false) :
    (wrap function item).expr.isStar = false := by
  unfold wrap
  split
  · split
    · rfl
    · exact h
  · exact h

/-- There is no star among the items for columns and aggregates. -/
theorem isStar_of_mem_columnItems (functions : List Aggregate) (s : Selection) (item : SelectItem)
    (h : item ∈ columnItems functions s) : item.expr.isStar = false := by
  unfold columnItems at h
  split at h
  · obtain ⟨function, _, h⟩ := List.mem_flatMap.mp h
    unfold measureItems at h
    split at h
    · obtain rfl := List.mem_singleton.mp h
      rfl
    · obtain ⟨table, _, h⟩ := List.mem_flatMap.mp h
      obtain ⟨c, _, rfl⟩ := List.mem_map.mp h
      rfl
  · refine forall_mem_foldl_wrap (fun item => item.expr.isStar = false) isStar_wrap functions _ ?_ item h
    intro item hitem
    obtain ⟨ref, _, rfl⟩ := List.mem_map.mp hitem
    rfl

/-- A projection is a star, or it has items none of which is a star. -/
theorem projectionOf_cases (s : Selection) :
    (∃ item, projectionOf s = [item])
      ∨ (projectionOf s ≠ [] ∧ ∀ item ∈ projectionOf s, item.expr.isStar = false) := by
  unfold projectionOf
  split
  · exact Or.inl ⟨_, rfl⟩
  · dsimp only
    split
    · exact Or.inl ⟨_, rfl⟩
    · next hitems =>
        refine Or.inr ⟨by simpa using hitems, ?_⟩
        intro item hitem
        rcases List.mem_append.mp hitem with hitem | hitem
        · obtain ⟨m, _, rfl⟩ := List.mem_map.mp hitem
          rfl
        · exact isStar_of_mem_columnItems _ s item hitem

/-- A projection has an item. -/
theorem projectionOf_ne_nil (s : Selection) : projectionOf s ≠ [] := by
  rcases projectionOf_cases s with ⟨item, heq⟩ | ⟨hne, -⟩
  · rw [heq]
    exact List.cons_ne_nil _ _
  · exact hne

/-- **A star is the sole item** of a projection. -/
theorem isStar_alone (s : Selection) (item : SelectItem) (hitem : item ∈ projectionOf s)
    (hstar : item.expr.isStar) : projectionOf s = [item] := by
  rcases projectionOf_cases s with ⟨item', heq⟩ | ⟨-, hall⟩
  · rw [heq] at hitem ⊢
    rw [List.mem_singleton.mp hitem]
  · rw [hall item hitem] at hstar
    cases hstar

/-! ## Plain items -/

/-- The expressions of the plain items. -/
def plainExprs (items : List SelectItem) : List Expr := (items.filter isPlain).map SelectItem.expr

/-- An item that is plain under an aggregate has been left as it is. -/
theorem wrap_eq_of_isPlain (function : Aggregate) (item : SelectItem)
    (h : isPlain (wrap function item)) : wrap function item = item := by
  unfold wrap at h ⊢
  split
  · next ref heq =>
      simp only [heq] at h
      split
      · next hcan =>
          rw [if_pos hcan] at h
          cases h
      · rfl
  · rfl

/-- Under an aggregate, fewer items are plain. -/
theorem plainExprs_map_wrap (function : Aggregate) (items : List SelectItem) :
    (plainExprs (items.map (wrap function))).Sublist (plainExprs items) := by
  unfold plainExprs
  induction items with
  | nil => exact List.Sublist.refl _
  | cons item items ih =>
      by_cases hwrapped : isPlain (wrap function item)
      · have heq := wrap_eq_of_isPlain function item hwrapped
        have hplain : isPlain item := heq ▸ hwrapped
        rw [List.map_cons, List.filter_cons_of_pos hwrapped, heq, List.filter_cons_of_pos hplain]
        exact ih.cons_cons _
      · rw [List.map_cons, List.filter_cons_of_neg hwrapped]
        by_cases hplain : isPlain item
        · rw [List.filter_cons_of_pos hplain]
          exact ih.cons _
        · rwa [List.filter_cons_of_neg hplain]

/-- Under aggregates, fewer items are plain. -/
theorem plainExprs_foldl_wrap (functions : List Aggregate) (items : List SelectItem) :
    (plainExprs (functions.foldl (fun items function => items.map (wrap function)) items)).Sublist
      (plainExprs items) := by
  induction functions generalizing items with
  | nil => exact List.Sublist.refl _
  | cons function functions ih => exact (ih _).trans (plainExprs_map_wrap function items)

/-- There is nothing plain in items that are not plain. -/
theorem plainExprs_eq_nil (items : List SelectItem) (h : ∀ item ∈ items, isPlain item = false) :
    plainExprs items = [] := by
  rw [plainExprs, List.map_eq_nil_iff, List.filter_eq_nil_iff]
  intro item hitem
  simp [h item hitem]

/-- A star is not plain. -/
theorem plainExprs_star (item : SelectItem) (h : item.expr.isStar) : plainExprs [item] = [] := by
  refine plainExprs_eq_nil [item] ?_
  intro item' hitem'
  obtain rfl := List.mem_singleton.mp hitem'
  simp [isPlain, h]

/-- The plain items for columns and aggregates are mentioned columns. -/
theorem plainExprs_columnItems (functions : List Aggregate) (s : Selection) :
    (plainExprs (columnItems functions s)).Sublist ((mentionedColumns s).map Expr.column) := by
  unfold columnItems
  split
  -- without a mentioned column there are aggregates only
  · have hnil : plainExprs (functions.flatMap (measureItems s)) = [] := by
      refine plainExprs_eq_nil _ ?_
      intro item hitem
      obtain ⟨function, _, hitem⟩ := List.mem_flatMap.mp hitem
      unfold measureItems at hitem
      split at hitem
      · obtain rfl := List.mem_singleton.mp hitem
        rfl
      · obtain ⟨table, _, hitem⟩ := List.mem_flatMap.mp hitem
        obtain ⟨c, _, rfl⟩ := List.mem_map.mp hitem
        rfl
    rw [hnil]
    exact List.nil_sublist _
  · have hplain : plainExprs ((mentionedColumns s).map fun ref => .plain (.column ref))
        = (mentionedColumns s).map Expr.column := by
      rw [plainExprs, List.filter_eq_self.mpr, List.map_map]
      · rfl
      · intro item hitem
        obtain ⟨ref, _, rfl⟩ := List.mem_map.mp hitem
        rfl
    have hsublist := plainExprs_foldl_wrap functions
      ((mentionedColumns s).map fun ref => .plain (.column ref))
    rwa [hplain] at hsublist

/-- **The plain items of a projection are mentioned columns**, in their order. -/
theorem plain_sublist (s : Selection) :
    (plainExprs (projectionOf s)).Sublist ((mentionedColumns s).map Expr.column) := by
  unfold projectionOf
  split
  · rw [plainExprs_star _ rfl]
    exact List.nil_sublist _
  · dsimp only
    split
    · rw [plainExprs_star _ rfl]
      exact List.nil_sublist _
    · have hmetrics : plainExprs ((s.schema.mentionedMetrics s.text).map metricItem) = [] := by
        refine plainExprs_eq_nil _ ?_
        intro item hitem
        obtain ⟨m, _, rfl⟩ := List.mem_map.mp hitem
        rfl
      have happend : ∀ xs ys, plainExprs (xs ++ ys) = plainExprs xs ++ plainExprs ys := by
        intro xs ys
        rw [plainExprs, List.filter_append, List.map_append, plainExprs, plainExprs]
      rw [happend, hmetrics, List.nil_append]
      exact plainExprs_columnItems _ s

/-- A question mentions each of its columns once. -/
theorem nodup_mentionedColumns (s : Selection) (hschema : s.schema.Built) (htables : s.tables.Nodup) :
    (mentionedColumns s).Nodup := by
  refine List.nodup_flatMap.mpr ⟨?_, ?_⟩
  · intro table _
    refine List.Nodup.map ?_ ((hschema.nodup_columns table).filter _)
    intro c c' h
    exact (ColumnRef.mk.inj h).2
  · refine htables.imp ?_
    intro table table' hne ref href href'
    obtain ⟨c, _, rfl⟩ := List.mem_map.mp href
    obtain ⟨c', _, heq⟩ := List.mem_map.mp href'
    exact hne (Option.some.inj (ColumnRef.mk.inj heq).1).symm

/-- **No plain item is repeated.** -/
theorem nodup_plain (s : Selection) (hschema : s.schema.Built) (htables : s.tables.Nodup) :
    (plainExprs (projectionOf s)).Nodup := by
  refine (plain_sublist s).nodup ?_
  refine (nodup_mentionedColumns s hschema htables).map ?_
  intro ref ref' h
  exact Expr.column.inj h

end TextToSql.Intent
