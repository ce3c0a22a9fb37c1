import TextToSql.Intent.Projection
import TextToSql.Proofs.Schema.Columns

/-!
# What a projection can show

The items of a projection have six forms. Aggregates are put over plain columns only, so no aggregate is
ever nested.

* `ProjectedItem` : the six forms;
* `projectedItem_of_mem` : every item of a projection has one of them.
-/

namespace TextToSql.Intent

open Sql

/-- The items of the projection of a question. -/
inductive ProjectedItem (s : Selection) : SelectItem → Prop
  | metric (m : NamedSql) (hm : m ∈ s.schema.metrics) : ProjectedItem s (metricItem m)
  | column (ref : ColumnRef) (href : s.Offers ref) : ProjectedItem s (.plain (.column ref))
  | aggregate (function : Aggregate) (distinct : Bool) (ref : ColumnRef) (href : s.Offers ref) :
      ProjectedItem s ⟨.aggregate function distinct (.column ref), some (aggregateName function ref.column)⟩
  | countAll : ProjectedItem s ⟨.countAll, some "total_count"⟩
  | tableStar (first : String) (rest : List String) (htables : s.tables = first :: rest) :
      ProjectedItem s (.plain (.tableStar first))
  | star (htables : s.tables = []) : ProjectedItem s (.plain .star)

/-- The mentioned columns are columns of the tables of the question. -/
theorem offers_of_mem_mentionedColumns (s : Selection) (ref : ColumnRef) (h : ref ∈ mentionedColumns s) :
    s.Offers ref := by
  obtain ⟨table, htable, hmem⟩ := List.mem_flatMap.mp h
  obtain ⟨c, hc, rfl⟩ := List.mem_map.mp hmem
  exact ⟨table, htable, c, (List.mem_filter.mp hc).1, rfl⟩

/-- Putting an aggregate over an item leaves one of the six forms. -/
theorem ProjectedItem.wrap {s : Selection} {item : SelectItem} (h : ProjectedItem s item)
    (function : Aggregate) : ProjectedItem s (wrap function item) := by
  cases h with
  | column ref href =>
      show ProjectedItem s (if aggregatable.contains ref.column then aggregateItem function ref
        else .plain (.column ref))
      split
      · exact .aggregate function _ ref href
      · exact .column ref href
  | metric m hm => exact .metric m hm
  | aggregate f distinct ref href => exact .aggregate f distinct ref href
  | countAll => exact .countAll
  | tableStar first rest htables => exact .tableStar first rest htables
  | star htables => exact .star htables

/-- What putting an aggregate over an item preserves holds of all items under all aggregates. -/
theorem forall_mem_foldl_wrap (p : SelectItem → Prop)
    (hwrap : ∀ function item, p item → p (wrap function item)) (functions : List Aggregate)
    (items : List SelectItem) (hitems : ∀ item ∈ items, p item) :
    ∀ item ∈ functions.foldl (fun items function => items.map (wrap function)) items, p item := by
  induction functions generalizing items with
  | nil => exact hitems
  | cons function functions ih =>
      refine ih _ ?_
      intro item hitem
      obtain ⟨item', hitem', rfl⟩ := List.mem_map.mp hitem
      exact hwrap function item' (hitems item' hitem')

/-- The measures are shown in one of the six forms. -/
theorem projectedItem_of_mem_measureItems (s : Selection) (function : Aggregate) (item : SelectItem)
    (h : item ∈ measureItems s function) : ProjectedItem s item := by
  unfold measureItems at h
  split at h
  · obtain rfl := List.mem_singleton.mp h
    exact .countAll
  · obtain ⟨table, htable, hmem⟩ := List.mem_flatMap.mp h
    obtain ⟨c, hc, rfl⟩ := List.mem_map.mp hmem
    exact .aggregate function false (.of table c) ⟨table, htable, c, (List.mem_filter.mp hc).1, rfl⟩

/-- The mentioned columns and aggregates are shown in one of the six forms. -/
theorem projectedItem_of_mem_columnItems (functions : List Aggregate) (s : Selection)
    (item : SelectItem) (h : item ∈ columnItems functions s) : ProjectedItem s item := by
  unfold columnItems at h
  split at h
  · obtain ⟨function, _, hitem⟩ := List.mem_flatMap.mp h
    exact projectedItem_of_mem_measureItems s function item hitem
  · refine forall_mem_foldl_wrap (ProjectedItem s) (fun function _ hitem => hitem.wrap function)
      functions _ ?_ item h
    intro item hitem
    obtain ⟨ref, href, rfl⟩ := List.mem_map.mp hitem
    exact .column ref (offers_of_mem_mentionedColumns s ref href)

/-- **Every item of a projection has one of the six forms.** -/
theorem projectedItem_of_mem (s : Selection) (item : SelectItem) (h : item ∈ projectionOf s) :
    ProjectedItem s item := by
  unfold projectionOf at h
  split at h
  · next htables =>
      obtain rfl := List.mem_singleton.mp h
      exact .star htables
  · next first rest htables =>
      dsimp only at h
      split at h
      · obtain rfl := List.mem_singleton.mp h
        exact .tableStar first rest htables
      · rcases List.mem_append.mp h with h | h
        · obtain ⟨m, hm, rfl⟩ := List.mem_map.mp h
          exact .metric m ((List.mem_filter.mp hm).1)
        · exact projectedItem_of_mem_columnItems _ s item h

end TextToSql.Intent
