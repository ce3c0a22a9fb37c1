import TextToSql.Intent.Ordering
import TextToSql.Proofs.Schema.Columns

/-!
# What an order can look at

A statement is ordered by a declared column, an aggregate of one, or a key that is built in.

* `sortKey_of_mem_orderOf` : every key of an order has one of these forms.
-/

namespace TextToSql.Intent

open Sql

/-- The keys that are built in. -/
def builtinKeys : List Expr := [
  .of "orders" "total_amount", .of "orders" "order_date", .of "products" "price",
  .of "order_items" "price", .of "order_items" "quantity",
  .aggregated .count (.of "orders" "order_id"), .aggregated .sum (.of "order_items" "quantity")]

/-- The keys that the rows of a question are ordered by. -/
inductive SortKey (schema : Schema) : Expr → Prop
  | column (ref : ColumnRef) (href : schema.Declares ref) : SortKey schema (.column ref)
  | aggregate (function : Aggregate) (ref : ColumnRef) (href : schema.Declares ref) :
      SortKey schema (.aggregated function (.column ref))
  | builtin (key : Expr) (hkey : key ∈ builtinKeys) : SortKey schema key

/-- A key that a term names is a declared column or an aggregate of one: a term that names no column is
dropped. -/
theorem sortKey_of_namedKey? (schema : Schema) (term text : String) (key : Expr)
    (h : namedKey? schema term text = some key) : SortKey schema key := by
  unfold namedKey? at h
  split at h
  · next ref href =>
      cases h
      exact .column ref (schema.columnLike?_declares term ref href)
  · dsimp only at h
    split at h
    · cases h
    · obtain ⟨⟨table, c⟩, hfind, hkey⟩ := Option.map_eq_some_iff.mp h
      have href := schema.declares_of_mem_allColumns table c (List.mem_of_find?_eq_some hfind)
      subst hkey
      split
      · next function _ => exact .aggregate function _ href
      · exact .column _ href

/-- The key for a word of measure is built in. -/
theorem measureKey_mem_builtinKeys (text keyword : String) : measureKey text keyword ∈ builtinKeys := by
  unfold measureKey
  split
  · split <;> decide
  · decide
  · decide

/-- The guessed key is built in. -/
theorem guessedKey_mem_builtinKeys (text : String) : guessedKey text ∈ builtinKeys := by
  unfold guessedKey
  split
  · exact measureKey_mem_builtinKeys text _
  · split
    · decide
    · split <;> decide

/-- The key for a word of rank is built in. -/
theorem rankingKey?_mem_builtinKeys (schema : Schema) (text : String) (key : Expr)
    (h : rankingKey? schema text = some key) : key ∈ builtinKeys := by
  unfold rankingKey? at h
  split at h
  · cases h
    decide
  · split at h
    · cases h
      decide
    · split at h
      · cases h
        decide
      · cases h

/-- A key that a question asks for has one of the forms. -/
theorem sortKey_of_askedKey? (s : Selection) (text : String) (key : OrderKey)
    (h : askedKey? s text = some key) : SortKey s.schema key.expr := by
  have hguessed : SortKey s.schema (guessedKey text) := .builtin _ (guessedKey_mem_builtinKeys text)
  unfold askedKey? at h
  split at h
  · obtain ⟨e, he, rfl⟩ := Option.map_eq_some_iff.mp h
    exact sortKey_of_namedKey? s.schema _ text e he
  · split at h
    · rw [Option.some.injEq] at h
      rwa [← h]
    · split at h
      · rw [Option.some.injEq] at h
        rwa [← h]
      · cases h

/-- **Every key of an order has one of the forms.** -/
theorem sortKey_of_mem_orderOf (s : Selection) (key : OrderKey) (h : key ∈ orderOf s) :
    SortKey s.schema key.expr := by
  unfold orderOf at h
  dsimp only at h
  split at h
  · next key' hasked =>
      obtain rfl := List.mem_singleton.mp h
      exact sortKey_of_askedKey? s _ key hasked
  · split at h
    · obtain ⟨e, he, rfl⟩ := Option.map_eq_some_iff.mp (Option.mem_toList.mp h)
      exact .builtin e (rankingKey?_mem_builtinKeys s.schema _ e he)
    · cases h

end TextToSql.Intent
