import TextToSql.Proofs.Intent.Filter
import TextToSql.Proofs.Intent.Grouping

/-!
# What a question supplies

The pieces that a question can put into the projection, the condition on rows and the groups of its
statement, whichever rule puts them there.

* `Selection.Supplies` : the pieces of these three clauses;
* `ProjectedItem.supplies`, `RowCondition.supplies`, `GroupKey.supplies` : each clause has such pieces only.
-/

namespace TextToSql

open Sql Unicode Intent

/-- The columns of orders that are known without a declaration. -/
def orderColumns : List ColumnRef :=
  [.of "orders" "total_amount", .of "orders" "status", .of "orders" "order_date"]

/-- A piece that a question can supply: one of its tables, a declared column of one of them, a column of
orders in a question about orders, a value of harmless characters, or a fragment of the schema. -/
inductive Selection.Supplies (s : Selection) : Piece → Prop
  | table (name : String) (hname : name ∈ s.tables) : Supplies s (.table name)
  | column (ref : ColumnRef) (href : s.Offers ref) : Supplies s (.column ref)
  | orderColumn (ref : ColumnRef) (horders : s.has "orders") (href : ref ∈ orderColumns) :
      Supplies s (.column ref)
  | number (digits : String) (hdigits : IsDecimal isDecimalDigit digits.toList) :
      Supplies s (.number digits)
  | text (value : String) (hvalue : IsRun .dotted value.toList) : Supplies s (.text value)
  | fragment (phrase : NamedSql) (hphrase : phrase ∈ s.schema.metrics ++ s.schema.timePhrases) :
      Supplies s (.fragment phrase.sql)

namespace Intent

variable {s : Selection}

/-- An ASCII digit is a decimal digit. -/
theorem isDecimalDigit_of_isDigit (c : Char) (h : c.isDigit) : isDecimalDigit c := by
  have hcode := (Char.isDigit_iff_toNat.mp h).2
  have hascii : c.toNat < 0x80 := Nat.lt_of_le_of_lt hcode (by decide)
  rwa [isDecimalDigit, if_pos hascii]

/-- A compared value is supplied, as a number or as a text. -/
theorem supplies_of_mem_pieces_literal (value : String) (h : IsRun .dotted value.toList) :
    ∀ piece ∈ (literal value).pieces, s.Supplies piece := by
  unfold literal
  split
  · next hnumeral =>
      rw [Expr.pieces, List.forall_mem_singleton]
      have hdecimal := (isNumeral_iff value).mp hnumeral
      exact .number value (hdecimal.mono isDecimalDigit_of_isDigit)
  · rw [Expr.pieces, List.forall_mem_singleton]
    exact .text value h

/-- The expression of a projected item is made of supplied pieces. -/
theorem ProjectedItem.supplies {item : SelectItem} (h : ProjectedItem s item) :
    ∀ piece ∈ item.expr.pieces, s.Supplies piece := by
  cases h with
  | metric m hm =>
      show ∀ piece ∈ [Piece.fragment m.sql], s.Supplies piece
      rw [List.forall_mem_singleton]
      exact .fragment m (List.mem_append_left _ hm)
  | column ref href =>
      show ∀ piece ∈ [Piece.column ref], s.Supplies piece
      rw [List.forall_mem_singleton]
      exact .column ref href
  | aggregate function distinct ref href =>
      show ∀ piece ∈ [Piece.column ref], s.Supplies piece
      rw [List.forall_mem_singleton]
      exact .column ref href
  | countAll =>
      intro piece hpiece
      cases hpiece
  | tableStar first rest htables =>
      show ∀ piece ∈ [Piece.table first], s.Supplies piece
      rw [List.forall_mem_singleton]
      apply Selection.Supplies.table
      rw [htables]
      exact List.mem_cons_self
  | star htables =>
      intro piece hpiece
      cases hpiece

/-- A condition on rows is made of supplied pieces. -/
theorem RowCondition.supplies {c : Condition} (h : RowCondition s c) :
    ∀ piece ∈ c.pieces, s.Supplies piece := by
  cases h with
  | amount op number horders hnumber =>
      rw [Condition.pieces, List.forall_mem_append, Expr.of, Expr.pieces, Expr.pieces,
        List.forall_mem_singleton, List.forall_mem_singleton]
      constructor
      · exact .orderColumn _ horders (by decide)
      · exact .number number hnumber
  | comparison ref op value href hvalue =>
      rw [Condition.pieces, List.forall_mem_append, Expr.pieces, List.forall_mem_singleton]
      constructor
      · exact .column ref href
      · exact supplies_of_mem_pieces_literal value hvalue
  | dates ref first last href hfirst hlast =>
      rw [Condition.pieces, List.forall_mem_cons, List.forall_mem_cons, List.forall_mem_singleton]
      refine ⟨?_, ?_, ?_⟩
      · exact .column ref href
      · exact .text first hfirst
      · exact .text last hlast
  | substring ref needle href hneedle =>
      rw [Condition.pieces, List.forall_mem_cons, List.forall_mem_singleton]
      constructor
      · exact .column ref href
      · exact .text needle (isRun_dotted_of_word hneedle)
  | status value horders hvalue =>
      rw [Condition.pieces, List.forall_mem_append, Expr.of, Expr.pieces, Expr.pieces,
        List.forall_mem_singleton, List.forall_mem_singleton]
      constructor
      · exact .orderColumn _ horders (by decide)
      · exact .text value (isRun_dotted_of_word hvalue)
  | time phrase horders hphrase =>
      rw [Condition.pieces, List.forall_mem_singleton]
      exact .fragment phrase (List.mem_append_right _ hphrase)

/-- A key of groups is made of supplied pieces. -/
theorem GroupKey.supplies {key : Expr} (h : GroupKey s key) :
    ∀ piece ∈ key.pieces, s.Supplies piece := by
  cases h with
  | column ref href =>
      rw [Expr.pieces, List.forall_mem_singleton]
      exact .column ref href
  | grain grain horders =>
      rw [Expr.pieces, List.forall_mem_singleton]
      exact .orderColumn _ horders (by decide)

end Intent

end TextToSql
