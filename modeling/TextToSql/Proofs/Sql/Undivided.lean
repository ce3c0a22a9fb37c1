import TextToSql.Proofs.Sql.Logic
import TextToSql.Proofs.Sql.Tokens

/-!
# Conditions that are not divided

A condition of the printer's own form, with quoted names and without fragments, is a single atom: no
connective divides its tokens, for the `AND` of a range stands behind its `BETWEEN`.

* `Passes.group` : a group around tokens that pass is passed;
* `Condition.ofTokens?_tokens` : a readable condition is read as the atom of its tokens.
-/

namespace TextToSql.Sql

namespace Logic

/-! ## Tokens that pass -/

/-- Tokens that no connective divides, in whatever groups they stand, and behind which the same groups are
open as before. -/
def Passes (ts : List Token) : Prop :=
  ∀ (k : Connective) (gs : List Group) (rest : List Token),
    cut k ⟨gs, false⟩ (ts ++ rest) = (cut k ⟨gs, false⟩ rest).map (List.modifyHead (ts ++ ·))

/-- A token at which a text is not divided goes to the first part. -/
theorem cut_cons (k : Connective) (place next : Place) (t : Token) (rest : List Token)
    (hdivides : divides k place t = false) (hnext : place.next? t = some next) :
    cut k place (t :: rest) = (cut k next rest).map (List.modifyHead (t :: ·)) := by
  rw [cut, hdivides, hnext]
  rfl

/-- Parts that are put in front one after the other are put in front together. -/
theorem map_modifyHead_map (ts us : List Token) (parts : Option (List (List Token))) :
    (parts.map (List.modifyHead (us ++ ·))).map (List.modifyHead (ts ++ ·))
      = parts.map (List.modifyHead (ts ++ us ++ ·)) := by
  rw [Option.map_map]
  congr 1
  funext more
  cases more with
  | nil => rfl
  | cons first more => simp

/-- Tokens that pass one after the other pass together. -/
theorem Passes.append {ts us : List Token} (h : Passes ts) (h' : Passes us) : Passes (ts ++ us) := by
  intro k gs rest
  rw [List.append_assoc, h k gs (us ++ rest), h' k gs rest]
  exact map_modifyHead_map ts us _

/-- Tokens that pass are the only part of their text. -/
theorem Passes.cut_eq {ts : List Token} (h : Passes ts) (k : Connective) :
    cut k .outside ts = some [ts] := by
  have hcut := h k [] []
  rw [List.append_nil] at hcut
  rw [Place.outside, hcut]
  simp [cut, Place.outside]

/-- Behind a token that closes no group the same groups are open, and the one that it opens. -/
theorem Place.next?_eq (place : Place) (t : Token) (hcloses : ∀ g, place.closes t g = false)
    (hclose : t ≠ .symbol ")") (hclose' : t ≠ .symbol "]") :
    place.next? t = some ⟨(place.opened? t).toList ++ place.groups, t = .symbol "."⟩ := by
  have hinner : place.groups.head?.any (place.closes t) = false := by
    cases place.groups.head? with
    | none => rfl
    | some g => exact hcloses g
  simp [Place.next?, hinner, hclose, hclose']

/-! ## Plain tokens -/

/-- The signs that open and close groups, and the point. -/
def structureSigns : List String := ["(", ")", "[", "]", "."]

/-- The words that open and close groups, and the connectives. -/
def structureWords : List String := ["AND", "OR", "CASE", "BETWEEN", "END"]

/-- A token that neither opens nor closes a group, is no connective and no point. -/
def IsPlain (t : Token) : Prop :=
  (∀ s ∈ structureSigns, t ≠ .symbol s) ∧ ∀ k ∈ structureWords, Form.isKeyword k t = false

instance (t : Token) : Decidable (IsPlain t) :=
  inferInstanceAs (Decidable ((∀ s ∈ structureSigns, t ≠ .symbol s)
    ∧ ∀ k ∈ structureWords, Form.isKeyword k t = false))

/-- A text is not divided at a plain token. -/
theorem IsPlain.divides_eq_false {t : Token} (h : IsPlain t) (k : Connective) (place : Place) :
    divides k place t = false := by
  have hword : Form.isKeyword k.keyword t = false := by
    cases k with
    | and => exact h.2 "AND" (by simp [structureWords])
    | or => exact h.2 "OR" (by simp [structureWords])
  simp [divides, Place.isKeyword, hword]

/-- A plain token leaves the groups as they are. -/
theorem IsPlain.next?_eq {t : Token} (h : IsPlain t) (place : Place) :
    place.next? t = some ⟨place.groups, false⟩ := by
  obtain ⟨hsigns, hwords⟩ := h
  simp only [structureSigns, structureWords, List.forall_mem_cons] at hsigns hwords
  obtain ⟨hopen, hclose, hopen', hclose', hpoint, -⟩ := hsigns
  obtain ⟨hand, -, hcase, hbetween, hend, -⟩ := hwords
  have hcloses : ∀ g, place.closes t g = false := by
    intro g
    cases g <;> simp [Place.closes, Place.isKeyword, hclose, hclose', hand, hend]
  have hopened : place.opened? t = none := by
    simp [Place.opened?, Place.isKeyword, hopen, hopen', hcase, hbetween]
  rw [place.next?_eq t hcloses hclose hclose', hopened]
  simp [hpoint]

/-- No tokens at all pass. -/
theorem passes_nil : Passes [] := by
  intro k gs rest
  have hsame : List.modifyHead ([] ++ · : List Token → List Token) = id := by
    funext more
    cases more <;> rfl
  rw [hsame, Option.map_id, List.nil_append, id]

/-- A plain token passes, and so does what follows it. -/
theorem Passes.cons {t : Token} {ts : List Token} (ht : IsPlain t) (h : Passes ts) : Passes (t :: ts) := by
  intro k gs rest
  rw [List.cons_append, cut_cons k _ _ t _ (ht.divides_eq_false k _) (ht.next?_eq _), h k gs rest]
  exact map_modifyHead_map [t] ts _

/-- A point and a plain token behind it. -/
theorem passes_point {t : Token} (ht : IsPlain t) : Passes [.symbol ".", t] := by
  intro k gs rest
  have hdivides : divides k ⟨gs, false⟩ (.symbol ".") = false := by
    simp [divides, Place.isKeyword, Form.isKeyword]
  have hnext : Place.next? ⟨gs, false⟩ (.symbol ".") = some ⟨gs, true⟩ :=
    Place.next?_eq _ _ (by intro g; cases g <;> rfl) (by simp) (by simp)
  rw [List.cons_append, cut_cons k _ _ _ _ hdivides hnext, List.singleton_append,
    cut_cons k _ _ t _ (ht.divides_eq_false k _) (ht.next?_eq _)]
  exact map_modifyHead_map [.symbol "."] [t] _

/-! ## Groups -/

/-- **A group** around tokens that pass is passed. -/
theorem Passes.group {ts : List Token} (g : Group) (start stop : Token)
    (hdivides : ∀ k gs, divides k ⟨gs, false⟩ start = false)
    (hstart : ∀ gs, Place.next? ⟨gs, false⟩ start = some ⟨g :: gs, false⟩)
    (hstop : ∀ gs, Place.next? ⟨g :: gs, false⟩ stop = some ⟨gs, false⟩) (h : Passes ts) :
    Passes (start :: (ts ++ [stop])) := by
  intro k gs rest
  have hinside : divides k ⟨g :: gs, false⟩ stop = false := rfl
  rw [List.cons_append, cut_cons k _ _ start _ (hdivides k gs) (hstart gs), List.append_assoc, h k (g :: gs),
    List.singleton_append, cut_cons k _ _ stop _ hinside (hstop gs)]
  have hmore : ∀ parts : Option (List (List Token)),
      ((parts.map (List.modifyHead (stop :: ·))).map (List.modifyHead (ts ++ ·))).map
          (List.modifyHead (start :: ·))
        = parts.map (List.modifyHead (start :: (ts ++ [stop]) ++ ·)) := by
    intro parts
    exact (congrArg _ (map_modifyHead_map ts [stop] parts)).trans (map_modifyHead_map [start] _ parts)
  exact hmore _

/-- Parentheses. -/
theorem Passes.parentheses {ts : List Token} (h : Passes ts) :
    Passes (.symbol "(" :: (ts ++ [.symbol ")"])) := by
  refine h.group .parentheses (.symbol "(") (.symbol ")") (fun k gs => ?_) (fun gs => ?_) (fun gs => ?_)
  · simp [divides, Place.isKeyword, Form.isKeyword]
  · exact Place.next?_eq _ _ (by intro g; cases g <;> rfl) (by simp) (by simp)
  · rfl

/-- A range: the first `AND` behind the `BETWEEN` closes it. -/
theorem Passes.range {ts : List Token} (h : Passes ts) :
    Passes (.word "BETWEEN" :: (ts ++ [.word "AND"])) := by
  refine h.group .range (.word "BETWEEN") (.word "AND") (fun k gs => ?_) (fun gs => ?_) (fun gs => ?_)
  · have hword : Form.isKeyword k.keyword (.word "BETWEEN") = false := by cases k <;> decide
    simp [divides, Place.isKeyword, hword]
  · exact Place.next?_eq _ _ (by intro g; cases g <;> rfl) (by simp) (by simp)
  · rfl

end Logic

/-! ## Readable conditions -/

open Logic

/-- Quoted names, text literals and numbers are plain. -/
theorem isPlain_of_literal (s : String) :
    IsPlain (.name s) ∧ IsPlain (.text s) ∧ IsPlain (.number s) := by
  simp [IsPlain, Form.isKeyword]

/-- A column passes. -/
theorem passes_column (ref : ColumnRef) : Passes ref.tokens := by
  obtain ⟨_ | table, column⟩ := ref
  · exact passes_nil.cons (isPlain_of_literal column).1
  · exact (passes_point (isPlain_of_literal column).1).cons (isPlain_of_literal table).1

/-- An aggregate call passes if its argument does. -/
theorem passes_call (function : Aggregate) (distinct : Bool) (ts : List Token) (h : Passes ts) :
    Passes (function.callTokens distinct ts) := by
  have hname : IsPlain (.word function.keyword) := by cases function <;> decide
  cases distinct with
  | false => exact h.parentheses.cons hname
  | true => exact (h.cons (t := .word "DISTINCT") (by decide)).parentheses.cons hname

/-- A date that is cut down passes if the date does. -/
theorem passes_truncated (grain : TimeGrain) (ts : List Token) (h : Passes ts) :
    Passes (grain.callTokens ts) := by
  by_cases hday : grain = .day
  · subst hday
    exact h.parentheses.cons (t := .word "DATE") (by decide)
  · rw [grain.callTokens_eq ts hday]
    have hcomma : Passes (.symbol "," :: ts) := h.cons (by decide)
    have hunit : Passes (.text grain.unit :: .symbol "," :: ts) := hcomma.cons (isPlain_of_literal _).2.1
    exact hunit.parentheses.cons (t := .word "DATE_TRUNC") (by decide)

/-- A readable expression passes. -/
theorem passes_expr (e : Expr) (h : e.Readable) : Passes e.tokens := by
  induction e with
  | column ref => exact passes_column ref
  | star => exact passes_nil.cons (by decide)
  | tableStar table => exact (passes_point (by decide)).cons (isPlain_of_literal table).1
  | aggregate function distinct argument ih => exact passes_call function distinct _ (ih h)
  | aggregateAll function distinct => exact passes_call function distinct _ (passes_nil.cons (by decide))
  | truncated grain ref => exact passes_truncated grain _ (passes_column ref)
  | number digits => exact passes_nil.cons (isPlain_of_literal digits).2.2
  | text value => exact passes_nil.cons (isPlain_of_literal value).2.1
  | fragment sql => exact h.elim

/-- A date with its type passes. -/
theorem passes_date (value : String) : Passes (dateTokens value) := by
  have htype : Passes [.symbol "::", .word "date"] := (passes_nil.cons (by decide)).cons (by decide)
  exact htype.cons (isPlain_of_literal value).2.1

/-- A readable condition passes. -/
theorem passes_condition (c : Condition) (h : c.Readable) : Passes c.tokens := by
  cases c with
  | compare left op right =>
      have hsign : Passes [.symbol op.sign] := passes_nil.cons (by cases op <;> decide)
      exact ((passes_expr left h.1).append hsign).append (passes_expr right h.2)
  | between ref first last =>
      have hrange := ((passes_date first).range.append (passes_date last))
      have hcondition := (passes_column ref).append hrange
      simp only [Condition.tokens, List.append_assoc, List.singleton_append]
      simpa using hcondition
  | contains ref needle =>
      have hilike : Passes [.word "ILIKE"] := passes_nil.cons (by decide)
      have hneedle : Passes [.text ("%" ++ needle ++ "%")] := passes_nil.cons (isPlain_of_literal _).2.1
      exact ((passes_column ref).append hilike).append hneedle
  | fragment sql => exact h.elim

/-- A text whose first token is neither a denial nor a parenthesis is an atom. -/
theorem factor_of_head (inner : List Token → Option Logic) (t : Token) (ts : List Token)
    (hnot : Form.isKeyword "NOT" t = false) (hopen : t ≠ .symbol "(") :
    factor inner (t :: ts) = some (.atom (t :: ts)) := by
  have henclosed : enclosed? (t :: ts) = none := by simp [enclosed?, hopen]
  rw [factor, hnot, henclosed]
  rfl

/-- A readable expression starts with neither a denial nor a parenthesis. -/
theorem exists_head_tokens (e : Expr) (h : e.Readable) :
    ∃ t ts, e.tokens = t :: ts ∧ Form.isKeyword "NOT" t = false ∧ t ≠ .symbol "(" := by
  cases e with
  | column ref => obtain ⟨_ | table, column⟩ := ref <;> exact ⟨_, _, rfl, rfl, by simp⟩
  | aggregate function distinct argument => cases function <;> exact ⟨_, _, rfl, by decide, by simp⟩
  | aggregateAll function distinct => cases function <;> exact ⟨_, _, rfl, by decide, by simp⟩
  | truncated grain ref => cases grain <;> exact ⟨_, _, rfl, by decide, by simp⟩
  | fragment sql => exact h.elim
  | _ => exact ⟨_, _, rfl, rfl, by simp⟩

/-- A readable condition is a single factor. -/
theorem factor_tokens (inner : List Token → Option Logic) (c : Condition) (h : c.Readable) :
    factor inner c.tokens = some (.atom c.tokens) := by
  have hhead : ∃ t ts, c.tokens = t :: ts ∧ Form.isKeyword "NOT" t = false ∧ t ≠ .symbol "(" := by
    -- a condition starts as its first expression does
    have hfirst : ∃ e : Expr, ∃ rest, e.Readable ∧ c.tokens = e.tokens ++ rest := by
      cases c with
      | compare left op right => exact ⟨left, _, h.1, List.append_assoc _ _ _⟩
      | between ref first last => exact ⟨.column ref, _, trivial, by simp [Condition.tokens, Expr.tokens]; rfl⟩
      | contains ref needle => exact ⟨.column ref, _, trivial, List.append_assoc _ _ _⟩
      | fragment sql => exact h.elim
    obtain ⟨e, rest, he, heq⟩ := hfirst
    obtain ⟨t, ts, htokens, hnot, hopen⟩ := exists_head_tokens e he
    exact ⟨t, ts ++ rest, by rw [heq, htokens, List.cons_append], hnot, hopen⟩
  obtain ⟨t, ts, htokens, hnot, hopen⟩ := hhead
  rw [htokens]
  exact factor_of_head inner t ts hnot hopen

/-- **A readable condition** is read as the atom of its tokens. -/
theorem Condition.ofTokens?_tokens (c : Condition) (h : c.Readable) :
    Logic.ofTokens? c.tokens = some (.either [.both [.atom c.tokens]]) := by
  have hcut := (passes_condition c h).cut_eq
  simp [ofTokens?, Logic.read, conjunction, hcut, factor_tokens _ c h]

end TextToSql.Sql
