import TextToSql.Proofs.Sql.Parser
import TextToSql.Proofs.Sql.Tokens

/-!
# Reading back what has been printed

The printed text of a statement determines the statement. The reader takes it from the first token to
the last and gives the tree back, but for the two spellings of the star: an empty projection is read as
the projection of the star, and an aggregate over all rows as the aggregate of the star.

* `SelectStatement.read_toSql` : a readable statement is read back from its printed text;
* `SelectStatement.canonical_eq_of_toSql_eq` : statements with the same text are the same.
-/

namespace TextToSql.Sql

/-! ## The two spellings of the star -/

/-- An expression with every aggregate over all rows spelled as the aggregate of the star. -/
def Expr.canonical : Expr → Expr
  | .aggregate function distinct argument => .aggregate function distinct argument.canonical
  | .aggregateAll function distinct => .aggregate function distinct .star
  | e => e

/-- A condition on expressions with one spelling of the star. -/
def Condition.canonical : Condition → Condition
  | .compare left op right => .compare left.canonical op right.canonical
  | c => c

mutual

/-- A predicate with one spelling of the star. -/
def Predicate.canonical : Predicate → Predicate
  | .atom condition => .atom condition.canonical
  | .all members => .all (Predicate.canonicalAll members)

/-- Predicates with one spelling of the star. -/
def Predicate.canonicalAll : List Predicate → List Predicate
  | [] => []
  | p :: ps => p.canonical :: Predicate.canonicalAll ps

end

/-- An item with one spelling of the star. -/
def SelectItem.canonical (item : SelectItem) : SelectItem := ⟨item.expr.canonical, item.name⟩

/-- A sort key with one spelling of the star. -/
def OrderKey.canonical (key : OrderKey) : OrderKey := ⟨key.expr.canonical, key.direction⟩

/-- A statement with one spelling of the star: an empty projection is the projection of the star. -/
def SelectStatement.canonical (s : SelectStatement) : SelectStatement where
  projection :=
    if s.projection.isEmpty then [.plain .star] else s.projection.map SelectItem.canonical
  source := s.source
  joins := s.joins
  filter := s.filter.map Predicate.canonical
  groupBy := s.groupBy.map Expr.canonical
  having := s.having.map Predicate.canonical
  orderBy := s.orderBy.map OrderKey.canonical
  limit := s.limit

/-- The conjunction of conditions keeps its shape when the star is spelled in one way. -/
theorem Predicate.conjoin_canonical (cs : List Condition) (p : Predicate)
    (h : conjoin (cs.map .atom) = some p) :
    conjoin ((cs.map Condition.canonical).map .atom) = some p.canonical := by
  have hall : ∀ cs : List Condition,
      canonicalAll (cs.map .atom) = (cs.map Condition.canonical).map .atom := by
    intro cs
    induction cs with
    | nil => rfl
    | cons c cs ih => rw [List.map_cons, canonicalAll, ih]; rfl
  match cs with
  | [] => simp [conjoin] at h
  | [c] =>
      rw [List.map_singleton, conjoin, Option.some.injEq] at h
      subst h
      rfl
  | c :: d :: ds =>
      rw [List.map_cons, List.map_cons, conjoin, Option.some.injEq] at h
      subst h
      rw [canonical, ← List.map_cons, ← List.map_cons, hall]
      rfl

namespace Parser

variable {α β : Type}

/-! ## Running parsers -/

/-- A token of the wanted kind is skipped. -/
theorem run_skip (accepts : Token → Bool) (t : Token) (ts : List Token) (h : accepts t) :
    (skip accepts).run (t :: ts) = some ((), ts) := by
  show Option.map _ (if accepts t then some () else none) = _
  rw [if_pos h]
  rfl

/-- A symbol is skipped. -/
@[simp]
theorem run_symbol (s : String) (ts : List Token) :
    (symbol s).run (.symbol s :: ts) = some ((), ts) :=
  run_skip _ _ _ (decide_eq_true rfl)

/-- A quoted name is read. -/
@[simp]
theorem run_name (s : String) (ts : List Token) : name.run (.name s :: ts) = some (s, ts) := rfl

/-- A text literal is read. -/
@[simp]
theorem run_text (s : String) (ts : List Token) : text.run (.text s :: ts) = some (s, ts) := rfl

/-- A token of the wanted kind is taken. -/
theorem run_next?_of_accepts (accepts : Token → Bool) (t : Token) (ts : List Token)
    (h : accepts t) : (next? accepts).run (t :: ts) = some (true, ts) := by
  show (if accepts t then _ else _) = _
  rw [if_pos h]

/-- Where no token of the wanted kind comes next, none is taken. -/
theorem run_next?_of_not_accepts (accepts : Token → Bool) (ts : List Token)
    (h : ts.head?.any accepts = false) : (next? accepts).run ts = some (false, ts) := by
  cases ts with
  | nil => rfl
  | cons t ts =>
      have ht : ¬ accepts t := by simpa using h
      show (if accepts t then _ else _) = _
      rw [if_neg ht]

/-- Items with a separator between them are read one after the other. What follows an item has to be
told apart from it, and what follows the last one from a separator. -/
theorem run_separated (isSeparator : Token → Bool) (separator : Token)
    (hseparator : isSeparator separator) (item : Parser α) (tokens : β → List Token) (value : β → α)
    (follow : List Token → Prop) (hfollow : ∀ ts, follow (separator :: ts)) (xs : List β)
    (hne : xs ≠ [])
    (hitem : ∀ x ∈ xs, ∀ rest, follow rest → item.run (tokens x ++ rest) = some (value x, rest))
    (rest : List Token) (hrest : follow rest) (hstop : rest.head?.any isSeparator = false)
    (bound : Nat) (hbound : xs.length ≤ bound) :
    (separated isSeparator item bound).run (joined separator (xs.map tokens) ++ rest)
      = some (xs.map value, rest) := by
  -- each round reads an item and, if there is one more, the separator before it
  induction xs generalizing bound with
  | nil => exact absurd rfl hne
  | cons x xs ih =>
      obtain ⟨hx, hxs⟩ := List.forall_mem_cons.mp hitem
      obtain ⟨bound, rfl⟩ : ∃ b, bound = b + 1 :=
        ⟨bound - 1, by rw [List.length_cons] at hbound; omega⟩
      cases xs with
      | nil =>
          simp [separated, joined, hx rest hrest, run_next?_of_not_accepts _ _ hstop]
      | cons y ys =>
          have htail := ih (by simp) hxs bound (by simpa using hbound)
          have htokens : joined separator ((x :: y :: ys).map tokens) ++ rest
              = tokens x ++ separator :: (joined separator ((y :: ys).map tokens) ++ rest) := by
            simp [joined]
          rw [htokens]
          simpa [separated, hx _ (hfollow _), run_next?_of_accepts _ _ _ hseparator] using htail

/-- A list is at least as long in tokens as in separators. -/
theorem length_le_joined (separator : Token) (pieces : List (List Token)) :
    pieces.length ≤ (joined separator pieces).length + 1 := by
  induction pieces with
  | nil => simp
  | cons piece pieces ih =>
      cases pieces with
      | nil => simp
      | cons piece' pieces =>
          simp only [joined, List.intercalate_cons_cons, List.length_append, List.length_cons,
            List.length_nil] at ih ⊢
          omega

/-- Items with a separator between them are read within the bound that their tokens give. -/
theorem run_bounded_separated (isSeparator : Token → Bool) (separator : Token)
    (hseparator : isSeparator separator) (item : Parser α) (tokens : β → List Token) (value : β → α)
    (follow : List Token → Prop) (hfollow : ∀ ts, follow (separator :: ts)) (xs : List β)
    (hne : xs ≠ [])
    (hitem : ∀ x ∈ xs, ∀ rest, follow rest → item.run (tokens x ++ rest) = some (value x, rest))
    (rest : List Token) (hrest : follow rest) (hstop : rest.head?.any isSeparator = false) :
    (bounded (separated isSeparator item)).run (joined separator (xs.map tokens) ++ rest)
      = some (xs.map value, rest) := by
  have hlength := length_le_joined separator (xs.map tokens)
  refine run_separated isSeparator separator hseparator item tokens value follow hfollow xs hne hitem
    rest hrest hstop _ ?_
  rw [List.length_map] at hlength
  rw [List.length_append]
  omega

/-- Items that are each announced by a token are read one after the other. -/
theorem run_announced (isStart : Token → Bool) (start : Token) (hstart : isStart start)
    (item : Parser α) (tokens : α → List Token) (follow : List Token → Prop)
    (hfollow : ∀ ts, follow (start :: ts)) (xs : List α)
    (hitem : ∀ x ∈ xs, ∀ rest, follow rest → item.run (tokens x ++ rest) = some (x, rest))
    (rest : List Token) (hrest : follow rest) (hstop : rest.head?.any isStart = false)
    (bound : Nat) (hbound : xs.length ≤ bound) :
    (announced isStart item bound).run (xs.flatMap (fun x => start :: tokens x) ++ rest)
      = some (xs, rest) := by
  induction xs generalizing bound with
  | nil =>
      cases bound with
      | zero => rfl
      | succ bound => simp [announced, run_next?_of_not_accepts _ _ hstop]
  | cons x xs ih =>
      obtain ⟨hx, hxs⟩ := List.forall_mem_cons.mp hitem
      obtain ⟨bound, rfl⟩ : ∃ b, bound = b + 1 :=
        ⟨bound - 1, by rw [List.length_cons] at hbound; omega⟩
      have htail := ih hxs bound (by simpa using hbound)
      have hnext : follow (xs.flatMap (fun x => start :: tokens x) ++ rest) := by
        cases xs with
        | nil => exact hrest
        | cons y ys => exact hfollow _
      simp [announced, run_next?_of_accepts _ _ _ hstart, hx _ hnext, htail]

/-! ## Reading expressions -/

/-- What can follow a column: it has no point at its start. -/
def EndsColumn (rest : List Token) : Prop := rest.head?.any (isSymbol ".") = false

/-- A column is read back. -/
theorem run_column (ref : ColumnRef) (rest : List Token) (h : EndsColumn rest) :
    column.run (ref.tokens ++ rest) = some (ref, rest) := by
  obtain ⟨_ | table, c⟩ := ref
  · simp [ColumnRef.tokens, column, run_next?_of_not_accepts _ _ h]
  · have hpoint : ∀ ts, (next? (isSymbol ".")).run (.symbol "." :: ts) = some (true, ts) :=
      fun ts => run_next?_of_accepts _ _ _ rfl
    simp [ColumnRef.tokens, column, hpoint, ColumnRef.of]

/-- The name of an aggregate function is read back. -/
theorem ofWord?_keyword (function : Aggregate) :
    Aggregate.ofWord? function.keyword = some function := by
  cases function <;> rfl

/-- The name of a span of time is read back. -/
theorem ofUnit?_unit (grain : TimeGrain) : TimeGrain.ofUnit? grain.unit = some grain := by
  cases grain <;> rfl

/-- The sign of a comparison is read back. -/
theorem ofToken?_sign (op : Comparison) : Comparison.ofToken? (.symbol op.sign) = some op := by
  cases op <;> rfl

/-- An expression that starts with `DISTINCT` does not exist. -/
theorem head?_tokens_not_distinct (e : Expr) (h : e.Readable) :
    ∃ t ts, e.tokens = t :: ts ∧ Form.isKeyword "DISTINCT" t = false := by
  cases e with
  | column ref => obtain ⟨_ | table, c⟩ := ref <;> exact ⟨_, _, rfl, rfl⟩
  | star => exact ⟨_, _, rfl, rfl⟩
  | tableStar table => exact ⟨_, _, rfl, rfl⟩
  | aggregate function distinct argument => cases function <;> exact ⟨_, _, rfl, rfl⟩
  | aggregateAll function distinct => cases function <;> exact ⟨_, _, rfl, rfl⟩
  | truncated grain ref => cases grain <;> exact ⟨_, _, rfl, rfl⟩
  | number digits => exact ⟨_, _, rfl, rfl⟩
  | text value => exact ⟨_, _, rfl, rfl⟩
  | fragment sql => exact h.elim

/-- An aggregate call is read back if its argument is. -/
theorem run_call (function : Aggregate) (distinct : Bool) (ts : List Token) (argument : Expr)
    (rest : List Token) (hstart : ∃ t us, ts = t :: us ∧ Form.isKeyword "DISTINCT" t = false)
    (h : expr (ts ++ .symbol ")" :: rest) = some (argument, .symbol ")" :: rest)) :
    expr (function.callTokens distinct ts ++ rest)
      = some (.aggregate function distinct argument, rest) := by
  obtain ⟨t, us, rfl, ht⟩ := hstart
  rw [List.cons_append] at h
  have hdistinct : Form.isKeyword "DISTINCT" (.word "DISTINCT") = true := rfl
  cases distinct with
  | false =>
      simp [Aggregate.callTokens, expr, ofWord?_keyword, ht, h]
  | true =>
      simp [Aggregate.callTokens, expr, ofWord?_keyword, hdistinct, h]

/-- A date that is cut down is read back. -/
theorem run_truncated (grain : TimeGrain) (ref : ColumnRef) (rest : List Token) :
    expr (grain.callTokens ref.tokens ++ rest) = some (.truncated grain ref, rest) := by
  have hcolumn : ∀ ts, column.run (ref.tokens ++ .symbol ")" :: ts) = some (ref, .symbol ")" :: ts) :=
    fun ts => run_column ref _ rfl
  by_cases hday : grain = .day
  · subst hday
    have hword : Aggregate.ofWord? "DATE" = none := rfl
    have hdate : Form.isKeyword "DATE" (.word "DATE") = true := rfl
    simp [TimeGrain.callTokens, expr, hword, hdate, columnArgument, hcolumn]
  · have hword : Aggregate.ofWord? "DATE_TRUNC" = none := rfl
    have hdate : Form.isKeyword "DATE" (.word "DATE_TRUNC") = false := rfl
    have htrunc : Form.isKeyword "DATE_TRUNC" (.word "DATE_TRUNC") = true := rfl
    simp [grain.callTokens_eq _ hday, expr, hword, hdate, htrunc, truncation, hcolumn, ofUnit?_unit]

/-- An expression is read back with one spelling of the star. -/
theorem run_expr (e : Expr) (rest : List Token) (he : e.Readable) (h : EndsColumn rest) :
    expr (e.tokens ++ rest) = some (e.canonical, rest) := by
  induction e generalizing rest with
  | column ref =>
      have hcolumn := run_column ref rest h
      -- what follows tells a column from the star of a table
      obtain ⟨_ | table, c⟩ := ref
      · have hno : ∀ ts, rest = .symbol "." :: .symbol "*" :: ts → False := by
          rintro ts rfl
          cases h
        simp only [Expr.tokens, ColumnRef.tokens, List.cons_append, List.nil_append] at hcolumn ⊢
        rw [expr, hcolumn]
        · rfl
        · exact hno
      · simp only [Expr.tokens, ColumnRef.tokens, List.cons_append, List.nil_append] at hcolumn ⊢
        rw [expr, hcolumn]
        · rfl
        · intro ts hts
          cases hts
  | star => rfl
  | tableStar table => rfl
  | aggregate function distinct argument ih =>
      exact run_call function distinct _ _ rest (head?_tokens_not_distinct argument he)
        (ih (.symbol ")" :: rest) he rfl)
  | aggregateAll function distinct =>
      exact run_call function distinct [.symbol "*"] .star rest ⟨_, _, rfl, rfl⟩ rfl
  | truncated grain ref => exact run_truncated grain ref rest
  | number digits => rfl
  | text value => rfl
  | fragment sql => exact he.elim

/-! ## Reading conditions -/

/-- A date with its type is read back. -/
theorem run_date (value : String) (rest : List Token) :
    date.run (dateTokens value ++ rest) = some (value, rest) := by
  have hword : (keyword "DATE").run (.word "date" :: rest) = some ((), rest) := run_skip _ _ _ rfl
  simp [dateTokens, date, hword]

/-- The text that a search pattern looks for is read back. -/
theorem needle?_pattern (needle : String) : needle? ("%" ++ needle ++ "%") = some needle := by
  have htext : ("%" ++ needle ++ "%").toList = '%' :: (needle.toList ++ ['%']) := by simp
  unfold needle?
  rw [htext]
  simp

/-- The rest of a comparison is read back. -/
theorem run_comparison (left : Expr) (op : Comparison) (right : Expr) (rest : List Token)
    (hright : right.Readable) (h : EndsColumn rest) :
    (comparison left).run (.symbol op.sign :: (right.tokens ++ rest))
      = some (.compare left op right.canonical, rest) := by
  have hsign : (token Comparison.ofToken?).run (.symbol op.sign :: (right.tokens ++ rest))
      = some (op, right.tokens ++ rest) := by
    show Option.map _ (Comparison.ofToken? (.symbol op.sign)) = _
    rw [ofToken?_sign]
    rfl
  have hexpr : StateT.run expr (right.tokens ++ rest) = some (right.canonical, rest) :=
    run_expr right rest hright h
  simp [comparison, hsign, hexpr]

/-- A condition is read back. -/
theorem run_condition (c : Condition) (rest : List Token) (hc : c.Readable) (h : EndsColumn rest) :
    condition.run (c.tokens ++ rest) = some (c.canonical, rest) := by
  cases c with
  | compare left op right =>
      have hleft : StateT.run expr (left.tokens ++ .symbol op.sign :: (right.tokens ++ rest))
          = some (left.canonical, .symbol op.sign :: (right.tokens ++ rest)) := by
        refine run_expr left _ hc.1 ?_
        cases op <;> rfl
      have hcompare := run_comparison left.canonical op right rest hc.2 h
      have hkeyword : ∀ k, (next? (Form.isKeyword k)).run (.symbol op.sign :: (right.tokens ++ rest))
          = some (false, .symbol op.sign :: (right.tokens ++ rest)) :=
        fun k => run_next?_of_not_accepts _ _ rfl
      have htokens : (Condition.compare left op right).tokens ++ rest
          = left.tokens ++ .symbol op.sign :: (right.tokens ++ rest) := by
        simp [Condition.tokens]
      rw [htokens, condition, StateT.run_bind, hleft]
      -- only a column can be followed by a keyword, and here a sign follows
      cases hcanonical : left.canonical with
      | column ref =>
          rw [hcanonical] at hcompare
          simpa [hkeyword, Condition.canonical, hcanonical] using hcompare
      | _ =>
          rw [hcanonical] at hcompare
          simpa [Condition.canonical, hcanonical] using hcompare
  | between ref first last =>
      have hcolumn : ∀ ts, StateT.run expr (ref.tokens ++ .word "BETWEEN" :: ts)
          = some (.column ref, .word "BETWEEN" :: ts) :=
        fun ts => run_expr (.column ref) _ trivial rfl
      have hbetween : ∀ ts, (next? (Form.isKeyword "BETWEEN")).run (.word "BETWEEN" :: ts)
          = some (true, ts) := fun ts => run_next?_of_accepts _ _ _ rfl
      have hand : ∀ ts, (keyword "AND").run (.word "AND" :: ts) = some ((), ts) :=
        fun ts => run_skip _ _ _ rfl
      simp [Condition.tokens, condition, hcolumn, hbetween, range, run_date, hand,
        Condition.canonical]
  | contains ref needle =>
      have hcolumn : ∀ ts, StateT.run expr (ref.tokens ++ .word "ILIKE" :: ts)
          = some (.column ref, .word "ILIKE" :: ts) :=
        fun ts => run_expr (.column ref) _ trivial rfl
      have hbetween : ∀ ts, (next? (Form.isKeyword "BETWEEN")).run (.word "ILIKE" :: ts)
          = some (false, .word "ILIKE" :: ts) := fun ts => run_next?_of_not_accepts _ _ rfl
      have hilike : ∀ ts, (next? (Form.isKeyword "ILIKE")).run (.word "ILIKE" :: ts)
          = some (true, ts) := fun ts => run_next?_of_accepts _ _ _ rfl
      simp [Condition.tokens, condition, hcolumn, hbetween, hilike, search, needle?_pattern,
        Condition.canonical]
  | fragment sql => exact hc.elim

/-- A predicate is read back if no further condition follows. -/
theorem run_predicate (p : Predicate) (rest : List Token) (hp : p.Readable) (h : EndsColumn rest)
    (hand : rest.head?.any (Form.isKeyword "AND") = false) :
    predicate.run (p.tokens ++ rest) = some (p.canonical, rest) := by
  obtain ⟨cs, hcs, hreadable⟩ := hp.exists_conditions
  have hne : cs ≠ [] := by
    rintro rfl
    cases hcs
  have hlist : (andList condition).run (joined (.word "AND") (cs.map Condition.tokens) ++ rest)
      = some (cs.map Condition.canonical, rest) :=
    run_bounded_separated _ (.word "AND") rfl condition Condition.tokens Condition.canonical
      EndsColumn (fun _ => rfl) cs hne
      (fun c hc rest hrest => run_condition c rest (hreadable c hc) hrest) rest h hand
  have hconjoin := Predicate.conjoin_canonical cs p hcs
  rw [Predicate.tokens, Predicate.atoms_conjoin_map cs p hcs, predicate, StateT.run_bind, hlist]
  simp only [Option.bind_eq_bind, Option.bind_some, hconjoin]
  rfl

/-! ## Reading clauses -/

/-- A token list that is empty or starts with one of some keywords. -/
def StartsWith (ks : List String) (rest : List Token) : Prop :=
  ∀ t ∈ rest.head?, ∃ k ∈ ks, t = .word k

/-- What starts with a keyword does not start with any other token. -/
theorem StartsWith.not_accepts {ks : List String} {rest : List Token} (h : StartsWith ks rest)
    (accepts : Token → Bool) (hks : ∀ k ∈ ks, accepts (.word k) = false) :
    rest.head?.any accepts = false := by
  cases rest with
  | nil => rfl
  | cons t ts =>
      obtain ⟨k, hk, rfl⟩ := h t rfl
      exact hks k hk

/-- Nothing starts with any keyword. -/
theorem startsWith_nil : StartsWith [] [] := by
  intro t ht
  cases ht

/-- A clause that may be left out adds its keyword to those that can come next. -/
theorem startsWith_clause (k : String) (more ks : List String) (body : Option (List Token))
    (rest : List Token) (h : StartsWith ks rest) :
    StartsWith (k :: ks) (clauseTokens (k :: more) body ++ rest) := by
  cases body with
  | none =>
      intro t ht
      obtain ⟨l, hl, rfl⟩ := h t ht
      exact ⟨l, List.mem_cons_of_mem k hl, rfl⟩
  | some body =>
      intro t ht
      obtain rfl : .word k = t := by simpa [clauseTokens] using ht
      exact ⟨k, List.mem_cons_self, rfl⟩

/-- Keywords in a row are skipped. -/
theorem run_keywords (ks : List String) (rest : List Token)
    (hks : ∀ k ∈ ks, Form.isKeyword k (.word k)) :
    (keywords ks).run (ks.map .word ++ rest) = some ((), rest) := by
  induction ks with
  | nil => rfl
  | cons k ks ih =>
      obtain ⟨hk, hks⟩ := List.forall_mem_cons.mp hks
      have hskip : (keyword k).run (.word k :: (ks.map .word ++ rest))
          = some ((), ks.map .word ++ rest) := run_skip _ _ _ hk
      simp [keywords, hskip, ih hks]

/-- A clause that may be left out is read back, if what follows cannot be taken for it. -/
theorem run_clause (k : String) (more ks : List String) (body : Parser α) (tokens : β → List Token)
    (value : β → α) (x : Option β) (rest : List Token)
    (hkeywords : ∀ l ∈ k :: more, Form.isKeyword l (.word l))
    (hbody : ∀ b ∈ x, body.run (tokens b ++ rest) = some (value b, rest))
    (hrest : StartsWith ks rest) (hks : ∀ l ∈ ks, Form.isKeyword k (.word l) = false) :
    (clause k more body).run (clauseTokens (k :: more) (x.map tokens) ++ rest)
      = some (x.map value, rest) := by
  obtain ⟨hk, hmore⟩ := List.forall_mem_cons.mp hkeywords
  cases x with
  | none =>
      have hnext := run_next?_of_not_accepts _ _ (hrest.not_accepts (Form.isKeyword k) hks)
      simp [clauseTokens, clause, hnext]
  | some b =>
      have hnext : (next? (Form.isKeyword k)).run (.word k :: (more.map .word ++ (tokens b ++ rest)))
          = some (true, more.map .word ++ (tokens b ++ rest)) := run_next?_of_accepts _ _ _ hk
      simp [clauseTokens, clause, hnext, run_keywords more _ hmore, hbody b rfl]

/-- A projected item is read back if no name follows that is not its own. -/
theorem run_item (item : SelectItem) (rest : List Token) (hitem : item.expr.Readable)
    (h : EndsColumn rest) (has : rest.head?.any (Form.isKeyword "AS") = false) :
    Parser.item.run (item.tokens ++ rest) = some (item.canonical, rest) := by
  obtain ⟨e, _ | name⟩ := item
  · have hexpr : StateT.run expr (e.tokens ++ rest) = some (e.canonical, rest) :=
      run_expr e rest hitem h
    simp [SelectItem.tokens, Parser.item, hexpr, run_next?_of_not_accepts _ _ has,
      SelectItem.canonical]
  · have hexpr : ∀ ts, StateT.run expr (e.tokens ++ .word "AS" :: ts)
        = some (e.canonical, .word "AS" :: ts) := fun ts => run_expr e _ hitem rfl
    have hnext : ∀ ts, (next? (Form.isKeyword "AS")).run (.word "AS" :: ts) = some (true, ts) :=
      fun ts => run_next?_of_accepts _ _ _ rfl
    have hname : resultName.run (nameToken name :: rest) = some (name, rest) := by
      unfold nameToken
      split <;> rfl
    simp [SelectItem.tokens, Parser.item, hexpr, hnext, hname, SelectItem.canonical]

/-- An equation of columns is read back. -/
theorem run_equation (pair : ColumnRef × ColumnRef) (rest : List Token) (h : EndsColumn rest) :
    equation.run (equationTokens pair ++ rest) = some (pair, rest) := by
  have hleft : ∀ ts, column.run (pair.1.tokens ++ .symbol "=" :: ts)
      = some (pair.1, .symbol "=" :: ts) := fun ts => run_column pair.1 _ rfl
  simp [equationTokens, equation, hleft, run_column pair.2 rest h]

/-- A joined table with its condition is read back if no further condition follows. -/
theorem run_join (join : JoinClause) (rest : List Token) (hon : join.on ≠ []) (h : EndsColumn rest)
    (hand : rest.head?.any (Form.isKeyword "AND") = false) :
    Parser.join.run (join.tailTokens ++ rest) = some (join, rest) := by
  have hword : ∀ ts, (keyword "ON").run (.word "ON" :: ts) = some ((), ts) :=
    fun ts => run_skip _ _ _ rfl
  have hlist : (andList equation).run (joined (.word "AND") (join.on.map equationTokens) ++ rest)
      = some (join.on.map id, rest) :=
    run_bounded_separated _ (.word "AND") rfl equation equationTokens id EndsColumn (fun _ => rfl)
      join.on hon (fun pair _ rest hrest => run_equation pair rest hrest) rest h hand
  rw [List.map_id] at hlist
  simp [JoinClause.tailTokens, Parser.join, hword, hlist]

/-- A sort key is read back. -/
theorem run_orderKey (key : OrderKey) (rest : List Token) (hkey : key.expr.Readable) :
    orderKey.run (key.tokens ++ rest) = some (key.canonical, rest) := by
  have hexpr : ∀ k ts, StateT.run expr (key.expr.tokens ++ .word k :: ts)
      = some (key.expr.canonical, .word k :: ts) := fun k ts => run_expr key.expr _ hkey rfl
  have hdirection : direction.run (.word key.direction.keyword :: rest)
      = some (key.direction, rest) := by
    cases key.direction <;> rfl
  simp [OrderKey.tokens, orderKey, hexpr, hdirection, OrderKey.canonical]

/-- What can follow an item of a list with commas. -/
def EndsItem (rest : List Token) : Prop :=
  EndsColumn rest ∧ rest.head?.any (Form.isKeyword "AS") = false

/-- A projection is read back; an empty one is read as the star. -/
theorem run_projection (items : List SelectItem) (rest : List Token)
    (hitems : ∀ item ∈ items, item.expr.Readable) (h : EndsItem rest)
    (hcomma : rest.head?.any (isSymbol ",") = false) :
    (commaList Parser.item).run (projectionTokens items ++ rest)
      = some (if items.isEmpty then [.plain .star] else items.map SelectItem.canonical, rest) := by
  have hread : ∀ xs : List SelectItem, xs ≠ [] → (∀ x ∈ xs, x.expr.Readable) →
      (commaList Parser.item).run (joined (.symbol ",") (xs.map SelectItem.tokens) ++ rest)
        = some (xs.map SelectItem.canonical, rest) := by
    intro xs hne hxs
    exact run_bounded_separated _ (.symbol ",") rfl Parser.item SelectItem.tokens
      SelectItem.canonical EndsItem (fun _ => ⟨rfl, rfl⟩) xs hne
      (fun x hx rest hrest => run_item x rest (hxs x hx) hrest.1 hrest.2) rest h hcomma
  unfold projectionTokens
  split
  · have hstar := hread [.plain .star] (by simp) (by simp [SelectItem.plain, Expr.Readable])
    simpa [joined, SelectItem.tokens, SelectItem.canonical, SelectItem.plain, Expr.tokens,
      Expr.canonical] using hstar
  · next hne => exact hread items (by simpa using hne) hitems

/-- A clause with a list that is left out when it is empty is read back. -/
theorem run_list_clause (k : String) (more ks : List String) (item : Parser α)
    (tokens : β → List Token) (value : β → α) (xs : List β) (rest : List Token)
    (hkeywords : ∀ l ∈ k :: more, Form.isKeyword l (.word l))
    (hitem : ∀ x ∈ xs, ∀ rest, EndsColumn rest → item.run (tokens x ++ rest) = some (value x, rest))
    (hrest : StartsWith ks rest) (hks : ∀ l ∈ ks, Form.isKeyword k (.word l) = false)
    (hends : EndsColumn rest) (hcomma : rest.head?.any (isSymbol ",") = false) :
    ∃ list?, (clause k more (commaList item)).run
        (clauseTokens (k :: more) (listTokens? (xs.map tokens)) ++ rest) = some (list?, rest)
      ∧ list?.getD [] = xs.map value := by
  cases hxs : xs with
  | nil =>
      refine ⟨none, ?_, rfl⟩
      exact run_clause k more ks (commaList item) (fun _ : Unit => []) (fun _ => []) none rest
        hkeywords (by simp) hrest hks
  | cons x xs' =>
      refine ⟨some (xs.map value), ?_, by rw [hxs]; rfl⟩
      rw [← hxs]
      have hlist : listTokens? (xs.map tokens)
          = (some xs).map fun ys => joined (.symbol ",") (ys.map tokens) := by
        rw [hxs]
        rfl
      rw [hlist]
      refine run_clause k more ks (commaList item) _ (fun ys => ys.map value) (some xs) rest hkeywords
        ?_ hrest hks
      rintro ys ⟨rfl⟩
      exact run_bounded_separated _ (.symbol ",") rfl item tokens value EndsColumn (fun _ => rfl) xs
        (by rw [hxs]; simp) hitem rest hends hcomma

/-- A clause with a condition that is left out when there is none is read back. -/
theorem run_predicate_clause (k : String) (ks : List String) (p? : Option Predicate) (rest : List Token)
    (hkeywords : ∀ l ∈ [k], Form.isKeyword l (.word l)) (hreadable : ∀ p ∈ p?, p.Readable)
    (hrest : StartsWith ks rest) (hks : ∀ l ∈ ks, Form.isKeyword k (.word l) = false)
    (hends : EndsColumn rest) (hand : rest.head?.any (Form.isKeyword "AND") = false) :
    (clause k [] predicate).run (clauseTokens [k] (p?.map Predicate.tokens) ++ rest)
      = some (p?.map Predicate.canonical, rest) := by
  refine run_clause k [] ks predicate _ _ p? rest hkeywords ?_ hrest hks
  intro p hp
  exact run_predicate p rest (hreadable p hp) hends hand

/-- Joined tables are read back if no further join and no further condition follows. -/
theorem run_joins (joins : List JoinClause) (rest : List Token) (hon : ∀ join ∈ joins, join.on ≠ [])
    (h : EndsColumn rest) (hand : rest.head?.any (Form.isKeyword "AND") = false)
    (hjoin : rest.head?.any (Form.isKeyword "JOIN") = false) :
    (bounded (announced (Form.isKeyword "JOIN") Parser.join)).run
        (joins.flatMap JoinClause.tokens ++ rest) = some (joins, rest) := by
  have hbound : joins.length ≤ (joins.flatMap JoinClause.tokens ++ rest).length + 1 := by
    have hlen : joins.length ≤ (joins.flatMap JoinClause.tokens).length := by
      clear hon
      induction joins with
      | nil => simp
      | cons join joins ih =>
          simp only [List.flatMap_cons, List.length_append, List.length_cons, JoinClause.tokens]
          omega
    rw [List.length_append]
    omega
  refine run_announced _ (.word "JOIN") rfl Parser.join JoinClause.tailTokens
    (fun ts => EndsColumn ts ∧ ts.head?.any (Form.isKeyword "AND") = false) (fun _ => ⟨rfl, rfl⟩)
    joins ?_ rest ⟨h, hand⟩ hjoin _ hbound
  intro join hmem ts hts
  exact run_join join ts (hon join hmem) hts.1 hts.2

/-- A readable statement is read back from its tokens, with one spelling of the star. -/
theorem run_select (s : SelectStatement) (h : s.Readable) :
    select.run s.tokens = some (s.canonical, []) := by
  -- what is left behind each clause, from the last one to the first
  let limitTokens := clauseTokens ["LIMIT"] (s.limit.map fun n => [.number n.repr]) ++ []
  let orderTokens :=
    clauseTokens ["ORDER", "BY"] (listTokens? (s.orderBy.map OrderKey.tokens)) ++ limitTokens
  let havingTokens := clauseTokens ["HAVING"] (s.having.map Predicate.tokens) ++ orderTokens
  let groupTokens :=
    clauseTokens ["GROUP", "BY"] (listTokens? (s.groupBy.map Expr.tokens)) ++ havingTokens
  let filterTokens := clauseTokens ["WHERE"] (s.filter.map Predicate.tokens) ++ groupTokens
  have hlimit : StartsWith ["LIMIT"] limitTokens := startsWith_clause _ _ _ _ _ startsWith_nil
  have horder : StartsWith ["ORDER", "LIMIT"] orderTokens := startsWith_clause _ _ _ _ _ hlimit
  have hhaving : StartsWith ["HAVING", "ORDER", "LIMIT"] havingTokens :=
    startsWith_clause _ _ _ _ _ horder
  have hgroup : StartsWith ["GROUP", "HAVING", "ORDER", "LIMIT"] groupTokens :=
    startsWith_clause _ _ _ _ _ hhaving
  have hfilter : StartsWith ["WHERE", "GROUP", "HAVING", "ORDER", "LIMIT"] filterTokens :=
    startsWith_clause _ _ _ _ _ hgroup
  have htokens : s.tokens = .word "SELECT" :: (projectionTokens s.projection
      ++ .word "FROM" :: .name s.source :: (s.joins.flatMap JoinClause.tokens ++ filterTokens)) := by
    simp [SelectStatement.tokens, filterTokens, groupTokens, havingTokens, orderTokens, limitTokens]
  have hselect : ∀ ts, (keyword "SELECT").run (.word "SELECT" :: ts) = some ((), ts) :=
    fun ts => run_skip _ _ _ rfl
  have hfrom : ∀ ts, (keyword "FROM").run (.word "FROM" :: ts) = some ((), ts) :=
    fun ts => run_skip _ _ _ rfl
  have hprojection := run_projection s.projection
    (.word "FROM" :: .name s.source :: (s.joins.flatMap JoinClause.tokens ++ filterTokens))
    h.projection ⟨rfl, rfl⟩ rfl
  have hjoins := run_joins s.joins filterTokens h.joins (hfilter.not_accepts _ (by decide))
    (hfilter.not_accepts _ (by decide)) (hfilter.not_accepts _ (by decide))
  have hwhere : (clause "WHERE" [] predicate).run filterTokens
      = some (s.filter.map Predicate.canonical, groupTokens) :=
    run_predicate_clause "WHERE" _ s.filter groupTokens (by decide) h.filter hgroup (by decide)
      (hgroup.not_accepts _ (by decide)) (hgroup.not_accepts _ (by decide))
  obtain ⟨groups?, hgroups, hgroupBy⟩ := run_list_clause "GROUP" ["BY"] _ expr Expr.tokens
    Expr.canonical s.groupBy havingTokens (by decide)
    (fun e he rest hrest => run_expr e rest (h.groupBy e he) hrest) hhaving (by decide)
    (hhaving.not_accepts _ (by decide)) (hhaving.not_accepts _ (by decide))
  have hcondition : (clause "HAVING" [] predicate).run havingTokens
      = some (s.having.map Predicate.canonical, orderTokens) :=
    run_predicate_clause "HAVING" _ s.having orderTokens (by decide) h.having horder (by decide)
      (horder.not_accepts _ (by decide)) (horder.not_accepts _ (by decide))
  obtain ⟨keys?, hkeys, horderBy⟩ := run_list_clause "ORDER" ["BY"] _ orderKey OrderKey.tokens
    OrderKey.canonical s.orderBy limitTokens (by decide)
    (fun key hkey rest _ => run_orderKey key rest (h.orderBy key hkey)) hlimit (by decide)
    (hlimit.not_accepts _ (by decide)) (hlimit.not_accepts _ (by decide))
  have hnumber : (clause "LIMIT" [] natural).run limitTokens = some (s.limit.map id, []) := by
    refine run_clause "LIMIT" [] [] natural _ id s.limit [] (by decide) ?_ startsWith_nil (by decide)
    intro n _
    show Option.map _ (Text.numeral? n.repr.toList) = _
    rw [Text.numeral?_toList_repr]
    rfl
  rw [Option.map_id_fun, id] at hnumber
  have hgroups : (clause "GROUP" ["BY"] (commaList expr)).run groupTokens
      = some (groups?, havingTokens) := hgroups
  have hkeys : (clause "ORDER" ["BY"] (commaList orderKey)).run orderTokens
      = some (keys?, limitTokens) := hkeys
  rw [htokens, select]
  simp only [StateT.run_bind, hselect, hprojection, hfrom, run_name, hjoins, hwhere, hgroups,
    hcondition, hkeys, hnumber, Option.bind_eq_bind, Option.bind_some]
  rw [hgroupBy, horderBy]
  rfl

end Parser

/-- Statements with the same printed text are the same, but for the spelling of the star. -/
theorem SelectStatement.canonical_eq_of_toSql_eq (s t : SelectStatement) (hs : s.Readable)
    (ht : t.Readable) (h : s.toSql = t.toSql) : s.canonical = t.canonical := by
  have htokens : s.tokens = t.tokens := by
    have hscan := s.tokensOf_toSql hs
    rw [h, t.tokensOf_toSql ht] at hscan
    exact (Option.some.inj hscan).symm
  have hread := Parser.run_select s hs
  rw [htokens, Parser.run_select t ht] at hread
  exact (congrArg Prod.fst (Option.some.inj hread)).symm

/-- **Round trip.** The printed text of a readable statement is one `SELECT` from its first token to its
last, and the tree that is read from it is the statement with one spelling of the star. -/
theorem SelectStatement.read_toSql (s : SelectStatement) (h : s.Readable) :
    SelectStatement.ofText? s.toSql = some s.canonical := by
  unfold SelectStatement.ofText?
  rw [s.tokensOf_toSql h, Option.bind_some, Parser.run_select s h]

/-- A statement with every clause, whose names and texts are full of quotes, points, keywords and
blanks. -/
def SelectStatement.awkward : SelectStatement where
  projection :=
    [⟨.aggregate .count true (.of "a.b" "say \"when\""), some "FROM"⟩,
      ⟨.aggregateAll .sum false, some "; DROP TABLE x --"⟩, .plain (.tableStar "")]
  source := "SELECT \"* FROM\""
  joins := [⟨"", [(.of "a.b" "", ⟨none, "\""⟩), (.of "" "AND", .of "\"" ".")]⟩]
  filter := some (.all
    [.atom (.between (.of "a.b" "day") "O\x27Brien\x27 AND \x27" ""),
      .atom (.contains ⟨none, "%"⟩ "it\x27s 50%"),
      .atom (.compare (.of "" "*") .notEqual (.text "\x27 OR \x271\x27 = \x271"))])
  groupBy := [.truncated .week (.of "a.b" "GROUP BY"), .truncated .day ⟨none, ""⟩]
  having := some (.atom (.compare (.aggregate .avg false .star) .atLeast (.number "0012.50")))
  orderBy := [⟨.text "", .ascending⟩, ⟨.number "7", .descending⟩]
  limit := some 10

/-- The awkward statement can be read back. -/
theorem SelectStatement.awkward_readable : awkward.Readable where
  projection := by simp [awkward, SelectItem.plain, Expr.Readable, Expr.of]
  joins := by simp [awkward]
  filter := by
    rintro p ⟨rfl⟩
    refine ⟨by decide, ?_⟩
    simp [Condition.Readable, Expr.Readable, Expr.of]
  groupBy := by simp [awkward, Expr.Readable]
  having := by
    rintro p ⟨rfl⟩
    refine ⟨trivial, ?_⟩
    show Intent.isNumeral "0012.50" = true
    decide
  orderBy := by
    intro key hkey
    rcases List.mem_cons.mp hkey with rfl | hkey
    · trivial
    · obtain rfl := List.mem_singleton.mp hkey
      show Intent.isNumeral "7" = true
      decide

/-- The awkward statement is read back from its printed text. -/
theorem SelectStatement.read_toSql_awkward :
    awkward.Readable ∧ SelectStatement.ofText? awkward.toSql = some awkward.canonical :=
  ⟨awkward_readable, read_toSql awkward awkward_readable⟩

end TextToSql.Sql
