import TextToSql.Proofs.Sql.Pieces
import TextToSql.Proofs.Sql.Scanning

/-!
# The tokens of a statement

The tokens that a statement is written with, clause by clause, and the proof that the printed text is
scanned into exactly these. The trees are those that can be read back: they have no fragments of foreign
SQL, their numbers are numerals, and their conjunctions are flat.

* `SelectStatement.Readable` : the trees that can be read back;
* `SelectStatement.tokensOf_toSql` : the printed text of such a tree is scanned into its tokens.
-/

namespace TextToSql.Sql

open Token

/-! ## Trees that can be read back -/

/-- No fragment occurs in an expression, and numbers are numerals in ASCII digits. -/
def Expr.Readable : Expr → Prop
  | .aggregate _ _ argument => argument.Readable
  | .number digits => Intent.isNumeral digits
  | .fragment _ => False
  | _ => True

/-- A condition that compares readable expressions and is no fragment. -/
def Condition.Readable : Condition → Prop
  | .compare left _ right => left.Readable ∧ right.Readable
  | .fragment _ => False
  | _ => True

/-- A readable condition, or a conjunction of at least two of them. -/
def Predicate.Readable : Predicate → Prop
  | .atom condition => condition.Readable
  | .all members => 2 ≤ members.length ∧ ∀ p ∈ members, ∃ c, p = .atom c ∧ c.Readable

/-- A statement with readable parts whose joins all have a condition. -/
structure SelectStatement.Readable (s : SelectStatement) : Prop where
  projection : ∀ item ∈ s.projection, item.expr.Readable
  joins : ∀ join ∈ s.joins, join.on ≠ []
  filter : ∀ p ∈ s.filter, p.Readable
  groupBy : ∀ e ∈ s.groupBy, e.Readable
  having : ∀ p ∈ s.having, p.Readable
  orderBy : ∀ key ∈ s.orderBy, key.expr.Readable

/-- A readable predicate is the conjunction of readable conditions. -/
theorem Predicate.Readable.exists_conditions {p : Predicate} (h : p.Readable) :
    ∃ cs : List Condition, conjoin (cs.map .atom) = some p ∧ ∀ c ∈ cs, c.Readable := by
  cases p with
  | atom c => exact ⟨[c], rfl, List.forall_mem_singleton.mpr h⟩
  | all members =>
      obtain ⟨hlen, hmembers⟩ := h
      have hatoms : ∃ cs : List Condition, cs.map .atom = members ∧ ∀ c ∈ cs, c.Readable := by
        clear hlen
        induction members with
        | nil => exact ⟨[], rfl, by simp⟩
        | cons p ps ih =>
            obtain ⟨c, rfl, hc⟩ := hmembers p List.mem_cons_self
            obtain ⟨cs, rfl, hcs⟩ := ih fun q hq => hmembers q (List.mem_cons_of_mem _ hq)
            exact ⟨c :: cs, rfl, List.forall_mem_cons.mpr ⟨hc, hcs⟩⟩
      obtain ⟨cs, rfl, hcs⟩ := hatoms
      refine ⟨cs, ?_, hcs⟩
      rw [List.length_map] at hlen
      match cs, hlen with
      | _ :: _ :: _, _ => rfl

/-- A conjunction is printed as its members with `AND` between them. -/
theorem Predicate.print_conjoin (q : Quoting) (ps : List Predicate) (p : Predicate)
    (h : conjoin ps = some p) : p.print q = " AND ".intercalate (ps.map (Predicate.print q)) := by
  match ps with
  | [] => simp [conjoin] at h
  | [r] =>
      rw [conjoin, Option.some.injEq] at h
      subst h
      simp
  | r :: r' :: rs =>
      rw [conjoin, Option.some.injEq] at h
      subst h
      rw [Predicate.print, Predicate.printAll_eq_map]

/-! ## Token views -/

/-- The tokens of lists of tokens with a separator between them. -/
def joined (separator : Token) (pieces : List (List Token)) : List Token :=
  [separator].intercalate pieces

/-- The tokens of a column. -/
def ColumnRef.tokens (ref : ColumnRef) : List Token :=
  match ref.table with
  | some table => [.name table, .symbol ".", .name ref.column]
  | none => [.name ref.column]

/-- The tokens of an aggregate call over an argument. -/
def Aggregate.callTokens (function : Aggregate) (distinct : Bool) (argument : List Token) :
    List Token :=
  .word function.keyword :: .symbol "("
    :: ((if distinct then [.word "DISTINCT"] else []) ++ argument ++ [.symbol ")"])

/-- The tokens of a date cut down to a span of time. -/
def TimeGrain.callTokens (grain : TimeGrain) (argument : List Token) : List Token :=
  match grain with
  | .day => [.word "DATE", .symbol "("] ++ argument ++ [.symbol ")"]
  | grain =>
      [.word "DATE_TRUNC", .symbol "(", .text grain.unit, .symbol ","] ++ argument ++ [.symbol ")"]

/-- The tokens of an expression; those of a fragment are its own affair. -/
def Expr.tokens : Expr → List Token
  | .column ref => ref.tokens
  | .star => [.symbol "*"]
  | .tableStar table => [.name table, .symbol ".", .symbol "*"]
  | .aggregate function distinct argument => function.callTokens distinct argument.tokens
  | .aggregateAll function distinct => function.callTokens distinct [.symbol "*"]
  | .truncated grain ref => grain.callTokens ref.tokens
  | .number digits => [.number digits]
  | .text value => [.text value]
  | .fragment _ => []

/-- The tokens of a date with its type. -/
def dateTokens (value : String) : List Token := [.text value, .symbol "::", .word "date"]

/-- The tokens of a condition. -/
def Condition.tokens : Condition → List Token
  | .compare left op right => left.tokens ++ [.symbol op.sign] ++ right.tokens
  | .between ref first last =>
      ref.tokens ++ [.word "BETWEEN"] ++ dateTokens first ++ [.word "AND"] ++ dateTokens last
  | .contains ref needle => ref.tokens ++ [.word "ILIKE"] ++ [.text ("%" ++ needle ++ "%")]
  | .fragment _ => []

/-- The tokens of a predicate: those of its conditions with `AND` between them. -/
def Predicate.tokens (p : Predicate) : List Token :=
  joined (.word "AND") (p.atoms.map Condition.tokens)

/-- The token of the name of a result. -/
def nameToken (name : String) : Token := if isPlainAlias name then .word name else .name name

/-- The tokens of a projected item. -/
def SelectItem.tokens (item : SelectItem) : List Token :=
  match item.name with
  | none => item.expr.tokens
  | some name => item.expr.tokens ++ [.word "AS"] ++ [nameToken name]

/-- The tokens of a projection. -/
def projectionTokens (items : List SelectItem) : List Token :=
  if items.isEmpty then [.symbol "*"] else joined (.symbol ",") (items.map SelectItem.tokens)

/-- The tokens of an equation of two columns. -/
def equationTokens (pair : ColumnRef × ColumnRef) : List Token :=
  pair.1.tokens ++ [.symbol "="] ++ pair.2.tokens

/-- The tokens of a joined table behind the keyword that announces it. -/
def JoinClause.tailTokens (join : JoinClause) : List Token :=
  .name join.table :: .word "ON" :: joined (.word "AND") (join.on.map equationTokens)

/-- The tokens of a joined table. -/
def JoinClause.tokens (join : JoinClause) : List Token := .word "JOIN" :: join.tailTokens

/-- The tokens of a clause that may be left out: keywords and what they announce. -/
def clauseTokens (ks : List String) : Option (List Token) → List Token
  | none => []
  | some body => ks.map .word ++ body

/-- The tokens of a list of which nothing is left out unless it is empty. -/
def listTokens? (pieces : List (List Token)) : Option (List Token) :=
  if pieces.isEmpty then none else some (joined (.symbol ",") pieces)

/-- The tokens of a sort key. -/
def OrderKey.tokens (key : OrderKey) : List Token :=
  key.expr.tokens ++ [.word key.direction.keyword]

/-- The tokens of a statement. -/
def SelectStatement.tokens (s : SelectStatement) : List Token :=
  [.word "SELECT"] ++ projectionTokens s.projection ++ [.word "FROM"] ++ [.name s.source]
    ++ s.joins.flatMap JoinClause.tokens
    ++ clauseTokens ["WHERE"] (s.filter.map Predicate.tokens)
    ++ clauseTokens ["GROUP", "BY"] (listTokens? (s.groupBy.map Expr.tokens))
    ++ clauseTokens ["HAVING"] (s.having.map Predicate.tokens)
    ++ clauseTokens ["ORDER", "BY"] (listTokens? (s.orderBy.map OrderKey.tokens))
    ++ clauseTokens ["LIMIT"] (s.limit.map fun n => [.number n.repr])

/-! ## Scanning expressions -/

/-- A printed column is scanned into its tokens. -/
theorem scans_column (ref : ColumnRef) : Scans (ref.print .quoted) ref.tokens := by
  obtain ⟨_ | table, column⟩ := ref
  · exact scans_name column
  · intro rest hrest
    show scan ((quoteIdentifier table ++ "." ++ quoteIdentifier column).toList ++ rest) = _
    rw [String.toList_append, String.toList_append, List.append_assoc, List.append_assoc,
      scan_name table _ (by simp),
      show ".".toList = ['.'] from rfl, List.singleton_append,
      scan_point _ (by simp [quoteIdentifier, quotedWith]), scans_name column rest hrest,
      Option.map_map, Option.map_map]
    rfl

/-- A printed star of a table is scanned into its tokens. -/
theorem scans_tableStar (table : String) :
    Scans (quoteIdentifier table ++ ".*") [.name table, .symbol ".", .symbol "*"] := by
  intro rest _
  rw [String.toList_append, List.append_assoc, scan_name table _ (by simp),
    show ".*".toList ++ rest = '.' :: '*' :: rest from rfl, scan_point _ (by simp),
    scan_symbol '*' _ (by simp), Option.map_map, Option.map_map]
  rfl

/-- A printed star is scanned into its token. -/
theorem scans_star : Scans "*" [.symbol "*"] := by
  intro rest _
  exact scan_symbol '*' rest (by simp)

/-- The name of a function is a plain word. -/
theorem Aggregate.isPlainAlias_keyword (function : Aggregate) : isPlainAlias function.keyword := by
  cases function <;> rfl

/-- A printed aggregate call is scanned into its tokens if its argument is. -/
theorem scans_call (function : Aggregate) (distinct : Bool) (argument : String) (ts : List Token)
    (h : Scans argument ts) :
    Scans (function.call distinct argument) (function.callTokens distinct ts) := by
  have hopen : Free (function.keyword ++ "(") [.word function.keyword, .symbol "("] :=
    free_call _ function.isPlainAlias_keyword
  cases distinct with
  | false => exact (hopen.append h).append scans_close rfl
  | true =>
      have hdistinct : Free "DISTINCT " [.word "DISTINCT"] :=
        free_opening "DISTINCT" "DISTINCT " rfl rfl
      have htext : function.call true argument
          = function.keyword ++ "(" ++ ("DISTINCT " ++ argument) ++ ")" := by
        rw [← String.toList_inj]
        simp [Aggregate.call]
      rw [htext]
      exact (hopen.append (hdistinct.append h)).append scans_close rfl

/-- The span of time of a printed date that is cut down is a text literal, but for the day. -/
theorem TimeGrain.call_eq (grain : TimeGrain) (argument : String) (h : grain ≠ .day) :
    grain.call argument
      = "DATE_TRUNC" ++ "(" ++ quoteLiteral grain.unit ++ ", " ++ argument ++ ")" := by
  rw [← String.toList_inj]
  cases grain with
  | day => exact absurd rfl h
  | _ => simp [TimeGrain.call, TimeGrain.unit, quoteLiteral, quotedWith, doubled]

/-- The tokens of a date that is cut down, but for the day. -/
theorem TimeGrain.callTokens_eq (grain : TimeGrain) (argument : List Token) (h : grain ≠ .day) :
    grain.callTokens argument
      = .word "DATE_TRUNC" :: .symbol "(" :: .text grain.unit :: .symbol ","
        :: (argument ++ [.symbol ")"]) := by
  cases grain with
  | day => exact absurd rfl h
  | _ => rfl

/-- A printed date that is cut down is scanned into its tokens if the date is. -/
theorem scans_truncated (grain : TimeGrain) (argument : String) (ts : List Token)
    (h : Scans argument ts) : Scans (grain.call argument) (grain.callTokens ts) := by
  by_cases hday : grain = .day
  · subst hday
    have hopen : Free ("DATE" ++ "(") [.word "DATE", .symbol "("] := free_call "DATE" rfl
    exact (hopen.append h).append scans_close rfl
  · have hunit := ((free_call "DATE_TRUNC" rfl).append (scans_text grain.unit)).append_free
      free_comma rfl
    rw [grain.call_eq argument hday, grain.callTokens_eq ts hday]
    exact (hunit.append h).append scans_close rfl

/-- A printed expression is scanned into its tokens. -/
theorem scans_expr (e : Expr) (h : e.Readable) : Scans (e.print .quoted) e.tokens := by
  induction e with
  | column ref => exact scans_column ref
  | star => exact scans_star
  | tableStar table => exact scans_tableStar table
  | aggregate function distinct argument ih => exact scans_call function distinct _ _ (ih h)
  | aggregateAll function distinct => exact scans_call function distinct "*" _ scans_star
  | truncated grain ref => exact scans_truncated grain _ _ (scans_column ref)
  | number digits => exact scans_number digits ((Intent.isNumeral_iff digits).mp h)
  | text value => exact scans_text value
  | fragment sql => exact h.elim

/-! ## Scanning clauses -/

/-- Printed items with a separator between them are scanned into their tokens. -/
theorem scans_intercalate {α : Type} (separator : String) (t : Token)
    (hseparator : Free separator [t]) (hcloses : separator.toList.head?.any closes)
    (print : α → String) (tokens : α → List Token) (xs : List α)
    (h : ∀ x ∈ xs, Scans (print x) (tokens x)) :
    Scans (separator.intercalate (xs.map print)) (joined t (xs.map tokens)) := by
  induction xs with
  | nil => exact scans_empty
  | cons x xs ih =>
      obtain ⟨hx, hxs⟩ := List.forall_mem_cons.mp h
      cases xs with
      | nil => simpa [joined] using hx
      | cons y ys =>
          -- the separator ends the first item and needs no end itself
          have hrest := (hx.append_free hseparator hcloses).append (ih hxs)
          simpa [joined] using hrest

/-- A printed condition is scanned into its tokens. -/
theorem scans_condition (c : Condition) (h : c.Readable) : Scans (c.print .quoted) c.tokens := by
  cases c with
  | compare left op right =>
      have hsign := (scans_expr left h.1).append_free (free_sign op) (by simp [closes])
      have hscan := hsign.append (scans_expr right h.2)
      simp only [← String.append_assoc] at hscan
      exact hscan
  | between ref first last =>
      have hbetween : Free " BETWEEN " [.word "BETWEEN"] := free_keyword "BETWEEN" " BETWEEN " rfl rfl
      have hand : Free " AND " [.word "AND"] := free_keyword "AND" " AND " rfl rfl
      have hfirst := ((scans_column ref).append_free hbetween rfl).append (scans_date first)
      have hscan := (hfirst.append_free hand rfl).append (scans_date last)
      have htext : (Condition.between ref first last).print .quoted
          = ref.print .quoted ++ " BETWEEN " ++ (quoteLiteral first ++ "::date") ++ " AND "
            ++ (quoteLiteral last ++ "::date") := by
        simp [Condition.print, String.append_assoc]
      rw [htext]
      exact hscan
  | contains ref needle =>
      have hilike : Free " ILIKE " [.word "ILIKE"] := free_keyword "ILIKE" " ILIKE " rfl rfl
      exact ((scans_column ref).append_free hilike rfl).append (scans_text _)
  | fragment sql => exact h.elim

/-- A printed predicate is scanned into its tokens. -/
theorem scans_predicate (p : Predicate) (h : p.Readable) : Scans (p.print .quoted) p.tokens := by
  obtain ⟨cs, hcs, hreadable⟩ := h.exists_conditions
  have hand : Free " AND " [.word "AND"] := free_keyword "AND" " AND " rfl rfl
  rw [Predicate.tokens, Predicate.atoms_conjoin_map cs p hcs, Predicate.print_conjoin _ _ p hcs,
    List.map_map]
  exact scans_intercalate " AND " (.word "AND") hand rfl _ _ cs fun c hc =>
    scans_condition c (hreadable c hc)

/-- A printed item is scanned into its tokens. -/
theorem scans_item (item : SelectItem) (h : item.expr.Readable) :
    Scans (item.print .quoted) item.tokens := by
  obtain ⟨e, _ | name⟩ := item
  · exact scans_expr e h
  · have has : Free " AS " [.word "AS"] := free_keyword "AS" " AS " rfl rfl
    have hname : Scans (if isPlainAlias name then name else quoteIdentifier name) [nameToken name] := by
      unfold nameToken
      split
      · next hplain => exact scans_word name hplain
      · exact scans_name name
    exact ((scans_expr e h).append_free has rfl).append hname

/-- A printed projection is scanned into its tokens. -/
theorem scans_projection (items : List SelectItem) (h : ∀ item ∈ items, item.expr.Readable) :
    Scans (printProjection .quoted items) (projectionTokens items) := by
  unfold printProjection projectionTokens
  split
  · exact scans_star
  · exact scans_intercalate ", " (.symbol ",") free_comma rfl _ _ items fun item hitem =>
      scans_item item (h item hitem)

/-- A printed equation is scanned into its tokens. -/
theorem scans_equation (pair : ColumnRef × ColumnRef) :
    Scans (pair.1.print .quoted ++ " = " ++ pair.2.print .quoted) (equationTokens pair) :=
  ((scans_column pair.1).append_free (free_sign .equal) rfl).append (scans_column pair.2)

/-- A printed join is scanned into its tokens. -/
theorem scans_join (join : JoinClause) : Scans (join.print .quoted) join.tokens := by
  have hjoin : Free " JOIN " [.word "JOIN"] := free_keyword "JOIN" " JOIN " rfl rfl
  have hon : Free " ON " [.word "ON"] := free_keyword "ON" " ON " rfl rfl
  have hand : Free " AND " [.word "AND"] := free_keyword "AND" " AND " rfl rfl
  have htable := (hjoin.append (scans_name join.table)).append_free hon rfl
  exact htable.append (scans_intercalate " AND " (.word "AND") hand rfl _ _ join.on fun pair _ =>
    scans_equation pair)

/-- Printed joins are scanned into their tokens, and each ends the tokens before it. -/
theorem scans_joins (joins : List JoinClause) :
    Scans (String.join (joins.map (JoinClause.print .quoted))) (joins.flatMap JoinClause.tokens)
      ∧ Clear (String.join (joins.map (JoinClause.print .quoted))).toList := by
  induction joins with
  | nil => exact ⟨scans_empty, rfl⟩
  | cons join joins ih =>
      simp only [List.map_cons, String.join_cons, List.flatMap_cons]
      refine ⟨(scans_join join).append ih.1 ih.2, ?_⟩
      rw [String.toList_append]
      exact clear_of_closes (by simp [JoinClause.print, closes]) _

/-- A printed clause is scanned into its tokens, and it ends the tokens before it. -/
theorem scans_condition_clause (k : String) (hk : isPlainAlias k) (p : Option Predicate)
    (h : ∀ q ∈ p, q.Readable) :
    Scans (printCondition .quoted k p) (clauseTokens [k] (p.map Predicate.tokens))
      ∧ Clear (printCondition .quoted k p).toList := by
  cases p with
  | none => exact ⟨scans_empty, rfl⟩
  | some p =>
      refine ⟨(free_keyword k _ rfl hk).append (scans_predicate p (h p rfl)), ?_⟩
      simp [printCondition, Clear, closes]

/-- A printed list behind keywords is scanned into its tokens, and it ends the tokens before it. -/
theorem scans_list_clause {α : Type} (opening : String) (ks : List String)
    (hopening : Free opening (ks.map .word)) (hcloses : opening.toList.head?.any closes)
    (print : α → String) (tokens : α → List Token) (xs : List α)
    (h : ∀ x ∈ xs, Scans (print x) (tokens x)) :
    Scans (if xs.isEmpty then "" else opening ++ ", ".intercalate (xs.map print))
        (clauseTokens ks (listTokens? (xs.map tokens)))
      ∧ Clear (if xs.isEmpty then "" else opening ++ ", ".intercalate (xs.map print)).toList := by
  cases xs with
  | nil => exact ⟨scans_empty, rfl⟩
  | cons x xs =>
      refine ⟨hopening.append ?_, ?_⟩
      · exact scans_intercalate ", " (.symbol ",") free_comma rfl print tokens (x :: xs) h
      · rw [if_neg (by simp), String.toList_append]
        exact clear_of_closes hcloses _

/-- The decimal form of a number is a numeral. -/
theorem isDecimal_repr (n : Nat) : IsDecimal Char.isDigit n.repr.toList := by
  refine IsDigits.isDecimal ⟨by simp [Nat.toDigits_ne_nil], ?_⟩
  intro c hc
  rw [Nat.toList_repr] at hc
  exact Nat.isDigit_of_mem_toDigits (by decide) (by decide) hc

/-- A printed limit is scanned into its tokens, and it ends the tokens before it. -/
theorem scans_limit (limit : Option Nat) :
    Scans (printLimit limit) (clauseTokens ["LIMIT"] (limit.map fun n => [.number n.repr]))
      ∧ Clear (printLimit limit).toList := by
  cases limit with
  | none => exact ⟨scans_empty, rfl⟩
  | some n =>
      have hlimit : Free " LIMIT " [.word "LIMIT"] := free_keyword "LIMIT" " LIMIT " rfl rfl
      refine ⟨hlimit.append (scans_number _ (isDecimal_repr n)), ?_⟩
      simp [printLimit, Clear, closes]

/-- The direction of a sort key is a plain word. -/
theorem SortDirection.isPlainAlias_keyword (d : SortDirection) : isPlainAlias d.keyword := by
  cases d <;> rfl

/-- A printed sort key is scanned into its tokens. -/
theorem scans_orderKey (key : OrderKey) (h : key.expr.Readable) :
    Scans (key.print .quoted) key.tokens := by
  have hexpr := (scans_expr key.expr h).append_free free_space rfl
  rw [List.append_nil] at hexpr
  exact hexpr.append (scans_word _ key.direction.isPlainAlias_keyword)

/-- The printed text of a readable statement is scanned into its tokens. -/
theorem SelectStatement.tokensOf_toSql (s : SelectStatement) (h : s.Readable) :
    Token.ofText? s.toSql = some s.tokens := by
  have hselect : Free "SELECT " [.word "SELECT"] := free_opening "SELECT" "SELECT " rfl rfl
  have hfrom : Free " FROM " [.word "FROM"] := free_keyword "FROM" " FROM " rfl rfl
  have hgroup : Free " GROUP BY " (["GROUP", "BY"].map .word) :=
    free_keywords "GROUP" "BY" " GROUP BY " rfl rfl rfl
  have horder : Free " ORDER BY " (["ORDER", "BY"].map .word) :=
    free_keywords "ORDER" "BY" " ORDER BY " rfl rfl rfl
  have hsource := (((hselect.append (scans_projection s.projection h.projection)).append_free hfrom
    rfl).append (scans_name s.source))
  have hjoins := scans_joins s.joins
  have hfilter := scans_condition_clause "WHERE" rfl s.filter h.filter
  have hgroups := scans_list_clause " GROUP BY " ["GROUP", "BY"] hgroup rfl _ _ s.groupBy
    fun e he => scans_expr e (h.groupBy e he)
  have hhaving := scans_condition_clause "HAVING" rfl s.having h.having
  have hkeys := scans_list_clause " ORDER BY " ["ORDER", "BY"] horder rfl _ _ s.orderBy
    fun key hkey => scans_orderKey key (h.orderBy key hkey)
  have hlimit := scans_limit s.limit
  -- every clause is empty or starts with a space, so it ends the last token before it
  have hscan := ((((((hsource.append hjoins.1 hjoins.2).append hfilter.1 hfilter.2).append
    hgroups.1 hgroups.2).append hhaving.1 hhaving.2).append hkeys.1 hkeys.2).append hlimit.1
    hlimit.2)
  exact hscan.ofText?_eq

end TextToSql.Sql
