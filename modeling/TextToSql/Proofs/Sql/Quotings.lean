import TextToSql.Proofs.Sql.Pieces
import TextToSql.Sql.Printer

/-!
# The two quotings agree

Where no name, value or fragment holds a double quote, the only double quotes of a printed text are those that
the printer puts around names. So the bare form of a text is its quoted form without the double quotes, for
each clause on its own as for a whole statement. A name of a result is quoted in either form unless it is a
plain alias, so it has to be one.

* `Agrees` : the two printed forms of something are equal but for double quotes;
* `agrees_expr`, `agrees_predicate` : expressions and predicates agree;
* `agrees_print` : every clause agrees, and so does every statement.
-/

namespace TextToSql.Sql

/-! ## Texts without double quotes -/

/-- A text with its double quotes left out. -/
def withoutQuotes (s : String) : String := String.ofList (s.toList.filter fun c => c ≠ '"')

/-- A text that holds no double quote. -/
def QuoteFree (s : String) : Prop := '"' ∉ s.toList

instance (s : String) : Decidable (QuoteFree s) := inferInstanceAs (Decidable (_ ∉ _))

/-- In a text without double quotes there is none to leave out. -/
theorem withoutQuotes_of_quoteFree {s : String} (h : QuoteFree s) : withoutQuotes s = s := by
  have hkeep : s.toList.filter (fun c => c ≠ '"') = s.toList := by
    refine List.filter_eq_self.mpr fun c hc => decide_eq_true ?_
    rintro rfl
    exact h hc
  rw [withoutQuotes, hkeep, String.ofList_toList]

/-- Double quotes are left out of a text part by part. -/
theorem withoutQuotes_append (s t : String) : withoutQuotes (s ++ t) = withoutQuotes s ++ withoutQuotes t := by
  rw [withoutQuotes, String.toList_append, List.filter_append, String.ofList_append]
  rfl

/-- Parts without double quotes make up a text without double quotes. -/
theorem QuoteFree.append {s t : String} (hs : QuoteFree s) (ht : QuoteFree t) : QuoteFree (s ++ t) := by
  rw [QuoteFree, String.toList_append, List.mem_append]
  exact not_or.mpr ⟨hs, ht⟩

/-- A quote that does not occur in a text is not doubled there. -/
theorem doubled_of_not_mem (q : Char) (s : List Char) (h : q ∉ s) : doubled q s = s := by
  induction s with
  | nil => rfl
  | cons c s ih =>
      obtain ⟨hc, hs⟩ := not_or.mp (mt List.mem_cons.mpr h)
      rw [doubled, if_neg (Ne.symm hc), ih hs]

/-- A quote is doubled only where it occurs; no other character is added. -/
theorem mem_doubled_iff (q : Char) (s : List Char) (c : Char) : c ∈ doubled q s ↔ c ∈ s := by
  induction s with
  | nil => simp [doubled]
  | cons d s ih =>
      rw [doubled]
      split
      · next hd => simp [hd, ih]
      · simp [ih]

/-- The quotes around a name are left out. -/
theorem withoutQuotes_quoteIdentifier {name : String} (h : QuoteFree name) :
    withoutQuotes (quoteIdentifier name) = name := by
  have hname : quoteIdentifier name = "\"" ++ name ++ "\"" := by
    rw [quoteIdentifier, quotedWith, doubled_of_not_mem '"' name.toList h, ← String.toList_inj]
    simp
  rw [hname, withoutQuotes_append, withoutQuotes_append, withoutQuotes_of_quoteFree h]
  simp [withoutQuotes]

/-- A literal stands between single quotes, so it has a double quote only where its text has one. -/
theorem QuoteFree.quoteLiteral {value : String} (h : QuoteFree value) : QuoteFree (quoteLiteral value) := by
  simpa [QuoteFree, Sql.quoteLiteral, quotedWith, mem_doubled_iff] using h

/-! ## Printed forms that agree -/

/-- The two printed forms of something are equal but for double quotes. -/
def Agrees (print : Quoting → String) : Prop := withoutQuotes (print .quoted) = print .bare

/-- A text without double quotes is the same in both forms. -/
theorem QuoteFree.agrees {s : String} (h : QuoteFree s) : Agrees fun _ => s := withoutQuotes_of_quoteFree h

/-- Forms that agree part by part agree. -/
theorem Agrees.append {f g : Quoting → String} (hf : Agrees f) (hg : Agrees g) :
    Agrees fun q => f q ++ g q := by
  show withoutQuotes (f .quoted ++ g .quoted) = f .bare ++ g .bare
  rw [withoutQuotes_append, hf, hg]

/-- Lists whose members agree do so with a separator between them. -/
theorem Agrees.intercalate {α : Type} {separator : String} (hseparator : QuoteFree separator)
    (print : Quoting → α → String) (xs : List α) (h : ∀ x ∈ xs, Agrees fun q => print q x) :
    Agrees fun q => separator.intercalate (xs.map (print q)) := by
  induction xs with
  | nil => rfl
  | cons x xs ih =>
      obtain ⟨hx, hxs⟩ := List.forall_mem_cons.mp h
      cases xs with
      | nil => simpa using hx
      | cons y ys =>
          simp only [List.map_cons, String.intercalate_cons_cons]
          exact (hx.append hseparator.agrees).append (ih hxs)

/-- Lists whose members agree do so one behind the other. -/
theorem Agrees.join {α : Type} (print : Quoting → α → String) (xs : List α)
    (h : ∀ x ∈ xs, Agrees fun q => print q x) : Agrees fun q => String.join (xs.map (print q)) := by
  induction xs with
  | nil => rfl
  | cons x xs ih =>
      obtain ⟨hx, hxs⟩ := List.forall_mem_cons.mp h
      simp only [List.map_cons, String.join_cons]
      exact hx.append (ih hxs)

/-! ## Names, values and fragments -/

/-- The texts that a piece of a statement is written with. -/
def Piece.texts : Piece → List String
  | .table name => [name]
  | .column ref => ref.table.toList ++ [ref.column]
  | .result name => [name]
  | .number digits => [digits]
  | .text value => [value]
  | .fragment sql => [sql]

/-- Pieces none of which holds a double quote. -/
def AreQuoteFree (pieces : List Piece) : Prop := ∀ piece ∈ pieces, ∀ text ∈ piece.texts, QuoteFree text

instance (pieces : List Piece) : Decidable (AreQuoteFree pieces) :=
  inferInstanceAs (Decidable (∀ piece ∈ pieces, ∀ text ∈ piece.texts, QuoteFree text))

/-- Pieces of two parts hold no double quote exactly if those of each part do not. -/
theorem areQuoteFree_append (pieces pieces' : List Piece) :
    AreQuoteFree (pieces ++ pieces') ↔ AreQuoteFree pieces ∧ AreQuoteFree pieces' :=
  List.forall_mem_append

/-- The pieces of the members of a list hold no double quote exactly if those of each member do not. -/
theorem areQuoteFree_flatMap {α : Type} (f : α → List Piece) (xs : List α) :
    AreQuoteFree (xs.flatMap f) ↔ ∀ x ∈ xs, AreQuoteFree (f x) :=
  List.forall_mem_flatMap

/-- A name agrees. -/
theorem agrees_name {name : String} (h : QuoteFree name) : Agrees fun q => q.name name :=
  withoutQuotes_quoteIdentifier h

/-- A column agrees. -/
theorem agrees_column (ref : ColumnRef) (h : AreQuoteFree [.column ref]) : Agrees fun q => ref.print q := by
  obtain ⟨table, column⟩ := ref
  have htexts := h _ List.mem_cons_self
  have hcolumn : QuoteFree column := htexts column (by simp [Piece.texts])
  cases table with
  | none => exact agrees_name hcolumn
  | some table =>
      have htable : QuoteFree table := htexts table (by simp [Piece.texts])
      have hpoint : QuoteFree "." := by decide
      exact ((agrees_name htable).append hpoint.agrees).append (agrees_name hcolumn)

/-! ## Expressions -/

/-- A call of an aggregate agrees if its argument does. -/
theorem agrees_call (function : Aggregate) (distinct : Bool) {argument : Quoting → String}
    (h : Agrees argument) : Agrees fun q => function.call distinct (argument q) := by
  have hkeyword : QuoteFree function.keyword := by cases function <;> decide
  have hopening : QuoteFree "(" := by decide
  have hmarked : QuoteFree "(DISTINCT " := by decide
  have hclosing : QuoteFree ")" := by decide
  cases distinct with
  | false => exact ((hkeyword.append hopening).agrees.append h).append hclosing.agrees
  | true => exact ((hkeyword.append hmarked).agrees.append h).append hclosing.agrees

/-- A date that is cut down to a span of time agrees if the date does. -/
theorem agrees_truncated (grain : TimeGrain) {argument : Quoting → String} (h : Agrees argument) :
    Agrees fun q => grain.call (argument q) := by
  have hclosing : QuoteFree ")" := by decide
  have hday : QuoteFree "DATE(" := by decide
  have hunit : QuoteFree ("DATE_TRUNC('" ++ grain.unit ++ "', ") := by cases grain <;> decide
  cases grain with
  | day => exact (hday.agrees.append h).append hclosing.agrees
  | week | month | quarter | year => exact (hunit.agrees.append h).append hclosing.agrees

/-- **Expressions agree.** -/
theorem agrees_expr (e : Expr) (h : AreQuoteFree e.pieces) : Agrees fun q => e.print q := by
  induction e with
  | column ref => exact agrees_column ref h
  | star =>
      have hstar : QuoteFree "*" := by decide
      exact hstar.agrees
  | tableStar table =>
      have htable : QuoteFree table := h _ List.mem_cons_self table List.mem_cons_self
      have hstar : QuoteFree ".*" := by decide
      exact (agrees_name htable).append hstar.agrees
  | aggregate function distinct argument ih => exact agrees_call function distinct (ih h)
  | aggregateAll function distinct =>
      have hstar : QuoteFree "*" := by decide
      exact agrees_call function distinct hstar.agrees
  | truncated grain ref => exact agrees_truncated grain (agrees_column ref h)
  | number digits =>
      have hdigits : QuoteFree digits := h _ List.mem_cons_self digits List.mem_cons_self
      exact hdigits.agrees
  | text value =>
      have hvalue : QuoteFree value := h _ List.mem_cons_self value List.mem_cons_self
      exact hvalue.quoteLiteral.agrees
  | fragment sql =>
      have hsql : QuoteFree sql := h _ List.mem_cons_self sql List.mem_cons_self
      exact hsql.agrees

/-! ## Predicates -/

/-- A condition agrees. -/
theorem agrees_condition (c : Condition) (h : AreQuoteFree c.pieces) : Agrees fun q => c.print q := by
  cases c with
  | compare left op right =>
      obtain ⟨hleft, hright⟩ := (areQuoteFree_append _ _).mp h
      have hspace : QuoteFree " " := by decide
      have hsign : QuoteFree op.sign := by cases op <;> decide
      exact ((((agrees_expr left hleft).append hspace.agrees).append hsign.agrees).append
        hspace.agrees).append (agrees_expr right hright)
  | between ref first last =>
      obtain ⟨href, hbounds⟩ := (areQuoteFree_append [.column ref] _).mp h
      have hfirst : QuoteFree first := hbounds (.text first) (by simp) first List.mem_cons_self
      have hlast : QuoteFree last := hbounds (.text last) (by simp) last List.mem_cons_self
      have hbetween : QuoteFree " BETWEEN " := by decide
      have hand : QuoteFree "::date AND " := by decide
      have hdate : QuoteFree "::date" := by decide
      exact (((((agrees_column ref href).append hbetween.agrees).append hfirst.quoteLiteral.agrees).append
        hand.agrees).append hlast.quoteLiteral.agrees).append hdate.agrees
  | contains ref needle =>
      obtain ⟨href, htexts⟩ := (areQuoteFree_append [.column ref] _).mp h
      have hneedle : QuoteFree needle := htexts (.text needle) (by simp) needle List.mem_cons_self
      have hpercent : QuoteFree "%" := by decide
      have hilike : QuoteFree " ILIKE " := by decide
      exact ((agrees_column ref href).append hilike.agrees).append
        ((hpercent.append hneedle).append hpercent).quoteLiteral.agrees
  | fragment sql =>
      have hsql : QuoteFree sql := h _ List.mem_cons_self sql List.mem_cons_self
      exact hsql.agrees

mutual

/-- **Predicates agree**, nested to any depth. -/
theorem agrees_predicate (p : Predicate) (h : ∀ c ∈ p.atoms, AreQuoteFree c.pieces) :
    Agrees fun q => p.print q := by
  have hand : QuoteFree " AND " := by decide
  cases p with
  | atom c => exact agrees_condition c (h c List.mem_cons_self)
  | all members =>
      simp only [Predicate.print, Predicate.printAll_eq_map]
      exact .intercalate hand _ members (agrees_members members h)

/-- The members of a list of predicates agree. -/
theorem agrees_members (ps : List Predicate) (h : ∀ c ∈ Predicate.atomsAll ps, AreQuoteFree c.pieces) :
    ∀ p ∈ ps, Agrees fun q => p.print q := by
  cases ps with
  | nil => exact List.forall_mem_nil _
  | cons p ps =>
      obtain ⟨hp, hps⟩ := List.forall_mem_append.mp h
      exact List.forall_mem_cons.mpr ⟨agrees_predicate p hp, agrees_members ps hps⟩

end

/-! ## Clauses -/

/-- A projected item that is written without double quotes in the bare form: it holds none, and its name, if it
has one, is a plain alias. -/
structure SelectItem.IsBare (item : SelectItem) : Prop where
  pieces : AreQuoteFree item.pieces
  name : ∀ name ∈ item.name, isPlainAlias name

instance (item : SelectItem) : Decidable item.IsBare :=
  decidable_of_iff (AreQuoteFree item.pieces ∧ ∀ name ∈ item.name, isPlainAlias name)
    ⟨fun ⟨hpieces, hname⟩ => ⟨hpieces, hname⟩, fun h => ⟨h.pieces, h.name⟩⟩

/-- A projected item agrees. -/
theorem agrees_item (item : SelectItem) (h : item.IsBare) : Agrees fun q => item.print q := by
  obtain ⟨expr, name⟩ := item
  obtain ⟨hexpr, hnames⟩ := (areQuoteFree_append expr.pieces _).mp h.pieces
  cases name with
  | none => exact agrees_expr expr hexpr
  | some name =>
      have halias : isPlainAlias name := h.name name rfl
      have hname : QuoteFree name := hnames (.result name) (by simp) name List.mem_cons_self
      have has : QuoteFree " AS " := by decide
      simp only [SelectItem.print, if_pos halias]
      exact ((agrees_expr expr hexpr).append has.agrees).append hname.agrees

/-- A projection agrees. -/
theorem agrees_projection (items : List SelectItem) (h : ∀ item ∈ items, item.IsBare) :
    Agrees fun q => printProjection q items := by
  have hstar : QuoteFree "*" := by decide
  have hcomma : QuoteFree ", " := by decide
  unfold printProjection
  split
  · exact hstar.agrees
  · exact .intercalate hcomma SelectItem.print items fun item hitem => agrees_item item (h item hitem)

/-- A joined table agrees. -/
theorem agrees_joinClause (join : JoinClause) (h : AreQuoteFree join.pieces) :
    Agrees fun q => join.print q := by
  obtain ⟨htable, hon⟩ := (areQuoteFree_append [.table join.table] _).mp h
  have hname : QuoteFree join.table := htable _ List.mem_cons_self join.table List.mem_cons_self
  have hjoin : QuoteFree " JOIN " := by decide
  have honword : QuoteFree " ON " := by decide
  have hand : QuoteFree " AND " := by decide
  have hequals : QuoteFree " = " := by decide
  let equation : Quoting → ColumnRef × ColumnRef → String :=
    fun q sides => sides.1.print q ++ " = " ++ sides.2.print q
  have hpairs : ∀ pair ∈ join.on, Agrees fun q => equation q pair := by
    rintro ⟨left, right⟩ hpair
    obtain ⟨hleft, hright⟩ :=
      (areQuoteFree_append [.column left] _).mp ((areQuoteFree_flatMap _ _).mp hon (left, right) hpair)
    exact ((agrees_column left hleft).append hequals.agrees).append (agrees_column right hright)
  have hequations := Agrees.intercalate hand equation join.on hpairs
  exact ((hjoin.agrees.append (agrees_name hname)).append honword.agrees).append hequations

/-- A `WHERE` or `HAVING` clause agrees. -/
theorem agrees_conditionClause (keyword : String) (hkeyword : QuoteFree keyword) (p? : Option Predicate)
    (h : ∀ p ∈ p?, AreQuoteFree p.pieces) : Agrees fun q => printCondition q keyword p? := by
  cases p? with
  | none => rfl
  | some p =>
      have hspace : QuoteFree " " := by decide
      have hp := agrees_predicate p ((areQuoteFree_flatMap _ _).mp (h p rfl))
      exact ((hspace.append hkeyword).append hspace).agrees.append hp

/-- A grouping agrees. -/
theorem agrees_groupBy (keys : List Expr) (h : ∀ e ∈ keys, AreQuoteFree e.pieces) :
    Agrees fun q => printGroupBy q keys := by
  have hgroup : QuoteFree " GROUP BY " := by decide
  have hcomma : QuoteFree ", " := by decide
  unfold printGroupBy
  split
  · rfl
  · exact hgroup.agrees.append (.intercalate hcomma Expr.print keys fun e he => agrees_expr e (h e he))

/-- A sort key agrees. -/
theorem agrees_orderKey (key : OrderKey) (h : AreQuoteFree key.expr.pieces) :
    Agrees fun q => key.print q := by
  have hspace : QuoteFree " " := by decide
  have hkeyword : QuoteFree key.direction.keyword := by cases key.direction <;> decide
  exact ((agrees_expr key.expr h).append hspace.agrees).append hkeyword.agrees

/-- An ordering agrees. -/
theorem agrees_orderBy (keys : List OrderKey) (h : ∀ key ∈ keys, AreQuoteFree key.expr.pieces) :
    Agrees fun q => printOrderBy q keys := by
  have horder : QuoteFree " ORDER BY " := by decide
  have hcomma : QuoteFree ", " := by decide
  unfold printOrderBy
  split
  · rfl
  · exact horder.agrees.append
      (.intercalate hcomma OrderKey.print keys fun key hkey => agrees_orderKey key (h key hkey))

/-- A row limit holds no double quote. -/
theorem quoteFree_limit (limit : Option Nat) : QuoteFree (printLimit limit) := by
  cases limit with
  | none => decide
  | some n =>
      have hlimit : QuoteFree " LIMIT " := by decide
      refine hlimit.append fun hmem => ?_
      have hdigit : '"'.isDigit := Nat.isDigit_of_mem_toDigits (b := 10) (n := n) (by decide) (by decide)
        (by simpa using hmem)
      exact absurd hdigit (by decide)

/-! ## Statements -/

/-- A statement that is written without double quotes in the bare form: no name, value or fragment holds one, and
every name of a result is a plain alias. -/
structure SelectStatement.IsBare (s : SelectStatement) : Prop where
  pieces : AreQuoteFree s.pieces
  names : ∀ item ∈ s.projection, ∀ name ∈ item.name, isPlainAlias name

instance (s : SelectStatement) : Decidable s.IsBare :=
  decidable_of_iff (AreQuoteFree s.pieces ∧ ∀ item ∈ s.projection, ∀ name ∈ item.name, isPlainAlias name)
    ⟨fun ⟨hpieces, hnames⟩ => ⟨hpieces, hnames⟩, fun h => ⟨h.pieces, h.names⟩⟩

/-- A statement agrees. -/
theorem agrees_statement (s : SelectStatement) (h : s.IsBare) : Agrees fun q => s.print q := by
  have hpieces := h.pieces
  simp only [SelectStatement.pieces, areQuoteFree_append, areQuoteFree_flatMap, Option.mem_toList]
    at hpieces
  obtain ⟨⟨⟨⟨⟨⟨hitems, hsource⟩, hjoins⟩, hfilter⟩, hgroups⟩, hhaving⟩, hkeys⟩ := hpieces
  have hname : QuoteFree s.source := hsource _ List.mem_cons_self s.source List.mem_cons_self
  have hselect : QuoteFree "SELECT " := by decide
  have hfrom : QuoteFree " FROM " := by decide
  have hwhere : QuoteFree "WHERE" := by decide
  have hhavingword : QuoteFree "HAVING" := by decide
  have hprojection := agrees_projection s.projection fun item hitem =>
    ⟨hitems item hitem, h.names item hitem⟩
  have hjoined := Agrees.join JoinClause.print s.joins fun join hjoin =>
    agrees_joinClause join (hjoins join hjoin)
  exact ((((((((hselect.agrees.append hprojection).append hfrom.agrees).append (agrees_name hname)).append
    hjoined).append (agrees_conditionClause "WHERE" hwhere s.filter hfilter)).append
    (agrees_groupBy s.groupBy hgroups)).append
    (agrees_conditionClause "HAVING" hhavingword s.having hhaving)).append
    (agrees_orderBy s.orderBy hkeys)).append (quoteFree_limit s.limit).agrees

/-- **The two quotings agree.** Without double quotes in names, values and fragments, and with plain aliases
only, the quoted form of a statement without its double quotes is the bare form; and so it is with every
clause, every predicate, every expression and every column on its own. -/
theorem agrees_print :
    (∀ s : SelectStatement, s.IsBare → withoutQuotes s.toSql = s.print .bare)
      ∧ (∀ items : List SelectItem, (∀ item ∈ items, item.IsBare) → Agrees fun q => printProjection q items)
      ∧ (∀ item : SelectItem, item.IsBare → Agrees fun q => item.print q)
      ∧ (∀ join : JoinClause, AreQuoteFree join.pieces → Agrees fun q => join.print q)
      ∧ (∀ keyword ∈ ["WHERE", "HAVING"], ∀ p? : Option Predicate, (∀ p ∈ p?, AreQuoteFree p.pieces) →
          Agrees fun q => printCondition q keyword p?)
      ∧ (∀ keys : List Expr, (∀ e ∈ keys, AreQuoteFree e.pieces) → Agrees fun q => printGroupBy q keys)
      ∧ (∀ keys : List OrderKey, (∀ key ∈ keys, AreQuoteFree key.expr.pieces) →
          Agrees fun q => printOrderBy q keys)
      ∧ (∀ key : OrderKey, AreQuoteFree key.expr.pieces → Agrees fun q => key.print q)
      ∧ (∀ limit : Option Nat, withoutQuotes (printLimit limit) = printLimit limit)
      ∧ (∀ p : Predicate, AreQuoteFree p.pieces → Agrees fun q => p.print q)
      ∧ (∀ e : Expr, AreQuoteFree e.pieces → Agrees fun q => e.print q)
      ∧ ∀ ref : ColumnRef, AreQuoteFree [.column ref] → Agrees fun q => ref.print q := by
  refine ⟨agrees_statement, agrees_projection, agrees_item, agrees_joinClause, ?_, agrees_groupBy,
    agrees_orderBy, agrees_orderKey, fun limit => withoutQuotes_of_quoteFree (quoteFree_limit limit), ?_,
    agrees_expr, agrees_column⟩
  · intro keyword hkeyword
    have hfree : ∀ keyword ∈ ["WHERE", "HAVING"], QuoteFree keyword := by decide
    exact agrees_conditionClause keyword (hfree keyword hkeyword)
  · exact fun p h => agrees_predicate p ((areQuoteFree_flatMap _ _).mp h)

/-- A statement with every clause, with single quotes, percent signs and a nested conjunction. -/
def SelectStatement.regional : SelectStatement where
  projection :=
    [.plain (.of "orders" "region"), ⟨.aggregate .count true (.of "orders" "id"), some "n_1"⟩,
      ⟨.fragment "SUM(a.b) FILTER (WHERE c = 'd')", some "_total"⟩]
  source := "orders"
  joins := [⟨"all customers", [(.of "orders" "c.id", .of "all customers" "id"), (⟨none, "x"⟩, ⟨none, ""⟩)]⟩]
  filter := some (.all
    [.all [.atom (.contains (.of "orders" "note") "it's 50%"), .all []],
      .atom (.between ⟨none, "day"⟩ "2024-01-01" "O'Brien's day")])
  groupBy := [.of "orders" "region", .truncated .month (.of "orders" "day"), .truncated .day ⟨none, "day"⟩]
  having := some (.atom (.compare (.aggregateAll .count false) .notEqual (.number "7")))
  orderBy := [⟨.of "orders" "region", .descending⟩]
  limit := some 10

/-- The printed forms of a statement with every clause. -/
theorem agrees_print_regional :
    SelectStatement.regional.IsBare
      ∧ withoutQuotes SelectStatement.regional.toSql = SelectStatement.regional.print .bare
      ∧ Agrees fun q => printCondition q "WHERE" SelectStatement.regional.filter := by
  have hplain : SelectStatement.regional.IsBare := by decide +kernel
  have hfilter : ∀ p ∈ SelectStatement.regional.filter, AreQuoteFree p.pieces := by decide +kernel
  obtain ⟨hstatement, -, -, -, hcondition, -⟩ := agrees_print
  exact ⟨hplain, hstatement _ hplain, hcondition "WHERE" (by decide) _ hfilter⟩

end TextToSql.Sql
