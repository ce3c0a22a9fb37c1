import TextToSql.Proofs.Intent.Filter

/-!
# Terms that are columns

What a term finds that is itself a column of the table. Only an aliased column is looked up by its name;
any other term is compared with the columns in the order of their declaration, and an earlier one that
holds it, or that it holds, is found in its place. The conditions of a phrase are about the column found.

* `resolveColumn_of_mem` : the column that such a term finds;
* `filtersBy_of_exact` : what phrases with such a term filter by;
* `not_resolved_id` : an `id` behind an `order_id` is not found.
-/

namespace TextToSql

open Sql Pattern Lexicon

namespace Schema

variable {schema : Schema} {table c : String}

/-! ## The column found -/

/-- The columns of a table that are declared before one of them. -/
def columnsBefore (schema : Schema) (table c : String) : List String :=
  (schema.columns table).takeWhile (· ≠ c)

/-- A term overlaps with itself. -/
theorem overlaps_self (c : String) : overlaps c c := by
  have hholds : Text.holds c c := (Text.holds_iff c c).mpr (List.infix_refl _)
  rw [overlaps, hholds]
  rfl

/-- A term that is an alias of no other column names an aliased column only as that column. -/
theorem aliasedColumn?_of_unshared
    (halias : ∀ entry ∈ schema.columnAliases, c ∈ entry.2 → entry.1 = c) :
    schema.aliasedColumn? c = if c ∈ schema.columnAliases.map Prod.fst then some c else none := by
  cases hnamed : schema.aliasedColumn? c with
  | none =>
      have hnone := List.find?_eq_none.mp (Option.map_eq_none_iff.mp hnamed)
      rw [if_neg]
      intro hmem
      obtain ⟨entry, hentry, rfl⟩ := List.mem_map.mp hmem
      exact absurd (hnone entry hentry) (by simp)
  | some column =>
      obtain ⟨entry, hfind, rfl⟩ := Option.map_eq_some_iff.mp hnamed
      have hentry := List.mem_of_find?_eq_some hfind
      have hname := List.find?_some hfind
      rw [Bool.or_eq_true, decide_eq_true_eq, List.contains_iff_mem] at hname
      have hself : entry.1 = c := by
        rcases hname with hname | hname
        · exact hname.symm
        · exact halias entry hentry hname
      rw [hself, if_pos (List.mem_map.mpr ⟨entry, hentry, hself⟩)]

/-- Among some columns a term that is one of them finds the first one before it that it overlaps with, or
else itself. -/
theorem find?_overlaps_of_mem (columns : List String) (hc : c ∈ columns) :
    (columns.find? (overlaps c)).getD c = ((columns.takeWhile (· ≠ c)).find? (overlaps c)).getD c := by
  induction columns with
  | nil => cases hc
  | cons d columns ih =>
      by_cases hd : d = c
      · subst hd
        rw [List.find?_cons_of_pos (overlaps_self d), List.takeWhile_cons_of_neg (by simp)]
        rfl
      · rw [List.takeWhile_cons_of_pos (by simpa using hd)]
        by_cases hoverlaps : overlaps c d
        · rw [List.find?_cons_of_pos hoverlaps, List.find?_cons_of_pos hoverlaps]
        · rw [List.find?_cons_of_neg hoverlaps, List.find?_cons_of_neg hoverlaps]
          exact ih ((List.mem_cons.mp hc).resolve_left (Ne.symm hd))

/-- **The column that a term finds which is a column itself**: itself, if it is an aliased column or no
column before it overlaps with it, and else the first one before it that does. -/
theorem resolveColumn_of_mem (hc : c ∈ schema.columns table)
    (halias : ∀ entry ∈ schema.columnAliases, c ∈ entry.2 → entry.1 = c) :
    schema.resolveColumn c (some table)
      = if c = "" ∨ c ∈ schema.columnAliases.map Prod.fst then c
        else ((schema.columnsBefore table c).find? (overlaps c)).getD c := by
  rw [resolveColumn, aliasedColumn?_of_unshared halias]
  by_cases haliased : c ∈ schema.columnAliases.map Prod.fst
  · rw [if_pos haliased, if_pos (Or.inr haliased)]
  · rw [if_neg haliased]
    by_cases hempty : c = ""
    · simp [hempty]
    · rw [if_neg (not_or.mpr ⟨hempty, haliased⟩), columnsBefore, ← find?_overlaps_of_mem _ hc]
      exact if_neg (by simpa using hempty)

/-- A term that is a column finds itself exactly if it is an aliased column or overlaps with none of the
columns before it. -/
theorem resolveColumn_eq_self_iff (hc : c ∈ schema.columns table)
    (halias : ∀ entry ∈ schema.columnAliases, c ∈ entry.2 → entry.1 = c) :
    schema.resolveColumn c (some table) = c
      ↔ c = "" ∨ c ∈ schema.columnAliases.map Prod.fst
        ∨ ∀ d ∈ schema.columnsBefore table c, overlaps c d = false := by
  rw [resolveColumn_of_mem hc halias, ← or_assoc]
  split
  · next hself => exact iff_of_true rfl (Or.inl hself)
  · next hother =>
      rw [or_iff_right hother]
      cases hfind : (schema.columnsBefore table c).find? (overlaps c) with
      | none => simpa using List.find?_eq_none.mp hfind
      | some d =>
          have hd := List.mem_of_find?_eq_some hfind
          have hne : d ≠ c := by simpa using (List.mem_takeWhile_imp hd)
          refine iff_of_false hne fun hall => ?_
          exact absurd (List.find?_some hfind) (by simp [hall d hd])

/-- What a term finds that is a column of the table is a column of the table. -/
theorem hasColumn_resolveColumn (hc : c ∈ schema.columns table)
    (halias : ∀ entry ∈ schema.columnAliases, c ∈ entry.2 → entry.1 = c) :
    schema.hasColumn table (schema.resolveColumn c (some table)) := by
  rw [hasColumn, List.contains_iff_mem, resolveColumn_of_mem hc halias]
  split
  · exact hc
  · cases hfind : (schema.columnsBefore table c).find? (overlaps c) with
    | none => exact hc
    | some d => exact (List.takeWhile_sublist _).mem (List.mem_of_find?_eq_some hfind)

end Schema

/-! ## The conditions of phrases -/

/-- A condition on a column: it compares, delimits or searches it. -/
inductive Sql.Condition.IsAbout (ref : ColumnRef) : Condition → Prop
  | compare (op : Comparison) (value : Expr) : IsAbout ref (.compare (.column ref) op value)
  | between (first last : String) : IsAbout ref (.between ref first last)
  | contains (needle : String) : IsAbout ref (.contains ref needle)

namespace Intent

variable {s : Selection}

/-- A match of a rule filters a question by a column: it makes a condition on the column, and the condition
is one of the filter, unless a total amount stands for the whole filter. -/
def FiltersBy (s : Selection) (rule : Rule Selection Condition) (m : Match) (ref : ColumnRef) : Prop :=
  ∃ condition, rule.action s m.captures = some condition ∧ condition.IsAbout ref
    ∧ (totalAmountRules.first? s s.text = none → ∃ p, filterOf s = some p ∧ condition ∈ p.atoms)

/-- A term that is a column of the first table selects the column that it finds there. -/
theorem selectedColumn?_of_mem {table c : String} {tables : List String}
    (htables : s.tables = table :: tables) (hc : c ∈ s.schema.columns table)
    (halias : ∀ entry ∈ s.schema.columnAliases, c ∈ entry.2 → entry.1 = c)
    (hword : isComparisonWord c = false) :
    selectedColumn? s c = some (.of table (s.schema.resolveColumn c (some table))) := by
  have hhas := s.schema.hasColumn_resolveColumn hc halias
  rw [selectedColumn?, hword, htables, List.findSome?_cons]
  simp [hhas]

/-- The condition of a match is one of the filter, unless a total amount stands for it all. -/
theorem exists_mem_atoms (rule : Rule Selection Condition)
    (hrule : rule ∈ comparisonRules.rules ++ dateRules.rules ++ substringRules.rules) (m : Match)
    (hm : m ∈ rule.pattern.matchesIn s.text) (condition : Condition)
    (haction : rule.action s m.captures = some condition) (htables : s.tables ≠ [])
    (htotal : totalAmountRules.first? s s.text = none) :
    ∃ p, filterOf s = some p ∧ condition ∈ p.atoms := by
  have hvalue : condition ∈ rule.all s s.text := List.mem_filterMap.mpr ⟨m, hm, haction⟩
  have hmem : condition ∈ rowConditions s := by
    rw [rowConditions, mem_foldl_addNew]
    refine Or.inr ?_
    simp only [List.mem_append, RuleSet.all, List.mem_flatMap] at hrule ⊢
    rcases hrule with (hrule | hrule) | hrule
    · exact .inl (.inl (.inl (.inr ⟨rule, hrule, hvalue⟩)))
    · exact .inl (.inl (.inr ⟨rule, hrule, hvalue⟩))
    · exact .inl (.inr ⟨rule, hrule, hvalue⟩)
  obtain ⟨p, hp, hatoms⟩ := exists_conjunction (rowConditions s) (List.ne_nil_of_mem hmem)
  refine ⟨p, ?_, by rwa [hatoms]⟩
  rw [filterOf, List.isEmpty_eq_false_iff.mpr htables, htotal]
  exact hp

/-- A match of a rule for comparisons captures a term and a value, and makes a comparison of them. -/
theorem captures_of_comparisonRules (rule : Rule Selection Condition) (hrule : rule ∈ comparisonRules.rules)
    (m : Match) (hm : m ∈ rule.pattern.matchesIn s.text) :
    ∃ op term value, m.captures = [term, value] ∧ rule.action = comparisonCondition op := by
  obtain ⟨cs, hcs, hcaptures⟩ := yields_of_mem_matchesIn _ _ m hm
  rcases wordRule_or_numberRule rule hrule with ⟨name, text, op, rfl, -⟩ | ⟨name, text, op, rfl⟩
  · obtain ⟨term, -, value, -, rfl⟩ :
        ∃ term, word.Takes term ∧ ∃ value, word.Takes value ∧ [term, value] = cs := by
      simpa [wordRule] using hcs
    exact ⟨op, _, _, hcaptures, rfl⟩
  · obtain ⟨term, -, value, -, rfl⟩ :
        ∃ term, word.Takes term ∧ ∃ value, numeral.Takes value ∧ [term, value] = cs := by
      simpa [numberRule, optionalWord] using hcs
    exact ⟨op, _, _, hcaptures, rfl⟩

/-- A match of a rule for ranges of dates captures a term and two dates, and one of a rule for substrings a
term and a word; either makes a condition on the column of the term. -/
theorem exists_condition_of_captures (rule : Rule Selection Condition)
    (hrule : rule ∈ dateRules.rules ++ substringRules.rules) (m : Match)
    (hm : m ∈ rule.pattern.matchesIn s.text) (c : String) (hhead : m.captures.head? = some c)
    (ref : ColumnRef) (href : selectedColumn? s c = some ref) :
    ∃ condition, rule.action s m.captures = some condition ∧ condition.IsAbout ref := by
  obtain ⟨cs, hcs, hcaptures⟩ := yields_of_mem_matchesIn _ _ m hm
  rw [hcaptures] at hhead ⊢
  rcases List.mem_append.mp hrule with hrule | hrule
  · simp only [dateRules, List.mem_cons, List.not_mem_nil, or_false] at hrule
    rcases hrule with rfl | rfl
    all_goals
      obtain ⟨term, _, first, _, last, _, rfl⟩ :
          ∃ term, word.Takes term ∧ ∃ first, date.Takes first ∧ ∃ last, date.Takes last
            ∧ [term, first, last] = cs := by
        simpa [show ∀ cs, date.Yields cs ↔ cs = [] from fun _ => Iff.rfl] using hcs
      obtain rfl : String.ofList term = c := Option.some.inj hhead
      refine ⟨.between ref (String.ofList first) (String.ofList last), ?_, .between _ _⟩
      simp only [List.map_cons, List.map_nil, dateCondition, href, Option.map_some]
  · simp only [substringRules, List.mem_cons, List.not_mem_nil, or_false] at hrule
    rcases hrule with rfl | rfl | rfl
    all_goals
      obtain ⟨term, _, needle, _, rfl⟩ :
          ∃ term, word.Takes term ∧ ∃ needle, word.Takes needle ∧ [term, needle] = cs := by
        simpa using hcs
      obtain rfl : String.ofList term = c := Option.some.inj hhead
      refine ⟨.contains ref (String.ofList needle), ?_, .contains _⟩
      simp only [List.map_cons, List.map_nil, substringCondition, href, Option.map_some]

/-- **Terms that are columns.** A term that is a column of the first table, and an alias of no other column,
finds the first column before it that it overlaps with, unless it is an aliased column; it finds itself
exactly if there is none. A comparison, a range of dates or a search for it, is made with the column found,
but for a term or a value that is a word of comparison. -/
theorem filtersBy_of_exact (s : Selection) (table c : String) (tables : List String)
    (htables : s.tables = table :: tables) (hc : c ∈ s.schema.columns table)
    (halias : ∀ entry ∈ s.schema.columnAliases, c ∈ entry.2 → entry.1 = c) :
    let found := s.schema.resolveColumn c (some table)
    (found = if c = "" ∨ c ∈ s.schema.columnAliases.map Prod.fst then c
        else ((s.schema.columnsBefore table c).find? (Schema.overlaps c)).getD c)
      ∧ (found = c ↔ c = "" ∨ c ∈ s.schema.columnAliases.map Prod.fst
          ∨ ∀ d ∈ s.schema.columnsBefore table c, Schema.overlaps c d = false)
      ∧ (isComparisonWord c = false →
          (∀ rule ∈ comparisonRules.rules, ∀ m ∈ rule.pattern.matchesIn s.text,
              m.captures.head? = some c → ∃ value, m.captures = [c, value]
                ∧ (isComparisonWord value = false → FiltersBy s rule m (.of table found)))
            ∧ ∀ rule ∈ dateRules.rules ++ substringRules.rules, ∀ m ∈ rule.pattern.matchesIn s.text,
                m.captures.head? = some c → FiltersBy s rule m (.of table found)) := by
  intro found
  refine ⟨Schema.resolveColumn_of_mem hc halias, Schema.resolveColumn_eq_self_iff hc halias, ?_⟩
  intro hword
  have href : selectedColumn? s c = some (.of table found) := selectedColumn?_of_mem htables hc halias hword
  have hne : s.tables ≠ [] := by
    rw [htables]
    exact List.cons_ne_nil _ _
  constructor
  · intro rule hrule m hm hhead
    obtain ⟨op, term, value, hcaptures, haction⟩ := captures_of_comparisonRules rule hrule m hm
    obtain rfl : term = c := by
      rw [hcaptures] at hhead
      exact Option.some.inj hhead
    refine ⟨value, hcaptures, fun hvalue => ?_⟩
    obtain ⟨right, hcondition⟩ : ∃ right, rule.action s m.captures
        = some (.compare (.column (.of table found)) op right) := by
      rw [haction, hcaptures]
      simp [comparisonCondition, href, hvalue]
    exact ⟨_, hcondition, .compare op right, exists_mem_atoms rule
      (List.mem_append_left _ (List.mem_append_left _ hrule)) m hm _ hcondition hne⟩
  · intro rule hrule m hm hhead
    obtain ⟨condition, hcondition, habout⟩ := exists_condition_of_captures rule hrule m hm c hhead _ href
    refine ⟨condition, hcondition, habout, exists_mem_atoms rule ?_ m hm _ hcondition hne⟩
    rw [List.append_assoc]
    exact List.mem_append_right _ hrule

/-- A question about items, whose columns are in the given order. -/
def itemSelection (columns : List String) (text : String) : Selection :=
  ⟨⟨[⟨"items", columns⟩], [], [], [], [], []⟩, ["items"], text⟩

/-- A question with an exact column that no column before it overlaps with. -/
theorem filtersBy_of_exact_sku :
    let s := itemSelection ["order_id", "sku", "id"] "items where sku is 5"
    s.schema.resolveColumn "sku" (some "items") = "sku"
      ∧ ∃ m ∈ (wordRule "is" "is" .equal).pattern.matchesIn s.text,
          FiltersBy s (wordRule "is" "is" .equal) m (.of "items" "sku") := by
  intro s
  obtain ⟨-, hself, hfilters⟩ :=
    filtersBy_of_exact s "items" "sku" [] rfl (by decide +kernel) (by decide +kernel)
  have hfound : s.schema.resolveColumn "sku" (some "items") = "sku" :=
    hself.mpr (.inr (.inr (by decide +kernel)))
  rw [hfound] at hfilters
  refine ⟨hfound, ?_⟩
  have hmatches : ((wordRule "is" "is" .equal).pattern.matchesIn s.text).map Match.captures
      = [["sku", "5"]] := by
    decide +kernel
  obtain ⟨m, rest, hm, hcaptures, -⟩ := List.map_eq_cons_iff.mp hmatches
  have hmem : m ∈ (wordRule "is" "is" .equal).pattern.matchesIn s.text := by
    rw [hm]
    exact List.mem_cons_self
  obtain ⟨value, hvalue, hfilter⟩ := (hfilters (by decide)).1 (wordRule "is" "is" .equal)
    (by simp [comparisonRules]) m hmem (by rw [hcaptures]; rfl)
  obtain rfl : "5" = value := by
    rw [hcaptures] at hvalue
    simpa using hvalue
  exact ⟨m, hmem, hfilter (by decide)⟩

/-- An `id` behind an `order_id`: the term is a column of the only table and nobody's alias, but it finds
the other column, and the question is filtered by that. -/
theorem not_resolved_id :
    let s := itemSelection ["order_id", "id"] "items where id is 5"
    "id" ∈ s.schema.columns "items" ∧ s.schema.columnAliases = []
      ∧ s.schema.resolveColumn "id" (some "items") = "order_id"
      ∧ filterOf s = some (.atom (.compare (.column (.of "items" "order_id")) .equal (.number "5"))) := by
  intro s
  have hconditions : rowConditions s
      = [.compare (.column (.of "items" "order_id")) .equal (.number "5")] := by decide +kernel
  have htables : s.tables.isEmpty = false := rfl
  have htotal : totalAmountRules.first? s s.text = none := by decide +kernel
  refine ⟨by decide +kernel, rfl, by decide +kernel, ?_⟩
  rw [filterOf, htables, htotal, hconditions]
  rfl

end Intent

end TextToSql
