import TextToSql.Proofs.Intent.Filter
import TextToSql.Proofs.Intent.Grouping
import TextToSql.Proofs.Intent.Supply
import TextToSql.Proofs.Pattern.Operand

/-!
# The numbers of conditions

Every number that a condition compares with has been captured behind white space, but the rules do not all
capture it in the same way. Amounts and comparisons of size take a numeral, equality takes a word, and
conditions on groups take digits. So equality and conditions on groups stop before the point of a decimal
numeral, and only the comparisons of the `WHERE` clause ask for ASCII digits.

* `filterOperand_of_mem_atoms` : the numbers of a filter;
* `groupOperand_of_mem_atoms` : the numbers of conditions on groups;
* `numbers_stand` : both, for all questions;
* `not_whole_having` : a condition on groups that loses the decimal part of its number.
-/

namespace TextToSql.Intent

open Sql Pattern Lexicon Unicode

/-- The rules that compare rows with numbers. -/
def amountAndComparisonRules : List (Rule Selection Condition) :=
  totalAmountRules.rules ++ amountRules.rules ++ comparisonRules.rules

/-- A number is captured by one of some rules: a match of the rule in the text of the question gives the
condition, and the number is a captured part of it and stands at the place of the match. -/
def CapturedBy (rules : List (Rule Selection Condition)) (s : Selection) (c : Condition) (n : String)
    (after : List Char) : Prop :=
  ∃ rule ∈ rules, ∃ m ∈ rule.pattern.matchesIn s.text, rule.action s m.captures = some c
    ∧ n ∈ m.captures ∧ m.HoldsPart s.text n.toList after

/-- A number that a filter compares with, as it stands in the text of the question. -/
structure FilterOperand (s : Selection) (left : Expr) (op : Comparison) (n : String) (after : List Char) :
    Prop where
  captured : CapturedBy amountAndComparisonRules s (.compare left op (.number n)) n after
  stands : StandsIn s.text.toList n.toList after
  decimal : IsDecimal isDecimalDigit n.toList
  ascii : IsDecimal Char.isDigit n.toList ∨ left = .of "orders" "total_amount"
  ends : ∀ d ∈ after.head?, isDecimalDigit d = false
  whole : GoesOn after → '.' ∈ n.toList ∨ op = .equal ∨ op = .notEqual

/-- A number that a condition on groups compares with, as it stands in the text of the question. -/
structure GroupOperand (s : Selection) (left : Expr) (op : Comparison) (n : String) (after : List Char) :
    Prop where
  captured : CapturedBy havingRules.rules s (.compare left op (.number n)) n after
  stands : StandsIn s.text.toList n.toList after
  digits : IsDigits isDecimalDigit n.toList
  ends : ∀ d ∈ after.head?, isDecimalDigit d = false

/-- A part with others behind it among the captured parts is one of them. -/
theorem mem_captures_of_getElem? {captures : List String} {k : Nat} {part : String}
    (h : captures.reverse[k]? = some part) : part ∈ captures :=
  List.mem_reverse.mp (List.mem_of_getElem? h)

/-! ## Conditions on rows -/

/-- A comparison of a total amount is made with the last captured part. -/
theorem amountCondition_eq_some (s : Selection) (captures : List String) (c : Condition)
    (h : amountCondition s captures = some c) :
    ∃ op number, captures.reverse[0]? = some number
      ∧ c = .compare (.of "orders" "total_amount") op (.number number) := by
  unfold amountCondition at h
  split at h
  · next phrase number =>
      split at h
      · obtain ⟨op, -, rfl⟩ := Option.map_eq_some_iff.mp h
        exact ⟨op, number, rfl, rfl⟩
      · cases h
  · cases h

/-- A comparison of a column that is made with a number is made with the last captured part. A status takes
its stored value, which is no numeral. -/
theorem comparisonCondition_eq_some (op : Comparison) (s : Selection) (captures : List String)
    (c : Condition) (h : comparisonCondition op s captures = some c) :
    ∃ ref value, c = .compare (.column ref) op (literal value)
      ∧ (isNumeral value → captures.reverse[0]? = some value) := by
  have hstatus : ∀ word value, status? word = some value → isNumeral value = false := by
    intro word value h
    unfold status? at h
    split at h <;> cases h <;> decide
  unfold comparisonCondition at h
  split at h
  · next term value =>
      simp only [Option.bind_eq_bind, Option.bind_eq_some_iff] at h
      obtain ⟨ref, -, h⟩ := h
      split at h
      · cases h
      · cases h
        refine ⟨ref, _, rfl, fun hnumeral => ?_⟩
        by_cases hcolumn : ref.column = "status"
        · rw [if_pos hcolumn] at hnumeral ⊢
          cases hstored : status? value with
          | none => rfl
          | some stored =>
              rw [hstored, Option.getD_some, hstatus value stored hstored] at hnumeral
              cases hnumeral
        · rw [if_neg hcolumn]
          rfl
  · cases h

/-- The rules for total amounts and other words of amount capture a numeral behind white space. -/
theorem locates_amount (rule : Rule Selection Condition)
    (hrule : rule ∈ totalAmountRules.rules ++ amountRules.rules) :
    rule.pattern.Locates 0 WholeNumeral ∧ rule.action = amountCondition := by
  simp only [totalAmountRules, amountRules, List.cons_append, List.nil_append, List.mem_cons,
    List.not_mem_nil, or_false] at hrule
  rcases hrule with rfl | rfl | rfl | rfl <;> exact ⟨(locates_numeral _).prepend _, rfl⟩

/-- A rule for amounts compares with a whole numeral, in digits of any script. -/
theorem filterOperand_of_amount (s : Selection) (rule : Rule Selection Condition)
    (hrule : rule ∈ totalAmountRules.rules ++ amountRules.rules) (m : Match)
    (hm : m ∈ rule.pattern.matchesIn s.text) (c : Condition) (h : rule.action s m.captures = some c)
    (n : String) (hn : .number n ∈ c.pieces) :
    ∃ left op after, c = .compare left op (.number n) ∧ FilterOperand s left op n after := by
  obtain ⟨hlocates, haction⟩ := locates_amount rule hrule
  obtain ⟨number, after, hnumber, hholds, hdecimal, hends, hgoes⟩ := hlocates.exists_part s.text m hm
  obtain ⟨op, number', hnumber', rfl⟩ := amountCondition_eq_some s m.captures c (by rwa [← haction])
  obtain rfl : number = number' := Option.some.inj (hnumber.symm.trans hnumber')
  obtain rfl : n = number := by simpa [Condition.pieces, Expr.pieces, Expr.of] using hn
  have hcaptured : CapturedBy amountAndComparisonRules s _ n after :=
    ⟨rule, List.mem_append_left _ hrule, m, hm, h, mem_captures_of_getElem? hnumber, hholds⟩
  exact ⟨_, op, after, rfl, hcaptured, hholds.standsIn, hdecimal, Or.inr rfl, hends,
    fun hafter => Or.inl (hgoes hafter)⟩

/-- A rule for comparisons compares with an ASCII numeral, which is whole if it is not for equality. -/
theorem filterOperand_of_comparison (s : Selection) (rule : Rule Selection Condition)
    (hrule : rule ∈ comparisonRules.rules) (m : Match) (hm : m ∈ rule.pattern.matchesIn s.text)
    (c : Condition) (h : rule.action s m.captures = some c) (n : String) (hn : .number n ∈ c.pieces) :
    ∃ left op after, c = .compare left op (.number n) ∧ FilterOperand s left op n after := by
  -- the number is the last captured part
  have hlast : ∀ op, comparisonCondition op s m.captures = some c →
      ∃ ref, c = .compare (.column ref) op (.number n) ∧ IsDecimal Char.isDigit n.toList
        ∧ m.captures.reverse[0]? = some n := by
    intro op h
    obtain ⟨ref, value, rfl, hvalue⟩ := comparisonCondition_eq_some op s _ c h
    by_cases hnumeral : isNumeral value
    · have hliteral : literal value = .number value := if_pos hnumeral
      rw [hliteral] at hn ⊢
      obtain rfl : n = value := by simpa [Condition.pieces, Expr.pieces] using hn
      exact ⟨ref, rfl, (isNumeral_iff n).mp hnumeral, hvalue hnumeral⟩
    · have hliteral : literal value = .text value := if_neg hnumeral
      simp [hliteral, Condition.pieces, Expr.pieces] at hn
  have hcaptured : ∀ after, m.captures.reverse[0]? = some n → m.HoldsPart s.text n.toList after →
      CapturedBy amountAndComparisonRules s c n after := fun after hn hholds =>
    ⟨rule, List.mem_append_right _ hrule, m, hm, h, mem_captures_of_getElem? hn, hholds⟩
  rcases wordRule_or_numberRule rule hrule with ⟨name, text, op, rfl, hop⟩ | ⟨name, text, op, rfl⟩
  · obtain ⟨ref, rfl, hascii, hn⟩ := hlast op h
    obtain ⟨value, after, hvalue, hholds, -, hends⟩ :=
      (locatesAlways_run _ .word).locates.exists_part s.text m hm
    obtain rfl : value = n := Option.some.inj (hvalue.symm.trans hn)
    refine ⟨_, op, after, rfl, hcaptured after hn hholds, hholds.standsIn,
      hascii.mono isDecimalDigit_of_isDigit, Or.inl hascii, ?_, fun _ => Or.inr hop⟩
    -- no word character stands behind a captured word, so no digit does
    intro d hd
    have hword : isWordChar d = false := hends d hd
    exact Bool.eq_false_iff.mpr fun hdigit => by simp [isWordChar_of_isDecimalDigit d hdigit] at hword
  · obtain ⟨ref, rfl, hascii, hn⟩ := hlast op h
    obtain ⟨value, after, hvalue, hholds, hdecimal, hends, hgoes⟩ :=
      (locates_numeral _).exists_part s.text m hm
    obtain rfl : value = n := Option.some.inj (hvalue.symm.trans hn)
    exact ⟨_, op, after, rfl, hcaptured after hn hholds, hholds.standsIn, hdecimal, Or.inl hascii, hends,
      fun hafter => Or.inl (hgoes hafter)⟩

/-- A condition that compares with no number. -/
def Numberless (c : Condition) : Prop := ∀ n, .number n ∉ c.pieces

/-- A range of dates compares with texts. -/
theorem numberless_of_dateRules (s : Selection) : ∀ c ∈ dateRules.all s s.text, Numberless c := by
  refine RuleSet.forall_mem_all _ _ _ _ dateCondition (by simp [dateRules]) ?_
  intro captures c h n
  unfold dateCondition at h
  split at h
  · obtain ⟨ref, -, rfl⟩ := Option.map_eq_some_iff.mp h
    simp [Condition.pieces]
  · cases h

/-- A search for a substring compares with a text. -/
theorem numberless_of_substringRules (s : Selection) : ∀ c ∈ substringRules.all s s.text, Numberless c := by
  refine RuleSet.forall_mem_all _ _ _ _ substringCondition (by simp [substringRules]) ?_
  intro captures c h n
  unfold substringCondition at h
  split at h
  · obtain ⟨ref, -, rfl⟩ := Option.map_eq_some_iff.mp h
    simp [Condition.pieces]
  · cases h

/-- The status of an order is compared with a text. -/
theorem numberless_of_statusRules (s : Selection) : ∀ c ∈ statusRules.all s s.text, Numberless c := by
  refine RuleSet.forall_mem_all _ _ _ _ statusCondition (by simp [statusRules]) ?_
  intro captures c h n
  unfold statusCondition at h
  split at h
  · cases h
  · simp only [Option.bind_eq_bind, Option.bind_eq_some_iff] at h
    obtain ⟨word, -, status, -, hc⟩ := h
    cases hc
    simp [Condition.pieces, Expr.pieces, Expr.of]

/-- The condition of a time phrase is a fragment. -/
theorem numberless_of_time (s : Selection) : ∀ c ∈ timeConditions s, Numberless c := by
  intro c h n
  unfold timeConditions at h
  split at h
  · obtain ⟨phrase, -, rfl⟩ := Option.map_eq_some_iff.mp (Option.mem_toList.mp h)
    simp [Condition.pieces]
  · cases h

/-- The numbers of a filter. -/
theorem filterOperand_of_mem_atoms (s : Selection) (p : Predicate) (h : filterOf s = some p)
    (c : Condition) (hc : c ∈ p.atoms) (n : String) (hn : .number n ∈ c.pieces) :
    ∃ left op after, c = .compare left op (.number n) ∧ FilterOperand s left op n after := by
  have hamount : ∀ rule ∈ totalAmountRules.rules ++ amountRules.rules,
      ∀ m ∈ rule.pattern.matchesIn s.text, rule.action s m.captures = some c →
        ∃ left op after, c = .compare left op (.number n) ∧ FilterOperand s left op n after := by
    intro rule hrule m hm haction
    exact filterOperand_of_amount s rule hrule m hm c haction n hn
  unfold filterOf at h
  split at h
  · cases h
  · split at h
    · next condition hfirst =>
        cases h
        obtain rfl := List.mem_singleton.mp hc
        obtain ⟨rule, hrule, m, hm, haction⟩ := RuleSet.exists_match_of_first? _ _ _ c hfirst
        exact hamount rule (List.mem_append_left _ hrule) m hm haction
    · rw [Predicate.atoms_conjoin_map _ p h, rowConditions, mem_foldl_addNew] at hc
      simp only [List.mem_append] at hc
      rcases hc with hc | ((((hc | hc) | hc) | hc) | hc)
      · exact absurd hn (numberless_of_time s c hc n)
      · obtain ⟨rule, hrule, m, hm, haction⟩ := RuleSet.exists_match_of_mem_all _ _ _ c hc
        exact hamount rule (List.mem_append_right _ hrule) m hm haction
      · obtain ⟨rule, hrule, m, hm, haction⟩ := RuleSet.exists_match_of_mem_all _ _ _ c hc
        exact filterOperand_of_comparison s rule hrule m hm c haction n hn
      · exact absurd hn (numberless_of_dateRules s c hc n)
      · exact absurd hn (numberless_of_substringRules s c hc n)
      · exact absurd hn (numberless_of_statusRules s c hc n)

/-! ## Conditions on groups -/

/-- A rule for conditions on groups compares a column, or an aggregate of one, with the captured part that
has `k` others behind it. -/
def ComparesGroups (rule : Rule Selection Condition) (k : Nat) : Prop :=
  ∀ s captures c, rule.action s captures = some c →
    ∃ left op number, captures.reverse[k]? = some number ∧ c = .compare left op (.number number)
      ∧ ∀ n, .number n ∉ left.pieces

/-- A threshold for a term is the last captured part. -/
theorem comparesGroups_having (name : String) (p : Pattern) :
    ComparesGroups ⟨name, p, havingCondition⟩ 0 := by
  intro s captures c h
  simp only [havingCondition.eq_def] at h
  split at h
  · next term op number =>
      simp only [Option.bind_eq_bind, Option.bind_eq_some_iff] at h
      obtain ⟨op, -, ref, -, hc⟩ := h
      cases hc
      refine ⟨_, op, number, rfl, rfl, fun n => ?_⟩
      split <;> simp [Expr.pieces, Expr.aggregated]
  · cases h

/-- A threshold for the total or the average of a term is the last captured part. -/
theorem comparesGroups_aggregate (name : String) (p : Pattern) (function : Aggregate) :
    ComparesGroups ⟨name, p, aggregateCondition function⟩ 0 := by
  intro s captures c h
  simp only [aggregateCondition.eq_def] at h
  split at h
  · next term op number =>
      simp only [Option.bind_eq_bind, Option.bind_eq_some_iff] at h
      obtain ⟨ref, -, op, -, hc⟩ := h
      cases hc
      exact ⟨_, op, number, rfl, rfl, fun n => by simp [Expr.pieces, Expr.aggregated]⟩
  · cases h

/-- A threshold for the number of things that a noun stands for is captured before the noun. -/
theorem comparesGroups_count (name : String) (p : Pattern) :
    ComparesGroups ⟨name, p, countCondition⟩ 1 := by
  intro s captures c h
  simp only [countCondition.eq_def] at h
  split at h
  · next op number noun =>
      simp only [Option.bind_eq_bind, Option.bind_eq_some_iff] at h
      obtain ⟨op, -, column, hcolumn, hc⟩ := h
      obtain ⟨ref, -, rfl⟩ := countedColumn?_eq_some _ column hcolumn
      cases hc
      exact ⟨_, op, number, rfl, rfl, fun n => by simp [Expr.pieces, Expr.aggregated]⟩
  · cases h

/-- A threshold for the number of orders is the only captured part. -/
theorem comparesGroups_orders (name : String) (p : Pattern) :
    ComparesGroups ⟨name, p, ordersCondition⟩ 0 := by
  intro s captures c h
  simp only [ordersCondition.eq_def] at h
  split at h
  · next number =>
      cases h
      exact ⟨_, .greater, number, rfl, rfl, fun n => by simp [Expr.pieces, Expr.aggregated, Expr.of]⟩
  · cases h

/-- The rules for conditions on groups capture their number as digits behind white space. -/
theorem exists_locates_havingRules (rule : Rule Selection Condition) (h : rule ∈ havingRules.rules) :
    ∃ k, rule.pattern.Locates k (WholeRun .digit) ∧ ComparesGroups rule k := by
  simp only [havingRules, List.mem_cons, List.not_mem_nil, or_false] at h
  rcases h with rfl | rfl | rfl | rfl | rfl
  · exact ⟨0, (locatesAlways_run _ .digit).locates, comparesGroups_having _ _⟩
  · exact ⟨0, (locatesAlways_run _ .digit).locates, comparesGroups_aggregate _ _ .sum⟩
  · exact ⟨0, (locatesAlways_run _ .digit).locates, comparesGroups_aggregate _ _ .avg⟩
  · refine ⟨1, LocatesAlways.locates ?_, comparesGroups_count _ _⟩
    refine ((locatesAlways_run _ .digit).append spaces 0 ?_).append (capture word) 1 ?_ <;> simp
  · refine ⟨0, LocatesAlways.locates ?_, comparesGroups_orders _ _⟩
    refine ((((locatesAlways_run _ .digit).append spaces 0 ?_).append (lit "time") 0 ?_).append
      (optional (lit "s")) 0 ?_).append boundary 0 ?_ <;> simp

/-- The numbers of conditions on groups. -/
theorem groupOperand_of_mem_atoms (s : Selection) (groups : List Expr) (p : Predicate)
    (h : havingOf s groups = some p) (c : Condition) (hc : c ∈ p.atoms) (n : String)
    (hn : .number n ∈ c.pieces) :
    ∃ left op after, c = .compare left op (.number n) ∧ GroupOperand s left op n after := by
  unfold havingOf at h
  split at h
  · cases h
  · rw [Predicate.atoms_conjoin_map _ p h, mem_foldl_addNew] at hc
    obtain ⟨rule, hrule, m, hm, haction⟩ :=
      RuleSet.exists_match_of_mem_all _ _ _ c (hc.resolve_left (List.not_mem_nil))
    obtain ⟨k, hlocates, hcompares⟩ := exists_locates_havingRules rule hrule
    obtain ⟨number, after, hnumber, hholds, hdigits, hends⟩ := hlocates.exists_part s.text m hm
    obtain ⟨left, op, number', hnumber', rfl, hleft⟩ := hcompares s _ c haction
    obtain rfl : number = number' := Option.some.inj (hnumber.symm.trans hnumber')
    obtain rfl : n = number := by
      simpa [Condition.pieces, Expr.pieces, hleft n] using hn
    have hcaptured : CapturedBy havingRules.rules s _ n after :=
      ⟨rule, hrule, m, hm, haction, mem_captures_of_getElem? hnumber, hholds⟩
    exact ⟨left, op, after, rfl, hcaptured, hholds.standsIn, hdigits, hends⟩

/-! ## All numbers -/

/-- **The numbers of conditions.** Every number that the filter of a question compares with is a numeral that
stands in the text behind white space, at the place of the match that captured it, and no digit stands behind
it. It is in ASCII digits, but for a comparison of the total amount, and not cut at its first point, but for
equality. Every number that a condition on groups compares with is a run of digits that stands in the text in
the same way, even where a decimal part stands behind it. -/
theorem numbers_stand (s : Selection) (groups : List Expr) :
    (∀ p, filterOf s = some p → ∀ c ∈ p.atoms, ∀ n, Piece.number n ∈ c.pieces →
        ∃ left op after, c = .compare left op (.number n) ∧ FilterOperand s left op n after)
      ∧ ∀ p, havingOf s groups = some p → ∀ c ∈ p.atoms, ∀ n, Piece.number n ∈ c.pieces →
        ∃ left op after, c = .compare left op (.number n) ∧ GroupOperand s left op n after :=
  ⟨filterOperand_of_mem_atoms s, groupOperand_of_mem_atoms s groups⟩

/-- A question about a table with the given columns. -/
def amountSelection (table : String) (columns : List String) (text : String) : Selection :=
  ⟨⟨[⟨table, columns⟩], [], [], [], [], []⟩, [table], text⟩

/-- A question that is filtered and grouped by the same number. -/
def pricedGroups : Selection :=
  amountSelection "products" ["name", "price"] "products by name having price > 10.5"

/-- A question that compares the total amount of orders with an Arabic digit. -/
def arabicTotal : Selection := amountSelection "orders" ["total_amount"] "orders total > ٣"

/-- What the question is filtered and grouped by. -/
theorem conditions_pricedGroups :
    filterOf pricedGroups
        = some (.atom (.compare (.column (.of "products" "price")) .greater (.number "10.5")))
      ∧ havingOf pricedGroups [.of "products" "name"]
        = some (.atom (.compare (.column (.of "products" "price")) .greater (.number "10"))) := by
  have hrows : rowConditions pricedGroups
      = [.compare (.column (.of "products" "price")) .greater (.number "10.5")] := by decide +kernel
  have htotal : totalAmountRules.first? pricedGroups pricedGroups.text = none := by decide +kernel
  have hgroups : (havingRules.all pricedGroups pricedGroups.text).foldl addNew []
      = [.compare (.column (.of "products" "price")) .greater (.number "10")] := by decide +kernel
  constructor
  · rw [filterOf, show pricedGroups.tables.isEmpty = false from rfl, htotal, hrows]
    rfl
  · rw [havingOf, hgroups]
    rfl

/-- The numbers of the question stand in its text. -/
theorem numbers_stand_pricedGroups :
    (∃ left op after, FilterOperand pricedGroups left op "10.5" after)
      ∧ ∃ left op after, GroupOperand pricedGroups left op "10" after := by
  obtain ⟨hfilter, hgroups⟩ := numbers_stand pricedGroups [.of "products" "name"]
  obtain ⟨hrows, hhaving⟩ := conditions_pricedGroups
  obtain ⟨left, op, after, -, hrow⟩ :=
    hfilter _ hrows _ (List.mem_singleton_self _) "10.5" (by simp [Condition.pieces, Expr.pieces])
  obtain ⟨left', op', after', -, hgroup⟩ :=
    hgroups _ hhaving _ (List.mem_singleton_self _) "10" (by simp [Condition.pieces, Expr.pieces])
  exact ⟨⟨left, op, after, hrow⟩, left', op', after', hgroup⟩

/-- A number that is cut, and one that is in no ASCII digits: the condition on groups loses the decimal part
that the filter has, and the total amount of an order is compared in the digits of the text. -/
theorem not_whole_having :
    (havingOf pricedGroups [.of "products" "name"]
          = some (.atom (.compare (.column (.of "products" "price")) .greater (.number "10")))
        ∧ (∃ after, StandsIn pricedGroups.text.toList "10".toList after ∧ GoesOn after)
        ∧ filterOf pricedGroups
          = some (.atom (.compare (.column (.of "products" "price")) .greater (.number "10.5"))))
      ∧ filterOf arabicTotal = some (.atom (.compare (.of "orders" "total_amount") .greater (.number "٣")))
      ∧ ¬ IsDecimal Char.isDigit "٣".toList := by
  have hnumeral : isNumeral "٣" = false := by decide +kernel
  have hfirst : totalAmountRules.first? arabicTotal arabicTotal.text
      = some (.compare (.of "orders" "total_amount") .greater (.number "٣")) := by decide +kernel
  refine ⟨⟨conditions_pricedGroups.2, ⟨".5".toList, ?_, '5', [], rfl, by decide⟩,
    conditions_pricedGroups.1⟩, ?_, ?_⟩
  · exact ⟨"products by name having price > ".toList, by decide +kernel, ' ', by decide +kernel, by decide⟩
  · rw [filterOf, show arabicTotal.tables.isEmpty = false from rfl, hfirst]
    rfl
  · rw [← isNumeral_iff, hnumeral]
    exact Bool.false_ne_true

end TextToSql.Intent
