import TextToSql.Proofs.Pattern.Extension
import TextToSql.Proofs.Pattern.Spaced
import TextToSql.Proofs.Threshold.Operand

/-!
# Comparisons of the total amount

Where a rule for total amounts has a value, it is the whole filter of the question. What the rule that comes
first makes of a question it also makes of the question with any words behind it: up to its number the rule
takes no digit, so none of its matches starts before a number and ends behind it, and the number ends at the
space.

* `avoids_lit_digit`, `avoids_numeral_white` : what the rules for amounts take no digit and no white space by;
* `prefix_matchesIn_comparedTo` : the matches in a question with more words behind it;
* `Intent.filterOf_of_totalAmount` : the filter of a question with a comparison of the total amount.
-/

namespace TextToSql

open Unicode

namespace Pattern

/-! ## Digits and white space -/

/-- No character of ASCII but a digit is a digit up to case. -/
theorem sameFold_digit (c d : Char) (hc : c.toNat < 0x80) (hpos : 0 < c.toNat) (hdigit : c.isDigit = false)
    (hd : isDecimalDigit d) : sameFold c d = false := by
  have hlower : ∀ n < 0x80, 0 < (Char.ofNat n).toNat →
      (Char.ofNat n).toLower.toNat < 0x80 ∧ 0 < (Char.ofNat n).toLower.toNat := by decide
  have hself : ∀ n < 0x80, (Char.ofNat n).isDigit → foldChar (Char.ofNat n) = Char.ofNat n
      ∧ (Char.ofNat n).toNat < 0x41 ∧ 0 < (Char.ofNat n).toNat := by decide +kernel
  have hsmall := hlower c.toNat hc
  rw [Char.ofNat_toNat] at hsmall
  rw [Bool.eq_false_iff]
  intro hsame
  have hfold : foldChar d = c.toLower := by
    rw [← beq_iff_eq.mp hsame, foldChar, if_pos hc]
  rcases lt_or_eq_of_foldChar_lt d (by rw [hfold]; exact (hsmall hpos).1)
    (by rw [hfold]; exact (hsmall hpos).2) with hd' | rfl | rfl
  · have hascii : d.isDigit := by rwa [isDecimalDigit, if_pos hd'] at hd
    have hkeeps := hself d.toNat hd'
    rw [Char.ofNat_toNat] at hkeeps
    obtain ⟨hkeep, hlt, hdpos⟩ := hkeeps hascii
    obtain rfl := eq_of_foldChar_eq c d hlt hdpos ((beq_iff_eq.mp hsame).trans hkeep)
    rw [hascii] at hdigit
    cases hdigit
  · exact absurd hd (by decide +kernel)
  · exact absurd hd (by decide +kernel)

/-- Whether a text is in ASCII and has no digits. -/
def isDigitFree (text : String) : Bool :=
  text.toList.all fun c => c.toNat < 0x80 && 0 < c.toNat && !c.isDigit

/-- A text in ASCII without digits takes no digit. -/
theorem avoids_lit_digit (text : String) (h : isDigitFree text) :
    (lit text).Avoids fun d => isDecimalDigit d := by
  intro c hc d hd
  have hfree := List.all_eq_true.mp h c hc
  simp only [Bool.and_eq_true, decide_eq_true_eq, Bool.not_eq_true'] at hfree
  exact sameFold_digit c d hfree.1.1 hfree.1.2 hfree.2 hd

/-- White space is no digit. -/
theorem avoids_spaces_digit : spaces.Avoids fun d => isDecimalDigit d := fun d hd =>
  Text.isWhite_of_isWordChar d (Intent.isWordChar_of_isDecimalDigit d hd)

/-- A numeral takes no white space. -/
theorem avoids_numeral_white : numeral.Avoids fun d => isWhite d := by
  have hdigits : digits.Avoids fun d => isWhite d := by
    intro d hwhite
    exact Text.isWhite_elim (p := fun c => isDecimalDigit c = false) (by decide +kernel) d hwhite
  have hpoint : (lit ".").Avoids fun d => isWhite d := by
    intro c hc d hwhite
    obtain rfl := List.mem_singleton.mp hc
    rw [Bool.eq_false_iff]
    intro hsame
    obtain rfl := eq_of_foldChar_eq d '.' (by decide) (by decide) (beq_iff_eq.mp hsame).symm
    exact absurd hwhite (by decide)
  exact ⟨hdigits, ⟨hpoint, hdigits⟩, trivial⟩

/-! ## A captured numeral at the end -/

section Numeral

variable (q : Pattern)

/-- A pattern that ends with a captured numeral takes a digit. -/
theorem exists_digit_of_mem_runs (before : Option Char) (s : List Char) (r : Run)
    (hr : r ∈ (q ++ capture numeral).runs before s) : ∃ c ∈ r.taken, isDecimalDigit c := by
  obtain ⟨taken, number, -, hnumber, htaken⟩ :=
    takes_append q (capture numeral) r.taken ⟨before, s, r, hr, rfl⟩
  obtain ⟨before', s', r', hr', rfl⟩ := hnumber
  obtain ⟨r'', hr'', rfl⟩ := List.mem_map.mp hr'
  obtain ⟨whole, ⟨hne, hwhole⟩, hnumber⟩ :=
    isDecimal_of_takes_numeral r''.taken ⟨_, _, r'', hr'', rfl⟩
  refine ⟨whole.head hne, ?_, hwhole _ (List.head_mem hne)⟩
  have hmem : whole.head hne ∈ r''.taken := by
    rcases hnumber with heq | ⟨fraction, -, heq⟩
    · rw [heq]
      exact List.head_mem hne
    · rw [heq]
      exact List.mem_append_left _ (List.head_mem hne)
  rw [htaken]
  exact List.mem_append_right _ hmem

/-- The runs of a pattern that takes no digit but at its end, in a numeral that it captures, do not depend on
what stands behind a space, where the text before the space has a digit. -/
theorem runs_append_of_digit (hq : q.Avoids fun d => isDecimalDigit d) (before : Option Char)
    (s t : List Char) (hs : ∃ c ∈ s, isDecimalDigit c) :
    (q ++ capture numeral).runs before (s ++ ' ' :: t)
      = ((q ++ capture numeral).runs before s).map (Run.extend (' ' :: t)) := by
  show (seq q (capture numeral)).runs before (s ++ ' ' :: t) = ((seq q (capture numeral)).runs before s).map _
  rw [runs, runs, runs_append_of_avoids q hq before s _ (.inl hs), List.flatMap_map, List.map_flatMap]
  refine List.flatMap_congr fun r _ => ?_
  have hspace : Stops (fun d => isWhite d) r.rest (' ' :: t) :=
    .inr ⟨' ', rfl, by decide, by decide +kernel⟩
  show ((capture numeral).runs (lastOf before r.taken) (r.rest ++ ' ' :: t)).map _ = _
  rw [runs_append_of_avoids (capture numeral) avoids_numeral_white _ _ _ hspace, List.map_map, List.map_map]
  rfl

end Numeral

/-- **The matches of a comparison with an amount** are the first ones in a text with more words behind it, if
nothing before the number takes a digit. -/
theorem prefix_matchesIn_comparedTo (p comparison : Pattern) (hp : p.Avoids fun d => isDecimalDigit d)
    (hcomparison : comparison.Avoids fun d => isDecimalDigit d) (text t : String) :
    (p ++ Intent.comparedTo comparison).matchesIn text
      <+: (p ++ Intent.comparedTo comparison).matchesIn (text ++ " " ++ t) := by
  let q := p ++ (spaces ++ Intent.optionalWord (lit "is") ++ comparison ++ spaces)
  have hq : q.Avoids fun d => isDecimalDigit d := by
    simp only [q, avoids_append, Intent.optionalWord, avoids_optional]
    exact ⟨hp, ⟨⟨avoids_spaces_digit, avoids_lit_digit "is" rfl, avoids_spaces_digit⟩, hcomparison⟩,
      avoids_spaces_digit⟩
  have hruns : ∀ before s, (p ++ Intent.comparedTo comparison).runs before s
      = (q ++ capture numeral).runs before s :=
    fun before s => (runs_append_assoc p _ (capture numeral) before s).symm
  have htext : (text ++ " " ++ t).toList = text.toList ++ ' ' :: t.toList := by
    simp only [String.toList_append, List.append_assoc]
    rfl
  rw [matchesIn_eq, matchesIn_eq, htext]
  refine @prefix_matchesFrom (fun d => isDecimalDigit d) _ _ ?_ ?_ none 0 false text.toList
  · intro before s r hr
    rw [hruns] at hr
    exact exists_digit_of_mem_runs q before s r hr
  · intro before s hs
    rw [hruns, hruns]
    exact runs_append_of_digit q hq before s t.toList hs

end Pattern

namespace Intent

open Sql Pattern

/-! ## The filter -/

/-- Where a rule for total amounts has a value, the filter is a comparison of the total amount of orders with
a numeral: the value of the first rule that has one. -/
theorem filterOf_of_first? (s : Selection) (c : Condition)
    (h : totalAmountRules.first? s s.text = some c) :
    filterOf s = some (.atom c) ∧ ∃ op n, c = .compare (.of "orders" "total_amount") op (.number n)
      ∧ IsDecimal isDecimalDigit n.toList := by
  obtain ⟨rule, hrule, m, hm, haction⟩ := RuleSet.exists_match_of_first? _ _ _ c h
  obtain ⟨hlocates, hamount⟩ := locates_amount rule (List.mem_append_left _ hrule)
  rw [hamount] at haction
  obtain ⟨number, after, hnumber, -, hdecimal, -⟩ := hlocates.exists_part s.text m hm
  obtain ⟨op, number', hnumber', rfl⟩ := amountCondition_eq_some s m.captures c haction
  obtain rfl : number = number' := Option.some.inj (hnumber.symm.trans hnumber')
  refine ⟨?_, op, number, rfl, hdecimal⟩
  -- the rules have values for questions about orders only
  have horders : s.has "orders" := by
    unfold amountCondition at haction
    split at haction
    · split at haction
      · next horders => exact horders
      · cases haction
    · cases haction
  have htables : s.tables.isEmpty = false := by
    rw [List.isEmpty_eq_false_iff]
    exact List.ne_nil_of_mem (List.contains_iff_mem.mp horders)
  rw [filterOf, htables, h]
  rfl

/-- The phrases of comparison with a total amount have no digit. -/
theorem avoids_amountComparison : amountComparison.Avoids fun d => isDecimalDigit d := by
  simp only [amountComparison, avoids_capture, avoids_oneOf]
  intro text htext
  refine avoids_lit_digit text ?_
  revert text
  decide

/-- The matches of a rule for total amounts are the first ones in a text with more words behind it. -/
theorem prefix_matchesIn_totalAmountRules (rule : Rule Selection Condition)
    (hrule : rule ∈ totalAmountRules.rules) (text t : String) :
    rule.pattern.matchesIn text <+: rule.pattern.matchesIn (text ++ " " ++ t) := by
  have hlit : ∀ text ∈ ["total", "order", "s", "with", "amount"],
      (lit text).Avoids fun d => isDecimalDigit d := by
    intro text htext
    refine avoids_lit_digit text ?_
    revert text
    decide
  simp only [totalAmountRules, List.mem_cons, List.not_mem_nil, or_false] at hrule
  rcases hrule with rfl | rfl | rfl <;>
    exact prefix_matchesIn_comparedTo _ _
      (by simp [optionalWord, orderOrOrders, avoids_spaces_digit, hlit]) avoids_amountComparison text t

/-- **Comparisons of the total amount.** Where a rule for total amounts has a value, the filter of the
question is one comparison of the total amount of orders with a numeral, whatever else the question says. If
it is the rule that comes first, its value is the filter, and it stays so with any words behind the
question. -/
theorem filterOf_of_totalAmount (s : Selection) (rule : Rule Selection Condition)
    (hrule : rule ∈ totalAmountRules.rules) (c : Condition) (h : rule.first? s s.text = some c) :
    (∃ op n, filterOf s = some (.atom (.compare (.of "orders" "total_amount") op (.number n)))
        ∧ IsDecimal isDecimalDigit n.toList)
      ∧ (totalAmountRules.rules.head? = some rule →
          filterOf s = some (.atom c)
            ∧ ∀ t, filterOf { s with text := s.text ++ " " ++ t } = filterOf s) := by
  have hfilter : ∀ s' : Selection, totalAmountRules.rules.head? = some rule →
      rule.first? s' s'.text = some c → filterOf s' = some (.atom c) := by
    intro s' hhead hfirst
    exact (filterOf_of_first? s' c (totalAmountRules.first?_of_head rule hhead s' s'.text c hfirst)).1
  constructor
  · cases hfirst : totalAmountRules.first? s s.text with
    | none =>
        rw [List.findSome?_eq_none_iff.mp hfirst rule hrule] at h
        cases h
    | some c' =>
        obtain ⟨hsingle, op, n, rfl, hdecimal⟩ := filterOf_of_first? s c' hfirst
        exact ⟨op, n, hsingle, hdecimal⟩
  · intro hhead
    refine ⟨hfilter s hhead h, fun t => ?_⟩
    rw [hfilter s hhead h]
    have hlonger := Rule.first?_of_longer rule s s.text _ c
      (prefix_matchesIn_totalAmountRules rule hrule s.text t) h
    refine hfilter _ hhead ?_
    -- the action looks at the tables of the selection only
    obtain rfl := Option.some.inj hhead
    exact hlonger

/-- A question for orders by their total amount. -/
def totalOrders : Selection :=
  amountSelection "orders" ["status", "total_amount"] "orders with TOTAL order amount is at least 100.5"

/-- The filter of the question stays the same with another comparison and a status behind it. -/
theorem filterOf_of_totalAmount_totalOrders :
    filterOf totalOrders
        = some (.atom (.compare (.of "orders" "total_amount") .atLeast (.number "100.5")))
      ∧ filterOf { totalOrders with
            text := totalOrders.text ++ " " ++ "9 or total amount below 5 and status is pending" }
          = filterOf totalOrders := by
  have hfirst : totalAmountRules.rules[0].first? totalOrders totalOrders.text
      = some (.compare (.of "orders" "total_amount") .atLeast (.number "100.5")) := by decide +kernel
  obtain ⟨-, hhead⟩ := filterOf_of_totalAmount totalOrders totalAmountRules.rules[0]
    (List.getElem_mem _) _ hfirst
  obtain ⟨hfilter, hlonger⟩ := hhead rfl
  exact ⟨hfilter, hlonger _⟩

end Intent

end TextToSql
