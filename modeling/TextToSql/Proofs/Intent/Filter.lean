import TextToSql.Proofs.Intent.Selection
import TextToSql.Proofs.Pattern.Captures
import TextToSql.Proofs.Schema.Columns
import TextToSql.Proofs.Sql.Pieces

/-!
# What a filter can say

The rules for conditions on rows, some thirty of them, make conditions of six forms. Each form says where
its column comes from and which characters its value consists of.

* `RowCondition` : the six forms;
* `rowCondition_of_mem_atoms` : every condition of a filter has one of them.
-/

namespace TextToSql.Intent

open Sql Pattern Lexicon Unicode

/-- The conditions on the rows of the tables of a question. -/
inductive RowCondition (s : Selection) : Condition → Prop
  | amount (op : Comparison) (number : String) (horders : s.has "orders")
      (hnumber : IsDecimal isDecimalDigit number.toList) :
      RowCondition s (.compare (.of "orders" "total_amount") op (.number number))
  | comparison (ref : ColumnRef) (op : Comparison) (value : String) (href : s.Offers ref)
      (hvalue : IsRun .dotted value.toList) :
      RowCondition s (.compare (.column ref) op (literal value))
  | dates (ref : ColumnRef) (first last : String) (href : s.Offers ref)
      (hfirst : IsRun .dotted first.toList) (hlast : IsRun .dotted last.toList) :
      RowCondition s (.between ref first last)
  | substring (ref : ColumnRef) (needle : String) (href : s.Offers ref)
      (hneedle : IsRun .word needle.toList) : RowCondition s (.contains ref needle)
  | status (value : String) (horders : s.has "orders") (hvalue : IsRun .word value.toList) :
      RowCondition s (.compare (.of "orders" "status") .equal (.text value))
  | time (phrase : NamedSql) (horders : s.has "orders") (hphrase : phrase ∈ s.schema.timePhrases) :
      RowCondition s (.fragment phrase.sql)

/-! ## Characters of values -/

/-- Word characters may stand in a date. -/
theorem isRun_dotted_of_word {t : List Char} (h : IsRun .word t) : IsRun .dotted t := by
  refine ⟨h.1, ?_⟩
  intro c hc
  have hword : isWordChar c := h.2 c hc
  simp [CharClass.contains, hword]

/-- Decimal digits are word characters. -/
theorem isWordChar_of_isDecimalDigit (c : Char) (h : isDecimalDigit c) : isWordChar c := by
  unfold isWordChar
  split
  · next hascii =>
      have hdigit : c.isDigit := by rwa [isDecimalDigit, if_pos hascii] at h
      simp [Char.isAlphanum, hdigit]
  · simp [h]

/-- A numeral may stand for a date: it has digits and at most one point. -/
theorem isRun_dotted_of_isDecimal {t : List Char} (h : IsDecimal isDecimalDigit t) :
    IsRun .dotted t := by
  have hdigit : ∀ c, isDecimalDigit c → CharClass.dotted.contains c := by
    intro c hc
    simp [CharClass.contains, isWordChar_of_isDecimalDigit c hc]
  obtain ⟨whole, hwhole, rfl | ⟨fraction, hfraction, rfl⟩⟩ := h
  · exact ⟨hwhole.1, fun c hc => hdigit c (hwhole.2 c hc)⟩
  · refine ⟨by simp, ?_⟩
    intro c hc
    rcases List.mem_append.mp hc with hc | hc
    · exact hdigit c (hwhole.2 c hc)
    · rcases List.mem_cons.mp hc with rfl | hc
      · decide
      · exact hdigit c (hfraction.2 c hc)

/-- The stored value of a status is a word. -/
theorem isRun_of_status? (word value : String) (h : status? word = some value) :
    IsRun .word value.toList := by
  have hall : value.toList.isEmpty = false ∧ value.toList.all CharClass.word.contains := by
    unfold status? at h
    split at h <;> cases h <;> decide
  exact ⟨List.isEmpty_eq_false_iff.mp hall.1, List.all_eq_true.mp hall.2⟩

/-! ## What the rules make -/

/-- A rule for an amount: its pattern captures a phrase and a numeral. -/
theorem rowCondition_of_amount (name : String) (p : Pattern) (texts : List String) (s : Selection)
    (c : Condition) (hp : ∀ cs, p.Yields cs ↔ cs = [])
    (h : Rule.Gives ⟨name, p ++ comparedTo (capture (oneOf texts)), amountCondition⟩ s c) :
    RowCondition s c := by
  obtain ⟨cs, hcs, haction⟩ := h
  obtain ⟨phrase, number, ⟨_, hnumber⟩, rfl⟩ :
      ∃ phrase number, ((oneOf texts).Takes phrase ∧ numeral.Takes number) ∧ [phrase, number] = cs := by
    simpa [hp, comparedTo, optionalWord] using hcs
  simp only [List.map_cons, List.map_nil, amountCondition] at haction
  split at haction
  · next horders =>
      obtain ⟨op, _, rfl⟩ := Option.map_eq_some_iff.mp haction
      refine .amount op _ horders ?_
      rw [String.toList_ofList]
      exact isDecimal_of_takes_numeral number hnumber
  · cases haction

/-- A value that a comparison is made with is the captured one or a status. -/
theorem rowCondition_of_comparison (s : Selection) (op : Comparison) (term value : List Char)
    (c : Condition) (hvalue : IsRun .dotted value)
    (h : comparisonCondition op s [String.ofList term, String.ofList value] = some c) :
    RowCondition s c := by
  simp only [comparisonCondition, Option.bind_eq_bind, Option.bind_eq_some_iff] at h
  obtain ⟨ref, href, h⟩ := h
  split at h
  · cases h
  · cases h
    refine .comparison ref op _ (selectedColumn?_offers s _ ref href) ?_
    have hcaptured : IsRun .dotted (String.ofList value).toList := by rwa [String.toList_ofList]
    -- the value of a status column is replaced by the stored one
    split
    · cases hstatus : status? (String.ofList value) with
      | none => exact hcaptured
      | some status => exact isRun_dotted_of_word (isRun_of_status? _ status hstatus)
    · exact hcaptured

/-- A comparison with a word makes a condition on rows. -/
theorem rowCondition_of_wordRule (name text : String) (op : Comparison) (s : Selection)
    (c : Condition) (h : (wordRule name text op).Gives s c) : RowCondition s c := by
  obtain ⟨cs, hcs, haction⟩ := h
  obtain ⟨term, _, value, hvalue, rfl⟩ :
      ∃ term, word.Takes term ∧ ∃ value, word.Takes value ∧ [term, value] = cs := by
    simpa [wordRule] using hcs
  exact rowCondition_of_comparison s op term value c
    (isRun_dotted_of_word (isRun_of_takes_run .word value hvalue)) haction

/-- A comparison with a number makes a condition on rows. -/
theorem rowCondition_of_numberRule (name text : String) (op : Comparison) (s : Selection)
    (c : Condition) (h : (numberRule name text op).Gives s c) : RowCondition s c := by
  obtain ⟨cs, hcs, haction⟩ := h
  obtain ⟨term, _, value, hvalue, rfl⟩ :
      ∃ term, word.Takes term ∧ ∃ value, numeral.Takes value ∧ [term, value] = cs := by
    simpa [numberRule, optionalWord] using hcs
  exact rowCondition_of_comparison s op term value c
    (isRun_dotted_of_isDecimal (isDecimal_of_takes_numeral value hvalue)) haction

/-- A rule for comparisons compares with a word, for being equal or not, or it compares with a number. -/
theorem wordRule_or_numberRule (rule : Rule Selection Condition) (h : rule ∈ comparisonRules.rules) :
    (∃ name text op, rule = wordRule name text op ∧ (op = .equal ∨ op = .notEqual))
      ∨ ∃ name text op, rule = numberRule name text op := by
  simp only [comparisonRules, List.mem_cons, List.not_mem_nil, or_false] at h
  rcases h with rfl | rfl | rfl | rfl | rfl | rfl | rfl | rfl | rfl | rfl | rfl | rfl | rfl | rfl
    | rfl | rfl | rfl | rfl <;>
    first
    | exact Or.inl ⟨_, _, _, rfl, by decide⟩
    | exact Or.inr ⟨_, _, _, rfl⟩

/-- The rules for comparisons make conditions on rows. -/
theorem rowCondition_of_comparisonRules (s : Selection) (c : Condition)
    (rule : Rule Selection Condition) (hrule : rule ∈ comparisonRules.rules) (h : rule.Gives s c) :
    RowCondition s c := by
  rcases wordRule_or_numberRule rule hrule with ⟨name, text, op, rfl, -⟩ | ⟨name, text, op, rfl⟩
  · exact rowCondition_of_wordRule name text op s c h
  · exact rowCondition_of_numberRule name text op s c h

/-- The rules for total amounts make conditions on rows. -/
theorem rowCondition_of_totalAmountRules (s : Selection) (c : Condition)
    (rule : Rule Selection Condition) (hrule : rule ∈ totalAmountRules.rules) (h : rule.Gives s c) :
    RowCondition s c := by
  simp only [totalAmountRules, List.mem_cons, List.not_mem_nil, or_false] at hrule
  rcases hrule with rfl | rfl | rfl <;>
    exact rowCondition_of_amount _ _ _ s c (by simp [optionalWord, orderOrOrders]) h

/-- The rule for other words of amount makes conditions on rows. -/
theorem rowCondition_of_amountRules (s : Selection) (c : Condition)
    (rule : Rule Selection Condition) (hrule : rule ∈ amountRules.rules) (h : rule.Gives s c) :
    RowCondition s c := by
  obtain rfl := List.mem_singleton.mp hrule
  exact rowCondition_of_amount _ _ _ s c (by simp) h

/-- The rules for ranges of dates make conditions on rows. -/
theorem rowCondition_of_dateRules (s : Selection) (c : Condition)
    (rule : Rule Selection Condition) (hrule : rule ∈ dateRules.rules) (h : rule.Gives s c) :
    RowCondition s c := by
  obtain ⟨cs, hcs, haction⟩ := h
  -- the two rules capture the same parts and do the same with them
  obtain ⟨term, first, last, hfirst, hlast, rfl, rule_action⟩ :
      ∃ term first last, date.Takes first ∧ date.Takes last ∧ [term, first, last] = cs
        ∧ rule.action = dateCondition := by
    simp only [dateRules, List.mem_cons, List.not_mem_nil, or_false] at hrule
    rcases hrule with rfl | rfl
    all_goals
      obtain ⟨term, _, first, hfirst, last, hlast, rfl⟩ :
          ∃ term, word.Takes term ∧ ∃ first, date.Takes first ∧ ∃ last, date.Takes last
            ∧ [term, first, last] = cs := by
        simpa [show ∀ cs, date.Yields cs ↔ cs = [] from fun _ => Iff.rfl] using hcs
      exact ⟨term, first, last, hfirst, hlast, rfl, rfl⟩
  rw [rule_action] at haction
  obtain ⟨ref, href, rfl⟩ := Option.map_eq_some_iff.mp haction
  refine .dates ref _ _ (selectedColumn?_offers s _ ref href) ?_ ?_
  · rw [String.toList_ofList]
    exact isRun_of_takes_run .dotted first hfirst
  · rw [String.toList_ofList]
    exact isRun_of_takes_run .dotted last hlast

/-- The rules for substrings capture a term and a word, and do the same with them. -/
theorem captures_of_substringRules (rule : Rule Selection Condition) (hrule : rule ∈ substringRules.rules)
    (cs : List (List Char)) (hcs : rule.pattern.Yields cs) :
    ∃ term needle, word.Takes needle ∧ [term, needle] = cs ∧ rule.action = substringCondition := by
  simp only [substringRules, List.mem_cons, List.not_mem_nil, or_false] at hrule
  rcases hrule with rfl | rfl | rfl
  all_goals
    obtain ⟨term, _, needle, hneedle, rfl⟩ :
        ∃ term, word.Takes term ∧ ∃ needle, word.Takes needle ∧ [term, needle] = cs := by
      simpa using hcs
    exact ⟨term, needle, hneedle, rfl, rfl⟩

/-- The rules for substrings make conditions on rows. -/
theorem rowCondition_of_substringRules (s : Selection) (c : Condition)
    (rule : Rule Selection Condition) (hrule : rule ∈ substringRules.rules) (h : rule.Gives s c) :
    RowCondition s c := by
  obtain ⟨cs, hcs, haction⟩ := h
  obtain ⟨term, needle, hneedle, rfl, rule_action⟩ := captures_of_substringRules rule hrule cs hcs
  rw [rule_action] at haction
  obtain ⟨ref, href, rfl⟩ := Option.map_eq_some_iff.mp haction
  refine .substring ref _ (selectedColumn?_offers s _ ref href) ?_
  rw [String.toList_ofList]
  exact isRun_of_takes_run .word needle hneedle

/-- The rules for the status of orders make conditions on rows. -/
theorem rowCondition_of_statusRules (s : Selection) (c : Condition)
    (rule : Rule Selection Condition) (hrule : rule ∈ statusRules.rules) (h : rule.Gives s c) :
    RowCondition s c := by
  obtain ⟨cs, _, haction⟩ := h
  have hrule_action : rule.action = statusCondition := by
    simp only [statusRules, List.mem_cons, List.not_mem_nil, or_false] at hrule
    rcases hrule with rfl | rfl | rfl <;> rfl
  rw [hrule_action, statusCondition] at haction
  split at haction
  · cases haction
  · next horders =>
      simp only [Option.bind_eq_bind, Option.bind_eq_some_iff] at haction
      obtain ⟨word, _, status, hstatus, hc⟩ := haction
      cases hc
      exact .status status (by simpa using horders) (isRun_of_status? word status hstatus)

/-! ## The clause -/

/-- Some conditions have a conjunction, and it consists of them. -/
theorem exists_conjunction (conditions : List Condition) (h : conditions ≠ []) :
    ∃ p, conjunction conditions = some p ∧ p.atoms = conditions := by
  obtain ⟨p, hp⟩ : ∃ p, conjunction conditions = some p := by
    refine Option.ne_none_iff_exists'.mp fun hnone => h ?_
    exact List.map_eq_nil_iff.mp ((Predicate.conjoin_eq_none_iff _).mp hnone)
  exact ⟨p, hp, Predicate.atoms_conjoin_map _ p hp⟩

/-- The condition of a time phrase is a condition on rows. -/
theorem rowCondition_of_time (s : Selection) (c : Condition) (h : c ∈ timeConditions s) :
    RowCondition s c := by
  unfold timeConditions at h
  split at h
  · next horders =>
      obtain ⟨phrase, hphrase, rfl⟩ := Option.map_eq_some_iff.mp (Option.mem_toList.mp h)
      exact .time phrase horders (List.mem_of_find?_eq_some hphrase)
  · cases h

/-- The gathered conditions are conditions on rows. -/
theorem rowCondition_of_mem_rowConditions (s : Selection) (c : Condition) (h : c ∈ rowConditions s) :
    RowCondition s c := by
  rw [rowConditions, mem_foldl_addNew] at h
  simp only [List.mem_append] at h
  rcases h with h | ((((h | h) | h) | h) | h)
  · exact rowCondition_of_time s c h
  · obtain ⟨rule, hrule, hgives⟩ := RuleSet.mem_all _ _ _ c h
    exact rowCondition_of_amountRules s c rule hrule hgives
  · obtain ⟨rule, hrule, hgives⟩ := RuleSet.mem_all _ _ _ c h
    exact rowCondition_of_comparisonRules s c rule hrule hgives
  · obtain ⟨rule, hrule, hgives⟩ := RuleSet.mem_all _ _ _ c h
    exact rowCondition_of_dateRules s c rule hrule hgives
  · obtain ⟨rule, hrule, hgives⟩ := RuleSet.mem_all _ _ _ c h
    exact rowCondition_of_substringRules s c rule hrule hgives
  · obtain ⟨rule, hrule, hgives⟩ := RuleSet.mem_all _ _ _ c h
    exact rowCondition_of_statusRules s c rule hrule hgives

/-- **Every condition of a filter is a condition on rows.** -/
theorem rowCondition_of_mem_atoms (s : Selection) (p : Predicate) (h : filterOf s = some p)
    (c : Condition) (hc : c ∈ p.atoms) : RowCondition s c := by
  unfold filterOf at h
  split at h
  · cases h
  · split at h
    · next condition hfirst =>
        cases h
        obtain rfl := List.mem_singleton.mp hc
        obtain ⟨rule, hrule, hgives⟩ := RuleSet.first?_eq_some _ _ _ c hfirst
        exact rowCondition_of_totalAmountRules s c rule hrule hgives
    · rw [Predicate.atoms_conjoin_map _ p h] at hc
      exact rowCondition_of_mem_rowConditions s c hc

end TextToSql.Intent
