import TextToSql.Proofs.Discipline
import TextToSql.Proofs.Threshold.Words

/-!
# Questions made of thresholds

A question that gives thresholds for columns, one after the other, is filtered by exactly these thresholds.
The rules for thresholds make a condition of each of them, and the rules of all other kinds decline what they
find, as an `and` names no column.

* `mem_all_comparisonRules_iff` : the comparisons that are found are what the thresholds say;
* `filterOf_thresholds` : the filter of a question that is made of thresholds;
* `not_filtered_is` : a threshold is lost whose term can be taken for the `is` of a comparison.
-/

namespace TextToSql.Intent

open Sql Pattern Lexicon Unicode Text

open Threshold

/-! ## The values of the rules -/

/-- A rule for comparisons has a foreign phrase, or it is one for thresholds. -/
theorem comparisonRules_cases (rule : Rule Selection Condition) (h : rule ∈ comparisonRules.rules) :
    (∃ name phrase op, rule = wordRule name phrase op ∧ ForeignPhrase phrase)
      ∨ ∃ name phrase op, rule = numberRule name phrase op ∧ (phrase, op) ∈ thresholdPhrases := by
  simp only [comparisonRules, List.mem_cons, List.not_mem_nil, or_false] at h
  rcases h with rfl | rfl | rfl | rfl | rfl | rfl | rfl | rfl | rfl | rfl | rfl | rfl | rfl | rfl
    | rfl | rfl | rfl | rfl <;>
    first
    | exact Or.inl ⟨_, _, _, rfl, by decide +kernel⟩
    | exact Or.inr ⟨_, _, _, rfl, by decide⟩

/-- Each phrase of thresholds has a rule. -/
theorem exists_numberRule (phrase : String) (op : Comparison) (h : (phrase, op) ∈ thresholdPhrases) :
    ∃ name, numberRule name phrase op ∈ comparisonRules.rules := by
  simp only [thresholdPhrases, List.mem_cons, Prod.mk.injEq, List.not_mem_nil, or_false] at h
  rcases h with ⟨rfl, rfl⟩ | ⟨rfl, rfl⟩ | ⟨rfl, rfl⟩ | ⟨rfl, rfl⟩ | ⟨rfl, rfl⟩ | ⟨rfl, rfl⟩ | ⟨rfl, rfl⟩
    | ⟨rfl, rfl⟩ | ⟨rfl, rfl⟩ | ⟨rfl, rfl⟩ | ⟨rfl, rfl⟩
  exacts [⟨"greater_than", by simp [comparisonRules]⟩, ⟨"more_than", by simp [comparisonRules]⟩,
    ⟨"above", by simp [comparisonRules]⟩, ⟨"gt_symbol", by simp [comparisonRules]⟩,
    ⟨"less_than", by simp [comparisonRules]⟩, ⟨"below", by simp [comparisonRules]⟩,
    ⟨"lt_symbol", by simp [comparisonRules]⟩, ⟨"at_least", by simp [comparisonRules]⟩,
    ⟨"gte_symbol", by simp [comparisonRules]⟩, ⟨"at_most", by simp [comparisonRules]⟩,
    ⟨"lte_symbol", by simp [comparisonRules]⟩]

section Values

variable {s : Selection} {t : Threshold} {ts : List Threshold}

/-- An `and` names no column. -/
theorem selectedColumn?_and : selectedColumn? s "and" = none := if_pos (by decide)

/-- There is no comparison with the column of an `and`. -/
theorem comparisonCondition_and (op : Comparison) (rest : List String) :
    comparisonCondition op s ("and" :: rest) = none := by
  unfold comparisonCondition
  split
  · next term value heq =>
      obtain ⟨rfl, -⟩ := List.cons.inj heq
      rw [selectedColumn?_and]
      rfl
  · rfl

/-- There is no range of dates of the column of an `and`. -/
theorem dateCondition_and (rest : List String) : dateCondition s ("and" :: rest) = none := by
  unfold dateCondition
  split
  · next term first last heq =>
      obtain ⟨rfl, -⟩ := List.cons.inj heq
      rw [selectedColumn?_and]
      rfl
  · rfl

/-- There is no search in the column of an `and`. -/
theorem substringCondition_and (rest : List String) : substringCondition s ("and" :: rest) = none := by
  unfold substringCondition
  split
  · next term needle heq =>
      obtain ⟨rfl, -⟩ := List.cons.inj heq
      rw [selectedColumn?_and]
      rfl
  · rfl

variable (h : ∀ t' ∈ t :: ts, t'.WellFormed) (htext : s.text.toList = spaced (wordsOf t ts))

include h htext

/-- A rule with a foreign phrase has no values in a text of thresholds, if it declines an `and` as term. -/
theorem all_eq_nil_of_foreign (rule : Rule Selection Condition) (phrase : String) (q : Pattern)
    (hpattern : ∀ before s, rule.pattern.runs before s
      = (Pattern.term .word (lit phrase ++ (spaces ++ q))).runs before s)
    (hforeign : ForeignPhrase phrase) (hq : StopsBetweenWords q)
    (haction : ∀ rest, rule.action s ("and" :: rest) = none) : rule.all s s.text = [] := by
  rw [Rule.all_eq_filterMap, htext, captured_congr hpattern, List.filterMap_eq_nil_iff]
  intro cs hcs
  obtain ⟨rest, rfl⟩ := exists_and_of_captured phrase q hforeign hq t ts h cs hcs
  exact haction rest

/-- A comparison with a word has no values in a text of thresholds. -/
theorem all_wordRule_eq_nil (name phrase : String) (op : Comparison) (hforeign : ForeignPhrase phrase) :
    (wordRule name phrase op).all s s.text = [] := by
  refine all_eq_nil_of_foreign h htext _ phrase (capture word) (fun before s => ?_) hforeign
    stopsBetweenWords_word (comparisonCondition_and op)
  simp only [wordRule, runs_append_assoc]
  rfl

/-- The rules for ranges of dates have no values in a text of thresholds. -/
theorem all_dateRules_eq_nil : dateRules.all s s.text = [] := by
  have hcls : CharClass.dotted.contains ' ' = false := by decide +kernel
  have hbetween := all_eq_nil_of_foreign h htext
    ⟨"between", capture word ++ spaces ++ lit "between" ++ spaces ++ capture date ++ spaces
      ++ lit "and" ++ spaces ++ capture date, dateCondition⟩
    "between" (Pattern.term .dotted (lit "and" ++ (spaces ++ capture date)))
    (fun before s => by simp only [runs_append_assoc]; rfl) (by decide +kernel)
    (stopsBetweenWords_term .dotted hcls "and" (by decide +kernel) _) dateCondition_and
  have hfrom := all_eq_nil_of_foreign h htext
    ⟨"from_to", capture word ++ spaces ++ lit "from" ++ spaces ++ capture date ++ spaces
      ++ lit "to" ++ spaces ++ capture date, dateCondition⟩
    "from" (Pattern.term .dotted (lit "to" ++ (spaces ++ capture date)))
    (fun before s => by simp only [runs_append_assoc]; rfl) (by decide +kernel)
    (stopsBetweenWords_term .dotted hcls "to" (by decide +kernel) _) dateCondition_and
  simp [RuleSet.all, dateRules, hbetween, hfrom]

/-- The rules for substrings have no values in a text of thresholds. -/
theorem all_substringRules_eq_nil : substringRules.all s s.text = [] := by
  have hcls : CharClass.word.contains ' ' = false := by decide +kernel
  have hword : ∀ name phrase, ForeignPhrase phrase →
      Rule.all ⟨name, capture word ++ spaces ++ lit phrase ++ spaces ++ capture word, substringCondition⟩
        s s.text = [] := fun name phrase hforeign =>
    all_eq_nil_of_foreign h htext _ phrase (capture word)
      (fun before s => by simp only [runs_append_assoc]; rfl) hforeign stopsBetweenWords_word
      substringCondition_and
  have hin := all_eq_nil_of_foreign h htext
    ⟨"in_it", capture word ++ spaces ++ lit "with" ++ spaces ++ capture word ++ spaces ++ lit "in"
      ++ spaces ++ lit "it" ++ boundary, substringCondition⟩
    "with" (Pattern.term .word (lit "in" ++ (spaces ++ (lit "it" ++ boundary))))
    (fun before s => by simp only [runs_append_assoc]; rfl) (by decide +kernel)
    (stopsBetweenWords_term .word hcls "in" (by decide +kernel) _) substringCondition_and
  simp [RuleSet.all, substringRules, hword "contains" "contains" (by decide +kernel),
    hword "like" "like" (by decide +kernel), hin]

omit h htext in
/-- The rules about orders have no values in a question without orders. -/
theorem all_orderRules_eq_nil (horders : s.has "orders" = false) :
    totalAmountRules.first? s s.text = none ∧ amountRules.all s s.text = []
      ∧ statusRules.all s s.text = [] ∧ timeConditions s = [] := by
  have hamount : ∀ captures, amountCondition s captures = none := by
    intro captures
    unfold amountCondition
    split <;> simp [horders]
  have hstatus : ∀ captures, statusCondition s captures = none := by
    intro captures
    simp [statusCondition, horders]
  refine ⟨?_, ?_, ?_, ?_⟩
  · simp [RuleSet.first?, totalAmountRules, Rule.first?, hamount]
  · simp [RuleSet.all, amountRules, Rule.all, hamount]
  · simp [RuleSet.all, statusRules, Rule.all, hstatus]
  · simp [timeConditions, horders]

omit h htext in
/-- A number is not the word of a status: its lower case starts with a digit. -/
theorem status?_number (ht : t.WellFormed) : status? t.number = none := by
  obtain ⟨c, hc, hdigit⟩ := ht.head?_number
  obtain ⟨rest, hnumber⟩ := List.head?_eq_some_iff.mp hc
  have hplain : isPlainChar c := isPlainChar_of_isDigit c hdigit
  have hsmall : c.toLower.isDigit :=
    isPlainChar_elim (p := fun c => c.isDigit → c.toLower.isDigit) (by decide +kernel) c hplain hdigit
  have hlower : (lowerOf t.number).toList.head?.any Char.isDigit = true := by
    rw [lowerOf, String.toList_ofList, hnumber, lower, lowerAfter,
      lowerAt_ascii _ _ c (lt_of_isPlainChar c hplain)]
    exact hsmall
  unfold status?
  split
  all_goals first
    | rfl
    | next heq =>
        rw [heq] at hlower
        exact absurd hlower (by decide)

omit h htext in
/-- A comparison of a column with the number of a threshold is what the threshold says. -/
theorem comparisonCondition_number (ht : t.WellFormed) (op : Comparison) (ref : ColumnRef)
    (href : selectedColumn? s t.term = some ref) :
    comparisonCondition op s [t.term, t.number] = some (.compare (.column ref) op (.number t.number)) := by
  have hword : isComparisonWord t.number = false := by
    have hall : ∀ word ∈ comparisonWords, word.toList.head?.any Char.isDigit = false := by decide +kernel
    obtain ⟨c, hc, hdigit⟩ := ht.head?_number
    refine Bool.eq_false_iff.mpr fun hcontains => ?_
    have hnone := hall t.number (List.contains_iff_mem.mp hcontains)
    rw [Option.mem_def.mp hc, Option.any_some, hdigit] at hnone
    cases hnone
  have hliteral : literal t.number = .number t.number := if_pos ((isNumeral_iff _).mpr ht.number)
  simp [comparisonCondition, href, hword, status?_number ht, hliteral]

/-- **The comparisons in a text of thresholds** are what the thresholds say. -/
theorem mem_all_comparisonRules_iff (his : ∀ t' ∈ ts, ¬ Folds "is".toList t'.term.toList)
    (hterms : ∀ t' ∈ t :: ts, ∃ ref, selectedColumn? s t'.term = some ref) (c : Condition) :
    c ∈ comparisonRules.all s s.text ↔ ∃ t' ∈ t :: ts, t'.Says s c := by
  have hnumber : ∀ name phrase op, (phrase, op) ∈ thresholdPhrases →
      (c ∈ (numberRule name phrase op).all s s.text
        ↔ ∃ t' ∈ t :: ts, t'.phrase = phrase ∧ comparisonCondition op s [t'.term, t'.number] = some c) := by
    intro name phrase op hphrase
    rw [Rule.all_eq_filterMap, captured_numberRule, htext, captured_limit hphrase t ts h his]
    simp only [List.mem_filterMap, List.mem_map, List.mem_filter, decide_eq_true_eq]
    constructor
    · rintro ⟨_, ⟨t', ⟨ht', hown⟩, rfl⟩, hc⟩
      exact ⟨t', ht', hown, hc⟩
    · rintro ⟨t', ht', hown, hc⟩
      exact ⟨_, ⟨t', ⟨ht', hown⟩, rfl⟩, hc⟩
  rw [RuleSet.all, List.mem_flatMap]
  constructor
  · rintro ⟨rule, hrule, hc⟩
    rcases comparisonRules_cases rule hrule with
      ⟨name, phrase, op, rfl, hforeign⟩ | ⟨name, phrase, op, rfl, hphrase⟩
    · rw [all_wordRule_eq_nil h htext name phrase op hforeign] at hc
      cases hc
    · obtain ⟨t', ht', rfl, hvalue⟩ := (hnumber name phrase op hphrase).mp hc
      obtain ⟨ref, href⟩ := hterms t' ht'
      rw [comparisonCondition_number (h t' ht') op ref href, Option.some.injEq] at hvalue
      subst hvalue
      exact ⟨t', ht', .compare ref op href hphrase⟩
  · rintro ⟨t', ht', hsays⟩
    cases hsays with
    | compare ref op href hop =>
        obtain ⟨name, hrule⟩ := exists_numberRule t'.phrase op hop
        refine ⟨_, hrule, (hnumber name _ op hop).mpr ⟨t', ht', rfl, ?_⟩⟩
        exact comparisonCondition_number (h t' ht') op ref href

end Values

/-- **Thresholds.** A question that is made of thresholds joined by `and`, for terms that name columns of its
tables, is filtered by exactly what the thresholds say, each once, if it is not about orders and no term
behind an `and` is an `is` up to case. -/
theorem filterOf_thresholds (s : Selection) (t : Threshold) (ts : List Threshold)
    (htext : s.text = textOf (t :: ts)) (horders : "orders" ∉ s.tables)
    (h : ∀ t' ∈ t :: ts, t'.WellFormed ∧ ∃ ref, selectedColumn? s t'.term = some ref)
    (his : ∀ t' ∈ ts, ¬ Folds "is".toList t'.term.toList) :
    ∃ p cs, filterOf s = some p ∧ p.Flat cs ∧ ∀ c, c ∈ cs ↔ ∃ t' ∈ t :: ts, t'.Says s c := by
  have hwords : ∀ t' ∈ t :: ts, t'.WellFormed := fun t' ht' => (h t' ht').1
  have hlist : s.text.toList = spaced (wordsOf t ts) := by rw [htext, toList_textOf t ts hwords]
  have hhas : s.has "orders" = false := by simpa [Selection.has] using horders
  obtain ⟨htotal, hamount, hstatus, htime⟩ := all_orderRules_eq_nil hhas
  have hconditions : ∀ c, c ∈ rowConditions s ↔ ∃ t' ∈ t :: ts, t'.Says s c := by
    intro c
    rw [← mem_all_comparisonRules_iff hwords hlist his (fun t' ht' => (h t' ht').2) c, rowConditions,
      mem_foldl_addNew, htime, hamount, hstatus, all_dateRules_eq_nil hwords hlist,
      all_substringRules_eq_nil hwords hlist]
    simp
  obtain ⟨⟨op, hop⟩, ref, href⟩ : (∃ op, (t.phrase, op) ∈ thresholdPhrases)
      ∧ ∃ ref, selectedColumn? s t.term = some ref :=
    ⟨(hwords t List.mem_cons_self).phrase, (h t List.mem_cons_self).2⟩
  have hne : rowConditions s ≠ [] :=
    List.ne_nil_of_mem ((hconditions _).mpr ⟨t, List.mem_cons_self, .compare ref op href hop⟩)
  have htables : s.tables.isEmpty = false := by
    obtain ⟨table, htable, -⟩ := selectedColumn?_offers s _ ref href
    exact List.isEmpty_eq_false_iff.mpr (List.ne_nil_of_mem htable)
  obtain ⟨p, hp, -⟩ := exists_conjunction (rowConditions s) hne
  refine ⟨p, rowConditions s, ?_, flat_conjunction _ (nodup_rowConditions s) p hp, hconditions⟩
  rw [filterOf, htables, htotal]
  exact hp

/-- A question about a table of levels. -/
def levelSelection (columns : List String) (ts : List Threshold) : Selection where
  schema := ⟨[⟨"level", columns⟩], [], [], [], [], []⟩
  tables := ["level"]
  text := textOf ts

/-- What makes a threshold well formed can be computed. -/
theorem Threshold.wellFormed_of_checks (t : Threshold) (op : Comparison) (hterm : t.term.toList ≠ [])
    (hword : t.term.toList.all isWordChar) (hop : (t.phrase, op) ∈ thresholdPhrases)
    (hnumber : isNumeral t.number) : t.WellFormed :=
  ⟨⟨hterm, List.all_eq_true.mp hword⟩, ⟨op, hop⟩, (isNumeral_iff _).mp hnumber⟩

/-- A question with three thresholds, two of them for the same column. -/
theorem filterOf_thresholds_level :
    let s := levelSelection ["depth", "flow"]
      [⟨"depth", ">=", "0.5"⟩, ⟨"flow", "at most", "60"⟩, ⟨"depth", "<", "3"⟩]
    ∃ p cs, filterOf s = some p ∧ p.Flat cs
      ∧ .compare (.column (.of "level" "depth")) .atLeast (.number "0.5") ∈ cs
      ∧ .compare (.column (.of "level" "flow")) .atMost (.number "60") ∈ cs
      ∧ .compare (.column (.of "level" "depth")) .less (.number "3") ∈ cs := by
  intro s
  have hdepth : selectedColumn? s "depth" = some (.of "level" "depth") := by decide +kernel
  have hflow : selectedColumn? s "flow" = some (.of "level" "flow") := by decide +kernel
  have hwell : ∀ t ∈ (⟨"depth", ">=", "0.5"⟩ :: [⟨"flow", "at most", "60"⟩, ⟨"depth", "<", "3"⟩] :
      List Threshold), t.WellFormed ∧ ∃ ref, selectedColumn? s t.term = some ref := by
    simp only [List.forall_mem_cons, List.not_mem_nil, false_imp_iff, implies_true, and_true]
    refine ⟨⟨?_, _, hdepth⟩, ⟨?_, _, hflow⟩, ?_, _, hdepth⟩
    · exact Threshold.wellFormed_of_checks _ .atLeast (by decide) (by decide +kernel) (by decide) (by decide)
    · exact Threshold.wellFormed_of_checks _ .atMost (by decide) (by decide +kernel) (by decide) (by decide)
    · exact Threshold.wellFormed_of_checks _ .less (by decide) (by decide +kernel) (by decide) (by decide)
  obtain ⟨p, cs, hp, hflat, hcs⟩ :=
    filterOf_thresholds s _ _ rfl (by decide) hwell (by decide +kernel)
  refine ⟨p, cs, hp, hflat, (hcs _).mpr ?_, (hcs _).mpr ?_, (hcs _).mpr ?_⟩
  · exact ⟨⟨"depth", ">=", "0.5"⟩, by simp, .compare _ .atLeast hdepth (by decide)⟩
  · exact ⟨⟨"flow", "at most", "60"⟩, by simp, .compare _ .atMost hflow (by decide)⟩
  · exact ⟨⟨"depth", "<", "3"⟩, by simp, .compare _ .less hdepth (by decide)⟩

/-- A term behind an `and` that is an `is` up to case: the rule takes the `and` for the term and declines it,
so that the second threshold is lost. -/
theorem not_filtered_is :
    let ts : List Threshold := [⟨"level", ">", "1"⟩, ⟨"IS", ">", "2"⟩]
    let s := levelSelection ["level", "IS"] ts
    (∀ t ∈ ts, t.WellFormed ∧ ∃ ref, selectedColumn? s t.term = some ref)
      ∧ "orders" ∉ s.tables
      ∧ (∃ t ∈ ts, t.Says s (.compare (.column (.of "level" "IS")) .greater (.number "2")))
      ∧ filterOf s = some (.atom (.compare (.column (.of "level" "level")) .greater (.number "1"))) := by
  intro ts s
  have hlevel : selectedColumn? s "level" = some (.of "level" "level") := by decide +kernel
  have his : selectedColumn? s "IS" = some (.of "level" "IS") := by decide +kernel
  refine ⟨?_, by decide, ⟨⟨"IS", ">", "2"⟩, by simp [ts], .compare _ .greater his (by decide)⟩, ?_⟩
  · simp only [ts, List.forall_mem_cons, List.not_mem_nil, false_imp_iff, implies_true, and_true]
    refine ⟨⟨?_, _, hlevel⟩, ?_, _, his⟩
    · exact Threshold.wellFormed_of_checks _ .greater (by decide) (by decide +kernel) (by decide) (by decide)
    · exact Threshold.wellFormed_of_checks _ .greater (by decide) (by decide +kernel) (by decide) (by decide)
  · have hconditions : rowConditions s
        = [.compare (.column (.of "level" "level")) .greater (.number "1")] := by decide +kernel
    have htables : s.tables.isEmpty = false := rfl
    have horders : s.has "orders" = false := by decide
    rw [filterOf, htables, (all_orderRules_eq_nil horders).1, hconditions]
    rfl

end TextToSql.Intent
